import Stencil.Proofs.Template.Ownership
import Stencil.Proofs.Template.Reparse

/-!
# `Stencil.Proofs.Template.Uncalled`: templates parsed without helpers

Helpers give tags another meaning, but they do not move them. A tag that calls a helper is read by a
scanner of its own, which looks for the name first and for the end of the tag after that, while the
stock recognizer looks for the end of the tag from its beginning. Between words as delimiters both
stop at the same place.

`uncall` turns the calls among the tokens back into interpolations of what their tags say.
`Site.Says.uncall` is that step for one tag, `Tiled.uncall` for the pieces of a template and
`Nests.uncall` for the tokens. If none of the tags that a scan comes to calls a helper, then the
helpers play no part in the parse, not even in its errors (`Pipeline.scan_of_not_calls`).
`parse_uncalled` has both.
-/

set_option autoImplicit false

namespace Stencil

open Text

/-! ### Tokens without calls -/

mutual

/-- The token with an interpolation for every call in it. The path is found by the span of the
tag. -/
def Token.uncall (path : Span → String) : Token → Token
  | .text s => .text s
  | .interpolation i => .interpolation i
  | .call c => .interpolation ⟨path c.tag, true, c.tag⟩
  | .block b children => .block b (Token.uncallAll path children)

/-- The tokens with an interpolation for every call in them. -/
def Token.uncallAll (path : Span → String) : List Token → List Token
  | [] => []
  | t :: ts => Token.uncall path t :: Token.uncallAll path ts

end

/-- The event with an interpolation for a call. -/
def Event.uncall (path : Span → String) : Event → Event
  | .token t => .token (t.uncall path)
  | .enter opening => .enter opening
  | .leave name tag => .leave name tag
  | .change d => .change d
  | .skip => .skip

/-- The piece with an interpolation for a call. -/
def Piece.uncall (path : Span → String) (piece : Piece) : Piece :=
  { piece with event := piece.event.uncall path }

/-- The text between the delimiters of a tag, without the blanks around it. -/
def Pipeline.tagText (p : Pipeline) (source : String) (d : Delimiters) (tag : Span) : String :=
  let active := p.delimitersAt source d tag.start
  let inside : Span := ⟨tag.start + byteSize active.opening.toList,
    tag.stop - byteSize active.closing.toList⟩
  String.ofList (trim (slice source.toList inside))

/-- The block is shown for a value in the scope, not for a helper. -/
def BlockKind.IsStock (kind : BlockKind) : Prop :=
  kind = .plain ∨ kind = .inverted

section Uncall

variable {path : Span → String} {event : Event}

/-- A call changes the delimiters as little as the interpolation in its place. -/
theorem Event.delimitersAfter_uncall (d : Delimiters) :
    (event.uncall path).delimitersAfter d = event.delimitersAfter d := by
  cases event <;> rfl

/-- An interpolation in the place of a call is as visible as that. -/
theorem Event.isHidden_uncall : (event.uncall path).isHidden = event.isHidden := by
  cases event <;> rfl

/-- Without calls, the pieces nest into the tokens without calls. -/
theorem Nests.uncall {pieces : List Piece} {tokens : List Token} (h : Nests pieces tokens) :
    Nests (pieces.map (·.uncall path)) (Token.uncallAll path tokens) := by
  induction h with
  | nil => exact .nil
  -- Only the event of a piece is changed, and blocks stay around what they were around.
  | @token piece t _ _ hevent _ ih =>
    refine .token ?_ ih
    show piece.event.uncall path = _
    rw [hevent]
    rfl
  | hidden hevent _ ih => exact .hidden (Event.isHidden_uncall.trans hevent) ih
  | @block opens closes b _ _ _ _ tags _ _ ihInside ihRest =>
    rw [List.map_append, List.map_cons, List.map_cons]
    refine .block ⟨?_, ?_, tags.body, tags.delimiters⟩ ihInside ihRest
    · show opens.event.uncall path = _
      rw [tags.enter]
      rfl
    · show closes.event.uncall path = _
      rw [tags.leave]
      rfl

/-- The open tag of every block opens one of the tokens. -/
theorem Nests.exists_block_of_enter {pieces : List Piece} {tokens : List Token} {piece : Piece}
    {opening : OpenTag} (h : Nests pieces tokens) (hpiece : piece ∈ pieces)
    (hevent : piece.event = .enter opening) :
    ∃ b children, b.opening = opening ∧ Occurs (.block b children) tokens := by
  induction h with
  | nil => exact absurd hpiece List.not_mem_nil
  | @token first t pieces tokens htoken _ ih =>
    rcases List.mem_cons.1 hpiece with rfl | hpiece
    · rw [htoken] at hevent
      cases hevent
    · obtain ⟨b, children, hopening, hoccurs⟩ := ih hpiece
      exact ⟨b, children, hopening, occurs_cons.2 (.inr (.inr hoccurs))⟩
  | @hidden first pieces tokens hhidden _ ih =>
    rcases List.mem_cons.1 hpiece with rfl | hpiece
    · rw [hevent] at hhidden
      cases hhidden
    · exact ih hpiece
  | @block opens closes b inner pieces children tokens tags _ _ ihInside ihRest =>
    rw [List.cons_append, List.mem_cons, List.mem_append, List.mem_cons] at hpiece
    rcases hpiece with rfl | hpiece | rfl | hpiece
    · rw [tags.enter] at hevent
      exact ⟨b, children, Event.enter.inj hevent, .here (List.mem_cons_self ..)⟩
    · obtain ⟨b', children', hopening, hoccurs⟩ := ihInside hpiece
      exact ⟨b', children', hopening, .inside (List.mem_cons_self ..) hoccurs⟩
    · rw [tags.leave] at hevent
      cases hevent
    · obtain ⟨b', children', hopening, hoccurs⟩ := ihRest hpiece
      exact ⟨b', children', hopening, occurs_cons.2 (.inr (.inr hoccurs))⟩

/-! ### Tags without calls -/

/-- A name or a path is no call, so that nothing is put in its place. -/
theorem Sigil.event_uncall (g : Sigil) (content : String) (tag : Span) :
    (g.event content tag).uncall path = g.event content tag := by
  cases g <;> rfl

/-- A content whose first word is a name is not blank. -/
theorem trim_ne_nil_of_firstWord {content : List Char} (h : firstWord content ≠ []) :
    trim content ≠ [] := by
  intro hnil
  rw [← firstWord_trim, hnil] at h
  exact h rfl

/-- A helper that is found has a name that is not empty. -/
theorem firstWord_ne_nil_of_helperFor? {registries : List Registry} {content : List Char}
    {helper : Helper} (hnamed : ∀ r ∈ registries, r.get? "" = none)
    (h : helperFor? registries content = some helper) : firstWord content ≠ [] := by
  intro hnil
  obtain ⟨r, hr, hget⟩ := List.exists_of_findSome?_eq_some h
  rw [hnil] at hget
  exact absurd ((hnamed r hr).symm.trans hget) (by simp)

/-- Between the same delimiters, a tag that opens no block for a helper says the same without
helpers, apart from a call. -/
theorem Site.Says.uncall {sections inlines : List Registry} {site : Site} {next : Cursor}
    {inside : List Char} (hnamed : ∀ r ∈ inlines, r.get? "" = none)
    (hstock : ∀ opening, event = .enter opening → opening.kind.IsStock)
    (hpath : path (site.spanTo next) = String.ofList (trim inside))
    (h : site.Says sections inlines next inside event) :
    site.Says [] [] next inside (event.uncall path) := by
  cases h with
  | comment inside mark first => exact .comment inside mark first
  | change inside d first words => exact .change inside d first words
  | braces content first notBlank => exact .braces content first notBlank
  | sigil g content _ noMark first meaning =>
    have hnone : helperFor? (g.registries [] []) content = none := by
      cases g <;> rfl
    refine .sigil g content _ noMark first ?_
    rw [hnone]
    generalize hhelper : helperFor? (g.registries sections inlines) content = helper? at meaning
    cases meaning with
    | name notBlank =>
      rw [Sigil.event_uncall]
      exact .name notBlank
    | call helper args _ =>
      cases g with
      -- These open a block for a helper.
      | enter =>
        have hkind := hstock _ rfl
        simp [BlockKind.IsStock] at hkind
      | inverted =>
        have hkind := hstock _ rfl
        simp [BlockKind.IsStock] at hkind
      -- No helpers are sought for these.
      | leave => cases hhelper
      | ampersand => cases hhelper
      | bare =>
        have hword : firstWord content ≠ [] := firstWord_ne_nil_of_helperFor? hnamed hhelper
        show Sigil.Says .bare content _ _ none
          (.token (.interpolation ⟨path (site.spanTo next), true, site.spanTo next⟩))
        rw [hpath]
        exact .name (trim_ne_nil_of_firstWord hword)

/-! ### Templates without calls -/

/-- What takes up the text at a place takes it up without helpers. -/
theorem Piece.Takes.uncall {additions : List Addition} {source : List Char} {c : Cursor}
    {piece : Piece} (hnamed : ∀ r ∈ additions.filterMap Addition.inline?, r.get? "" = none)
    (hc : (Cursor.atStart source).Reaches c) (hstart : piece.start = c.offset)
    (hd : piece.delimiters.Proper)
    (hstock : ∀ opening, piece.event = .enter opening → opening.kind.IsStock)
    (hpath : ∀ inside, piece.span.Covers source
      (piece.delimiters.opening.toList ++ inside ++ piece.delimiters.closing.toList) →
        path piece.span = String.ofList (trim inside))
    (h : piece.Takes (.withHelpers additions) source c) :
    (piece.uncall path).Takes .stock source c := by
  by_cases htext : ∃ s, piece.event = .token (.text s)
  · -- A literal text stays one, and no tag is a literal text.
    obtain ⟨s, hs⟩ := htext
    cases h with
    | text text event some_ rest offset whole =>
      refine .text text ?_ some_ rest offset whole
      show piece.event.uncall path = _
      rw [event]
      rfl
    | tag behind rest offset read =>
      have hreads := reads_of_recognize read
      rw [hs] at hreads
      cases hreads with
      | shown _ _ _ _ _ hshows => cases hshows
  · obtain ⟨behind, inside, hrest, hoffset, hends, hcovers, hsays⟩ :=
      h.exists_says hc hstart hd fun s hs => htext ⟨s, hs⟩
    have hspan : (⟨source, c.offset, behind, piece.delimiters⟩ : Site).spanTo piece.stop =
        piece.span := by
      rw [Piece.span, hstart]
      rfl
    have hsays' := hsays.uncall hnamed hstock (hspan ▸ hpath inside hcovers)
    have hclosing : IsWord (⟨source, c.offset, behind, piece.delimiters⟩ : Site).closing :=
      hd.closing
    exact .tag behind hrest hoffset ((recognize_eq_ok_iff hclosing).2 ⟨inside, hends, hsays'⟩)

/-- The pieces of a template are pieces of it without helpers. -/
theorem Tiled.uncall {additions : List Addition} {source : List Char} {d : Delimiters}
    {c stop : Cursor} {pieces : List Piece}
    (hnamed : ∀ r ∈ additions.filterMap Addition.inline?, r.get? "" = none)
    (hc : (Cursor.atStart source).Reaches c) (hd : d.Proper)
    (hstock : ∀ piece ∈ pieces, ∀ opening, piece.event = .enter opening → opening.kind.IsStock)
    (hpath : ∀ piece ∈ pieces, ∀ inside, piece.span.Covers source
      (piece.delimiters.opening.toList ++ inside ++ piece.delimiters.closing.toList) →
        path piece.span = String.ofList (trim inside))
    (h : Tiled (.withHelpers additions) source d c pieces stop) :
    Tiled .stock source d c (pieces.map (·.uncall path)) stop := by
  induction pieces generalizing d c with
  | nil => exact h
  | cons piece pieces ih =>
    have hnext : (piece.event.delimitersAfter d).Proper :=
      h.proper_along hd (List.prefix_append [piece] pieces)
    obtain ⟨hstart, rfl, htakes, hlt, hrest⟩ := h
    have hfirst := htakes.uncall hnamed hc hstart hd (hstock piece (List.mem_cons_self ..))
      (hpath piece (List.mem_cons_self ..))
    refine ⟨hstart, rfl, hfirst, hlt, ?_⟩
    show Tiled .stock source ((piece.event.uncall path).delimitersAfter piece.delimiters) piece.stop
      (pieces.map (·.uncall path)) stop
    rw [Event.delimitersAfter_uncall]
    exact ih (hc.trans htakes.reaches) hnext
      (fun other hother => hstock other (List.mem_cons_of_mem _ hother))
      (fun other hother => hpath other (List.mem_cons_of_mem _ hother)) hrest

end Uncall

/-- The text between the delimiters of a tag is what stands between them in the template. -/
theorem Pipeline.tagText_of_covers {p : Pipeline} {source : String} {d : Delimiters}
    {pieces : List Piece} {piece : Piece} {inside : List Char}
    (h : p.scan source.toList ⟨.atStart source.toList, d⟩ = (pieces, none))
    (hpiece : piece ∈ pieces)
    (hcovers : piece.span.Covers source.toList
      (piece.delimiters.opening.toList ++ inside ++ piece.delimiters.closing.toList)) :
    p.tagText source d piece.span = String.ofList (trim inside) := by
  have hactive : p.delimitersAt source d piece.span.start = piece.delimiters :=
    delimitersAt_start h hpiece
  have hslice : slice source.toList
      ⟨piece.span.start + byteSize piece.delimiters.opening.toList,
        piece.span.stop - byteSize piece.delimiters.closing.toList⟩ = inside := by
    obtain ⟨lead, rest, hsource, hspan⟩ := hcovers
    refine slice_of_covers ⟨lead ++ piece.delimiters.opening.toList,
      piece.delimiters.closing.toList ++ rest, ?_, ?_⟩
    · rw [hsource]
      simp only [List.append_assoc]
    · rw [hspan]
      simp only [byteSize_append, Span.mk.injEq, true_and]
      omega
  rw [tagText, hactive, hslice]

/-! ### Tags that call nothing -/

/-- A tag calls a helper: its first word behind the sigil is in one of the registries for that. -/
def Site.Calls (sections inlines : List Registry) (site : Site) : Prop :=
  ∃ (g : Sigil) (start : Cursor), site.cursor.after? g.chars = some start ∧
    (g = .bare → ∀ c ∈ marks, site.cursor.rest.head? ≠ some c) ∧
    ∃ r ∈ g.registries sections inlines,
      r.contains (String.ofList (start.skipBlank.name site.closing).1) = true

section Calls

variable {sections inlines : List Registry} {site : Site}

/-- A registry declines a tag whose name it does not have. -/
theorem Site.call_of_not_contains {registry : Registry} {start : Cursor}
    (h : registry.contains (String.ofList (start.skipBlank.name site.closing).1) = false) :
    site.call registry start = .ok none := by
  have hnone : registry.get? (String.ofList (start.skipBlank.name site.closing).1) = none := by
    simpa [Registry.contains] using h
  simp only [call, hnone]

/-- What stands behind a recognizer that does not decline plays no part. -/
theorem recognize_cons_eq_of_taken {r : Recognizer} (rs rs' : List Recognizer)
    (h : ∀ place, r.read site ≠ .ok (none, place)) :
    recognize (r :: rs) site = recognize (r :: rs') site := by
  rw [recognize, recognize]
  cases hread : r.read site with
  | error e => rfl
  | ok result =>
    obtain ⟨event?, place⟩ := result
    cases event? with
    | none => exact absurd hread (h place)
    | some event => rfl

/-- The stock recognizer for a sigil does not decline a tag that has it. -/
theorem Sigil.recognizer_takes {g : Sigil} {start : Cursor}
    (hstart : site.cursor.after? g.chars = some start) (place : Cursor) :
    g.recognizer.read site ≠ .ok (none, place) := by
  intro h
  rw [read_recognizer hstart] at h
  obtain ⟨⟨inside, found, next⟩, _, h⟩ := exists_ok_of_bind h
  simp only at h
  split at h <;> simp at h

/-- One more brace is not declined. -/
theorem Recognizer.unescaped_takes (hbrace : site.cursor.rest.head? = some '\x7b')
    (place : Cursor) : Recognizer.unescaped.read site ≠ .ok (none, place) := by
  obtain ⟨cs, _, hafter⟩ := Cursor.after?_of_head? hbrace
  intro h
  simp only [Recognizer.unescaped, openUnescaped?, hafter] at h
  obtain ⟨⟨inside, found, next⟩, _, h⟩ := exists_ok_of_bind h
  simp only at h
  split at h <;> simp at h

/-- The recognizers for the calls of a sigil decline a tag that calls no helper. -/
theorem Sigil.recognize_of_not_calls {g : Sigil} {start : Cursor} (others : List Recognizer)
    (hstart : site.cursor.after? g.chars = some start)
    (hbare : g = .bare → ∀ c ∈ marks, site.cursor.rest.head? ≠ some c)
    (h : ¬ site.Calls sections inlines) :
    recognize (g.recognizers sections inlines ++ others) site =
      recognize (g.recognizer :: others) site := by
  rw [recognizers, List.append_assoc]
  refine recognize_append_of_declined _ fun r hr => ?_
  obtain ⟨registry, hregistry, rfl⟩ := List.mem_map.1 hr
  have hname : registry.contains (String.ofList (start.skipBlank.name site.closing).1) =
      false := by
    refine Bool.eq_false_iff.2 fun hcontains => ?_
    exact h ⟨g, start, hstart, hbare, registry, hregistry, hcontains⟩
  rw [read_helperRecognizer hregistry hstart, Site.call_of_not_contains hname]
  rfl

/-- One stock recognizer decides on a tag that calls no helper, whatever helpers there are. -/
theorem Site.exists_decider (site : Site) :
    ∃ r : Recognizer, (∀ place, r.read site ≠ .ok (none, place)) ∧
      ∀ sections inlines, ¬ site.Calls sections inlines → ∃ others,
        recognize (recognizersWith sections inlines) site = recognize (r :: others) site := by
  by_cases hcomment : site.cursor.rest.head? = some '!'
  · refine ⟨.comment, fun place hread => ?_, fun sections inlines _ => ?_⟩
    · exact Recognizer.head?_of_comment_declined hread hcomment
    · exact ⟨_, by rw [recognizersWith_eq_sigils]⟩
  by_cases hchange : site.cursor.rest.head? = some '='
  · refine ⟨.delimiters, fun place hread => ?_, fun sections inlines _ => ?_⟩
    · exact Recognizer.head?_of_delimiters_declined hread hchange
    · rw [recognizersWith_eq_sigils, recognize, Recognizer.comment_declines hcomment]
      exact ⟨_, rfl⟩
  by_cases hbrace : site.cursor.rest.head? = some '\x7b'
  · -- Nothing else has this mark, so that even the recognizers for calls decline.
    refine ⟨.unescaped, Recognizer.unescaped_takes hbrace, fun sections inlines _ => ?_⟩
    rw [recognize_of_no_change hcomment hchange,
      recognize_append_of_declined _ (Sigil.recognizers_decline rfl (by simp [hbrace]) (by simp)),
      recognize_append_of_declined _ (Sigil.recognizers_decline rfl (by simp [hbrace]) (by simp)),
      recognize_append_of_declined _ (Sigil.recognizers_decline rfl (by simp [hbrace]) (by simp))]
    exact ⟨_, rfl⟩
  obtain ⟨g, start, hstart, hbare⟩ := exists_sigil hcomment hchange hbrace
  refine ⟨g.recognizer, Sigil.recognizer_takes hstart, fun sections inlines hcalls => ?_⟩
  obtain ⟨others, hothers⟩ := exists_others_of_sigil hstart hbare
  exact ⟨others, hothers.trans (Sigil.recognize_of_not_calls others hstart hbare hcalls)⟩

/-- A tag that calls no helper is read as without helpers, and fails as without them. -/
theorem recognize_of_not_calls (h : ¬ site.Calls sections inlines) :
    recognize (recognizersWith sections inlines) site = recognize stockRecognizers site := by
  have hnone : ¬ site.Calls [] [] := by
    rintro ⟨g, start, -, -, r, hr, -⟩
    cases g <;> exact absurd hr List.not_mem_nil
  obtain ⟨r, htakes, hdecides⟩ := site.exists_decider
  obtain ⟨others, hothers⟩ := hdecides sections inlines h
  obtain ⟨others', hothers'⟩ := hdecides [] [] hnone
  calc recognize (recognizersWith sections inlines) site
    _ = recognize (r :: others) site := hothers
    _ = recognize (r :: others') site := recognize_cons_eq_of_taken _ _ htakes
    _ = recognize stockRecognizers site := hothers'.symm

end Calls

section Scan

variable {additions : List Addition} {source : List Char} {s : Scanner}

/-- If no tag calls a helper, then a scan is one without helpers. -/
theorem Pipeline.scan_of_not_calls
    (h : ∀ site, Meets (.withHelpers additions) source s site →
      ¬ site.Calls (additions.filterMap Addition.sections?)
        (additions.filterMap Addition.inline?)) :
    (Pipeline.withHelpers additions).scan source s = Pipeline.stock.scan source s := by
  refine scan_congr fun site hsite => ?_
  rw [withHelpers, Settings.recognizers_withHelpers]
  exact recognize_of_not_calls (h site hsite)

end Scan

/-- Registering helpers does not change how a template is cut into tags.

Between words as delimiters, a template that can be parsed with helpers and has no block for one of
them can be parsed without. The tokens are the same then, except that each call is an interpolation,
which is escaped and whose path is the text between the delimiters of its tag. A template in which
no tag calls a helper is parsed as without helpers, whether it can be parsed or not. -/
theorem parse_uncalled {additions : List Addition} {source : String} {d : Delimiters}
    (hd : d.Proper)
    (hmade : ∀ a ∈ additions, ∃ helpers, Registry.ofList helpers = .ok a.registry) :
    (∀ tokens, (Pipeline.withHelpers additions).parse source d = .ok tokens →
      (∀ b children, Occurs (.block b children) tokens →
        b.kind ≠ .helper ∧ b.kind ≠ .invertedHelper) →
      Pipeline.stock.parse source d =
        .ok (Token.uncallAll ((Pipeline.withHelpers additions).tagText source d) tokens)) ∧
    ((∀ site, Pipeline.Meets (.withHelpers additions) source.toList
        ⟨.atStart source.toList, d⟩ site →
      ¬ site.Calls (additions.filterMap Addition.sections?)
        (additions.filterMap Addition.inline?)) →
      (Pipeline.withHelpers additions).parse source d = Pipeline.stock.parse source d) := by
  constructor
  · intro tokens hparse hblocks
    obtain ⟨pieces, hscan, hnests⟩ := Pipeline.parse_eq_ok_iff.1 hparse
    have hnamed := (Addition.get?_empty_of_made hmade).2
    have hstock : ∀ piece ∈ pieces, ∀ opening, piece.event = .enter opening →
        opening.kind.IsStock := by
      intro piece hpiece opening hevent
      obtain ⟨b, children, rfl, hoccurs⟩ := hnests.exists_block_of_enter hpiece hevent
      obtain ⟨hhelper, hinverted⟩ := hblocks b children hoccurs
      rw [Block.kind] at hhelper hinverted
      cases hkind : b.opening.kind with
      | plain => exact .inl rfl
      | inverted => exact .inr rfl
      | helper => exact absurd hkind hhelper
      | invertedHelper => exact absurd hkind hinverted
    have hstart : (Cursor.atStart source.toList).Reaches (.atStart source.toList) :=
      Cursor.Reaches.refl _
    have htiled := (tiled_of_scan hscan).uncall hnamed hstart hd hstock
      fun piece hpiece inside hcovers => Pipeline.tagText_of_covers hscan hpiece hcovers
    -- The stock engine is one to which nothing is added.
    have hempty : Tiled (.withHelpers []) source.toList d (.atStart source.toList) _ _ := htiled
    have hopening : ∀ taken, taken <+: pieces.map
        (·.uncall ((Pipeline.withHelpers additions).tagText source d)) →
        (delimitersAlong d taken).opening.toList ≠ [] := by
      intro taken htaken
      exact (hempty.proper_along hd htaken).opening.1
    exact Pipeline.parse_eq_ok_iff.2 ⟨_, scan_of_tiled htiled rfl hopening, hnests.uncall⟩
  · intro hcalls
    rw [Pipeline.parse, Pipeline.parse, Pipeline.scan_of_not_calls hcalls]

/-- A call in a block, between delimiters that the template changes to, and a tag without an end that
calls nothing. -/
theorem parse_uncalled_of_changed_delimiters :
    (Pipeline.withHelpers [.inline .always, .sections .always]).parse
        "x<=[ ]=>[#s][always y][/s]" ⟨"<", ">"⟩ =
      .ok [.text "x", .block ⟨⟨.plain, "s", [], ⟨8, 12⟩⟩, ⟨22, 26⟩, "[always y]", ⟨"[", "]"⟩⟩
        [.call ⟨"always", [], ⟨12, 22⟩, ⟨13, 21⟩⟩]] ∧
    Pipeline.stock.parse "x<=[ ]=>[#s][always y][/s]" ⟨"<", ">"⟩ =
      .ok [.text "x", .block ⟨⟨.plain, "s", [], ⟨8, 12⟩⟩, ⟨22, 26⟩, "[always y]", ⟨"[", "]"⟩⟩
        [.interpolation ⟨"always y", true, ⟨12, 22⟩⟩]] ∧
    (Pipeline.withHelpers [.inline .always, .sections .always]).parse "<never" ⟨"<", ">"⟩ =
      Pipeline.stock.parse "<never" ⟨"<", ">"⟩ := by
  have hproper : (⟨"<", ">"⟩ : Delimiters).Proper := ⟨by decide, by decide⟩
  have hmade : ∀ a ∈ [Addition.inline .always, .sections .always],
      ∃ helpers, Registry.ofList helpers = .ok a.registry := by
    have halways : Registry.ofList [("always", ⟨0, [], fun _ _ store => (.bool true, store)⟩)] =
        .ok .always := rfl
    intro a ha
    simp only [List.mem_cons, List.not_mem_nil, or_false] at ha
    rcases ha with rfl | rfl
    · exact ⟨_, halways⟩
    · exact ⟨_, halways⟩
  have hparse : (Pipeline.withHelpers [.inline .always, .sections .always]).parse
      "x<=[ ]=>[#s][always y][/s]" ⟨"<", ">"⟩ =
        .ok [.text "x", .block ⟨⟨.plain, "s", [], ⟨8, 12⟩⟩, ⟨22, 26⟩, "[always y]", ⟨"[", "]"⟩⟩
          [.call ⟨"always", [], ⟨12, 22⟩, ⟨13, 21⟩⟩]] :=
    Pipeline.parse_of_parseWithin (n := 8) rfl
  have hactive : (Pipeline.withHelpers [.inline .always, .sections .always]).delimitersAt
      "x<=[ ]=>[#s][always y][/s]" ⟨"<", ">"⟩ 12 = ⟨"[", "]"⟩ :=
    Pipeline.delimitersAt_of_scanWithin (n := 8) rfl
  have hpath : (Pipeline.withHelpers [.inline .always, .sections .always]).tagText
      "x<=[ ]=>[#s][always y][/s]" ⟨"<", ">"⟩ ⟨12, 22⟩ = "always y" := by
    rw [Pipeline.tagText, hactive]
    rfl
  have hplain : ∀ b children, Occurs (.block b children) [.text "x",
      .block ⟨⟨.plain, "s", [], ⟨8, 12⟩⟩, ⟨22, 26⟩, "[always y]", ⟨"[", "]"⟩⟩
        [.call ⟨"always", [], ⟨12, 22⟩, ⟨13, 21⟩⟩]] →
      b.kind ≠ .helper ∧ b.kind ≠ .invertedHelper := by
    simp [occurs_cons, occurs_nil, Block.kind]
  have hstock := (parse_uncalled hproper hmade).1 _ hparse hplain
  simp only [Token.uncallAll, Token.uncall, hpath] at hstock
  refine ⟨hparse, hstock, (parse_uncalled hproper hmade).2 ?_⟩
  intro site hmeets
  cases hmeets with
  | here text rest hfound =>
    obtain ⟨rfl, rfl⟩ := Prod.mk.inj (Option.some.inj hfound)
    rintro ⟨g, start, hstart, -, r, hr, hcontains⟩
    cases g with
    | bare =>
      obtain rfl := List.mem_singleton.1 hr
      obtain rfl := Option.some.inj hstart
      exact absurd hcontains (by decide)
    | _ => cases hstart
  | later hstep => cases hstep

end Stencil
