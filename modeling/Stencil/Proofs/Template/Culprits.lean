import Stencil.Proofs.Template.Brackets
import Stencil.Proofs.Template.Faults
import Stencil.Proofs.Template.Offsets
import Stencil.Proofs.Template.Uncalled

/-!
# `Stencil.Proofs.Template.Culprits`: errors point at what is wrong

Every error of a parse has a position, and a mismatched close tag has a second one. `Culprit` says
for each error what stands there: the opening delimiter in effect, of a tag with a fault, of a close
tag at fault or of the tag that opened a block, or the quote of a literal that nothing closes.

The tags that a parse comes to (`Pipeline.ComesTo`) are where these are found: each piece of a scan
that is no text is one of them (`Pipeline.exists_meets_of_mem_scan`), and so is the tag that ends a
scan (`Pipeline.exists_meets_of_failure`). `points_at_culprit` goes through the violations that an
error can come from.
-/

set_option autoImplicit false

namespace Stencil

open Text

/-- The place that an error is reported at. -/
def ParseError.position : ParseError → Nat
  | unclosedTag position _ => position
  | unclosedString position _ => position
  | mismatchedClose _ position _ _ => position
  | unopenedClose _ position => position
  | unclosedBlock _ position => position
  | invalidDelimiters position _ => position
  | emptyTag position _ => position
  | stalled position => position

/-- The characters behind the opening delimiter of a tag that opens a block. -/
def BlockKind.sigil : BlockKind → Sigil
  | plain => .enter
  | helper => .enter
  | inverted => .inverted
  | invertedHelper => .inverted

/-! ### What stands at a position -/

section Statement

variable (p : Pipeline) (source : List Char) (d : Delimiters)

/-- The pieces that a parse finds, up to the end of the template or to the tag that ends it. -/
def Pipeline.pieces : List Piece :=
  (p.scan source ⟨.atStart source, d⟩).1

/-- A parse comes to a tag, at whose offset the opening delimiter stands that is in effect there. -/
structure Pipeline.ComesTo (site : Site) : Prop where
  meets : p.Meets source ⟨.atStart source, d⟩ site
  stands : ∃ before, source = before ++ site.delimiters.opening.toList ++ site.cursor.rest ∧
    byteSize before = site.start

/-- A close tag stands at a position. -/
def Pipeline.ClosesAt (name : String) (position : Nat) : Prop :=
  ∃ site tag next, p.ComesTo source d site ∧ site.start = position ∧
    recognize p.recognizers site = .ok (.leave name tag, next)

/-- The tag that opens a block stands at a position, with the sigil of the block behind its opening
delimiter. -/
def Pipeline.OpensAt (opening : OpenTag) (position : Nat) : Prop :=
  ∃ site next behind, p.ComesTo source d site ∧ site.start = position ∧
    site.cursor.rest = opening.kind.sigil.chars ++ behind ∧
    recognize p.recognizers site = .ok (.enter opening, next)

end Statement

/-- What an error of a parse is about, and where that stands. -/
inductive Culprit (additions : List Addition) (source : List Char) (d : Delimiters) :
    ParseError → Prop where
  /-- A tag without an end. -/
  | unclosedTag {site : Site} {position : Nat} {near : String}
    (tag : (Pipeline.withHelpers additions).ComesTo source d site) (start : site.start = position)
    (fault : site.Fault (additions.filterMap Addition.sections?)
      (additions.filterMap Addition.inline?) (.unclosedTag position near)) :
    Culprit additions source d (.unclosedTag position near)
  /-- A tag without content. -/
  | emptyTag {site : Site} {position : Nat} {near : String}
    (tag : (Pipeline.withHelpers additions).ComesTo source d site) (start : site.start = position)
    (fault : site.Fault (additions.filterMap Addition.sections?)
      (additions.filterMap Addition.inline?) (.emptyTag position near)) :
    Culprit additions source d (.emptyTag position near)
  /-- A tag that changes to something else than two delimiters. -/
  | invalidDelimiters {site : Site} {position : Nat} {near : String}
    (tag : (Pipeline.withHelpers additions).ComesTo source d site) (start : site.start = position)
    (fault : site.Fault (additions.filterMap Addition.sections?)
      (additions.filterMap Addition.inline?) (.invalidDelimiters position near)) :
    Culprit additions source d (.invalidDelimiters position near)
  /-- A quote that starts an argument of a helper and is not followed by another one, unless that is
  escaped, where the arguments of the helper stand. -/
  | unclosedString {site : Site} {offset position : Nat} {args : List Argument}
    {before inside front back : List Char} {quote : Char} {near : String}
    (tag : (Pipeline.withHelpers additions).ComesTo source d site)
    (arguments : site.HasArguments (additions.filterMap Addition.sections?)
      (additions.filterMap Addition.inline?) offset (before ++ quote :: inside))
    (starts : Lexemes (quote :: inside) args before) (isQuote : isQuote quote = true)
    (never : NeverCloses quote inside) (distance : position = offset + byteSize before)
    (stands : source = front ++ quote :: back) (size : byteSize front = position) :
    Culprit additions source d (.unclosedString position near)
  /-- A close tag where no block is open. -/
  | unopenedClose {before after : List Piece} {closes : Piece} {name : String}
    (split : (Pipeline.withHelpers additions).pieces source d = before ++ closes :: after)
    (around : LeavesOpen before [])
    (closing : (Pipeline.withHelpers additions).ClosesAt source d name closes.start) :
    Culprit additions source d (.unopenedClose name closes.start)
  /-- A close tag for another block than the innermost one that is open there, and the tag that
  opened this. -/
  | mismatchedClose {before after : List Piece} {closes : Piece} {name : String}
    {opening : OpenTag} {open_ : List OpenTag} {openedAt : Nat}
    (split : (Pipeline.withHelpers additions).pieces source d = before ++ closes :: after)
    (around : LeavesOpen before (opening :: open_)) (differ : name ≠ opening.name)
    (closing : (Pipeline.withHelpers additions).ClosesAt source d name closes.start)
    (opened : (Pipeline.withHelpers additions).OpensAt source d opening openedAt) :
    Culprit additions source d (.mismatchedClose name closes.start opening.name openedAt)
  /-- The tag that opened the innermost block that is open at the end. -/
  | unclosedBlock {opening : OpenTag} {open_ : List OpenTag} {openedAt : Nat}
    (around : LeavesOpen ((Pipeline.withHelpers additions).pieces source d) (opening :: open_))
    (opened : (Pipeline.withHelpers additions).OpensAt source d opening openedAt) :
    Culprit additions source d (.unclosedBlock opening.name openedAt)
  /-- A tag that takes up no text, its opening delimiter included. -/
  | stalled {site : Site} {event : Event}
    (tag : (Pipeline.withHelpers additions).ComesTo source d site)
    (opening : site.delimiters.opening = "")
    (read : recognize (Pipeline.withHelpers additions).recognizers site =
      .ok (event, site.cursor)) :
    Culprit additions source d (.stalled site.start)

/-! ### The tags that a scan comes to -/

section Scan

variable {p : Pipeline} {source : List Char} {s : Scanner} {site : Site}

/-- A scan fails only at a tag that cannot be read. -/
theorem Pipeline.exists_of_step_eq_fail {text : List Char} {e : ParseError}
    (h : p.step source s = .fail text e) :
    ∃ rest, Text.cut? s.delimiters.opening.toList s.cursor.rest = some (text, rest) ∧
      recognize p.recognizers (s.siteAfter source text rest) = .error e := by
  rw [step, Cursor.cut?] at h
  cases hcut : Text.cut? s.delimiters.opening.toList s.cursor.rest with
  | none => simp [hcut] at h
  | some found =>
    obtain ⟨text', rest⟩ := found
    simp only [hcut, Option.map_some, Cursor.past] at h
    split at h
    · rename_i e' hread
      simp only [Step.fail.injEq] at h
      obtain ⟨rfl, rfl⟩ := h
      exact ⟨rest, rfl, hread⟩
    · simp at h

/-- A tag that a scan comes to stands in the template, behind its opening delimiter. -/
theorem Pipeline.Meets.stands (h : p.Meets source s site)
    (hs : (Cursor.atStart source).Reaches s.cursor) :
    (Cursor.atStart source).Reaches
        ⟨site.start, site.delimiters.opening.toList ++ site.cursor.rest⟩ ∧
      site.cursor.offset = site.start + byteSize site.delimiters.opening.toList := by
  induction h with
  | @here s text rest found =>
    have hrest : s.cursor.rest = text ++ (s.delimiters.opening.toList ++ rest) := by
      rw [cut?_eq_some found, List.append_assoc]
    exact ⟨hs.trans ⟨text, hrest, rfl⟩, rfl⟩
  | later step advances meets ih => exact ih (hs.trans (reaches_of_step step))

/-- A tag that a parse meets stands behind its opening delimiter. -/
theorem Pipeline.Meets.comesTo {d : Delimiters}
    (h : p.Meets source ⟨.atStart source, d⟩ site) : p.ComesTo source d site := by
  obtain ⟨hreaches, _⟩ := h.stands (.refl _)
  obtain ⟨before, hsource, hsize⟩ := Offsets.exists_before hreaches
  exact ⟨h, before, by rw [hsource, List.append_assoc], hsize.symm⟩

/-- A piece of a scan that is no text is a tag that the scan comes to. -/
theorem Pipeline.exists_meets_of_mem_scan {piece : Piece} (hpiece : piece ∈ (p.scan source s).1)
    (htext : ∀ text, piece.event ≠ .token (.text text)) :
    ∃ site, p.Meets source s site ∧ site.start = piece.start ∧
      recognize p.recognizers site = .ok (piece.event, piece.stop) := by
  -- The pieces of a text are literal texts, and this one is not.
  have hplain : ∀ (s : Scanner) (text : List Char), piece ∉ s.textPieces text := by
    intro s text hmem
    unfold Scanner.textPieces at hmem
    split at hmem
    · simp at hmem
    · obtain rfl := List.mem_singleton.1 hmem
      exact htext _ rfl
  fun_induction p.scan source s with
  | case1 s text hstep => exact absurd hpiece (hplain s text)
  | case2 s text e hstep => exact absurd hpiece (hplain s text)
  | case3 s text start event next hstep hlt pieces failure hrest ih =>
    obtain ⟨rest, hcut, hread, rfl, _⟩ := step_eq_advance_iff.1 hstep
    rcases List.mem_append.1 hpiece with htexts | hpiece
    · exact absurd htexts (hplain s text)
    rcases List.mem_cons.1 hpiece with rfl | hpiece
    · exact ⟨_, .here text rest hcut, rfl, hread⟩
    · rw [hrest] at ih
      obtain ⟨site, hmeets, hsite⟩ := ih hpiece
      exact ⟨site, .later hstep hlt hmeets, hsite⟩
  | case4 s text start event next hstep hlt => exact absurd hpiece (hplain s text)

/-- A text without bytes is empty. -/
theorem eq_nil_of_byteSize {cs : List Char} (h : byteSize cs = 0) : cs = [] := by
  by_contra hne
  have := offset_lt_of_ne_nil hne 0
  omega

/-- The tag that ends a scan cannot be read, or takes up no text. -/
theorem Pipeline.exists_meets_of_failure {e : ParseError} (h : (p.scan source s).2 = some e) :
    ∃ site, p.Meets source s site ∧ (recognize p.recognizers site = .error e ∨
      ∃ event, e = .stalled site.start ∧ site.delimiters.opening = "" ∧
        recognize p.recognizers site = .ok (event, site.cursor)) := by
  fun_induction p.scan source s with
  | case1 s text hstep => simp at h
  | case2 s text e' hstep =>
    obtain rfl : e' = e := Option.some.inj h
    obtain ⟨rest, hcut, hread⟩ := exists_of_step_eq_fail hstep
    exact ⟨_, .here text rest hcut, .inl hread⟩
  | case3 s text start event next hstep hlt pieces failure hrest ih =>
    rw [hrest] at ih
    obtain ⟨site, hmeets, hsite⟩ := ih h
    exact ⟨site, .later hstep hlt hmeets, hsite⟩
  | case4 s text start event next hstep hlt =>
    obtain rfl := Option.some.inj h
    obtain ⟨rest, hcut, hread, rfl, _⟩ := step_eq_advance_iff.1 hstep
    refine ⟨_, .here text rest hcut, .inr ⟨event, rfl, ?_⟩⟩
    -- From the scanner to the end of the tag there is no text at all.
    obtain ⟨taken, htaken, hoffset⟩ := reaches_of_recognize hread
    simp only [Scanner.siteAfter] at htaken hoffset ⊢
    have hopening : s.delimiters.opening.toList = [] := eq_nil_of_byteSize (by omega)
    have hnone : taken = [] := eq_nil_of_byteSize (by omega)
    subst hnone
    refine ⟨String.toList_eq_nil_iff.1 hopening, ?_⟩
    have hnext : next.cursor = ⟨s.cursor.offset + byteSize text +
        byteSize s.delimiters.opening.toList, rest⟩ := by
      obtain ⟨⟨offset, behind⟩, _⟩ := next
      simp_all
    rw [hnext] at hread
    exact hread

end Scan

/-! ### Open and close tags -/

section Tags

variable {additions : List Addition} {source : List Char} {d : Delimiters} {site : Site}
  {next : Cursor}

/-- A close tag records where it starts. -/
theorem start_of_recognize_leave {name : String} {tag : Span}
    (h : recognize (Pipeline.withHelpers additions).recognizers site = .ok (.leave name tag, next)) :
    tag.start = site.start := by
  cases reads_of_recognize h with
  | shown inside event hcomment hchange hends hshows =>
    cases hshows with
    | leave name => rfl

/-- So does an open tag. -/
theorem start_of_recognize_enter {opening : OpenTag}
    (h : recognize (Pipeline.withHelpers additions).recognizers site =
      .ok (.enter opening, next)) : opening.tag.start = site.start := by
  cases reads_of_recognize h with
  | shown inside event hcomment hchange hends hshows =>
    cases hshows with
    | enter kind name args => rfl

/-- A comment says nothing. -/
theorem Recognizer.eq_skip_of_read_comment {event : Event}
    (h : comment.read site = .ok (some event, next)) : event = .skip := by
  simp only [comment] at h
  split at h
  · simp at h
  · obtain ⟨_, _, h⟩ := exists_ok_of_bind h
    simp only [Except.ok.injEq, Prod.mk.injEq, Option.some.injEq] at h
    exact h.1.symm

/-- A tag that opens a block has the sigil of the block. -/
theorem exists_sigil_of_recognize_enter {opening : OpenTag}
    (h : recognize (Pipeline.withHelpers additions).recognizers site =
      .ok (.enter opening, next)) :
    ∃ behind, site.cursor.rest = opening.kind.sigil.chars ++ behind := by
  have hmark : ∀ {start : Cursor}, site.cursor.after? opening.kind.sigil.chars = some start →
      ∃ behind, site.cursor.rest = opening.kind.sigil.chars ++ behind := fun hstart =>
    -- By the recognizer that has read the tag. Those for blocks look for the sigil first.
    ⟨_, (Cursor.rest_of_after? hstart).1⟩
  rw [Pipeline.withHelpers, Settings.recognizers_withHelpers] at h
  obtain ⟨r, hr, hread⟩ := exists_read_of_recognize h
  simp only [recognizersWith, sectionRecognizers, invertedRecognizers, unmarkedRecognizers,
    List.mem_append, List.mem_map, List.mem_cons, List.not_mem_nil, or_false] at hr
  rcases hr with (((((rfl | rfl) | (⟨registry, _, rfl⟩ | rfl)) | (⟨registry, _, rfl⟩ | rfl)) |
    rfl | rfl) | (⟨registry, _, rfl⟩ | rfl))
  · exact absurd (Recognizer.eq_skip_of_read_comment hread) (by simp)
  · obtain ⟨_, _, _, _, _, _, _, hevent⟩ := Recognizer.exists_of_read_delimiters hread
    cases hevent
  · obtain ⟨_, _, hstart, _, _, hevent⟩ := Recognizer.exists_of_read_helperBlock hread
    obtain rfl := Event.enter.inj hevent
    exact hmark hstart
  · obtain ⟨_, _, _, hstart, _, _, hevent⟩ := Recognizer.exists_of_read_ofContent hread
    obtain rfl := Event.enter.inj hevent
    exact hmark hstart
  · obtain ⟨_, _, hstart, _, _, hevent⟩ := Recognizer.exists_of_read_helperBlock hread
    obtain rfl := Event.enter.inj hevent
    exact hmark hstart
  · obtain ⟨_, _, _, hstart, _, _, hevent⟩ := Recognizer.exists_of_read_ofContent hread
    obtain rfl := Event.enter.inj hevent
    exact hmark hstart
  · obtain ⟨_, _, _, _, _, _, hevent⟩ := Recognizer.exists_of_read_ofContent hread
    cases hevent
  · obtain ⟨_, _, _, _, _, _, _, hevent⟩ := Recognizer.exists_of_read_unescaped hread
    cases hevent
  · obtain ⟨_, _, _, hevent⟩ := Recognizer.exists_of_read_helper hread
    cases hevent
  · obtain ⟨_, _, _, _, _, _, hevent⟩ := Recognizer.exists_of_read_ofContent hread
    cases hevent

/-- A close tag among the pieces of a parse stands where it says. -/
theorem closesAt_of_mem_pieces {piece : Piece} {name : String} {tag : Span}
    (hpiece : piece ∈ (Pipeline.withHelpers additions).pieces source d)
    (hevent : piece.event = .leave name tag) :
    tag.start = piece.start ∧
      (Pipeline.withHelpers additions).ClosesAt source d name piece.start := by
  obtain ⟨site, hmeets, hstart, hread⟩ :=
    Pipeline.exists_meets_of_mem_scan hpiece (by simp [hevent])
  rw [hevent] at hread
  exact ⟨(start_of_recognize_leave hread).trans hstart, site, tag, piece.stop, hmeets.comesTo,
    hstart, hread⟩

/-- An open tag among the pieces of a parse stands where it says. -/
theorem opensAt_of_mem_pieces {piece : Piece} {opening : OpenTag}
    (hpiece : piece ∈ (Pipeline.withHelpers additions).pieces source d)
    (hevent : piece.event = .enter opening) :
    (Pipeline.withHelpers additions).OpensAt source d opening opening.tag.start := by
  obtain ⟨site, hmeets, _, hread⟩ :=
    Pipeline.exists_meets_of_mem_scan hpiece (by simp [hevent])
  -- The tag that the piece comes from has been read as the open tag.
  rw [hevent] at hread
  obtain ⟨behind, hbehind⟩ := exists_sigil_of_recognize_enter hread
  exact ⟨site, piece.stop, behind, hmeets.comesTo, (start_of_recognize_enter hread).symm, hbehind,
    hread⟩

/-- A block that some pieces leave open was opened by one of them. -/
theorem LeavesOpen.exists_mem {pieces : List Piece} {opening : OpenTag} {open_ : List OpenTag}
    (h : LeavesOpen pieces (opening :: open_)) :
    ∃ piece ∈ pieces, piece.event = .enter opening := by
  cases h with
  | some _ henter _ => exact ⟨_, by simp, henter⟩

end Tags

/-! ### Culprits -/

section Culprits

variable {additions : List Addition} {source : List Char} {d : Delimiters} {e : ParseError}

/-- Where the arguments of a helper stand is behind the opening delimiter of its tag. -/
theorem Site.HasArguments.exists_before {sections inlines : List Registry} {site : Site}
    {offset : Nat} {text : List Char} (h : site.HasArguments sections inlines offset text) :
    ∃ before behind, site.cursor.rest = before ++ text ++ behind ∧
      offset = site.cursor.offset + byteSize before := by
  obtain ⟨g, _, _, lead, name, behindName, gap, blanks, tail, hrest, rfl, _, _, _, _, _, hoffset,
    _⟩ := h.exists_parts
  refine ⟨g.chars ++ lead ++ name ++ gap, blanks ++ site.closing ++ tail, ?_, hoffset⟩
  rw [hrest]
  simp only [List.append_assoc]

/-- A tag with a fault is what its error is about. -/
theorem Culprit.of_fault {site : Site}
    (hmeets : (Pipeline.withHelpers additions).Meets source ⟨.atStart source, d⟩ site)
    (h : site.Fault (additions.filterMap Addition.sections?)
      (additions.filterMap Addition.inline?) e) : Culprit additions source d e := by
  cases h with
  | unclosedTag lead near behind missing =>
    exact .unclosedTag hmeets.comesTo rfl (.unclosedTag lead near behind missing)
  | emptyTag near rest blank => exact .emptyTag hmeets.comesTo rfl (.emptyTag near rest blank)
  | invalidDelimiters near rest invalid =>
    exact .invalidDelimiters hmeets.comesTo rfl (.invalidDelimiters near rest invalid)
  | @unclosedString offset _ _ arguments breaks =>
    obtain ⟨args, before, quote, inside, rfl, hstarts, hquote, hnever, rfl⟩ := breaks
    obtain ⟨hreaches, hcursor⟩ := hmeets.stands (.refl _)
    obtain ⟨front, hsource, hsize⟩ := Offsets.exists_before hreaches
    obtain ⟨lead, behind, hrest, hoffset⟩ := arguments.exists_before
    -- In front of the quote: what is before the tag, its opening delimiter, and its content so far.
    have hstands : source = (front ++ site.delimiters.opening.toList ++ lead ++ before) ++
        quote :: (inside ++ behind) := by
      rw [hsource]
      simp only [hrest, List.append_assoc, List.cons_append]
    have hposition : byteSize (front ++ site.delimiters.opening.toList ++ lead ++ before) =
        offset + byteSize before := by
      have hfront : site.start = byteSize front := hsize
      simp only [byteSize_append, hoffset, hcursor, hfront]
    exact .unclosedString hmeets.comesTo arguments hstarts hquote hnever rfl hstands hposition

/-- A violation is about a tag that the parse comes to. -/
theorem Culprit.of_violation
    (h : Violation ((Pipeline.withHelpers additions).pieces source d)
      ((Pipeline.withHelpers additions).scan source ⟨.atStart source, d⟩).2 e) :
    Culprit additions source d e := by
  cases h with
  | unopened split around leave =>
    obtain ⟨hstart, hcloses⟩ := closesAt_of_mem_pieces (by rw [split]; simp) leave
    rw [hstart]
    exact .unopenedClose split around hcloses
  | mismatched split around leave differ =>
    obtain ⟨hstart, hcloses⟩ := closesAt_of_mem_pieces (by rw [split]; simp) leave
    -- The piece that opened the innermost block is one in front of the close tag.
    obtain ⟨opens, hmem, henter⟩ := around.exists_mem
    rw [hstart]
    exact .mismatchedClose split around differ hcloses
      (opensAt_of_mem_pieces (by rw [split]; simp [hmem]) henter)
  | unreadable around failed =>
    obtain ⟨site, hmeets, hread | ⟨event, rfl, hopening, hread⟩⟩ :=
      Pipeline.exists_meets_of_failure failed
    · rw [Pipeline.withHelpers, Settings.recognizers_withHelpers] at hread
      exact .of_fault hmeets (fault_of_recognize hread)
    · exact .stalled hmeets.comesTo hopening hread
  | unclosed around whole =>
    obtain ⟨opens, hmem, henter⟩ := around.exists_mem
    exact .unclosedBlock around (opensAt_of_mem_pieces hmem henter)

/-- A tag starts at a character of the template. -/
theorem Pipeline.ComesTo.isBoundary {p : Pipeline} {site : Site} (h : p.ComesTo source d site) :
    IsBoundary source site.start := by
  obtain ⟨before, hsource, hsize⟩ := h.stands
  exact ⟨before, _, by rw [hsource, List.append_assoc], hsize⟩

/-- What an error is about starts at a character of the template. -/
theorem Culprit.isBoundary (h : Culprit additions source d e) : IsBoundary source e.position := by
  cases h with
  | unclosedTag tag start _ => exact start ▸ tag.isBoundary
  | emptyTag tag start _ => exact start ▸ tag.isBoundary
  | invalidDelimiters tag start _ => exact start ▸ tag.isBoundary
  | unclosedString _ _ _ _ _ _ stands size => exact ⟨_, _, stands, size⟩
  | unopenedClose _ _ closing =>
    obtain ⟨site, _, _, hsite, hstart, _⟩ := closing
    exact hstart ▸ hsite.isBoundary
  | mismatchedClose _ _ _ closing _ =>
    obtain ⟨site, _, _, hsite, hstart, _⟩ := closing
    exact hstart ▸ hsite.isBoundary
  | unclosedBlock _ opened =>
    obtain ⟨site, _, _, hsite, hstart, _⟩ := opened
    exact hstart ▸ hsite.isBoundary
  | stalled tag _ _ => exact tag.isBoundary

end Culprits

/-- The position of an error lies within the template, at the start of a character, and what the
error is about stands there. -/
theorem points_at_culprit {additions : List Addition} {source : String} {d : Delimiters}
    {e : ParseError} (h : (Pipeline.withHelpers additions).parse source d = .error e) :
    IsBoundary source.toList e.position ∧ Culprit additions source.toList d e := by
  have hviolation := Nesting.ofPieces_eq_error_iff.1 h
  have hculprit := Culprit.of_violation hviolation
  exact ⟨hculprit.isBoundary, hculprit⟩

/-- A close tag for another block behind a change of delimiters and characters of several bytes. -/
theorem points_at_culprit_of_changed_delimiters :
    (Pipeline.withHelpers []).parse "é<=[ ]=>[#a]ü[/b]" ⟨"<", ">"⟩ =
        .error (.mismatchedClose "b" 15 "a" 9) ∧
      IsBoundary "é<=[ ]=>[#a]ü[/b]".toList 15 ∧
      Culprit [] "é<=[ ]=>[#a]ü[/b]".toList ⟨"<", ">"⟩ (.mismatchedClose "b" 15 "a" 9) := by
  have hparse : (Pipeline.withHelpers []).parse "é<=[ ]=>[#a]ü[/b]" ⟨"<", ">"⟩ =
      .error (.mismatchedClose "b" 15 "a" 9) := by
    rw [Pipeline.parse, Pipeline.scan_of_scanWithin (n := 8) rfl]
    rfl
  exact ⟨hparse, points_at_culprit hparse⟩

end Stencil
