import Stencil.Proofs.Template.TagContent

/-!
# `Stencil.Proofs.Template.TagMeaning`: what a tag says

`Site.Says` is the language of tags of an engine with helpers, between delimiters that are words: a
comment, a change of delimiters, an interpolation in one more pair of braces, or a sigil with a
content. `recognize_eq_ok_iff` says that the pipeline takes exactly these tags, and as what.

Nothing in `Site.Says` looks behind the closing delimiter of the tag. A tag can therefore be cut out
of a template, or moved in it, and says the same.
-/

set_option autoImplicit false

namespace Stencil

open Text

/-- The characters that tell the kind of a tag. -/
def marks : List Char :=
  ['!', '=', '#', '^', '/', '\x7b', '&']

/-- What a tag says that ends at a place, with the text inside between its delimiters. -/
inductive Site.Says (sections inlines : List Registry) (site : Site) (next : Cursor) :
    List Char → Event → Prop where
  | comment (inside : List Char) (mark : (inside ++ site.closing).head? = some '!')
    (first : StartsFirst site.closing inside) : Says sections inlines site next inside .skip
  | change (inside : List Char) (d : Delimiters)
    (first : StartsFirst ('=' :: site.closing) inside)
    (words : Recognizer.newDelimiters? inside = some d) :
    Says sections inlines site next ('=' :: inside ++ ['=']) (.change d)
  | braces (content : List Char) (first : StartsFirst ('\x7d' :: site.closing) content)
    (notBlank : trim content ≠ []) :
    Says sections inlines site next ('\x7b' :: content ++ ['\x7d'])
      (.token (.interpolation ⟨String.ofList (trim content), false, site.spanTo next⟩))
  | sigil (g : Sigil) (content : List Char) (event : Event)
    (noMark : g = .bare → ∀ c ∈ marks, (content ++ site.closing).head? ≠ some c)
    (first : StartsFirst site.closing content)
    (meaning : g.Says content (site.cursor.offset + byteSize g.chars) (site.spanTo next)
      (helperFor? (g.registries sections inlines) content) event) :
    Says sections inlines site next (g.chars ++ content) event

section Dispatch

variable {sections inlines : List Registry} {site : Site} {event : Event} {next : Cursor}

/-! ### Who declines -/

/-- Recognizers that decline a tag leave it to the others. -/
theorem recognize_append_of_declined {rs : List Recognizer} (others : List Recognizer)
    (h : ∀ r ∈ rs, r.read site = .ok (none, site.cursor)) :
    recognize (rs ++ others) site = recognize others site := by
  induction rs with
  | nil => rfl
  | cons r rs ih =>
    rw [List.cons_append, recognize, h r (by simp)]
    exact ih fun r hr => h r (List.mem_cons_of_mem _ hr)

/-- A tag without the mark of a comment is declined as one. -/
theorem Recognizer.comment_declines (h : site.cursor.rest.head? ≠ some '!') :
    Recognizer.comment.read site = .ok (none, site.cursor) := by
  simp only [Recognizer.comment, Cursor.after?_singleton_eq_none_iff.2 h]

/-- A tag without the mark of a change of delimiters is declined as one. -/
theorem Recognizer.delimiters_declines (h : site.cursor.rest.head? ≠ some '=') :
    Recognizer.delimiters.read site = .ok (none, site.cursor) := by
  simp only [Recognizer.delimiters, Cursor.after?_singleton_eq_none_iff.2 h]

/-- A tag with neither a brace nor an ampersand is declined as an interpolation that is not escaped.
-/
theorem Recognizer.unescaped_declines (hbrace : site.cursor.rest.head? ≠ some '\x7b')
    (hmark : site.cursor.rest.head? ≠ some '&') :
    Recognizer.unescaped.read site = .ok (none, site.cursor) := by
  simp only [Recognizer.unescaped, Recognizer.openUnescaped?,
    Cursor.after?_singleton_eq_none_iff.2 hbrace, Cursor.after?_singleton_eq_none_iff.2 hmark,
    Option.map_none]

/-- A tag without the mark of a content is declined as one. -/
theorem Recognizer.ofContent_declines {name : String} {mark : Char}
    {event : String → Span → Event} (h : site.cursor.rest.head? ≠ some mark) :
    (Recognizer.ofContent name [mark] event).read site = .ok (none, site.cursor) := by
  simp only [Recognizer.ofContent, Site.content, Cursor.after?_singleton_eq_none_iff.2 h]
  rfl

/-- A tag without the mark of a block is declined as the open tag of one. -/
theorem Recognizer.helperBlock_declines {name : String} {mark : Char} {kind : BlockKind}
    {registry : Registry} (h : site.cursor.rest.head? ≠ some mark) :
    (Recognizer.helperBlock name [mark] kind registry).read site = .ok (none, site.cursor) := by
  simp only [Recognizer.helperBlock, Cursor.after?_singleton_eq_none_iff.2 h]

/-- The recognizers for a sigil decline every tag that has another one. -/
theorem Sigil.recognizers_decline {g : Sigil} {mark : Char} (hmark : g.chars = [mark])
    (h : site.cursor.rest.head? ≠ some mark)
    (hbrace : g = .ampersand → site.cursor.rest.head? ≠ some '\x7b') :
    ∀ r ∈ g.recognizers sections inlines, r.read site = .ok (none, site.cursor) := by
  intro r hr
  cases g with
  | enter =>
    obtain rfl := List.singleton_inj.1 hmark
    simp only [recognizers, registries, helperRecognizer, recognizer, List.mem_append,
      List.mem_map, List.mem_singleton] at hr
    rcases hr with ⟨registry, _, rfl⟩ | rfl
    · exact Recognizer.helperBlock_declines h
    · exact Recognizer.ofContent_declines h
  | inverted =>
    obtain rfl := List.singleton_inj.1 hmark
    simp only [recognizers, registries, helperRecognizer, recognizer, List.mem_append,
      List.mem_map, List.mem_singleton] at hr
    rcases hr with ⟨registry, _, rfl⟩ | rfl
    · exact Recognizer.helperBlock_declines h
    · exact Recognizer.ofContent_declines h
  | leave =>
    obtain rfl := List.singleton_inj.1 hmark
    obtain rfl := List.mem_singleton.1 hr
    exact Recognizer.ofContent_declines h
  | ampersand =>
    obtain rfl := List.singleton_inj.1 hmark
    obtain rfl := List.mem_singleton.1 hr
    exact Recognizer.unescaped_declines (hbrace rfl) h
  | bare => simp [chars] at hmark

/-! ### Who takes a tag -/

/-- The pipeline by sigils. -/
theorem recognizersWith_eq_sigils :
    recognizersWith sections inlines = .comment :: .delimiters ::
      (Sigil.enter.recognizers sections inlines ++ (Sigil.inverted.recognizers sections inlines ++
        (Sigil.leave.recognizers sections inlines ++
          (Sigil.ampersand.recognizers sections inlines ++
            Sigil.bare.recognizers sections inlines)))) := by
  simp only [recognizersWith, sectionRecognizers, invertedRecognizers, unmarkedRecognizers,
    Sigil.recognizers, Sigil.registries, Sigil.recognizer, List.append_assoc]
  rfl

/-- A tag that is no comment and no change of delimiters is left to the recognizers for sigils. -/
theorem recognize_of_no_change (hcomment : site.cursor.rest.head? ≠ some '!')
    (hchange : site.cursor.rest.head? ≠ some '=') :
    recognize (recognizersWith sections inlines) site =
      recognize (Sigil.enter.recognizers sections inlines ++
        (Sigil.inverted.recognizers sections inlines ++
          (Sigil.leave.recognizers sections inlines ++
            (Sigil.ampersand.recognizers sections inlines ++
              Sigil.bare.recognizers sections inlines)))) site := by
  rw [recognizersWith_eq_sigils, recognize, Recognizer.comment_declines hcomment]
  show recognize (.delimiters :: _) site = _
  rw [recognize, Recognizer.delimiters_declines hchange]

/-- A tag with a sigil is left to the recognizers for that. -/
theorem exists_others_of_sigil {g : Sigil} {start : Cursor}
    (hstart : site.cursor.after? g.chars = some start)
    (hbare : g = .bare → ∀ c ∈ marks, site.cursor.rest.head? ≠ some c) :
    ∃ others, recognize (recognizersWith sections inlines) site =
      recognize (g.recognizers sections inlines ++ others) site := by
  -- The first character rules out every other sigil.
  have hhead : ∀ mark, g.chars = [mark] → site.cursor.rest.head? = some mark := by
    intro mark hmark
    rw [hmark] at hstart
    rw [(Cursor.after?_singleton_eq_some hstart).1]
    rfl
  cases g with
  | enter =>
    have h := hhead '#' rfl
    rw [recognize_of_no_change (by simp [h]) (by simp [h])]
    exact ⟨_, rfl⟩
  | inverted =>
    have h := hhead '^' rfl
    rw [recognize_of_no_change (by simp [h]) (by simp [h]),
      recognize_append_of_declined _ (Sigil.recognizers_decline rfl (by simp [h]) (by simp))]
    exact ⟨_, rfl⟩
  | leave =>
    have h := hhead '/' rfl
    rw [recognize_of_no_change (by simp [h]) (by simp [h]),
      recognize_append_of_declined _ (Sigil.recognizers_decline rfl (by simp [h]) (by simp)),
      recognize_append_of_declined _ (Sigil.recognizers_decline rfl (by simp [h]) (by simp))]
    exact ⟨_, rfl⟩
  | ampersand =>
    have h := hhead '&' rfl
    rw [recognize_of_no_change (by simp [h]) (by simp [h]),
      recognize_append_of_declined _ (Sigil.recognizers_decline rfl (by simp [h]) (by simp)),
      recognize_append_of_declined _ (Sigil.recognizers_decline rfl (by simp [h]) (by simp)),
      recognize_append_of_declined _ (Sigil.recognizers_decline rfl (by simp [h]) (by simp))]
    exact ⟨_, rfl⟩
  -- Without a sigil, each of the others declines because of its own mark.
  | bare =>
    have h := hbare rfl
    simp only [marks, List.mem_cons, List.not_mem_nil, or_false, forall_eq_or_imp, forall_eq] at h
    obtain ⟨hcomment, hchange, henter, hinverted, hleave, hbrace, hampersand⟩ := h
    rw [recognize_of_no_change hcomment hchange,
      recognize_append_of_declined _ (Sigil.recognizers_decline rfl henter (by simp)),
      recognize_append_of_declined _ (Sigil.recognizers_decline rfl hinverted (by simp)),
      recognize_append_of_declined _ (Sigil.recognizers_decline rfl hleave (by simp)),
      recognize_append_of_declined _ (Sigil.recognizers_decline rfl hampersand fun _ => hbrace)]
    exact ⟨[], by rw [List.append_nil]⟩

/-! ### What the pipeline takes -/

/-- A first character is a mark that can be taken off. -/
theorem Cursor.after?_of_head? {c : Cursor} {mark : Char} (h : c.rest.head? = some mark) :
    ∃ cs, c.rest = mark :: cs ∧ c.after? [mark] = some (c.past [mark] cs) := by
  obtain ⟨cs, hcs⟩ := List.head?_eq_some_iff.1 h
  refine ⟨cs, hcs, ?_⟩
  rw [Cursor.after?, hcs]
  simp [Text.after?]

/-- A recognizer that does not decline decides what a pipeline makes of the tag. -/
theorem recognize_cons_of_taken {r : Recognizer} {rs : List Recognizer}
    (h : ∀ place, r.read site ≠ .ok (none, place)) :
    recognize (r :: rs) site = .ok (event, next) ↔ r.read site = .ok (some event, next) := by
  rw [recognize_cons_eq_ok]
  constructor
  · rintro (hread | ⟨⟨place, hread⟩, _⟩)
    · exact hread
    · exact absurd hread (h place)
  · exact .inl

/-- A tag that is marked as a comment is one if it has an end. -/
theorem recognize_of_comment (hmark : site.cursor.rest.head? = some '!') :
    recognize (recognizersWith sections inlines) site = .ok (event, next) ↔
      ∃ inside, site.Ends inside next ∧ StartsFirst site.closing inside ∧ event = .skip := by
  obtain ⟨cs, _, hafter⟩ := Cursor.after?_of_head? hmark
  have hread : Recognizer.comment.read site = site.upTo site.cursor ([] ++ site.closing) >>=
      fun found => .ok (some .skip, found.2.2) := by
    simp only [Recognizer.comment, hafter]
    rfl
  -- With its mark in front, a comment is taken or fails, but is not declined.
  have htaken : ∀ place, Recognizer.comment.read site ≠ .ok (none, place) := by
    intro place h
    obtain ⟨_, _, h⟩ := exists_ok_of_bind (hread ▸ h)
    simp at h
  rw [recognizersWith_eq_sigils, recognize_cons_of_taken htaken, hread,
    Site.bind_upTo_eq_ok_iff (List.nil_append _).symm rfl]
  simp only [List.nil_append, List.append_nil]
  constructor
  · rintro ⟨inside, next', hends, hfirst, h⟩
    simp only [Except.ok.injEq, Prod.mk.injEq, Option.some.injEq] at h
    obtain ⟨rfl, rfl⟩ := h
    exact ⟨inside, hends, hfirst, rfl⟩
  · rintro ⟨inside, hends, hfirst, rfl⟩
    exact ⟨inside, next, hends, hfirst, rfl⟩

/-- A tag that is marked as a change of delimiters is one if it has an end and gives two words. -/
theorem recognize_of_change (hmark : site.cursor.rest.head? = some '=') :
    recognize (recognizersWith sections inlines) site = .ok (event, next) ↔
      ∃ inside d, site.Ends ('=' :: inside ++ ['=']) next ∧
        StartsFirst ('=' :: site.closing) inside ∧
        Recognizer.newDelimiters? inside = some d ∧ event = .change d := by
  obtain ⟨cs, hcs, hafter⟩ := Cursor.after?_of_head? hmark
  have hread : Recognizer.delimiters.read site =
      site.upTo (site.cursor.past ['='] cs) (['='] ++ site.closing) >>= fun found =>
        (Recognizer.newDelimiters? found.1).elim
          (.error (.invalidDelimiters site.start (excerpt site.source found.2.1.offset)))
          fun d => .ok (some (.change d), found.2.2) := by
    simp only [Recognizer.delimiters, hafter]
    congr 1
    funext found
    cases Recognizer.newDelimiters? found.1 with
    | none => rfl
    | some d => rfl
  have htaken : ∀ place, Recognizer.delimiters.read site ≠ .ok (none, place) := by
    intro place h
    obtain ⟨found, _, h⟩ := exists_ok_of_bind (hread ▸ h)
    cases hwords : Recognizer.newDelimiters? found.1 with
    | none => simp [hwords] at h
    | some d => simp [hwords] at h
  have hcomment : site.cursor.rest.head? ≠ some '!' := by simp [hmark]
  rw [recognizersWith_eq_sigils, recognize, Recognizer.comment_declines hcomment]
  show recognize (.delimiters :: _) site = _ ↔ _
  rw [recognize_cons_of_taken htaken, hread, Site.bind_upTo_eq_ok_iff hcs rfl]
  constructor
  · rintro ⟨inside, next', hends, hfirst, h⟩
    cases hwords : Recognizer.newDelimiters? inside with
    | none => simp [hwords] at h
    | some d =>
      simp only [hwords, Option.elim_some, Except.ok.injEq, Prod.mk.injEq,
        Option.some.injEq] at h
      obtain ⟨rfl, rfl⟩ := h
      exact ⟨inside, d, hends, hfirst, hwords, rfl⟩
  · rintro ⟨inside, d, hends, hfirst, hwords, rfl⟩
    exact ⟨inside, next, hends, hfirst, by rw [hwords, Option.elim_some]⟩

/-- A tag that is marked with a brace is an interpolation if it is closed by one more brace. -/
theorem recognize_of_brace (hmark : site.cursor.rest.head? = some '\x7b') :
    recognize (recognizersWith sections inlines) site = .ok (event, next) ↔
      ∃ content, site.Ends ('\x7b' :: content ++ ['\x7d']) next ∧
        StartsFirst ('\x7d' :: site.closing) content ∧ trim content ≠ [] ∧
        event =
          .token (.interpolation ⟨String.ofList (trim content), false, site.spanTo next⟩) := by
  obtain ⟨cs, hcs, hafter⟩ := Cursor.after?_of_head? hmark
  have hread : Recognizer.unescaped.read site =
      site.upTo (site.cursor.past ['\x7b'] cs) (['\x7d'] ++ site.closing) >>= fun found =>
        if (trim found.1).isEmpty then .error (site.empty found.2.2.offset)
        else .ok (some (.token (.interpolation
          ⟨String.ofList (trim found.1), false, site.spanTo found.2.2⟩)), found.2.2) := by
    simp only [Recognizer.unescaped, Recognizer.openUnescaped?, hafter]
    rfl
  have htaken : ∀ place, Recognizer.unescaped.read site ≠ .ok (none, place) := by
    intro place h
    obtain ⟨_, _, h⟩ := exists_ok_of_bind (hread ▸ h)
    split at h <;> simp at h
  rw [recognize_of_no_change (by simp [hmark]) (by simp [hmark]),
    recognize_append_of_declined _ (Sigil.recognizers_decline rfl (by simp [hmark]) (by simp)),
    recognize_append_of_declined _ (Sigil.recognizers_decline rfl (by simp [hmark]) (by simp)),
    recognize_append_of_declined _ (Sigil.recognizers_decline rfl (by simp [hmark]) (by simp))]
  -- The brace comes to the recognizer of the ampersand, the last but one.
  show recognize (.unescaped :: _) site = _ ↔ _
  rw [recognize_cons_of_taken htaken, hread, Site.bind_upTo_eq_ok_iff hcs rfl]
  constructor
  · rintro ⟨content, next', hends, hfirst, h⟩
    split at h
    · simp at h
    · rename_i hempty
      simp only [Except.ok.injEq, Prod.mk.injEq, Option.some.injEq] at h
      obtain ⟨rfl, rfl⟩ := h
      exact ⟨content, hends, hfirst, fun hnil => hempty (List.isEmpty_iff.2 hnil), rfl⟩
  · rintro ⟨content, hends, hfirst, hne, rfl⟩
    refine ⟨content, next, hends, hfirst, ?_⟩
    rw [if_neg]
    exact fun hempty => hne (List.isEmpty_iff.1 hempty)

/-- A tag with a sigil is taken if it has an end and its content says something. -/
theorem recognize_of_sigil {g : Sigil} {start : Cursor} (hclosing : IsWord site.closing)
    (hstart : site.cursor.after? g.chars = some start)
    (hbare : g = .bare → ∀ c ∈ marks, site.cursor.rest.head? ≠ some c) :
    recognize (recognizersWith sections inlines) site = .ok (event, next) ↔
      ∃ content, site.Ends (g.chars ++ content) next ∧ StartsFirst site.closing content ∧
        g.Says content (site.cursor.offset + byteSize g.chars) (site.spanTo next)
          (helperFor? (g.registries sections inlines) content) event := by
  obtain ⟨others, hothers⟩ := exists_others_of_sigil hstart hbare
  obtain ⟨rest, hrest, hpast⟩ := Option.map_eq_some_iff.1 hstart
  have hcursor : site.cursor.rest = g.chars ++ rest := after?_eq_some.1 hrest
  rw [hothers, Sigil.recognize_recognizers hclosing hstart, ← hpast]
  simp only [Cursor.past]
  constructor
  · rintro ⟨content, hcontent, hoffset, hfirst, hsays⟩
    refine ⟨content, ⟨?_, ?_⟩, hfirst, hsays⟩
    · rw [hcursor, hcontent]
      simp only [List.append_assoc]
    · rw [hoffset]
      simp only [byteSize_append, Nat.add_assoc]
  · rintro ⟨content, hends, hfirst, hsays⟩
    refine ⟨content, ?_, ?_, hfirst, hsays⟩
    · have hall := hcursor.symm.trans hends.rest
      simp only [List.append_assoc] at hall ⊢
      exact List.append_cancel_left hall
    · rw [hends.offset]
      simp only [byteSize_append, Nat.add_assoc]

/-- The first character of a tag that is closed stands in it or starts its closing delimiter. -/
theorem Site.Ends.head? {inside : List Char} (h : site.Ends inside next)
    (hclosing : IsWord site.closing) :
    site.cursor.rest.head? = (inside ++ site.closing).head? := by
  obtain ⟨c, cs, hcs, _⟩ := hclosing.exists_cons
  rw [h.rest, hcs]
  cases inside <;> rfl

/-- A tag that does not start like a comment, a change of delimiters or a brace has a sigil, or
none if no mark comes first. -/
theorem exists_sigil (hcomment : site.cursor.rest.head? ≠ some '!')
    (hchange : site.cursor.rest.head? ≠ some '=') (hbrace : site.cursor.rest.head? ≠ some '\x7b') :
    ∃ (g : Sigil) (start : Cursor), site.cursor.after? g.chars = some start ∧
      (g = .bare → ∀ c ∈ marks, site.cursor.rest.head? ≠ some c) := by
  -- Each sigil is looked for in turn, and without any of them the tag is bare.
  by_cases henter : site.cursor.rest.head? = some '#'
  · obtain ⟨cs, _, hafter⟩ := Cursor.after?_of_head? henter
    exact ⟨.enter, _, hafter, by simp⟩
  by_cases hinverted : site.cursor.rest.head? = some '^'
  · obtain ⟨cs, _, hafter⟩ := Cursor.after?_of_head? hinverted
    exact ⟨.inverted, _, hafter, by simp⟩
  by_cases hleave : site.cursor.rest.head? = some '/'
  · obtain ⟨cs, _, hafter⟩ := Cursor.after?_of_head? hleave
    exact ⟨.leave, _, hafter, by simp⟩
  by_cases hampersand : site.cursor.rest.head? = some '&'
  · obtain ⟨cs, _, hafter⟩ := Cursor.after?_of_head? hampersand
    exact ⟨.ampersand, _, hafter, by simp⟩
  refine ⟨.bare, site.cursor, rfl, fun _ => ?_⟩
  simp only [marks, List.mem_cons, List.not_mem_nil, or_false, forall_eq_or_imp, forall_eq]
  exact ⟨hcomment, hchange, henter, hinverted, hleave, hbrace, hampersand⟩

/-- An engine with helpers takes exactly the tags of the language, as what they say. -/
theorem recognize_eq_ok_iff (hclosing : IsWord site.closing) :
    recognize (recognizersWith sections inlines) site = .ok (event, next) ↔
      ∃ inside, site.Ends inside next ∧ site.Says sections inlines next inside event := by
  -- Both ways, the first character says which of the recognizers decides.
  constructor
  · intro h
    by_cases hcomment : site.cursor.rest.head? = some '!'
    · obtain ⟨inside, hends, hfirst, rfl⟩ := (recognize_of_comment hcomment).1 h
      exact ⟨inside, hends, .comment inside (hends.head? hclosing ▸ hcomment) hfirst⟩
    by_cases hchange : site.cursor.rest.head? = some '='
    · obtain ⟨inside, d, hends, hfirst, hwords, rfl⟩ := (recognize_of_change hchange).1 h
      exact ⟨_, hends, .change inside d hfirst hwords⟩
    by_cases hbrace : site.cursor.rest.head? = some '\x7b'
    · obtain ⟨content, hends, hfirst, hne, rfl⟩ := (recognize_of_brace hbrace).1 h
      exact ⟨_, hends, .braces content hfirst hne⟩
    obtain ⟨g, start, hstart, hbare⟩ := exists_sigil hcomment hchange hbrace
    obtain ⟨content, hends, hfirst, hsays⟩ := (recognize_of_sigil hclosing hstart hbare).1 h
    refine ⟨_, hends, .sigil g content event ?_ hfirst hsays⟩
    rintro rfl
    have hhead := hends.head? hclosing
    simp only [Sigil.chars, List.nil_append] at hhead
    exact hhead ▸ hbare rfl
  · rintro ⟨inside, hends, hsays⟩
    have hhead := hends.head? hclosing
    cases hsays with
    | comment _ hmark hfirst =>
      exact (recognize_of_comment (hhead.trans hmark)).2 ⟨inside, hends, hfirst, rfl⟩
    | change inside d hfirst hwords =>
      exact (recognize_of_change hhead).2 ⟨inside, d, hends, hfirst, hwords, rfl⟩
    | braces content hfirst hne =>
      exact (recognize_of_brace hhead).2 ⟨content, hends, hfirst, hne, rfl⟩
    | sigil g content _ hbare hfirst hsays =>
      have hstart : site.cursor.after? g.chars = some (site.cursor.past g.chars
          (content ++ site.closing ++ next.rest)) := by
        rw [Cursor.after?, hends.rest, List.append_assoc, List.append_assoc, after?_append,
          List.append_assoc]
        rfl
      refine (recognize_of_sigil hclosing hstart ?_).2 ⟨content, hends, hfirst, hsays⟩
      rintro rfl
      rw [hhead]
      exact hbare rfl

end Dispatch

end Stencil
