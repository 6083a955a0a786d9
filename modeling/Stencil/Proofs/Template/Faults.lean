import Stencil.Proofs.Template.Lexemes
import Stencil.Proofs.Template.Ownership

/-!
# `Stencil.Proofs.Template.Faults`: what is wrong with a tag

`Site.Fault` lists what can be wrong with a tag of an engine with helpers, with the error for each:
its end is missing, there is nothing between its delimiters, it changes to something that is no pair
of delimiters, or a literal among the arguments of its helper is not closed. `fault_of_recognize`
says that a tag which cannot be read has one of these faults. It is put together from one lemma for
each recognizer; those that only look for a content share `fault_of_read_ofContent`, and those that
call helpers `Site.fault_of_call`.
-/

set_option autoImplicit false

namespace Stencil

open Text

/-- The tag at a site calls a helper that takes arguments, and `text`, which starts at an offset, is
where they stand: from behind the helper's name, and the blanks after that, up to the closing
delimiter and the blanks in front of that. -/
structure Site.HasArguments (sections inlines : List Registry) (site : Site) (offset : Nat)
    (text : List Char) : Prop where
  exists_parts : ∃ (g : Sigil) (registry : Registry) (helper : Helper)
    (lead name behindName gap blanks tail : List Char),
    site.cursor.rest = g.chars ++ lead ++ name ++ behindName ∧
      behindName = gap ++ text ++ blanks ++ site.closing ++ tail ∧
      AllBlank lead ∧ AllBlank gap ∧ AllBlank blanks ∧
      spanUntil isBlank site.closing (name ++ behindName) = (name, behindName) ∧
      StartsFirst site.closing (text ++ blanks) ∧
      offset = site.cursor.offset + byteSize (g.chars ++ lead ++ name ++ gap) ∧
      registry ∈ g.registries sections inlines ∧
      registry.get? (String.ofList name) = some helper ∧ helper.arity ≠ 0

/-- What is wrong with a tag that cannot be read. -/
inductive Site.Fault (sections inlines : List Registry) (site : Site) : ParseError → Prop where
  /-- From some place in the tag on, the text that ends it does not occur. -/
  | unclosedTag {start : Cursor} (lead : List Char) (near : String)
    (behind : site.cursor.Reaches start) (missing : ¬ lead ++ site.closing <:+: start.rest) :
    Fault sections inlines site (.unclosedTag site.start near)
  /-- Nothing but blanks stands between the mark of the tag and its end. -/
  | emptyTag {mark inside ending tail : List Char} (near : String)
    (rest : site.cursor.rest = mark ++ inside ++ ending ++ tail) (blank : trim inside = []) :
    Fault sections inlines site (.emptyTag site.start near)
  /-- What stands between two equals signs is no pair of delimiters. -/
  | invalidDelimiters {inside tail : List Char} (near : String)
    (rest : site.cursor.rest = '=' :: inside ++ '=' :: site.closing ++ tail)
    (invalid : Recognizer.newDelimiters? inside = none) :
    Fault sections inlines site (.invalidDelimiters site.start near)
  /-- The arguments of the helper that the tag calls break off. -/
  | unclosedString {offset : Nat} {text : List Char} {e : ParseError}
    (arguments : site.HasArguments sections inlines offset text)
    (breaks : BreaksOff offset text e) : Fault sections inlines site e

/-- A computation that fails after another one fails there, or else that one failed. -/
theorem cases_error_of_bind {ε α β : Type} {x : Except ε α} {f : α → Except ε β} {e : ε}
    (h : x >>= f = .error e) : x = .error e ∨ ∃ a, x = .ok a ∧ f a = .error e := by
  cases x with
  | error e' =>
    obtain rfl : e' = e := Except.error.inj h
    exact .inl rfl
  | ok a => exact .inr ⟨a, rfl, h⟩

/-- A text that is taken off stands in front of what is left. -/
theorem Cursor.rest_of_after? {c d : Cursor} {lead : List Char} (h : c.after? lead = some d) :
    c.rest = lead ++ d.rest ∧ d.offset = c.offset + byteSize lead := by
  obtain ⟨rest, hrest, rfl⟩ := Option.map_eq_some_iff.1 h
  exact ⟨after?_eq_some.1 hrest, rfl⟩

/-- The blanks that are passed over and the rest make up the text. -/
theorem Cursor.takeWhile_append_skipBlank (c : Cursor) :
    c.rest.takeWhile isBlank ++ c.skipBlank.rest = c.rest :=
  List.takeWhile_append_dropWhile

section Recognizers

variable {sections inlines : List Registry} {site : Site} {e : ParseError}

/-- A search for the end of a tag fails where the end is missing. -/
theorem Site.fault_of_upTo {start : Cursor} (lead : List Char) (hbehind : site.cursor.Reaches start)
    (h : site.upTo start (lead ++ site.closing) = .error e) : site.Fault sections inlines e := by
  unfold Site.upTo at h
  split at h
  · simp at h
  · rename_i hcut
    obtain rfl := Except.error.inj h
    exact .unclosedTag lead _ hbehind (cut?_eq_none_iff.1 (Option.map_eq_none_iff.1 hcut))

/-! ### The recognizers -/

namespace Recognizer

/-- A comment has no end. -/
theorem fault_of_read_comment (h : comment.read site = .error e) :
    site.Fault sections inlines e := by
  simp only [comment] at h
  split at h
  · simp at h
  · obtain hupTo | ⟨found, _, h⟩ := cases_error_of_bind h
    · exact Site.fault_of_upTo [] (.refl _) hupTo
    · simp at h

/-- A change has no end, or does not give two delimiters. -/
theorem fault_of_read_delimiters (h : delimiters.read site = .error e) :
    site.Fault sections inlines e := by
  simp only [delimiters] at h
  split at h
  · simp at h
  · rename_i start hstart
    obtain hupTo | ⟨⟨inside, stop, next⟩, hupTo, h⟩ := cases_error_of_bind h
    · exact Site.fault_of_upTo ['='] (Cursor.reaches_of_after? hstart) hupTo
    · simp only at h
      split at h
      · rename_i hinvalid
        obtain rfl := Except.error.inj h
        -- Behind the sign stands the inside, the other sign and the closing delimiter.
        have hrest := (Cursor.after?_singleton_eq_some hstart).1
        rw [(Site.upTo_eq_ok_iff.1 hupTo).1] at hrest
        exact .invalidDelimiters _ hrest hinvalid
      · simp at h

/-- A tag with a content has no end or no content. -/
theorem fault_of_read_ofContent {name : String} {mark : List Char} {event : String → Span → Event}
    (h : (ofContent name mark event).read site = .error e) : site.Fault sections inlines e := by
  obtain hcontent | ⟨content?, _, h⟩ := cases_error_of_bind h
  · unfold Site.content at hcontent
    split at hcontent
    · simp at hcontent
    · rename_i start hstart
      obtain hupTo | ⟨⟨inside, stop, next⟩, hupTo, h⟩ := cases_error_of_bind hcontent
      · exact Site.fault_of_upTo [] (Cursor.reaches_of_after? hstart) hupTo
      · simp only at h
        split at h
        · rename_i hempty
          obtain rfl := Except.error.inj h
          obtain ⟨taken, hrest, _⟩ := Cursor.reaches_of_after? hstart
          rw [(Site.upTo_eq_ok_iff.1 hupTo).1, ← List.append_assoc, ← List.append_assoc] at hrest
          exact .emptyTag _ hrest (List.isEmpty_iff.1 hempty)
        · simp at h
  · split at h <;> simp at h

/-- An interpolation that is not escaped has no end or no content. -/
theorem fault_of_read_unescaped (h : unescaped.read site = .error e) :
    site.Fault sections inlines e := by
  simp only [unescaped] at h
  split at h
  · simp at h
  · rename_i start ending hopen
    have hbehind := reaches_of_openUnescaped? hopen
    obtain hupTo | ⟨⟨inside, stop, next⟩, hupTo, h⟩ := cases_error_of_bind h
    · -- The tag ends at the closing delimiter, perhaps with a brace in front of it.
      unfold openUnescaped? at hopen
      split at hopen
      · obtain ⟨rfl, rfl⟩ := Prod.mk.inj (Option.some.inj hopen)
        exact Site.fault_of_upTo ['\x7d'] hbehind hupTo
      · obtain ⟨_, _, heq⟩ := Option.map_eq_some_iff.1 hopen
        obtain ⟨rfl, rfl⟩ := Prod.mk.inj heq
        exact Site.fault_of_upTo [] hbehind hupTo
    · simp only at h
      split at h
      · rename_i hempty
        obtain rfl := Except.error.inj h
        obtain ⟨taken, hrest, _⟩ := hbehind
        rw [(Site.upTo_eq_ok_iff.1 hupTo).1, ← List.append_assoc, ← List.append_assoc] at hrest
        exact .emptyTag _ hrest (List.isEmpty_iff.1 hempty)
      · simp at h

end Recognizer

/-! ### The recognizers that call helpers -/

/-- What a call looks for its arguments in is the text behind the name of its helper. -/
theorem Site.hasArguments_of_upTo {g : Sigil} {registry : Registry} {helper : Helper}
    {start stop next : Cursor} {inside : List Char}
    (hstart : site.cursor.after? g.chars = some start)
    (hregistry : registry ∈ g.registries sections inlines)
    (hhelper : registry.get? (String.ofList (start.skipBlank.name site.closing).1) = some helper)
    (harity : helper.arity ≠ 0)
    (hupTo : site.upTo (start.skipBlank.name site.closing).2.skipBlank site.closing =
      .ok (inside, stop, next)) :
    site.HasArguments sections inlines (start.skipBlank.name site.closing).2.skipBlank.offset
      (trimEnd inside) := by
  -- In front of the arguments: the sigil, blanks, the name of the helper, and blanks again.
  obtain ⟨hmark, hoffset⟩ := Cursor.rest_of_after? hstart
  have hspan : (start.skipBlank.name site.closing).1 ++
      (start.skipBlank.name site.closing).2.rest = start.skipBlank.rest :=
    spanUntil_append isBlank site.closing start.skipBlank.rest
  obtain ⟨hrest, hfirst, _, _⟩ := Site.upTo_eq_ok_iff.1 hupTo
  obtain ⟨blanks, hblanks, hinside⟩ := exists_trimEnd_append inside
  refine ⟨g, registry, helper, start.rest.takeWhile isBlank,
    (start.skipBlank.name site.closing).1, (start.skipBlank.name site.closing).2.rest,
    (start.skipBlank.name site.closing).2.rest.takeWhile isBlank, blanks, next.rest, ?_, ?_,
    allBlank_takeWhile _, allBlank_takeWhile _, hblanks, ?_, ?_, ?_, hregistry, hhelper, harity⟩
  · rw [List.append_assoc, hspan, List.append_assoc, Cursor.takeWhile_append_skipBlank]
    exact hmark
  · rw [List.append_assoc _ (trimEnd inside), ← hinside, List.append_assoc,
      List.append_assoc, ← List.append_assoc inside, ← hrest]
    exact (Cursor.takeWhile_append_skipBlank _).symm
  · rw [hspan]
    rfl
  · rw [← hinside]
    exact hfirst
  · simp only [Cursor.skipBlank, Cursor.name, Cursor.past, hoffset, byteSize_append]
    omega

/-- A call has no end, or its arguments break off. -/
theorem Site.fault_of_call {g : Sigil} {registry : Registry} {start : Cursor}
    (hstart : site.cursor.after? g.chars = some start)
    (hregistry : registry ∈ g.registries sections inlines)
    (h : site.call registry start = .error e) : site.Fault sections inlines e := by
  unfold Site.call at h
  simp only at h
  split at h
  · simp at h
  · rename_i helper hhelper
    have hargs := (Cursor.reaches_of_after? hstart).trans ((Cursor.reaches_skipBlank start).trans
      ((Cursor.reaches_name start.skipBlank site.closing).trans (Cursor.reaches_skipBlank _)))
    obtain hupTo | ⟨⟨inside, stop, next⟩, hupTo, h⟩ := cases_error_of_bind h
    · exact fault_of_upTo [] hargs hupTo
    simp only at h
    split at h
    · simp at h
    · rename_i harity
      obtain hread | ⟨_, _, h⟩ := cases_error_of_bind h
      · exact .unclosedString (hasArguments_of_upTo hstart hregistry hhelper harity hupTo)
          ((Argument.covers_of_readAll _).2 e hread)
      · simp at h

namespace Recognizer

/-- A call between bare delimiters has no end, or its arguments break off. -/
theorem fault_of_read_helper {registry : Registry} (hregistry : registry ∈ inlines)
    (h : (helper registry).read site = .error e) : site.Fault sections inlines e := by
  have hbare : site.cursor.after? Sigil.bare.chars = some site.cursor := rfl
  obtain hcall | ⟨call?, _, h⟩ := cases_error_of_bind h
  · exact Site.fault_of_call hbare hregistry hcall
  · split at h <;> simp at h

/-- The open tag of a helper's block has no end, or its arguments break off. -/
theorem fault_of_read_helperBlock {name : String} {g : Sigil} {kind : BlockKind}
    {registry : Registry} (hregistry : registry ∈ g.registries sections inlines)
    (h : (helperBlock name g.chars kind registry).read site = .error e) :
    site.Fault sections inlines e := by
  simp only [helperBlock] at h
  split at h
  · simp at h
  · rename_i start hstart
    obtain hcall | ⟨call?, _, h⟩ := cases_error_of_bind h
    · exact Site.fault_of_call hstart hregistry hcall
    · split at h <;> simp at h

end Recognizer

/-! ### The pipeline -/

/-- A tag that cannot be read is refused by one of the recognizers, unless all of them decline. -/
theorem exists_error_of_recognize {rs : List Recognizer} (h : recognize rs site = .error e) :
    (∃ r ∈ rs, r.read site = .error e) ∨ ∀ r ∈ rs, ∃ place, r.read site = .ok (none, place) := by
  induction rs with
  | nil => exact .inr (by simp)
  | cons r rs ih =>
    cases hread : r.read site with
    | error e' =>
      rw [recognize, hread] at h
      obtain rfl : e' = e := Except.error.inj h
      exact .inl ⟨r, by simp, hread⟩
    | ok result =>
      obtain ⟨event?, place⟩ := result
      rw [recognize, hread] at h
      cases event? with
      | some event => simp at h
      | none =>
        obtain ⟨r', hr', herror⟩ | hdeclined := ih h
        · exact .inl ⟨r', List.mem_cons_of_mem r hr', herror⟩
        · refine .inr ?_
          intro r' hr'
          obtain rfl | hr' := List.mem_cons.1 hr'
          · exact ⟨place, hread⟩
          · exact hdeclined r' hr'

/-- The recognizer for tags without a mark declines none. -/
theorem Recognizer.interpolation_ne_declined {place : Cursor} :
    interpolation.read site ≠ .ok (none, place) := by
  intro h
  obtain ⟨content?, hcontent, h⟩ := exists_ok_of_bind h
  cases content? with
  | some content => simp at h
  | none =>
    -- Nothing is taken off for a mark, so that the content is sought at once.
    have hstart : site.cursor.after? [] = some (site.cursor.past [] site.cursor.rest) := rfl
    rw [Site.content, hstart] at hcontent
    obtain ⟨found, _, hcontent⟩ := exists_ok_of_bind hcontent
    simp only at hcontent
    split at hcontent <;> simp at hcontent

/-- A tag of an engine with helpers that cannot be read has a fault. -/
theorem fault_of_recognize (h : recognize (recognizersWith sections inlines) site = .error e) :
    site.Fault sections inlines e := by
  obtain ⟨r, hr, hread⟩ | hdeclined := exists_error_of_recognize h
  · -- Each recognizer has a lemma of its own, and at the end of the list one stands that never
    -- declines.
    simp only [recognizersWith, sectionRecognizers, invertedRecognizers, unmarkedRecognizers,
      List.mem_append, List.mem_map, List.mem_cons, List.not_mem_nil, or_false] at hr
    rcases hr with (((((rfl | rfl) | (⟨registry, hregistry, rfl⟩ | rfl)) |
      (⟨registry, hregistry, rfl⟩ | rfl)) | rfl | rfl) | (⟨registry, hregistry, rfl⟩ | rfl))
    · exact Recognizer.fault_of_read_comment hread
    · exact Recognizer.fault_of_read_delimiters hread
    · exact Recognizer.fault_of_read_helperBlock (g := .enter) hregistry hread
    · exact Recognizer.fault_of_read_ofContent hread
    · exact Recognizer.fault_of_read_helperBlock (g := .inverted) hregistry hread
    · exact Recognizer.fault_of_read_ofContent hread
    · exact Recognizer.fault_of_read_ofContent hread
    · exact Recognizer.fault_of_read_unescaped hread
    · exact Recognizer.fault_of_read_helper hregistry hread
    · exact Recognizer.fault_of_read_ofContent hread
  · have hlast : Recognizer.interpolation ∈ recognizersWith sections inlines := by
      simp [recognizersWith, unmarkedRecognizers]
    obtain ⟨place, hread⟩ := hdeclined _ hlast
    exact absurd hread Recognizer.interpolation_ne_declined

end Recognizers

end Stencil
