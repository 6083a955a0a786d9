import Stencil.Settings

/-!
# `Stencil.Proofs.Additions`: engines with helpers added

An engine starts as the stock one, and registries are added to it, some for tags of their own and
some for blocks, in any order. `Settings.withHelpers` is the engine after a list of additions.

`recognizers_withHelpers` says what that comes to: the recognizers for the helpers of one kind
stand together, in the order in which they were added, in front of the stock recognizer for the
same mark. What a tag means does therefore not depend on how additions of different kinds were
mixed.

`Registry.get?_empty_of_ofList` says of every registry that can be made that no helper in it has an
empty name, and `Addition.get?_empty_of_made` says so of all that are added.
-/

set_option autoImplicit false

namespace Stencil

/-- A registry that is added to an engine. -/
inductive Addition where
  /-- For tags that call a helper. -/
  | inline (registry : Registry)
  /-- For blocks that are opened for a helper. -/
  | sections (registry : Registry)

/-- The registry of an addition for tags. -/
def Addition.inline? : Addition → Option Registry
  | .inline registry => some registry
  | .sections _ => none

/-- The registry of an addition for blocks. -/
def Addition.sections? : Addition → Option Registry
  | .inline _ => none
  | .sections registry => some registry

/-- The registry of an addition. -/
def Addition.registry : Addition → Registry
  | .inline registry => registry
  | .sections registry => registry

/-- A registry with one helper, which takes no arguments and is always true. -/
def Registry.always : Registry :=
  ⟨[("always", ⟨0, [], fun _ _ store => (.bool true, store)⟩)]⟩

namespace Settings

/-- The settings after one more addition. -/
def add (s : Settings) : Addition → Settings
  | .inline registry => s.addHelpers registry
  | .sections registry => s.addSectionHelpers registry

/-- The stock settings after additions, in order. -/
def withHelpers (additions : List Addition) : Settings :=
  additions.foldl add stock

/-- The last addition is made to the settings that the others have come to. -/
theorem withHelpers_concat (additions : List Addition) (a : Addition) :
    withHelpers (additions ++ [a]) = (withHelpers additions).add a := by
  rw [withHelpers, withHelpers, List.foldl_append]
  rfl

end Settings

/-- The recognizers for the tags marked with `#`. -/
def sectionRecognizers (sections : List Registry) : List Recognizer :=
  sections.map .helperSection ++ [.plainSection]

/-- The recognizers for the tags marked with `^`. -/
def invertedRecognizers (sections : List Registry) : List Recognizer :=
  sections.map .helperInvertedSection ++ [.invertedSection]

/-- The recognizers for the tags without a mark. -/
def unmarkedRecognizers (inlines : List Registry) : List Recognizer :=
  inlines.map .helper ++ [.interpolation]

/-- All recognizers of an engine with helpers. -/
def recognizersWith (sections inlines : List Registry) : List Recognizer :=
  [.comment, .delimiters] ++ sectionRecognizers sections ++ invertedRecognizers sections ++
    [.sectionEnd, .unescaped] ++ unmarkedRecognizers inlines

/-- A recognizer is put in front of the first one of a name. -/
theorem Pipeline.recognizers_insertBefore {p : Pipeline} {name : String}
    {before after : List Recognizer} {target : Recognizer}
    (hp : p.recognizers = before ++ target :: after)
    (hbefore : ∀ r ∈ before, r.name ≠ name) (htarget : target.name = name) (r : Recognizer) :
    (p.insertBefore name r).recognizers = before ++ r :: target :: after := by
  -- Only the target has the name, so that what stands before it is all that is passed over.
  have htake : p.recognizers.takeWhile (·.name != name) = before := by
    rw [hp, List.takeWhile_append_of_pos (by simpa using hbefore), List.takeWhile_cons]
    simp [htarget]
  rw [insertBefore, htake, hp, List.drop_left]

/-- One more registry for tags. -/
theorem Settings.recognizers_addHelpers {s : Settings} {sections inlines : List Registry}
    (h : s.pipeline.recognizers = recognizersWith sections inlines) (registry : Registry) :
    (s.addHelpers registry).pipeline.recognizers =
      recognizersWith sections (inlines ++ [registry]) := by
  have hsplit : s.pipeline.recognizers = ([.comment, .delimiters] ++ sectionRecognizers sections ++
      invertedRecognizers sections ++ [.sectionEnd, .unescaped] ++ inlines.map .helper) ++
      .interpolation :: [] := by
    rw [h, recognizersWith, unmarkedRecognizers]
    simp only [List.append_assoc]
  have hbefore : ∀ r ∈ [.comment, .delimiters] ++ sectionRecognizers sections ++
      invertedRecognizers sections ++ [.sectionEnd, .unescaped] ++
      inlines.map Recognizer.helper, r.name ≠ "interpolation" := by
    simp [sectionRecognizers, invertedRecognizers, or_imp, forall_and, Recognizer.comment,
      Recognizer.delimiters, Recognizer.plainSection, Recognizer.invertedSection,
      Recognizer.sectionEnd, Recognizer.unescaped, Recognizer.ofContent, Recognizer.helper,
      Recognizer.helperSection, Recognizer.helperInvertedSection, Recognizer.helperBlock]
  show (s.pipeline.insertBefore "interpolation" (.helper registry)).recognizers = _
  rw [Pipeline.recognizers_insertBefore hsplit hbefore rfl, recognizersWith, unmarkedRecognizers]
  simp

/-- One more registry for blocks. -/
theorem Settings.recognizers_addSectionHelpers {s : Settings} {sections inlines : List Registry}
    (h : s.pipeline.recognizers = recognizersWith sections inlines) (registry : Registry) :
    (s.addSectionHelpers registry).pipeline.recognizers =
      recognizersWith (sections ++ [registry]) inlines := by
  have hsplit : s.pipeline.recognizers = ([.comment, .delimiters] ++
      sections.map .helperSection) ++ .plainSection :: (invertedRecognizers sections ++
      [.sectionEnd, .unescaped] ++ unmarkedRecognizers inlines) := by
    rw [h, recognizersWith, sectionRecognizers]
    simp
  have hbefore : ∀ r ∈ [.comment, .delimiters] ++ sections.map Recognizer.helperSection,
      r.name ≠ "section" := by
    simp [or_imp, forall_and, Recognizer.comment, Recognizer.delimiters, Recognizer.helperSection,
      Recognizer.helperBlock]
  have hmarked := Pipeline.recognizers_insertBefore hsplit hbefore rfl (.helperSection registry)
  have hsplit' : (s.pipeline.insertBefore "section" (.helperSection registry)).recognizers =
      ([.comment, .delimiters] ++ sectionRecognizers (sections ++ [registry]) ++
        sections.map .helperInvertedSection) ++ .invertedSection ::
        ([.sectionEnd, .unescaped] ++ unmarkedRecognizers inlines) := by
    -- The recognizer for the other mark is put into what the first insertion has made.
    rw [hmarked, sectionRecognizers, invertedRecognizers]
    simp
  have hbefore' : ∀ r ∈ [.comment, .delimiters] ++ sectionRecognizers (sections ++ [registry]) ++
      sections.map Recognizer.helperInvertedSection, r.name ≠ "inverted_section" := by
    simp [sectionRecognizers, or_imp, forall_and, Recognizer.comment, Recognizer.delimiters,
      Recognizer.plainSection, Recognizer.ofContent, Recognizer.helperSection,
      Recognizer.helperInvertedSection, Recognizer.helperBlock]
  show ((s.pipeline.insertBefore "section" (.helperSection registry)).insertBefore
    "inverted_section" (.helperInvertedSection registry)).recognizers = _
  rw [Pipeline.recognizers_insertBefore hsplit' hbefore' rfl, recognizersWith,
    invertedRecognizers]
  simp

/-- The recognizers of an engine with helpers. -/
theorem Settings.recognizers_withHelpers (additions : List Addition) :
    (withHelpers additions).pipeline.recognizers =
      recognizersWith (additions.filterMap Addition.sections?)
        (additions.filterMap Addition.inline?) := by
  -- By induction from the last addition, since each one changes what the others have made.
  have hreverse : ∀ reversed : List Addition,
      (withHelpers reversed.reverse).pipeline.recognizers =
        recognizersWith (reversed.reverse.filterMap Addition.sections?)
          (reversed.reverse.filterMap Addition.inline?) := by
    intro reversed
    induction reversed with
    | nil => rfl
    | cons a reversed ih =>
      rw [List.reverse_cons, withHelpers_concat, List.filterMap_append, List.filterMap_append]
      cases a with
      | inline registry =>
        rw [add, recognizers_addHelpers ih registry]
        simp [List.filterMap_cons, Addition.inline?, Addition.sections?]
      | sections registry =>
        rw [add, recognizers_addSectionHelpers ih registry]
        simp [List.filterMap_cons, Addition.inline?, Addition.sections?]
  rw [← List.reverse_reverse additions]
  exact hreverse additions.reverse

/-- What holds of every registry that is added holds of those for tags and those for blocks. -/
theorem Addition.forall_registry {P : Registry → Prop} {additions : List Addition}
    (h : ∀ a ∈ additions, P a.registry) :
    (∀ r ∈ additions.filterMap Addition.sections?, P r) ∧
      ∀ r ∈ additions.filterMap Addition.inline?, P r := by
  constructor
  · intro r hr
    obtain ⟨a, ha, hsections⟩ := List.mem_filterMap.1 hr
    cases a with
    | inline registry => simp [sections?] at hsections
    | sections registry =>
      obtain rfl := Option.some.inj hsections
      exact h _ ha
  · intro r hr
    obtain ⟨a, ha, hinline⟩ := List.mem_filterMap.1 hr
    cases a with
    | inline registry =>
      obtain rfl := Option.some.inj hinline
      exact h _ ha
    | sections registry => simp [inline?] at hinline

/-! ### Names of helpers -/

/-- A name that has characters has some in lower case as well. -/
theorem lowerCase_ne_empty {s : String} (h : s ≠ "") : Text.lowerCase s ≠ "" := by
  cases hchars : s.toList with
  | nil => exact absurd (String.toList_eq_nil_iff.1 hchars) h
  | cons c cs =>
    -- The first character alone gives one or two characters.
    have hfirst : Text.lowerCaseWithin [] c cs ≠ [] := by
      unfold Text.lowerCaseWithin
      split
      · simp
      · split <;> simp
    intro hempty
    rw [Text.lowerCase, hchars, Text.lowerCaseAfter] at hempty
    have hnil := congrArg String.toList hempty
    rw [String.toList_ofList] at hnil
    exact hfirst (List.append_eq_nil_iff.1 hnil).1

namespace Registry

/-- A registry with one helper finds no other one. -/
theorem eq_of_get?_singleton {key name : String} {h h' : Helper}
    (hget : (⟨[(key, h)]⟩ : Registry).get? name = some h') : h' = h := by
  rw [get?, valueAt?] at hget
  split at hget
  · exact (Option.some.inj hget).symm
  · cases hget

/-- Registering one more helper does not change what the empty name has. -/
theorem get?_empty_of_register {start r : Registry} {name : String} {helper : Helper}
    (hstart : start.get? "" = none) (h : start.register name helper = .ok r) :
    r.get? "" = none := by
  unfold register at h
  split at h
  · simp at h
  · rename_i hname
    obtain rfl := Except.ok.inj h
    -- Only a name that is not blank is registered, and its key is not the empty one.
    have hother : Text.lowerCase "" ≠ Text.lowerCase (Text.trimmed name) :=
      (lowerCase_ne_empty hname).symm
    rw [get?, valueAt?_insertEntry_of_ne hother]
    exact hstart

/-- A registry that can be made has no helper without a name. -/
theorem get?_empty_of_ofList {helpers : List (String × Helper)} {r : Registry}
    (h : ofList helpers = .ok r) : r.get? "" = none := by
  have hempty : empty.get? "" = none := rfl
  unfold ofList at h
  -- For any registry to start from that has no helper without a name.
  generalize empty = start at h hempty
  induction helpers generalizing start with
  | nil =>
    obtain rfl := Except.ok.inj h
    exact hempty
  | cons entry helpers ih =>
    rw [List.foldlM_cons] at h
    obtain ⟨mid, hregister, h⟩ := exists_ok_of_bind h
    exact ih mid h (get?_empty_of_register hempty hregister)

end Registry

/-- The registries of additions that can be made have no helper without a name. -/
theorem Addition.get?_empty_of_made {additions : List Addition}
    (hmade : ∀ a ∈ additions, ∃ helpers, Registry.ofList helpers = .ok a.registry) :
    (∀ r ∈ additions.filterMap Addition.sections?, r.get? "" = none) ∧
      ∀ r ∈ additions.filterMap Addition.inline?, r.get? "" = none := by
  refine Addition.forall_registry fun a ha => ?_
  obtain ⟨helpers, hhelpers⟩ := hmade a ha
  exact Registry.get?_empty_of_ofList hhelpers

/-- The pipeline of an engine with helpers. -/
abbrev Pipeline.withHelpers (additions : List Addition) : Pipeline :=
  (Settings.withHelpers additions).pipeline

end Stencil
