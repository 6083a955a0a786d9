import Stencil.Helper.Registry
import Stencil.Proofs.Entries

/-!
# `Stencil.Proofs.Helper.Registering`: what registrations come to

A builder's entries are those of the registrations whose names are not blank, and it has an error
as soon as one name is blank (`entries_registerAll`, `error_registerAll`). To go on after a blank
name or to stop at it makes no difference in the end (`build_registerAll`).

`answers_for_registrations` puts the two together: there is a registry exactly if no name is blank,
it answers with the last helper that was registered under a name, and its size is the number of
different names.
-/

set_option autoImplicit false

namespace Stencil

open Text

/-! ### Builders -/

/-- The name that counts of a name: without blanks around it and in lower case. -/
def Registry.nameKey (name : String) : String :=
  lowerCase (trimmed name)

namespace RegistryBuilder

variable {b : RegistryBuilder} {name : String}

/-- A blank name leaves the entries as they are, and is an error if there was none before. -/
theorem register_of_blank (h : trimmed name = "") (helper : Helper) :
    b.register name helper = { b with error := b.error.or (some .emptyName) } :=
  if_pos h

/-- A name that is not blank adds an entry under its key. -/
theorem register_of_named (h : trimmed name ≠ "") (helper : Helper) :
    b.register name helper =
      { b with entries := insertEntry (Registry.nameKey name) helper b.entries } :=
  if_neg h

/-- The first registration is made before the others. -/
theorem registerAll_cons (b : RegistryBuilder) (name : String) (helper : Helper)
    (helpers : List (String × Helper)) :
    b.registerAll ((name, helper) :: helpers) = (b.register name helper).registerAll helpers :=
  rfl

/-- The last registration is made after the others. -/
theorem registerAll_concat (b : RegistryBuilder) (helpers : List (String × Helper))
    (name : String) (helper : Helper) :
    b.registerAll (helpers ++ [(name, helper)]) = (b.registerAll helpers).register name helper :=
  List.foldl_concat _ _ _ _

/-- An error stays the first one, and a blank name is one. -/
theorem error_registerAll (b : RegistryBuilder) (helpers : List (String × Helper)) :
    (b.registerAll helpers).error =
      b.error.or (if ∃ e ∈ helpers, trimmed e.1 = "" then some .emptyName else none) := by
  induction helpers generalizing b with
  | nil => simp [registerAll]
  | cons e helpers ih =>
    obtain ⟨name, helper⟩ := e
    rw [registerAll_cons, ih]
    by_cases hname : trimmed name = ""
    · rw [register_of_blank hname]
      cases b.error <;> simp [hname]
    · have hrest : (∃ e ∈ (name, helper) :: helpers, trimmed e.1 = "") ↔
          ∃ e ∈ helpers, trimmed e.1 = "" := by simp [hname]
      -- One name that is not blank does not matter to whether there is a blank one.
      rw [register_of_named hname, if_congr hrest rfl rfl]

/-- The entries are those of the names that are not blank, wherever the blank ones stand. -/
theorem entries_registerAll (helpers : List (String × Helper)) :
    (empty.registerAll helpers).entries =
      insertAll ((helpers.filter fun e => trimmed e.1 ≠ "").map
        fun e => (Registry.nameKey e.1, e.2)) := by
  -- On the last registration, since that one replaces earlier ones.
  induction helpers using List.reverseRecOn with
  | nil => rfl
  | append_singleton helpers e ih =>
    obtain ⟨name, helper⟩ := e
    rw [registerAll_concat, List.filter_append, List.map_append]
    by_cases hname : trimmed name = ""
    · rw [register_of_blank hname]
      simpa [hname] using ih
    · rw [register_of_named hname, ih, ← insertAll_concat]
      simp [hname]

/-- To go on after a blank name comes to the same as to stop there. -/
theorem build_registerAll (helpers : List (String × Helper)) (entries : List (String × Helper)) :
    (registerAll ⟨entries, none⟩ helpers).build =
      helpers.foldlM (fun r (name, h) => r.register name h) (⟨entries⟩ : Registry) := by
  induction helpers generalizing entries with
  | nil => rfl
  | cons e helpers ih =>
    obtain ⟨name, helper⟩ := e
    rw [registerAll_cons, List.foldlM_cons]
    by_cases hname : trimmed name = ""
    -- The builder goes on with its error, and the list stops here.
    · have herror : (registerAll (register ⟨entries, none⟩ name helper) helpers).error =
          some .emptyName := by
        rw [error_registerAll, register_of_blank hname]
        rfl
      have hstop : (⟨entries⟩ : Registry).register name helper = .error .emptyName := if_pos hname
      simp only [build, herror, hstop]
      rfl
    · have hgoes : (⟨entries⟩ : Registry).register name helper =
          .ok ⟨insertEntry (Registry.nameKey name) helper entries⟩ := if_neg hname
      simp only [register_of_named hname, ih, hgoes]
      rfl

end RegistryBuilder

/-! ### Registries -/

/-- A helper without parameters that always gives one value. -/
def Helper.constant (v : Value) : Helper :=
  ⟨0, [], fun _ _ store => (v, store)⟩

namespace Registry

/-- The helper that was registered last under a name. -/
def lastRegistered? (helpers : List (String × Helper)) (name : String) : Option Helper :=
  ((helpers.filter fun e => nameKey e.1 = lowerCase name).getLast?).map Prod.snd

/-- A list of registrations and a builder that is given them come to the same. -/
theorem ofList_eq_build (helpers : List (String × Helper)) :
    ofList helpers = (RegistryBuilder.empty.registerAll helpers).build :=
  (RegistryBuilder.build_registerAll helpers []).symm

/-- One blank name spoils the registry, wherever it stands. -/
theorem ofList_of_blank {helpers : List (String × Helper)}
    (h : ∃ e ∈ helpers, trimmed e.1 = "") : ofList helpers = .error .emptyName := by
  have herror : (RegistryBuilder.empty.registerAll helpers).error = some .emptyName := by
    rw [RegistryBuilder.error_registerAll, if_pos h]
    rfl
  rw [ofList_eq_build, RegistryBuilder.build, herror]

/-- Without a blank name there is a registry, and its entries are put in one after the other. -/
theorem ofList_of_named {helpers : List (String × Helper)}
    (h : ∀ e ∈ helpers, trimmed e.1 ≠ "") :
    ofList helpers = .ok ⟨insertAll (helpers.map fun e => (nameKey e.1, e.2))⟩ := by
  have hnone : ¬ ∃ e ∈ helpers, trimmed e.1 = "" := fun ⟨e, he, hblank⟩ => h e he hblank
  have herror : (RegistryBuilder.empty.registerAll helpers).error = none := by
    rw [RegistryBuilder.error_registerAll, if_neg hnone]
    rfl
  have hentries : (RegistryBuilder.empty.registerAll helpers).entries =
      insertAll (helpers.map fun e => (nameKey e.1, e.2)) := by
    -- No registration is left out, since none is blank.
    rw [RegistryBuilder.entries_registerAll, List.filter_eq_self.2 (by simpa using h)]
  rw [ofList_eq_build, RegistryBuilder.build, herror, hentries]

/-- A registry of registrations answers for a name with the helper that was registered last under
it. -/
theorem get?_insertAll (helpers : List (String × Helper)) (name : String) :
    (⟨insertAll (helpers.map fun e => (nameKey e.1, e.2))⟩ : Registry).get? name =
      lastRegistered? helpers name := by
  simp only [get?, valueAt?_insertAll, List.filter_map, List.getLast?_map, Option.map_map,
    Function.comp_def, lastRegistered?]

/-- A registry has as many helpers as there are different keys. -/
theorem size_insertAll (helpers : List (String × Helper)) :
    (⟨insertAll (helpers.map fun e => (nameKey e.1, e.2))⟩ : Registry).size =
      (helpers.map fun e => nameKey e.1).toFinset.card := by
  rw [size, length_insertAll, List.map_map]
  rfl

/-- A list of registrations makes a registry exactly if no name in it is blank, wherever the blank
one stands. The registry has for every name the helper that was registered last under it, blanks
around the registered name and the case of both left aside, or none, and its size is the number of
different names. A builder that goes on after a blank name comes to the same. -/
theorem answers_for_registrations (helpers : List (String × Helper)) :
    (RegistryBuilder.empty.registerAll helpers).build = ofList helpers ∧
      (ofList helpers = .error .emptyName ↔ ∃ e ∈ helpers, trimmed e.1 = "") ∧
      ((∀ e ∈ helpers, trimmed e.1 ≠ "") →
        ∃ r, ofList helpers = .ok r ∧ (∀ name, r.get? name = lastRegistered? helpers name) ∧
          r.size = (helpers.map fun e => nameKey e.1).toFinset.card) := by
  refine ⟨(ofList_eq_build helpers).symm, ⟨fun herror => ?_, ofList_of_blank⟩, fun hnamed => ?_⟩
  · by_contra hnone
    rw [ofList_of_named fun e he hblank => hnone ⟨e, he, hblank⟩] at herror
    cases herror
  · exact ⟨_, ofList_of_named hnamed, get?_insertAll helpers, size_insertAll helpers⟩

/-- A blank name in the middle spoils the registry. Without one the last of two names that differ
in case and blanks counts, and blanks in the name that is asked for are not dropped. -/
theorem answers_for_registrations_of_overwritten :
    ofList [("Value", .constant (.int 1)), (" \t", .constant .null),
        ("Other", .constant (.int 2))] = .error .emptyName ∧
      ∃ r, ofList [(" Value\n", .constant (.int 1)), ("Other", .constant (.int 2)),
          ("vALUE", .constant (.int 3))] = .ok r ∧
        r.get? "VaLuE" = some (.constant (.int 3)) ∧ r.get? " value" = none ∧ r.size = 2 := by
  obtain ⟨-, hblank, -⟩ := answers_for_registrations [("Value", .constant (.int 1)),
    (" \t", .constant .null), ("Other", .constant (.int 2))]
  have hnamed : ∀ e ∈ [(" Value\n", Helper.constant (.int 1)), ("Other", .constant (.int 2)),
      ("vALUE", .constant (.int 3))], trimmed e.1 ≠ "" := by
    simp only [List.forall_mem_cons]
    decide
  obtain ⟨r, hr, hget, hsize⟩ := (answers_for_registrations _).2.2 hnamed
  refine ⟨hblank.2 ⟨(" \t", .constant .null), by simp, by decide⟩, r, hr, ?_, ?_, ?_⟩
  · rw [hget]
    rfl
  · rw [hget]
    rfl
  · rw [hsize]
    rfl

end Registry

end Stencil
