import Stencil.Proofs.Value.Embedding

/-!
# `Stencil.Proofs.Value.Placing`: an enumerator at another of its values

`Store.place` moves one enumerator among its values and leaves the others where they are. What is
done to the others does not see the move: they give the same values, and the store afterwards is
moved in the same way (`Store.next_place_of_ne`, `Store.reset_place_of_ne`, `Store.fresh_place`).
What is done to the enumerator itself depends on where it stands, and putting it back to its first
value undoes the move (`Store.reset_place`).
-/

set_option autoImplicit false

namespace Stencil

namespace Store

/-- The store with an enumerator moved among its values, of which some remain. -/
def place (s : Store) (handle : Handle) (rest : List Value) : Store :=
  s.update handle fun e => { e with remaining := rest }

variable {s : Store} {handle : Handle} {e : Enumerator}

/-! ### Changes of enumerators -/

/-- Stores that have the same enumerators are the same. -/
theorem ext_find? {s t : Store} (h : ∀ handle, s.find? handle = t.find? handle) : s = t := by
  obtain ⟨xs⟩ := s
  obtain ⟨ys⟩ := t
  exact congrArg Store.mk (Array.ext_getElem? fun i => h ⟨i⟩)

/-- Two changes that do the same to the enumerator that is there. -/
theorem update_congr {f g : Enumerator → Enumerator} (h : s.find? handle = some e)
    (hfg : f e = g e) : s.update handle f = s.update handle g := by
  refine ext_find? fun other => ?_
  by_cases heq : other = handle
  · subst heq
    rw [find?_update_self, find?_update_self, h, Option.map_some, Option.map_some, hfg]
  · rw [find?_update_of_ne _ _ heq, find?_update_of_ne _ _ heq]

/-- A change that does nothing to the enumerator that is there. -/
theorem update_of_eq {f : Enumerator → Enumerator} (h : s.find? handle = some e) (hf : f e = e) :
    s.update handle f = s := by
  refine ext_find? fun other => ?_
  by_cases heq : other = handle
  · subst heq
    rw [find?_update_self, h, Option.map_some, hf]
  · exact find?_update_of_ne _ _ heq

/-- One change after another of the same enumerator. -/
theorem update_update (s : Store) (handle : Handle) (f g : Enumerator → Enumerator) :
    (s.update handle f).update handle g = s.update handle (g ∘ f) := by
  refine ext_find? fun other => ?_
  by_cases heq : other = handle
  · subst heq
    rw [find?_update_self, find?_update_self, find?_update_self, Option.map_map]
  · rw [find?_update_of_ne _ _ heq, find?_update_of_ne _ _ heq, find?_update_of_ne _ _ heq]

/-- Changes of different enumerators may be made in any order. -/
theorem update_comm (s : Store) {h k : Handle} (hne : k ≠ h) (f g : Enumerator → Enumerator) :
    (s.update h f).update k g = (s.update k g).update h f := by
  refine ext_find? fun other => ?_
  by_cases hh : other = h
  · subst hh
    rw [find?_update_of_ne _ _ hne.symm, find?_update_self, find?_update_self,
      find?_update_of_ne _ _ hne.symm]
  -- Neither of the two changes is seen at a third enumerator.
  · rw [find?_update_of_ne (s.update k g) f hh]
    by_cases hk : other = k
    · subst hk
      rw [find?_update_self, find?_update_self, find?_update_of_ne _ _ hh]
    · rw [find?_update_of_ne _ _ hk, find?_update_of_ne _ _ hk, find?_update_of_ne _ _ hh]

/-- A new enumerator stands behind all others. -/
theorem find?_fresh (s : Store) (values : List Value) (h : Handle) :
    (s.fresh values).2.find? h =
      if h.index = s.enumerators.size then some (.atStart values) else s.find? h :=
  Array.getElem?_push

/-! ### The enumerator that is moved -/

/-- Where the enumerator is after the move. -/
theorem find?_place (s : Store) (handle : Handle) (rest : List Value) :
    (s.place handle rest).find? handle =
      (s.find? handle).map fun e => { e with remaining := rest } :=
  find?_update_self s handle _

/-- At its end an enumerator gives nothing and stays. -/
theorem next_place_nil (h : s.find? handle = some e) :
    (s.place handle []).next handle = (none, s.place handle []) := by
  rw [next, find?_place, h]
  -- The step finds an enumerator with nothing left, and moving on leaves nothing either.
  show (none, (s.place handle []).update handle Enumerator.advance) = _
  rw [place, update_update]
  exact congrArg _ (update_congr h rfl)

/-- An enumerator gives the value that it stands at, and stands at the next one. -/
theorem next_place_cons (h : s.find? handle = some e) (v : Value) (rest : List Value) :
    (s.place handle (v :: rest)).next handle = (some v, s.place handle rest) := by
  rw [next, find?_place, h]
  show (some v, (s.place handle (v :: rest)).update handle Enumerator.advance) = _
  rw [place, update_update]
  exact congrArg _ (update_congr h rfl)

/-- A reset undoes a move from the first value. -/
theorem reset_place {values : List Value} (h : s.find? handle = some (.atStart values))
    (rest : List Value) : (s.place handle rest).reset handle = s := by
  rw [place, reset, update_update]
  exact update_of_eq h rfl

/-- An enumerator at its first value is moved there by nothing. -/
theorem place_of_atStart {values : List Value} (h : s.find? handle = some (.atStart values)) :
    s.place handle values = s :=
  update_of_eq h rfl

/-! ### The other ones -/

section Others

variable (s) (rest : List Value) {k : Handle}

/-- Another enumerator is where it was. -/
theorem find?_place_of_ne (hne : k ≠ handle) : (s.place handle rest).find? k = s.find? k :=
  find?_update_of_ne s _ hne

/-- Another enumerator gives what it gives without the move. -/
theorem next_place_of_ne (hne : k ≠ handle) :
    (s.place handle rest).next k = ((s.next k).1, (s.next k).2.place handle rest) := by
  rw [next, next, place, find?_update_of_ne _ _ hne]
  cases s.find? k with
  | none => rfl
  | some e => exact congrArg (Prod.mk _) (update_comm s hne _ _)

/-- Another enumerator is put back with the move or without it. -/
theorem reset_place_of_ne (hne : k ≠ handle) :
    (s.place handle rest).reset k = (s.reset k).place handle rest :=
  update_comm s hne _ _

/-- A new enumerator gets the same handle after the move. -/
theorem fresh_place (hlt : handle.index < s.enumerators.size) (values : List Value) :
    (s.place handle rest).fresh values =
      ((s.fresh values).1, (s.fresh values).2.place handle rest) := by
  have hsize : (s.place handle rest).enumerators.size = s.enumerators.size := size_update _ _ _
  have hmade : ((s.place handle rest).fresh values).1 = (s.fresh values).1 :=
    congrArg Handle.mk hsize
  -- Both stores have the new enumerator at the end, and the same ones before it.
  refine Prod.ext hmade (ext_find? fun other => ?_)
  show ((s.place handle rest).fresh values).2.find? other =
    ((s.fresh values).2.place handle rest).find? other
  by_cases hother : other = handle
  · subst hother
    rw [find?_fresh_of_lt _ (hsize ▸ hlt), find?_place, find?_place, find?_fresh_of_lt _ hlt]
  · rw [find?_place_of_ne _ _ hother, find?_fresh, find?_fresh, hsize,
      find?_place_of_ne _ _ hother]

end Others

end Store

end Stencil
