import Stencil.Helper.Basic
import Stencil.Proofs.Value.Placing

/-!
# `Stencil.Proofs.Helper.Accesses`: what helpers do with enumerators

A helper sees enumerators from outside: it can step one, put one back, and make a new one. `Access`
is one such act with the answer that it got, and `Accessed` says how a list of accesses leads from
one store to another. What a helper does in a store is therefore a list of accesses, and it does the
same in every other store that gives the same answers. `Helper.Avoids` says that none of them is of
a certain enumerator.

Nothing in that speaks of how far the enumerator has come. That it does not matter is a consequence
(`Helper.Avoids.run_place`): accesses of the others go alike in a store where it is moved
(`Accessed.place`).
-/

set_option autoImplicit false

namespace Stencil

/-- What a helper can do with the enumerators of a store, with the answer that it gets. -/
inductive Access where
  /-- It asks an enumerator for its next value. -/
  | next (handle : Handle) (answer : Option Value)
  /-- It puts an enumerator back to its first value. -/
  | reset (handle : Handle)
  /-- It makes a new enumerator over some values, which gets a handle. -/
  | fresh (values : List Value) (made : Handle)

/-- An access steps or puts back an enumerator. -/
def Access.Touches (handle : Handle) : Access → Prop
  | .next h _ => h = handle
  | .reset h => h = handle
  | .fresh _ _ => False

/-- Accesses lead from one store to another, one after the other, with the answers that they name. -/
inductive Accessed : List Access → Store → Store → Prop where
  | nil {s : Store} : Accessed [] s s
  | next {accesses : List Access} {s mid t : Store} {handle : Handle} {answer : Option Value}
    (step : s.next handle = (answer, mid)) (rest : Accessed accesses mid t) :
    Accessed (.next handle answer :: accesses) s t
  | reset {accesses : List Access} {s t : Store} {handle : Handle}
    (rest : Accessed accesses (s.reset handle) t) : Accessed (.reset handle :: accesses) s t
  | fresh {accesses : List Access} {s mid t : Store} {values : List Value} {made : Handle}
    (step : s.fresh values = (made, mid)) (rest : Accessed accesses mid t) :
    Accessed (.fresh values made :: accesses) s t

variable {handle : Handle}

/-- Accesses of other enumerators go alike in a store where one enumerator is moved, and leave that
where it is. -/
theorem Accessed.place {accesses : List Access} {s t : Store} {e : Enumerator}
    (h : Accessed accesses s t) (hothers : ∀ a ∈ accesses, ¬ a.Touches handle)
    (hfind : s.find? handle = some e) (rest : List Value) :
    Accessed accesses (s.place handle rest) (t.place handle rest) ∧ t.find? handle = some e := by
  -- One case for each act, since each is done to the store that the earlier ones leave.
  induction h with
  | nil => exact ⟨.nil, hfind⟩
  | @next accesses s mid t k answer step _ ih =>
    obtain ⟨hother, hothers⟩ := List.forall_mem_cons.1 hothers
    have hne : k ≠ handle := hother
    have hmid : (s.next k).2 = mid := congrArg Prod.snd step
    obtain ⟨hlater, hkept⟩ := ih hothers (by rw [← hmid, s.find?_next_of_ne (Ne.symm hne), hfind])
    refine ⟨.next ?_ hlater, hkept⟩
    rw [s.next_place_of_ne rest hne, step]
  | @reset accesses s t k _ ih =>
    obtain ⟨hother, hothers⟩ := List.forall_mem_cons.1 hothers
    have hne : k ≠ handle := hother
    obtain ⟨hlater, hkept⟩ := ih hothers (by rw [s.find?_reset_of_ne (Ne.symm hne), hfind])
    refine ⟨.reset ?_, hkept⟩
    rw [s.reset_place_of_ne rest hne]
    exact hlater
  | @fresh accesses s mid t values made step _ ih =>
    obtain ⟨_, hothers⟩ := List.forall_mem_cons.1 hothers
    -- A new enumerator stands behind the one that is moved, and so is another one.
    have hlt : handle.index < s.enumerators.size := Store.lt_of_find? hfind
    have hmid : (s.fresh values).2 = mid := congrArg Prod.snd step
    obtain ⟨hlater, hkept⟩ := ih hothers (by rw [← hmid, s.find?_fresh_of_lt _ hlt, hfind])
    refine ⟨.fresh ?_ hlater, hkept⟩
    rw [s.fresh_place rest hlt, step]

namespace Helper

/-- A call of a helper comes down to accesses: wherever these go as they are, the call gives a
certain value and leaves the store that they leave. -/
def Performs (h : Helper) (cx : HelperContext) (values : List Value) (accesses : List Access)
    (value : Value) : Prop :=
  ∀ s t : Store, Accessed accesses s t → h.run cx values s = (value, t)

/-- A call of a helper in a store neither steps nor puts back an enumerator. -/
def Avoids (handle : Handle) (h : Helper) (cx : HelperContext) (values : List Value)
    (store : Store) : Prop :=
  ∃ accesses value after, Accessed accesses store after ∧ h.Performs cx values accesses value ∧
    ∀ a ∈ accesses, ¬ a.Touches handle

variable {h : Helper} {cx : HelperContext} {values : List Value} {store : Store}

/-- A call that does not touch an enumerator does not see how far it has come, and leaves it there. -/
theorem Avoids.run_place (havoids : h.Avoids handle cx values store) {e : Enumerator}
    (hfind : store.find? handle = some e) (rest : List Value) :
    h.run cx values (store.place handle rest) =
        ((h.run cx values store).1, (h.run cx values store).2.place handle rest) ∧
      (h.run cx values store).2.find? handle = some e := by
  obtain ⟨accesses, value, after, haccessed, hperforms, hothers⟩ := havoids
  obtain ⟨hmoved, hkept⟩ := haccessed.place hothers hfind rest
  rw [hperforms _ _ hmoved, hperforms _ _ haccessed]
  exact ⟨rfl, hkept⟩

/-- A helper that does not use the store avoids every enumerator. -/
theorem avoids_of_run_eq {value : Value} (hrun : ∀ s, h.run cx values s = (value, s)) :
    h.Avoids handle cx values store := by
  refine ⟨[], value, store, .nil, ?_, fun a ha => absurd ha List.not_mem_nil⟩
  rintro s _ ⟨⟩
  exact hrun s

end Helper

/-! ### The first enumerators -/

/-- The first `n` enumerators of a store give values that name no other ones. -/
def Store.ClosedBelow (n : Nat) (s : Store) : Prop :=
  ∀ (h : Handle) (e : Enumerator), h.index < n → s.find? h = some e →
    ∀ v ∈ e.values ++ e.remaining, v.Within n

namespace Store.ClosedBelow

variable {n : Nat} {s : Store}

/-- A change that gives an enumerator no other values. -/
theorem update (hs : s.ClosedBelow n) (h : Handle) {change : Enumerator → Enumerator}
    (hchange : ∀ e : Enumerator, (change e).values ++ (change e).remaining ⊆
      e.values ++ e.remaining) : (s.update h change).ClosedBelow n := by
  intro other e' hlt hfind v hv
  -- Only the changed enumerator may have got other values.
  by_cases heq : other = h
  · subst heq
    rw [find?_update_self] at hfind
    obtain ⟨e, he, rfl⟩ := Option.map_eq_some_iff.1 hfind
    exact hs other e hlt he v (hchange e hv)
  · rw [find?_update_of_ne _ _ heq] at hfind
    exact hs other e' hlt hfind v hv

/-- An enumerator that is put back gives its values again. -/
theorem reset (hs : s.ClosedBelow n) (h : Handle) : (s.reset h).ClosedBelow n :=
  hs.update h fun e => by simp [Enumerator.rewind, Enumerator.atStart]

/-- A step leaves fewer values to give. -/
theorem next (hs : s.ClosedBelow n) (h : Handle) : (s.next h).2.ClosedBelow n := by
  rw [Store.next]
  cases s.find? h with
  | none => exact hs
  | some e =>
    refine hs.update h fun e => ?_
    exact List.append_subset.2 ⟨List.subset_append_left _ _, fun v hv =>
      List.mem_append_right _ (List.mem_of_mem_tail hv)⟩

/-- After a step the first enumerators name no others either. -/
theorem of_next (hs : s.ClosedBelow n) {h : Handle} {v? : Option Value} {t : Store}
    (hnext : s.next h = (v?, t)) : t.ClosedBelow n := by
  have hmid := hs.next h
  rw [hnext] at hmid
  exact hmid

/-- What one of them gives names no other ones. -/
theorem within_next (hs : s.ClosedBelow n) {h : Handle} (hlt : h.index < n) {v : Value}
    (hv : (s.next h).1 = some v) : v.Within n := by
  rw [Store.next] at hv
  cases hfind : s.find? h with
  | none => simp [hfind] at hv
  | some e =>
    rw [hfind] at hv
    exact hs h e hlt hfind v (List.mem_append_right _ (List.mem_of_head? hv))

end Store.ClosedBelow

/-- A helper that is given only the first `n` enumerators touches no others, and gives none of
them. -/
def Helper.StaysBelow (n : Nat) (h : Helper) : Prop :=
  ∀ (cx : HelperContext) (values : List Value) (store : Store), cx.scope.Within n →
    (∀ v ∈ values, v.Within n) → store.ClosedBelow n →
      (h.run cx values store).1.Within n ∧ (h.run cx values store).2.ClosedBelow n ∧
        ∀ handle : Handle, n ≤ handle.index → h.Avoids handle cx values store

end Stencil
