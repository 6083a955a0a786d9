import Stencil.Proofs.Render.Untouched

/-!
# `Stencil.Proofs.Render.Looping`: blocks that go through an enumerator

A block for an enumerator at its first value does what a block for the list of its values does, as
long as its children never touch that enumerator (`Direct.perform_drain_eq`,
`Stream.perform_drain_eq`). The results are the same, and so are the stores, with the enumerator at
its first value.

While a list is gone through, the enumerator stands at its first value all the time. While it is
gone through itself, it stands at the value that comes next; `Store.place` moves it there. The
children are shown alike in both, and the reset at the end undoes the move. That is said once of
watched renders (`Watch.perform_drain_eq`), for every output.
-/

set_option autoImplicit false

namespace Stencil

namespace Watch

variable {ε σ : Type} {o : Output ε σ} {cx : RenderContext} {scope : Scope}
  {children : List Token} {handle : Handle} {values : List Value}

/-- What is left of the values of an enumerator is gone through like a list. Afterwards the
enumerator stands somewhere among them. -/
theorem agrees_loop (fuel : Nat) {vs : List Value} {around : List Handle} {s t : WatchState σ}
    (hapart : s.Apart handle values vs t)
    (hnever : NeverTouches cx handle ⟨.each scope children vs, s.store, around⟩) :
    Agrees (fun s t => ∃ rest, WatchState.Apart handle values rest s t)
      (each o cx fuel scope children vs s) (drain o cx fuel scope children handle t) := by
  induction fuel generalizing vs s t with
  | zero => exact .none
  | succ fuel ih =>
    cases vs with
    | nil =>
      -- The last step of the enumerator gives nothing, and it stays at its end.
      have hnext : t.store.next handle = (none, t.store) := by
        rw [hapart.store, Store.next_place_nil hapart.start]
      rw [drain_of_none hnext]
      exact agrees_pure ⟨[], hapart⟩ ()
    | cons v vs =>
      have hnext : t.store.next handle = (some v, s.store.place handle vs) := by
        rw [hapart.store, Store.next_place_cons hapart.start]
      have hmoved : s.Apart handle values vs { t with store := s.store.place handle vs } :=
        ⟨hapart.start, rfl, hapart.out⟩
      rw [drain_of_some hnext]
      have hchildren := Task.agrees_apart o fuel (.tokens (scope.push v) children) hmoved
        (hnever.of_begins .item)
      refine agrees_bind hchildren (fun _ _ h => ⟨vs, h⟩) fun _ mid mid' hrun hmid => ?_
      -- The children have left the enumerator at the value that comes next.
      obtain ⟨shown, hends⟩ :=
        Task.exists_ends_of_watch (.tokens (scope.push v) children) hrun
      exact ih hmid (hnever.of_begins (.items hends))

/-- A watched block that goes through an enumerator at its first value does what a block for the list
of its values does, but for the note, and leaves the enumerator at its first value. -/
theorem agrees_perform_drain (fuel : Nat) {around : List Handle} {s : WatchState σ} (b : Block)
    (hstart : s.store.find? handle = some (.atStart values))
    (hnever : NeverTouches cx handle ⟨.each scope children values, s.store, around⟩) :
    Agrees (fun s t => s.store.find? handle = some (.atStart values) ∧ t.store = s.store ∧
        t.out = s.out)
      (perform o cx (fuel + 1) scope (.block (.each values) b children) s)
      (perform o cx (fuel + 1) scope (.block (.drain handle) b children) s) := by
  have hnoted : s.Apart handle values values { s with drained := s.drained ++ [handle] } :=
    ⟨hstart, (Store.place_of_atStart hstart).symm, rfl⟩
  have hloop := agrees_loop (o := o) fuel hnoted hnever
  -- The block for the enumerator is its loop with a reset behind it, from a state with a note.
  show Agrees _ (each o cx fuel scope children values s)
    ((drain o cx fuel scope children handle { s with drained := s.drained ++ [handle] }).map _)
  generalize each o cx fuel scope children values s = run at hloop ⊢
  generalize drain o cx fuel scope children handle { s with drained := s.drained ++ [handle] } = run'
    at hloop ⊢
  cases hloop with
  | none => exact .none
  | @some ended ended' hended =>
    obtain ⟨hresult, rest, hapart⟩ := hended
    refine .some ⟨hresult, hapart.start, ?_, hapart.out⟩
    show ended'.2.store.reset handle = ended.2.store
    rw [hapart.store, Store.reset_place hapart.start]

end Watch

section Blocks

variable {cx : RenderContext} {scope : Scope} {children : List Token} {handle : Handle}
  {values : List Value} {fuel : Nat} {around : List Handle}

/-- A block that goes through an enumerator at its first value has the text of a block for the list
of its values. It leaves the enumerator at its first value. -/
theorem Direct.perform_drain_eq {store : Store} (b : Block)
    (hstart : store.find? handle = some (.atStart values))
    (hnever : NeverTouches cx handle ⟨.each scope children values, store, around⟩) :
    (perform cx (fuel + 1) scope (.block (.drain handle) b children)).runOn store =
        (perform cx (fuel + 1) scope (.block (.each values) b children)).runOn store ∧
      ∀ result after,
        (perform cx (fuel + 1) scope (.block (.drain handle) b children)).runOn store =
          some (result, after) → after.find? handle = some (.atStart values) := by
  have hall := (Watch.agreesDirect_all cx (fuel + 1)).2.1 scope
  have hwatched := Watch.agrees_perform_drain (o := .direct) fuel
    (s := ⟨store, [], []⟩) b hstart hnever
  rw [runOn, runOn, (hall (.block (.drain handle) b children)).eq_map,
    (hall (.block (.each values) b children)).eq_map]
  constructor
  · refine hwatched.map_eq fun result s t hst => ?_
    obtain ⟨_, hstore, hout⟩ := hst
    simp only [hstore, hout]
  · intro result after hrun
    obtain ⟨⟨_, state⟩, hended, heq⟩ := Option.map_eq_some_iff.1 hrun
    obtain ⟨_, rfl⟩ := Prod.mk.inj heq
    obtain ⟨s, hkept, hstore, _⟩ := hwatched.exists_related hended
    rw [hstore]
    exact hkept

/-- A block that goes through an enumerator at its first value writes to a sink what a block for the
list of its values writes, and ends alike. It leaves the enumerator at its first value. -/
theorem Stream.perform_drain_eq {state : StreamState} (b : Block)
    (hstart : state.store.find? handle = some (.atStart values))
    (hnever : NeverTouches cx handle ⟨.each scope children values, state.store, around⟩) :
    (perform cx (fuel + 1) scope (.block (.drain handle) b children)).runOn state =
        (perform cx (fuel + 1) scope (.block (.each values) b children)).runOn state ∧
      ∀ result after,
        (perform cx (fuel + 1) scope (.block (.drain handle) b children)).runOn state =
          some (result, after) → after.store.find? handle = some (.atStart values) := by
  have hall := (Watch.agreesStream_all cx (fuel + 1)).2.1 scope
  have hwatched := Watch.agrees_perform_drain (o := .stream) fuel
    (s := ⟨state.store, state.sink, []⟩) b hstart hnever
  have hdrain := hall (.block (.drain handle) b children) ⟨state.store, state.sink, []⟩
  have heach := hall (.block (.each values) b children) ⟨state.store, state.sink, []⟩
  rw [runOn, runOn, hdrain, heach]
  constructor
  · refine hwatched.map_eq fun result s t hst => ?_
    obtain ⟨_, hstore, hout⟩ := hst
    simp only [hstore, hout]
  · intro result after hrun
    obtain ⟨⟨_, ended⟩, hended, heq⟩ := Option.map_eq_some_iff.1 hrun
    obtain ⟨_, rfl⟩ := Prod.mk.inj heq
    obtain ⟨s, hkept, hstore, _⟩ := hwatched.exists_related hended
    show ended.store.find? handle = _
    rw [hstore]
    exact hkept

end Blocks

end Stencil
