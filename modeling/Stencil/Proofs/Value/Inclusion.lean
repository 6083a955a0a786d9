import Stencil.Proofs.Value.Embedding

/-!
# `Stencil.Proofs.Value.Inclusion`: one store inside the other, step by step

An `Inclusion` is a store that is embedded in a larger one, with the handles that its enumerators
have there. In a valid one the inner store names only enumerators of its own. Therefore one more
enumerator can be made in the outer store alone: `Inclusion.Valid.insert` gives the handles after
that.

`Inclusion.Grows` is what a computation on both stores may change. It carries over from one
computation to the next (`Inclusion.Grows.trans`), and says of an enumerator that only the outer
store has that it stays where it is. `Inclusion.Leads` is one step of both stores, with results that
correspond.
-/

set_option autoImplicit false

namespace Stencil

variable {n : Nat}

/-- A store, a larger one, and the handles under which the larger one has the enumerators of the
first. -/
structure Inclusion where
  inner : Store
  outer : Store
  handle : Handle → Handle

namespace Inclusion

variable {m : Nat} {i j k : Inclusion} {h : Handle}

/-- An enumerator that only the outer store has. -/
def Extra (i : Inclusion) (h : Handle) : Prop :=
  ∀ g, i.handle g ≠ h

/-- The inner store is embedded in the outer one and names only enumerators of its own. The first
`n` enumerators have the same handles in both. -/
structure Valid (n : Nat) (i : Inclusion) : Prop where
  embeds : i.inner.Embeds i.handle i.outer
  closed : i.inner.Closed
  le : n ≤ i.inner.enumerators.size
  fixed : ∀ h : Handle, h.index < n → i.handle h = h

/-- After a computation there are more enumerators in both stores, under new handles. The others
still correspond. Among the first `m` of the outer store those that are extra are where they
were. -/
structure Grows (m : Nat) (i j : Inclusion) : Prop where
  le : i.inner.enumerators.size ≤ j.inner.enumerators.size
  leOuter : i.outer.enumerators.size ≤ j.outer.enumerators.size
  same : ∀ h : Handle, h.index < i.inner.enumerators.size → j.handle h = i.handle h
  beyond : ∀ h : Handle, i.inner.enumerators.size ≤ h.index →
    i.outer.enumerators.size ≤ (j.handle h).index
  extra : ∀ h : Handle, h.index < m → i.Extra h → j.outer.find? h = i.outer.find? h

namespace Valid

/-- A handle that the inner store does not have yet is one that the outer store does not have. -/
theorem beyond (hi : i.Valid n) (hle : i.inner.enumerators.size ≤ h.index) :
    i.outer.enumerators.size ≤ (i.handle h).index := by
  have hlt := hi.embeds.lt_iff h
  omega

/-- A change of the stores that makes no new enumerators. -/
theorem grows_of_size {inner outer : Store} (hi : i.Valid n)
    (hinner : inner.enumerators.size = i.inner.enumerators.size)
    (houter : outer.enumerators.size = i.outer.enumerators.size)
    (hextra : ∀ h : Handle, h.index < m → i.Extra h → outer.find? h = i.outer.find? h) :
    i.Grows m ⟨inner, outer, i.handle⟩ where
  le := Nat.le_of_eq hinner.symm
  leOuter := Nat.le_of_eq houter.symm
  same _ _ := rfl
  beyond _ := hi.beyond
  extra := hextra

/-- Nothing changes, and so nothing is lost. -/
theorem grows_refl (hi : i.Valid n) : i.Grows m i :=
  hi.grows_of_size rfl rfl fun _ _ _ => rfl

/-- A change of the stores that keeps one inside the other, under the same handles. -/
theorem of_embeds {inner outer : Store} (hi : i.Valid n) (hembeds : inner.Embeds i.handle outer)
    (hclosed : inner.Closed) (hle : i.inner.enumerators.size ≤ inner.enumerators.size) :
    (⟨inner, outer, i.handle⟩ : Inclusion).Valid n where
  embeds := hembeds
  closed := hclosed
  le := Nat.le_trans hi.le hle
  fixed := hi.fixed

/-- A step of an enumerator that both stores have. -/
theorem next (hi : i.Valid n) (h : Handle) :
    (⟨(i.inner.next h).2, (i.outer.next (i.handle h)).2, i.handle⟩ : Inclusion).Valid n :=
  hi.of_embeds (hi.embeds.next h).2 (hi.closed.next h) (Nat.le_of_eq (i.inner.size_next h).symm)

/-- A step of an enumerator that both stores have leaves the extra ones where they are. -/
theorem grows_next (hi : i.Valid n) (h : Handle) :
    i.Grows m ⟨(i.inner.next h).2, (i.outer.next (i.handle h)).2, i.handle⟩ :=
  hi.grows_of_size (Store.size_next _ _) (Store.size_next _ _) fun _ _ hextra =>
    Store.find?_next_of_ne _ (hextra h).symm

/-- A reset of an enumerator that both stores have. -/
theorem reset (hi : i.Valid n) (h : Handle) :
    (⟨i.inner.reset h, i.outer.reset (i.handle h), i.handle⟩ : Inclusion).Valid n :=
  hi.of_embeds (hi.embeds.reset h) (hi.closed.reset h) (Nat.le_of_eq (i.inner.size_reset h).symm)

/-- A reset of an enumerator that both stores have leaves the extra ones where they are. -/
theorem grows_reset (hi : i.Valid n) (h : Handle) :
    i.Grows m ⟨i.inner.reset h, i.outer.reset (i.handle h), i.handle⟩ :=
  hi.grows_of_size (Store.size_reset _ _) (Store.size_reset _ _) fun _ _ hextra =>
    Store.find?_reset_of_ne _ (hextra h).symm

/-- A change of an enumerator that only the outer store has. -/
theorem update_extra (hi : i.Valid n) (hextra : i.Extra h) (change : Enumerator → Enumerator) :
    (⟨i.inner, i.outer.update h change, i.handle⟩ : Inclusion).Valid n :=
  { hi with embeds := hi.embeds.update_other hextra change }

/-- A change of an enumerator beyond the first `m` leaves those where they are. -/
theorem grows_update_extra (hi : i.Valid n) (hle : m ≤ h.index)
    (change : Enumerator → Enumerator) :
    i.Grows m ⟨i.inner, i.outer.update h change, i.handle⟩ := by
  refine hi.grows_of_size rfl (Store.size_update _ _ _) fun g hlt _ => ?_
  -- The changed enumerator is not among the first ones.
  refine Store.find?_update_of_ne _ _ ?_
  rintro rfl
  omega

end Valid

/-- One more enumerator, which the outer store alone has. Those behind it are moved up. -/
def insert (i : Inclusion) (values : List Value) : Inclusion :=
  ⟨i.inner, (i.outer.fresh values).2, fun h =>
    if h.index < i.inner.enumerators.size then i.handle h else ⟨(i.handle h).index + 1⟩⟩

/-- The index that a handle has after an enumerator was inserted. -/
theorem index_handle_insert (i : Inclusion) (values : List Value) (h : Handle) :
    ((i.insert values).handle h).index =
      if h.index < i.inner.enumerators.size then (i.handle h).index else (i.handle h).index + 1 :=
  apply_ite Handle.index _ _ _

/-- An enumerator that was there keeps its handle. -/
theorem handle_insert_of_lt (values : List Value) (hlt : h.index < i.inner.enumerators.size) :
    (i.insert values).handle h = i.handle h :=
  if_pos hlt

/-- The handles to come move up by one. -/
theorem handle_insert_of_le (values : List Value) (hle : i.inner.enumerators.size ≤ h.index) :
    (i.insert values).handle h = ⟨(i.handle h).index + 1⟩ :=
  if_neg (Nat.not_lt.2 hle)

namespace Valid

/-- The new enumerator has no counterpart. -/
theorem extra_insert (hi : i.Valid n) (values : List Value) :
    (i.insert values).Extra (i.outer.fresh values).1 := by
  -- The inner handles are below the new one or moved above it.
  intro g heq
  have hindex : ((i.insert values).handle g).index = i.outer.enumerators.size :=
    congrArg Handle.index heq
  have hbelow := hi.embeds.lt_iff g
  rw [index_handle_insert] at hindex
  split at hindex <;> omega

/-- The inner store is embedded with one more enumerator in the outer one. -/
theorem embeds_insert (hi : i.Valid n) (values : List Value) :
    i.inner.Embeds (i.insert values).handle (i.outer.fresh values).2 where
  injective := by
    intro g h heq
    have hindex := congrArg Handle.index heq
    -- Handles from the inner store stay below the new one, and the others go above it.
    have hbelow := hi.embeds.lt_iff g
    have hbelow' := hi.embeds.lt_iff h
    rw [index_handle_insert, index_handle_insert] at hindex
    refine hi.embeds.injective (congrArg Handle.mk (?_ : (i.handle g).index = (i.handle h).index))
    split at hindex <;> split at hindex <;> omega
  behind l := by
    rw [handle_insert_of_le values (Nat.le_add_right _ _), hi.embeds.behind]
    simp only [Store.fresh, Array.size_push, Handle.mk.injEq]
    omega
  find? h := by
    by_cases hlt : h.index < i.inner.enumerators.size
    · rw [handle_insert_of_lt values hlt, Store.find?_fresh_of_lt _ ((hi.embeds.lt_iff h).2 hlt),
        hi.embeds.find? h]
      cases hfind : i.inner.find? h with
      | none => rfl
      | some e =>
        -- The handles that occur in it are those of enumerators that were there before.
        have hsame : ∀ v ∈ e.values ++ e.remaining,
            v.rename i.handle = v.rename (i.insert values).handle := fun v hv =>
          Value.rename_congr fun g hg =>
            (handle_insert_of_lt values (hi.closed h e hfind v hv g hg)).symm
        refine congrArg some ?_
        rw [Enumerator.rename, Enumerator.rename,
          List.map_congr_left fun v hv => hsame v (List.mem_append_left _ hv),
          List.map_congr_left fun v hv => hsame v (List.mem_append_right _ hv)]
    · have hle := Nat.not_lt.1 hlt
      have houter := hi.beyond hle
      rw [handle_insert_of_le values hle, Store.find?_eq_none_iff.2 hle, Store.find?_eq_none_iff.2]
      · rfl
      · simp only [Store.fresh, Array.size_push]
        omega

/-- One more enumerator in the outer store alone keeps all else as it was. -/
theorem insert (hi : i.Valid n) (values : List Value) : (i.insert values).Valid n where
  embeds := hi.embeds_insert values
  closed := hi.closed
  le := hi.le
  fixed h hlt :=
    (handle_insert_of_lt values (Nat.lt_of_lt_of_le hlt hi.le)).trans (hi.fixed h hlt)

/-- To insert an enumerator changes none of those that were there. -/
theorem grows_insert (hi : i.Valid n) (hroom : m ≤ i.outer.enumerators.size)
    (values : List Value) : i.Grows m (i.insert values) where
  le := Nat.le_refl _
  leOuter := by simp [Inclusion.insert, Store.fresh]
  same h hlt := handle_insert_of_lt values hlt
  beyond h hle := by
    have houter := hi.beyond hle
    rw [handle_insert_of_le values hle]
    exact Nat.le_succ_of_le houter
  extra _ hlt _ := Store.find?_fresh_of_lt _ (Nat.lt_of_lt_of_le hlt hroom)

end Valid

namespace Grows

/-- An enumerator that only the outer store has gets no counterpart later. -/
theorem extra_of_lt (hg : i.Grows m j) (hlt : h.index < i.outer.enumerators.size)
    (hextra : i.Extra h) : j.Extra h := by
  intro g heq
  by_cases hin : g.index < i.inner.enumerators.size
  · exact hextra g ((hg.same g hin).symm.trans heq)
  -- What is made later gets a handle beyond all that the outer store had.
  · have houter := hg.beyond g (Nat.not_lt.1 hin)
    rw [heq] at houter
    omega

/-- What leaves the first enumerators alone leaves fewer of them alone. -/
theorem mono {l : Nat} (hg : i.Grows m j) (hle : l ≤ m) : i.Grows l j :=
  { hg with extra := fun h hlt => hg.extra h (Nat.lt_of_lt_of_le hlt hle) }

/-- What one computation does and then another one. -/
theorem trans (hij : i.Grows m j) (hjk : j.Grows m k) (hroom : m ≤ i.outer.enumerators.size) :
    i.Grows m k where
  le := Nat.le_trans hij.le hjk.le
  leOuter := Nat.le_trans hij.leOuter hjk.leOuter
  same h hlt := (hjk.same h (Nat.lt_of_lt_of_le hlt hij.le)).trans (hij.same h hlt)
  beyond h hle := by
    -- A new handle comes from the first computation or from the second one.
    by_cases hlt : h.index < j.inner.enumerators.size
    · rw [hjk.same h hlt]
      exact hij.beyond h hle
    · exact Nat.le_trans hij.leOuter (hjk.beyond h (Nat.not_lt.1 hlt))
  extra h hlt hextra := by
    -- It is still extra after the first computation.
    have hlater := hij.extra_of_lt (Nat.lt_of_lt_of_le hlt hroom) hextra
    exact (hjk.extra h hlt hlater).trans (hij.extra h hlt hextra)

/-- What names enumerators of the store is the same under the new handles. -/
theorem rename_eq (hg : i.Grows m j) {v : Value} (hv : v.Within i.inner.enumerators.size) :
    v.rename j.handle = v.rename i.handle :=
  Value.rename_congr fun h hh => hg.same h (hv h hh)

/-- Values that name enumerators of the store are the same under the new handles. -/
theorem map_rename_eq (hg : i.Grows m j) {vs : List Value}
    (hvs : ∀ v ∈ vs, v.Within i.inner.enumerators.size) :
    vs.map (Value.rename j.handle) = vs.map (Value.rename i.handle) :=
  List.map_congr_left fun v hv => hg.rename_eq (hvs v hv)

/-- A scope that names enumerators of the store is the same under the new handles. -/
theorem scope_rename_eq (hg : i.Grows m j) {s : Scope}
    (hs : s.Within i.inner.enumerators.size) : s.rename j.handle = s.rename i.handle :=
  hs.rename_congr fun h hlt => hg.same h hlt

end Grows

/-- The second value is the first one under the handles of the outer store. -/
structure Matches (i : Inclusion) (v v' : Value) : Prop where
  eq : v' = v.rename i.handle
  within : v.Within i.inner.enumerators.size

/-- What is left of an enumerator that only the outer store has. It is not among the first `m`. -/
structure Stands (m : Nat) (i : Inclusion) (vs : List Value) (h : Handle) : Prop where
  within : ∀ v ∈ vs, v.Within i.inner.enumerators.size
  extra : i.Extra h
  le : m ≤ h.index
  lt : h.index < i.outer.enumerators.size
  remaining : i.outer.remaining h = vs.map (Value.rename i.handle)

/-- Two changes of the stores lead to another inclusion, in which their results are related. -/
def Leads {α : Type} (n m : Nat) (i : Inclusion) (related : Inclusion → α → α → Prop)
    (x x' : α × Store) : Prop :=
  ∃ f : Handle → Handle, (⟨x.2, x'.2, f⟩ : Inclusion).Valid n ∧ i.Grows m ⟨x.2, x'.2, f⟩ ∧
    related ⟨x.2, x'.2, f⟩ x.1 x'.1

/-- Stores that are not touched lead to themselves. -/
theorem Valid.leads_refl {α : Type} {related : Inclusion → α → α → Prop} {a a' : α}
    (hi : i.Valid n) (h : related i a a') : i.Leads n m related (a, i.inner) (a', i.outer) :=
  ⟨i.handle, hi, hi.grows_refl, h⟩

/-- What leads on while the first enumerators are left alone does so for fewer of them. -/
theorem Leads.mono {α : Type} {l : Nat} {related : Inclusion → α → α → Prop} {x x' : α × Store}
    (h : i.Leads n m related x x') (hle : l ≤ m) : i.Leads n l related x x' := by
  obtain ⟨f, hvalid, hgrows, hrelated⟩ := h
  exact ⟨f, hvalid, hgrows.mono hle, hrelated⟩

/-- Results that are related are related in any way that follows. -/
theorem Leads.imp {α : Type} {related related' : Inclusion → α → α → Prop} {x x' : α × Store}
    (h : i.Leads n m related x x') (himp : ∀ j a a', related j a a' → related' j a a') :
    i.Leads n m related' x x' := by
  obtain ⟨f, hvalid, hgrows, hrelated⟩ := h
  exact ⟨f, hvalid, hgrows, himp _ _ _ hrelated⟩

/-- What is made of related results. -/
theorem Leads.map {α β : Type} {related : Inclusion → α → α → Prop}
    {related' : Inclusion → β → β → Prop} {x x' : α × Store} {g g' : α → β}
    (h : i.Leads n m related x x')
    (hg : ∀ j a a', i.Grows m j → related j a a' → related' j (g a) (g' a')) :
    i.Leads n m related' (g x.1, x.2) (g' x'.1, x'.2) := by
  obtain ⟨f, hvalid, hgrows, hrelated⟩ := h
  exact ⟨f, hvalid, hgrows, hg _ _ _ hgrows hrelated⟩

/-- The one that is made when an enumerator is inserted stands at the first value. -/
theorem Valid.stands_insert (hi : i.Valid n) (hroom : m ≤ i.outer.enumerators.size)
    {vs : List Value} (hvs : ∀ v ∈ vs, v.Within i.inner.enumerators.size) :
    (i.insert (vs.map (Value.rename i.handle))).Stands m vs
      (i.outer.fresh (vs.map (Value.rename i.handle))).1 where
  within := hvs
  extra := hi.extra_insert _
  le := hroom
  lt := by simp [Inclusion.insert, Store.fresh]
  remaining := by
    -- The values were renamed before the insertion, which renames none of them again.
    rw [(hi.grows_insert hroom _).map_rename_eq hvs]
    show (Store.remaining _ _) = _
    rw [Inclusion.insert, Store.remaining, Store.find?_fresh_self]
    rfl

/-- A step of an enumerator that both stores have gives corresponding values. -/
theorem Valid.leads_next (hi : i.Valid n) (h : Handle) :
    i.Leads n m (fun j => Option.Rel j.Matches) (i.inner.next h) (i.outer.next (i.handle h)) := by
  refine ⟨i.handle, hi.next h, hi.grows_next h, ?_⟩
  have hvalue := (hi.embeds.next h).1
  -- What the inner enumerator gives names enumerators of the inner store.
  have hwithin : ∀ v, (i.inner.next h).1 = some v →
      v.Within (i.inner.next h).2.enumerators.size := by
    intro v hv
    rw [Store.size_next]
    exact hi.closed.within_next hv
  show Option.Rel _ (i.inner.next h).1 (i.outer.next (i.handle h)).1
  rw [hvalue]
  cases hnext : (i.inner.next h).1 with
  | none => exact .none
  | some v => exact .some ⟨rfl, hwithin v hnext⟩

/-- At the end of its values nothing comes next. -/
theorem Stands.next_nil (h' : i.Stands m [] h) :
    i.outer.next h = (none, i.outer.update h Enumerator.advance) := by
  rw [Store.next_eq h'.lt, h'.remaining]
  rfl

/-- The value that comes next, and those that are left after it. -/
theorem Stands.next_cons {v : Value} {vs : List Value} (h' : i.Stands m (v :: vs) h) :
    i.outer.next h = (some (v.rename i.handle), i.outer.update h Enumerator.advance) ∧
      (⟨i.inner, i.outer.update h Enumerator.advance, i.handle⟩ : Inclusion).Stands m vs h := by
  refine ⟨?_, ?_, h'.extra, h'.le, ?_, ?_⟩
  · rw [Store.next_eq h'.lt, h'.remaining]
    rfl
  · exact fun w hw => h'.within w (List.mem_cons_of_mem v hw)
  · rw [Store.size_update]
    exact h'.lt
  · rw [Store.remaining_advance, h'.remaining]
    rfl

/-- It is left alone by what keeps it. -/
theorem Stands.of_grows {l : Nat} {vs : List Value} (h' : i.Stands m vs h) (hg : i.Grows l j)
    (hlt : h.index < l) : j.Stands m vs h where
  within v hv := (h'.within v hv).mono hg.le
  extra := hg.extra_of_lt h'.lt h'.extra
  le := h'.le
  lt := Nat.lt_of_lt_of_le h'.lt hg.leOuter
  remaining := by
    -- The outer enumerator is left where it was, and its values have kept their handles.
    rw [hg.map_rename_eq h'.within, ← h'.remaining, Store.remaining, Store.remaining,
      hg.extra h hlt h'.extra]

end Inclusion

end Stencil
