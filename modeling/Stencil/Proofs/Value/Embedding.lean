import Mathlib.Logic.Function.Basic
import Stencil.Proofs.Value.Renaming

/-!
# `Stencil.Proofs.Value.Embedding`: stores inside larger ones

A store is embedded in another one if that has all of its enumerators, under other handles, and
perhaps some more in between (`Store.Embeds`). What is done to an enumerator in the first store and
to its counterpart in the second one keeps them embedded, and so does anything that is done to an
enumerator of the second store that has no counterpart.

Handles that a value does not have do not matter to it. `Value.Within` says that it has only the
first ones, `Scope.Within` and `Store.Closed` say so of what it comes from.
-/

set_option autoImplicit false

namespace Stencil

variable {f g : Handle → Handle} {n : Nat}

/-! ### The handles in values -/

namespace Value

-- By recursion on the value; only the handles that it has matter.
mutual

/-- A value is the same under two kinds of handles that agree on the ones in it. -/
theorem rename_congr : ∀ {v : Value}, (∀ handle ∈ v.handles, f handle = g handle) →
    v.rename f = v.rename g
  | .null, _ => rfl
  | .bool _, _ => rfl
  | .int _, _ => rfl
  | .float _, _ => rfl
  | .str _, _ => rfl
  | .list _, h => congrArg Value.list (renameItems_congr h)
  | .map _, h => congrArg Value.map (renameEntries_congr h)
  | .iter handle, h => congrArg Value.iter (h handle (List.mem_singleton.2 rfl))

/-- Items are the same if the handles in them are. -/
theorem renameItems_congr : ∀ {items : List Value},
    (∀ handle ∈ handlesOfItems items, f handle = g handle) →
      renameItems f items = renameItems g items
  | [], _ => rfl
  | v :: vs, h => by
    rw [renameItems, renameItems, rename_congr fun handle hv => h handle (List.mem_append_left _ hv),
      renameItems_congr fun handle hvs => h handle (List.mem_append_right _ hvs)]

/-- Entries are the same if the handles in them are. -/
theorem renameEntries_congr : ∀ {entries : List (String × Value)},
    (∀ handle ∈ handlesOfEntries entries, f handle = g handle) →
      renameEntries f entries = renameEntries g entries
  | [], _ => rfl
  | (key, v) :: rest, h => by
    rw [renameEntries, renameEntries,
      rename_congr fun handle hv => h handle (List.mem_append_left _ hv),
      renameEntries_congr fun handle hrest => h handle (List.mem_append_right _ hrest)]

end

-- By recursion on the value; each handle is renamed where it stands.
mutual

/-- The handles in a renamed value are the renamed ones, in order. -/
theorem handles_rename (f : Handle → Handle) : ∀ v : Value, (v.rename f).handles = v.handles.map f
  | .null => rfl
  | .bool _ => rfl
  | .int _ => rfl
  | .float _ => rfl
  | .str _ => rfl
  | .list items => handles_renameItems f items
  | .map entries => handles_renameEntries f entries
  | .iter _ => rfl

/-- The handles in renamed items are the renamed ones, in order. -/
theorem handles_renameItems (f : Handle → Handle) : ∀ items : List Value,
    handlesOfItems (renameItems f items) = (handlesOfItems items).map f
  | [] => rfl
  | v :: vs => by
    rw [renameItems, handlesOfItems, handlesOfItems, handles_rename f v, handles_renameItems f vs,
      List.map_append]

/-- The handles in renamed entries are the renamed ones, in order. -/
theorem handles_renameEntries (f : Handle → Handle) : ∀ entries : List (String × Value),
    handlesOfEntries (renameEntries f entries) = (handlesOfEntries entries).map f
  | [] => rfl
  | (_, v) :: rest => by
    rw [renameEntries, handlesOfEntries, handlesOfEntries, handles_rename f v,
      handles_renameEntries f rest, List.map_append]

end

/-- Under its own handles every value is itself. -/
theorem rename_id : rename id = id :=
  funext fun _ => rename_eq_self fun _ _ => rfl

/-- A value names only the first `n` enumerators of a store. -/
def Within (n : Nat) (v : Value) : Prop :=
  ∀ handle ∈ v.handles, handle.index < n

/-- What names only the first enumerators names only the first of more. -/
theorem Within.mono {m : Nat} {v : Value} (h : v.Within n) (hle : n ≤ m) : v.Within m :=
  fun handle hv => Nat.lt_of_lt_of_le (h handle hv) hle

/-- Values that name the first enumerators only are those that other handles for the rest do not
change. -/
theorem within_iff {v : Value} : v.Within n ↔
    ∀ f g : Handle → Handle, (∀ handle : Handle, handle.index < n → f handle = g handle) →
      v.rename f = v.rename g := by
  constructor
  · intro h f g hfg
    exact rename_congr fun handle hv => hfg handle (h handle hv)
  · intro h handle hv
    -- Move all handles from `n` on.
    have hmoved := h id (fun handle => if handle.index < n then handle else ⟨handle.index + 1⟩)
      (by intro handle hlt; simp [hlt])
    have hhandles := congrArg handles hmoved
    rw [handles_rename, handles_rename] at hhandles
    have hself := List.map_inj_left.1 hhandles handle hv
    by_contra hge
    -- Its own handle is among those that were moved, and no handle is its own successor.
    rw [if_neg hge, id] at hself
    have hindex := congrArg Handle.index hself
    simp only at hindex
    omega

/-- A list names the enumerators that its items name. -/
theorem within_list {items : List Value} :
    (Value.list items).Within n ↔ ∀ v ∈ items, v.Within n := by
  induction items with
  | nil => simp [Within, handles, handlesOfItems]
  | cons v vs ih =>
    rw [List.forall_mem_cons, ← ih]
    simp only [Within, handles, handlesOfItems, List.mem_append, or_imp, forall_and]

end Value

/-- A scope names only the first `n` enumerators of a store. -/
def Scope.Within (n : Nat) (s : Scope) : Prop :=
  ∀ v ∈ s.frames, v.Within n

namespace Scope

variable {s : Scope}

/-- A scope that names only the first enumerators names only the first of more. -/
theorem Within.mono {m : Nat} (h : s.Within n) (hle : n ≤ m) : s.Within m :=
  fun v hv => (h v hv).mono hle

/-- A frame that names only the first enumerators is put on such a scope. -/
theorem Within.push (h : s.Within n) {v : Value} (hv : v.Within n) : (s.push v).Within n := by
  intro w hw
  rcases List.mem_cons.1 hw with rfl | hw
  · exact hv
  · exact h w hw

/-- A scope is the same under two kinds of handles that agree on the ones in it. -/
theorem Within.rename_congr (h : s.Within n)
    (hfg : ∀ handle : Handle, handle.index < n → f handle = g handle) :
    s.rename f = s.rename g := by
  have hsame : ∀ v ∈ s.frames, v.rename f = v.rename g := fun v hv =>
    Value.within_iff.1 (h v hv) f g hfg
  obtain ⟨frame, outer⟩ := s
  have hframe := hsame frame (by simp [frames])
  have houter : outer.map (Value.rename f) = outer.map (Value.rename g) :=
    List.map_congr_left fun v hv => hsame v (by simp [frames, hv])
  rw [rename, rename, hframe, houter]

/-- The scope of a view names what the view names. -/
theorem within_root {view : Value} (hview : view.Within n) : (Scope.root view).Within n := by
  intro v hv
  obtain rfl := List.mem_singleton.1 hv
  exact hview

/-- Under its own handles every scope is itself. -/
theorem rename_id (s : Scope) : s.rename id = s := by
  rw [rename, Value.rename_id, List.map_id]
  rfl

/-- What is found in a scope names no other enumerators. -/
theorem Within.lookup (h : s.Within n) (path : String) : (s.lookup path).Within n := by
  refine Value.within_iff.2 fun f g hfg => ?_
  rw [← lookup_rename, ← lookup_rename, h.rename_congr hfg]

end Scope

/-- The values that a helper is called with name no other enumerators than its scope. -/
theorem Registry.within_prepare {r : Registry} {cx : HelperContext} {name : String}
    {args : List Argument} {helper : Helper} {values : List Value} (h : cx.scope.Within n)
    (hprepare : r.prepare cx name args = .ok (helper, values)) : ∀ v ∈ values, v.Within n := by
  intro v hv
  refine Value.within_iff.2 fun f g hfg => ?_
  -- Under handles that agree on the first enumerators the whole call is the same.
  have hcx : cx.rename f = cx.rename g := by
    rw [HelperContext.rename, HelperContext.rename, h.rename_congr hfg]
  have hsame := congrArg (fun cx => r.prepare cx name args) hcx
  simp only [Registry.prepare_rename, hprepare] at hsame
  have hvalues := (Prod.mk.inj (Except.ok.inj hsame)).2
  exact List.map_inj_left.1 hvalues v hv

/-- What is computed of a context and of arguments names no other enumerators than these, if it is
computed alike under other handles. -/
theorem HelperContext.within_of_rename {value : HelperContext → List Value → Value}
    (hrename : ∀ f cx values,
      value (cx.rename f) (values.map (Value.rename f)) = (value cx values).rename f)
    {cx : HelperContext} {values : List Value} (hscope : cx.scope.Within n)
    (hvalues : ∀ v ∈ values, v.Within n) : (value cx values).Within n := by
  refine Value.within_iff.2 fun f g hfg => ?_
  have hcx : cx.rename f = cx.rename g := by
    rw [HelperContext.rename, HelperContext.rename, hscope.rename_congr hfg]
  have hargs : values.map (Value.rename f) = values.map (Value.rename g) :=
    List.map_congr_left fun v hv => Value.within_iff.1 (hvalues v hv) f g hfg
  rw [← hrename, ← hrename, hcx, hargs]

/-! ### Stores -/

/-- The enumerator with other handles. -/
def Enumerator.rename (f : Handle → Handle) (e : Enumerator) : Enumerator :=
  ⟨e.values.map (Value.rename f), e.remaining.map (Value.rename f)⟩

/-- Under its own handles every enumerator is itself. -/
theorem Enumerator.rename_id (e : Enumerator) : e.rename id = e := by
  rw [rename, Value.rename_id, List.map_id, List.map_id]

/-- An enumerator moves on under other handles. -/
theorem Enumerator.advance_rename (f : Handle → Handle) (e : Enumerator) :
    e.advance.rename f = (e.rename f).advance := by
  simp only [advance, rename, List.map_tail]

/-- An enumerator is put back under other handles. -/
theorem Enumerator.rewind_rename (f : Handle → Handle) (e : Enumerator) :
    e.rewind.rename f = (e.rename f).rewind := rfl

namespace Store

variable {a b : Store}

/-- A change of an enumerator makes no new one. -/
@[simp] theorem size_update (s : Store) (h : Handle) (change : Enumerator → Enumerator) :
    (s.update h change).enumerators.size = s.enumerators.size :=
  Array.size_modify

/-- A reset makes no new enumerator. -/
@[simp] theorem size_reset (s : Store) (h : Handle) :
    (s.reset h).enumerators.size = s.enumerators.size :=
  s.size_update h _

/-- A step makes no new enumerator. -/
@[simp] theorem size_next (s : Store) (h : Handle) :
    (s.next h).2.enumerators.size = s.enumerators.size := by
  rw [next]
  cases s.find? h with
  | none => rfl
  | some e => exact s.size_update h _

/-- A handle names nothing if there are not so many enumerators. -/
theorem find?_eq_none_iff {s : Store} {h : Handle} :
    s.find? h = none ↔ s.enumerators.size ≤ h.index :=
  Array.getElem?_eq_none_iff

/-- A handle that names an enumerator is smaller than the number of those. -/
theorem lt_of_find? {s : Store} {h : Handle} {e : Enumerator} (hfind : s.find? h = some e) :
    h.index < s.enumerators.size :=
  (Array.getElem?_eq_some_iff.1 hfind).1

/-- A new enumerator leaves the others as they are. -/
theorem find?_fresh_of_lt {s : Store} (values : List Value) {h : Handle}
    (hlt : h.index < s.enumerators.size) : (s.fresh values).2.find? h = s.find? h :=
  (Array.getElem?_push_lt hlt).trans (Array.getElem?_eq_getElem hlt).symm

/-- A new enumerator stands at the first of its values. -/
theorem find?_fresh_self (s : Store) (values : List Value) :
    (s.fresh values).2.find? (s.fresh values).1 = some (.atStart values) :=
  Array.getElem?_push_size

/-- A step gives the first of the values that are left, and moves on. -/
theorem next_eq {s : Store} {h : Handle} (hlt : h.index < s.enumerators.size) :
    s.next h = ((s.remaining h).head?, s.update h Enumerator.advance) := by
  have hfind : s.find? h = some s.enumerators[h.index] := Array.getElem?_eq_getElem hlt
  rw [next, remaining, hfind]
  rfl

/-- After a step there is a value less to give, if there was one. -/
theorem remaining_advance (s : Store) (h : Handle) :
    (s.update h Enumerator.advance).remaining h = (s.remaining h).tail := by
  rw [remaining, remaining, find?_update_self]
  cases s.find? h with
  | none => rfl
  | some e => rfl

/-- The second store has the enumerators of the first one, under other handles. Those that are made
in both from now on have corresponding handles. -/
structure Embeds (f : Handle → Handle) (a b : Store) : Prop where
  injective : Function.Injective f
  behind : ∀ i, f ⟨a.enumerators.size + i⟩ = ⟨b.enumerators.size + i⟩
  find? : ∀ h : Handle, b.find? (f h) = (a.find? h).map (Enumerator.rename f)

namespace Embeds

/-- The same change of an enumerator in both stores. -/
theorem update (hs : Embeds f a b) (h : Handle) {change : Enumerator → Enumerator}
    (hchange : ∀ e, (change e).rename f = change (e.rename f)) :
    Embeds f (a.update h change) (b.update (f h) change) where
  injective := hs.injective
  behind i := by
    rw [size_update, size_update]
    exact hs.behind i
  find? other := by
    by_cases heq : other = h
    · subst heq
      rw [find?_update_self, find?_update_self, hs.find? other]
      cases a.find? other with
      | none => rfl
      | some e => exact congrArg some (hchange e).symm
    -- Handles in the larger store are different if they are different in the smaller one.
    · rw [find?_update_of_ne _ _ (hs.injective.ne heq), find?_update_of_ne _ _ heq]
      exact hs.find? other

/-- A change of an enumerator that only the second store has. -/
theorem update_other (hs : Embeds f a b) {h : Handle} (hother : ∀ g, f g ≠ h)
    (change : Enumerator → Enumerator) : Embeds f a (b.update h change) where
  injective := hs.injective
  behind i := by
    rw [size_update]
    exact hs.behind i
  find? g := by
    rw [find?_update_of_ne _ _ (hother g)]
    exact hs.find? g

/-- A step gives the same value in both stores, but for the handles. -/
theorem next (hs : Embeds f a b) (h : Handle) :
    (b.next (f h)).1 = (a.next h).1.map (Value.rename f) ∧
      Embeds f (a.next h).2 (b.next (f h)).2 := by
  have hfind := hs.find? h
  rw [Store.next, Store.next, hfind]
  cases ha : a.find? h with
  | none => exact ⟨rfl, hs⟩
  | some e =>
    refine ⟨?_, hs.update h fun e => e.advance_rename f⟩
    show (e.rename f).remaining.head? = e.remaining.head?.map _
    rw [Enumerator.rename, List.head?_map]

/-- A reset in both stores. -/
theorem reset (hs : Embeds f a b) (h : Handle) : Embeds f (a.reset h) (b.reset (f h)) :=
  hs.update h fun e => e.rewind_rename f

/-- Both stores have a handle, or neither has. -/
theorem lt_iff (hs : Embeds f a b) (h : Handle) :
    (f h).index < b.enumerators.size ↔ h.index < a.enumerators.size := by
  have hnone : b.find? (f h) = none ↔ a.find? h = none := by
    rw [hs.find? h, Option.map_eq_none_iff]
  rw [find?_eq_none_iff, find?_eq_none_iff] at hnone
  omega

/-- A new enumerator in both stores. -/
theorem fresh (hs : Embeds f a b) (values : List Value) :
    (b.fresh (values.map (Value.rename f))).1 = f (a.fresh values).1 ∧
      Embeds f (a.fresh values).2 (b.fresh (values.map (Value.rename f))).2 := by
  have hhandle : (b.fresh (values.map (Value.rename f))).1 = f (a.fresh values).1 :=
    (hs.behind 0).symm
  refine ⟨hhandle, hs.injective, ?_, ?_⟩
  · intro i
    have hbehind := hs.behind (1 + i)
    simp only [Store.fresh, Array.size_push, Nat.add_assoc]
    exact hbehind
  · intro h
    -- An enumerator that was there, the new one, or none yet.
    rcases Nat.lt_trichotomy h.index a.enumerators.size with hlt | heq | hgt
    · rw [find?_fresh_of_lt _ hlt, find?_fresh_of_lt _ ((hs.lt_iff h).2 hlt)]
      exact hs.find? h
    · obtain rfl : h = (a.fresh values).1 := congrArg Handle.mk heq
      rw [← hhandle, find?_fresh_self, find?_fresh_self]
      rfl
    · -- Behind the new enumerators there are none.
      obtain ⟨i, hi⟩ := Nat.exists_eq_add_of_lt hgt
      obtain rfl : h = ⟨a.enumerators.size + (i + 1)⟩ := congrArg Handle.mk hi
      rw [hs.behind, find?_eq_none_iff.2, find?_eq_none_iff.2]
      · rfl
      · simp only [Store.fresh, Array.size_push]
        omega
      · simp only [Store.fresh, Array.size_push]
        omega

end Embeds

/-- Only enumerators of the store are named in it. -/
def Closed (s : Store) : Prop :=
  ∀ (h : Handle) (e : Enumerator), s.find? h = some e → ∀ v ∈ e.values ++ e.remaining,
    ∀ g ∈ v.handles, g.index < s.enumerators.size

namespace Closed

/-- A change that gives an enumerator no other values brings in no new names. -/
theorem update (hs : a.Closed) (h : Handle) {change : Enumerator → Enumerator}
    (hchange : ∀ e : Enumerator, (change e).values ++ (change e).remaining ⊆
      e.values ++ e.remaining) : (a.update h change).Closed := by
  intro other e' hfind v hv
  rw [size_update]
  by_cases heq : other = h
  · subst heq
    rw [find?_update_self] at hfind
    obtain ⟨e, he, rfl⟩ := Option.map_eq_some_iff.1 hfind
    exact hs other e he v (hchange e hv)
  · rw [find?_update_of_ne _ _ heq] at hfind
    exact hs other e' hfind v hv

/-- A reset brings in no new names. -/
theorem reset (hs : a.Closed) (h : Handle) : (a.reset h).Closed :=
  hs.update h fun e => by simp [Enumerator.rewind, Enumerator.atStart]

/-- A step brings in no new names. -/
theorem next (hs : a.Closed) (h : Handle) : (a.next h).2.Closed := by
  rw [Store.next]
  cases a.find? h with
  | none => exact hs
  | some e =>
    refine hs.update h fun e => ?_
    exact List.append_subset.2 ⟨List.subset_append_left _ _, fun v hv =>
      List.mem_append_right _ (List.mem_of_mem_tail hv)⟩

/-- The values that an enumerator gives name enumerators of the store. -/
theorem within_next (hs : a.Closed) {h : Handle} {v : Value} (hv : (a.next h).1 = some v) :
    v.Within a.enumerators.size := by
  rw [Store.next] at hv
  cases hfind : a.find? h with
  | none => simp [hfind] at hv
  | some e =>
    rw [hfind] at hv
    exact hs h e hfind v (List.mem_append_right _ (List.mem_of_head? hv))

end Closed

end Store

end Stencil
