import Stencil.Helper.ReadyMade
import Stencil.Proofs.Helper.Accesses
import Stencil.Proofs.Helper.Enumerating
import Stencil.Proofs.Render.Rewinding
import Stencil.Proofs.Value.Shifting

/-!
# `Stencil.Proofs.Helper.Reach`: what typed helpers reach

A helper from a typed function does not touch the store. If moreover the function treats handles
alike, then the helper leaves enumerators alone, is a function of what it is given, and reaches and
gives no other enumerators (`Helper.reach_ofFunction`).

That a function treats handles alike is said by a relation on its type: `Renames f a a'` for two
elements that differ by handles alone, and for functions that take such arguments to such results.
The ready-made helpers are of this kind (`ReadyMade.reach_of_find?`), so that what is proved of
renders with helpers like these holds of every engine that has only ready-made ones.
-/

set_option autoImplicit false

namespace Stencil

/-- A type whose elements may have handles in them. -/
class Renamable (α : Type) where
  /-- The second element is the first one under other handles. -/
  Renames : (Handle → Handle) → α → α → Prop

open Renamable

/-- Truth values have no handles in them. -/
instance : Renamable Bool := ⟨fun _ => Eq⟩

/-- Integers of 64 bits have no handles in them. -/
instance : Renamable Int64 := ⟨fun _ => Eq⟩

/-- Integers of 32 bits have no handles in them. -/
instance : Renamable Int32 := ⟨fun _ => Eq⟩

/-- Numbers without sign have no handles in them, with 32 bits. -/
instance : Renamable UInt32 := ⟨fun _ => Eq⟩

/-- Numbers without sign have no handles in them, with 64 bits. -/
instance : Renamable UInt64 := ⟨fun _ => Eq⟩

/-- Doubles have no handles in them. -/
instance : Renamable Float := ⟨fun _ => Eq⟩

/-- Texts have no handles in them. -/
instance : Renamable String := ⟨fun _ => Eq⟩

/-- A value differs by handles alone from itself under other handles. -/
instance : Renamable Value := ⟨fun f v v' => v' = v.rename f⟩

/-- A map has handles in the values of its entries, not in its keys. -/
instance : Renamable ValueMap := ⟨fun f m m' => m'.entries = Value.renameEntries f m.entries⟩

/-- Lists differ by handles alone if they do so item by item. -/
instance {α : Type} [Renamable α] : Renamable (List α) := ⟨fun f => List.Forall₂ (Renames f)⟩

/-- Both are missing, or both are there and differ by handles alone. -/
instance {α : Type} [Renamable α] : Renamable (Option α) := ⟨fun f => Option.Rel (Renames f)⟩

/-- Functions differ by handles alone if they take arguments that do so to results that do so. -/
instance {α φ : Type} [Renamable α] [Renamable φ] : Renamable (α → φ) :=
  ⟨fun f g g' => ∀ a a', Renames f a a' → Renames f (g a) (g' a')⟩

/-- Under other handles a value is taken as the same element under other handles. -/
class RenamesFrom (α : Type) [FromValue α] [Renamable α] : Prop where
  ofValue? : ∀ (f : Handle → Handle) (v : Value),
    Option.Rel (Renames f) (FromValue.ofValue? v : Option α) (FromValue.ofValue? (v.rename f))

/-- Elements that differ by handles alone are given as values that do so. -/
class RenamesTo (α : Type) [ToValue α] [Renamable α] : Prop where
  toValue : ∀ (f : Handle → Handle) (a a' : α), Renames f a a' →
    ToValue.toValue a' = (ToValue.toValue a).rename f

/-- Functions that differ by handles alone have results that do so. -/
class RenamesThrough (φ : Type) [ValueFunction φ] [Renamable φ] : Prop where
  apply : ∀ (f : Handle → Handle) (g g' : φ) (vs : List Value), Renames f g g' →
    ValueFunction.apply g' (vs.map (Value.rename f)) = (ValueFunction.apply g vs).rename f

section Values

variable {f : Handle → Handle}

/-- What has no handles in it is related to itself. -/
theorem rel_eq_refl {α : Type} (a? : Option α) : Option.Rel Eq a? a? := by
  cases a? with
  | none => exact .none
  | some a => exact .some rfl

/-- Whether a value is an integer between bounds does not depend on handles. -/
theorem Value.intWithin?_rename (f : Handle → Handle) (low high : Int) (v : Value) :
    (v.rename f).intWithin? low high = v.intWithin? low high := by
  cases v <;> rfl

/-- A value is taken as it is, and so under other handles. -/
instance : RenamesFrom Value := ⟨fun _ _ => .some rfl⟩

/-- A truth value is taken alike under all handles. -/
instance : RenamesFrom Bool where
  ofValue? _ v := by cases v <;> exact rel_eq_refl _

/-- An integer is taken alike under all handles. -/
instance : RenamesFrom Int64 where
  ofValue? _ v := by cases v <;> exact rel_eq_refl _

/-- A double is taken alike under all handles. -/
instance : RenamesFrom Float where
  ofValue? _ v := by cases v <;> exact rel_eq_refl _

/-- A text is taken alike under all handles. -/
instance : RenamesFrom String where
  ofValue? _ v := by cases v <;> exact rel_eq_refl _

/-- An integer of 32 bits is taken alike under all handles. -/
instance : RenamesFrom Int32 where
  ofValue? f v := by
    simp only [FromValue.ofValue?, Value.intWithin?_rename]
    exact rel_eq_refl _

/-- A number without sign of 32 bits is taken alike under all handles. -/
instance : RenamesFrom UInt32 where
  ofValue? f v := by
    simp only [FromValue.ofValue?, Value.intWithin?_rename]
    exact rel_eq_refl _

/-- A number without sign of 64 bits is taken alike under all handles. -/
instance : RenamesFrom UInt64 where
  ofValue? f v := by
    simp only [FromValue.ofValue?, Value.intWithin?_rename]
    exact rel_eq_refl _

/-- Entries have the same keys under other handles. -/
theorem Value.keys_renameEntries (f : Handle → Handle) (entries : List (String × Value)) :
    (renameEntries f entries).map (·.1) = entries.map (·.1) := by
  induction entries with
  | nil => rfl
  | cons entry rest ih => rw [renameEntries, List.map_cons, List.map_cons, ih]

/-- The items of a list are related to the same items under other handles. -/
theorem forall₂_rename (f : Handle → Handle) (items : List Value) :
    List.Forall₂ (Renames f) items (items.map (Value.rename f)) :=
  List.forall₂_map_right_iff.2 (List.forall₂_same.2 fun _ _ => rfl)

/-- A list is taken with its items under other handles. -/
instance : RenamesFrom (List Value) where
  ofValue? f v := by
    cases v with
    | list items =>
      rw [Value.rename_list]
      exact .some (forall₂_rename f items)
    | _ => exact .none

/-- A map is taken with its values under other handles. -/
instance : RenamesFrom ValueMap where
  ofValue? f v := by
    cases v with
    | map entries => exact .some rfl
    | _ => exact .none

/-- A truth value is given without handles. -/
instance : RenamesTo Bool := ⟨by rintro f a _ rfl; rfl⟩

/-- An integer of 64 bits is given without handles. -/
instance : RenamesTo Int64 := ⟨by rintro f a _ rfl; rfl⟩

/-- An integer of 32 bits is given without handles. -/
instance : RenamesTo Int32 := ⟨by rintro f a _ rfl; rfl⟩

/-- A number without sign of 32 bits is given without handles. -/
instance : RenamesTo UInt32 := ⟨by rintro f a _ rfl; rfl⟩

/-- A double is given without handles. -/
instance : RenamesTo Float := ⟨by rintro f a _ rfl; rfl⟩

/-- A text is given without handles. -/
instance : RenamesTo String := ⟨by rintro f a _ rfl; rfl⟩

/-- A number without sign of 64 bits is given as an integer or as a double, and both have no
handles. -/
instance : RenamesTo UInt64 where
  toValue := by
    rintro f n _ rfl
    simp only [ToValue.toValue]
    split <;> rfl

/-- A list is given item by item. -/
instance {α : Type} [ToValue α] [Renamable α] [RenamesTo α] : RenamesTo (List α) where
  toValue := by
    intro f xs xs' h
    show Value.list (xs'.map ToValue.toValue) = (Value.list (xs.map ToValue.toValue)).rename f
    rw [Value.rename_list]
    refine congrArg Value.list ?_
    -- Item by item, since the lists are related so.
    induction h with
    | nil => rfl
    | cons hfirst hrest ih => rw [List.map_cons, RenamesTo.toValue f _ _ hfirst, ih]; rfl

/-- A missing element is null under all handles. -/
instance {α : Type} [ToValue α] [Renamable α] [RenamesTo α] : RenamesTo (Option α) where
  toValue := by
    intro f a? a?' h
    cases h with
    | none => rfl
    | @some a a' h =>
      show ToValue.toValue a' = (ToValue.toValue a).rename f
      exact RenamesTo.toValue f a a' h

/-- A result by itself is given as a value, whatever the arguments are. -/
instance {α : Type} [ToValue α] [Renamable α] [RenamesTo α] : RenamesThrough α where
  apply f g g' _ h := RenamesTo.toValue f g g' h

/-- A function whose argument and result treat handles alike does so itself. -/
instance {α φ : Type} [FromValue α] [Renamable α] [RenamesFrom α] [ValueFunction φ] [Renamable φ]
    [RenamesThrough φ] : RenamesThrough (α → φ) where
  apply := by
    intro f g g' vs h
    cases vs with
    | nil => rfl
    | cons v vs =>
      show (match (FromValue.ofValue? (v.rename f) : Option α) with
          | some a => ValueFunction.apply (g' a) (vs.map (Value.rename f))
          | none => .null) =
        (match (FromValue.ofValue? v : Option α) with
          | some a => ValueFunction.apply (g a) vs
          | none => .null).rename f
      -- The first argument fits in both calls or in neither.
      have hargument := RenamesFrom.ofValue? (α := α) f v
      generalize (FromValue.ofValue? v : Option α) = a? at hargument ⊢
      generalize (FromValue.ofValue? (v.rename f) : Option α) = a?' at hargument ⊢
      cases hargument with
      | none => rfl
      | some hrenames => exact RenamesThrough.apply f _ _ vs (h _ _ hrenames)

end Values

/-! ### Helpers -/

/-- A helper that does not touch the store is a function of its context and its arguments if it gives
renamed values for renamed ones. -/
theorem Helper.uniform_of_run_eq {n : Nat} {h : Helper} {value : HelperContext → List Value → Value}
    (hrun : ∀ cx values store, h.run cx values store = (value cx values, store))
    (hrename : ∀ f cx values,
      value (cx.rename f) (values.map (Value.rename f)) = (value cx values).rename f) :
    h.Uniform n := by
  intro k cx values a b hs
  rw [hrun, hrun]
  exact ⟨hrename _ cx values, hs⟩

/-- A helper that does not touch the store gives no enumerators but those that it is given, if it
gives renamed values for renamed ones. -/
theorem Helper.staysBelow_of_run_eq {n : Nat} {h : Helper}
    {value : HelperContext → List Value → Value}
    (hrun : ∀ cx values store, h.run cx values store = (value cx values, store))
    (hrename : ∀ f cx values,
      value (cx.rename f) (values.map (Value.rename f)) = (value cx values).rename f) :
    h.StaysBelow n := by
  intro cx values store hscope hvalues hstore
  rw [hrun]
  exact ⟨HelperContext.within_of_rename hrename hscope hvalues, hstore,
    fun handle _ => avoids_of_run_eq (hrun cx values)⟩

/-- A helper from a typed function that treats handles alike leaves enumerators alone, is a function
of its context and arguments, and reaches no other enumerators than it is given. -/
theorem Helper.reach_ofFunction {φ : Type} [ValueFunction φ] [Renamable φ] [RenamesThrough φ]
    (identity : Nat) {g : HelperContext → φ}
    (hg : ∀ f cx, Renames f (g cx) (g (cx.rename f))) :
    (ofFunction identity g).LeavesAlone ∧
      ∀ n, (ofFunction identity g).Uniform n ∧ (ofFunction identity g).Local n ∧
        (ofFunction identity g).StaysBelow n := by
  -- The context and the arguments have their handles changed together.
  have hrename : ∀ f cx values,
      ValueFunction.apply (g (cx.rename f)) (values.map (Value.rename f)) =
        (ValueFunction.apply (g cx) values).rename f :=
    fun f cx values => RenamesThrough.apply f _ _ values (hg f cx)
  refine ⟨fun cx values store => store.extends_refl, fun n => ⟨?_, ?_, ?_⟩⟩
  · exact uniform_of_run_eq (fun _ _ _ => rfl) hrename
  · exact local_of_run_eq (fun _ _ _ => rfl) hrename
  · exact staysBelow_of_run_eq (fun _ _ _ => rfl) hrename

namespace ReadyMade

variable {f : Handle → Handle}

/-- The last item of a list in scope is the same number, if it is one. -/
theorem printWithComma_rename (f : Handle → Handle) (cx : HelperContext) (item : Int64) :
    printWithComma (cx.rename f) item = printWithComma cx item := by
  have hlookup : (cx.rename f).lookup "List" = (cx.lookup "List").rename f :=
    cx.scope.lookup_rename f "List"
  rw [printWithComma, printWithComma, hlookup]
  cases cx.lookup "List" with
  | list items =>
    rw [Value.rename_list]
    simp only [List.getLast?_map]
    cases items.getLast? with
    | none => rfl
    | some v => cases v <;> rfl
  | _ => rfl

/-- The list in scope is shown item by item, and no item shows its handles. -/
theorem printListWithComma_rename (f : Handle → Handle) (cx : HelperContext) :
    printListWithComma (cx.rename f) = printListWithComma cx := by
  have hlookup : (cx.rename f).lookup "List" = (cx.lookup "List").rename f :=
    cx.scope.lookup_rename f "List"
  have hlocale : (cx.rename f).locale = cx.locale := rfl
  rw [printListWithComma, printListWithComma, hlookup]
  cases cx.lookup "List" with
  | list items =>
    rw [Value.rename_list]
    simp only [List.map_map, hlocale]
    exact congrArg _ (List.map_congr_left fun v _ => Value.format_rename f _ v)
  | _ => rfl

/-- The ready-made helpers leave enumerators alone, are functions of their contexts and arguments,
and reach no other enumerators than they are given. -/
theorem reach_of_find? {name : String} {identity : Nat} {h : Helper}
    (hfind : find? name identity = some h) :
    h.LeavesAlone ∧ ∀ n, h.Uniform n ∧ h.Local n ∧ h.StaysBelow n := by
  unfold find? at hfind
  split at hfind
  all_goals first
    | obtain rfl := Option.some.inj hfind
      refine Helper.reach_ofFunction identity fun f cx => ?_
    | cases hfind
  -- One goal for each name. Most arguments and results have no handles.
  · rintro amount _ rfl
    rfl
  · rintro a _ rfl b _ rfl
    rfl
  · rintro a _ rfl b _ rfl
    rfl
  · rintro text _ rfl
    rfl
  · rintro text _ rfl old _ rfl new _ rfl
    rfl
  · rintro a _ rfl b _ rfl
    rfl
  · rintro start _ rfl count _ rfl
    exact List.forall₂_same.2 fun _ _ => rfl
  · rintro b _ rfl
    rfl
  · rintro n _ rfl
    rfl
  · rintro n _ rfl
    rfl
  · rintro n _ rfl
    rfl
  · rintro n _ rfl
    rfl
  -- The size of a list and the keys of a map are the same under other handles.
  · intro items items' hitems
    exact congrArg UInt64.ofNat (List.Forall₂.length_eq hitems)
  · intro m m' hentries
    have hkeys : m'.entries.map (·.1) = m.entries.map (·.1) := by
      rw [hentries, Value.keys_renameEntries]
    show List.Forall₂ Eq (m.entries.map (·.1)) (m'.entries.map (·.1))
    rw [hkeys]
    exact List.forall₂_same.2 fun _ _ => rfl
  · rintro n _ rfl
    exact rel_eq_refl _
  · rintro x _ rfl
    rfl
  · rintro item _ rfl
    exact (printWithComma_rename f cx item).symm
  · exact (printListWithComma_rename f cx).symm
  · rintro v _ rfl
    exact (Value.format_rename f _ v).symm
  · exact rel_eq_refl _

end ReadyMade

end Stencil
