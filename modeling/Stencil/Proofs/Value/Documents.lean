import Stencil.Proofs.Entries
import Stencil.Value.Document

/-!
# `Stencil.Proofs.Value.Documents`: from values to documents and back

JSON has no form for enumerators, for NaNs and for infinite doubles. `Value.nulled` has null in
place of each of them, however deep it stands, and `Value.hasForm` says that there are none.

`Value.ofJson_toJson` says that a value comes back from its document with just these nulls, and
`Value.comes_back_but_for_nulls` with it that it comes back the same exactly if it has a form.
Integers stay integers and doubles stay doubles, whole or not, because every integer of 64 bits is
in the range that is read as one (`Value.ofInt_toInt`).

The entries of maps are converted where they stand. To collect them into a new map gives the same,
as their keys are in order (`Value.toJson_map_of_ascending`, `Value.ofJson_obj_of_ascending`).
-/

set_option autoImplicit false

namespace Stencil.Value

mutual

/-- The value with null in place of each enumerator, each NaN and each infinite double. -/
def nulled : Value → Value
  | .float x => if x.isNaN || x.isInf then .null else .float x
  | .iter _ => .null
  | .list items => .list (nulledItems items)
  | .map entries => .map (nulledEntries entries)
  | .null => .null
  | .bool b => .bool b
  | .int n => .int n
  | .str s => .str s

/-- The items of a list with nulls. -/
def nulledItems : List Value → List Value
  | [] => []
  | v :: vs => nulled v :: nulledItems vs

/-- The entries of a map with nulls. -/
def nulledEntries : List (String × Value) → List (String × Value)
  | [] => []
  | (key, v) :: rest => (key, nulled v) :: nulledEntries rest

end

mutual

/-- Whether there is no enumerator, no NaN and no infinite double in the value. -/
def hasForm : Value → Bool
  | .float x => !(x.isNaN || x.isInf)
  | .iter _ => false
  | .list items => hasFormItems items
  | .map entries => hasFormEntries entries
  | _ => true

/-- Whether this is so for each item of a list. -/
def hasFormItems : List Value → Bool
  | [] => true
  | v :: vs => hasForm v && hasFormItems vs

/-- Whether this is so for each value in the entries of a map. -/
def hasFormEntries : List (String × Value) → Bool
  | [] => true
  | (_, v) :: rest => hasForm v && hasFormEntries rest

end

/-! ### Numbers -/

/-- A double is finite if it is neither a NaN nor infinite. -/
theorem isFinite_eq (x : Float) : x.isFinite = !(x.isNaN || x.isInf) := by
  simp only [Float.isFinite, Float.isNaN, Float.isInf, Float.Model.isFinite, Float.Model.isNaN,
    Float.Model.isInf]
  cases x.toModel.unpack <;> rfl

/-- An integer of 64 bits is read as the integer that it is. -/
theorem ofInt_toInt (n : Int64) : ofInt n.toInt = .int n := by
  rw [ofInt, if_pos ⟨n.minValue_le_toInt, n.toInt_le⟩, Int64.ofInt_toInt]

/-- A double is read as the double that it is, if there is a form for it. -/
theorem ofJson_toJson_float (x : Float) : ofJson (toJson (.float x)) = nulled (.float x) := by
  rw [toJson, nulled, isFinite_eq]
  cases x.isNaN || x.isInf <;> rfl

/-! ### Values of any depth -/

-- By recursion on the value, over both converters at once.
mutual

/-- A value comes back from its document with null for what has no form. -/
theorem ofJson_toJson : ∀ v : Value, ofJson v.toJson = v.nulled
  | .null => rfl
  | .bool _ => rfl
  | .int n => ofInt_toInt n
  | .float x => ofJson_toJson_float x
  | .str _ => rfl
  | .list items => congrArg Value.list (ofJsonItems_toJsonItems items)
  | .map entries => congrArg Value.map (ofJsonEntries_toJsonEntries entries)
  | .iter _ => rfl

/-- Items come back from their documents in order. -/
theorem ofJsonItems_toJsonItems : ∀ items : List Value,
    ofJsonItems (toJsonItems items) = nulledItems items
  | [] => rfl
  | v :: vs => congrArg₂ List.cons (ofJson_toJson v) (ofJsonItems_toJsonItems vs)

/-- Entries come back from their documents under their keys. -/
theorem ofJsonEntries_toJsonEntries : ∀ entries : List (String × Value),
    ofJsonEntries (toJsonEntries entries) = nulledEntries entries
  | [] => rfl
  | (key, v) :: rest =>
    congrArg₂ List.cons (congrArg (Prod.mk key) (ofJson_toJson v))
      (ofJsonEntries_toJsonEntries rest)

end

-- By recursion on the value; nothing is put in place of null exactly where there is a form.
mutual

/-- Nulls change nothing exactly if all of the value has a form. -/
theorem nulled_eq_self_iff : ∀ v : Value, v.nulled = v ↔ v.hasForm = true
  | .null => by simp [nulled, hasForm]
  | .bool _ => by simp [nulled, hasForm]
  | .int _ => by simp [nulled, hasForm]
  | .float x => by
    rw [nulled, hasForm]
    cases x.isNaN || x.isInf <;> simp
  | .str _ => by simp [nulled, hasForm]
  | .list items => by
    rw [nulled, hasForm, Value.list.injEq, nulledItems_eq_self_iff items]
  | .map entries => by
    rw [nulled, hasForm, Value.map.injEq, nulledEntries_eq_self_iff entries]
  | .iter _ => by simp [nulled, hasForm]

/-- Nulls change no item exactly if all of them have a form. -/
theorem nulledItems_eq_self_iff : ∀ items : List Value,
    nulledItems items = items ↔ hasFormItems items = true
  | [] => by simp [nulledItems, hasFormItems]
  | v :: vs => by
    rw [nulledItems, hasFormItems, List.cons.injEq, nulled_eq_self_iff v,
      nulledItems_eq_self_iff vs, Bool.and_eq_true]

/-- Nulls change no entry exactly if all of their values have a form. -/
theorem nulledEntries_eq_self_iff : ∀ entries : List (String × Value),
    nulledEntries entries = entries ↔ hasFormEntries entries = true
  | [] => by simp [nulledEntries, hasFormEntries]
  | (key, v) :: rest => by
    rw [nulledEntries, hasFormEntries, List.cons.injEq, Prod.mk.injEq, nulled_eq_self_iff v,
      nulledEntries_eq_self_iff rest, Bool.and_eq_true]
    exact and_congr_left' (and_iff_right rfl)

end

/-! ### Maps collected anew -/

/-- Documents stand under the keys of the values. -/
theorem keys_toJsonEntries : ∀ entries : List (String × Value),
    (toJsonEntries entries).map Prod.fst = entries.map Prod.fst
  | [] => rfl
  | (key, _) :: rest => congrArg (key :: ·) (keys_toJsonEntries rest)

/-- Values stand under the keys of the documents. -/
theorem keys_ofJsonEntries : ∀ entries : List (String × Json),
    (ofJsonEntries entries).map Prod.fst = entries.map Prod.fst
  | [] => rfl
  | (key, _) :: rest => congrArg (key :: ·) (keys_ofJsonEntries rest)

/-- To collect the documents of a map's entries into an object loses none of them. -/
theorem toJson_map_of_ascending {entries : List (String × Value)} (h : Ascending entries) :
    toJson (.map entries) = Json.ofEntries (toJsonEntries entries) :=
  congrArg Json.obj (h.of_keys_eq (keys_toJsonEntries entries)).insertAll_eq.symm

/-- To collect the values of an object's entries into a map loses none of them. -/
theorem ofJson_obj_of_ascending {entries : List (String × Json)} (h : Ascending entries) :
    ofJson (.obj entries) = ofEntries (ofJsonEntries entries) :=
  congrArg Value.map (h.of_keys_eq (keys_ofJsonEntries entries)).insertAll_eq.symm

/-! ### There and back -/

/-- Apart from the nulls a value comes back from its document as it was. So it comes back the same
exactly if there is a form for all of it. No entry of a map is lost, also if a new object is made of
the documents of its entries and a new map of what comes back. -/
theorem comes_back_but_for_nulls (v : Value) :
    ofJson v.toJson = v.nulled ∧ (ofJson v.toJson = v ↔ v.hasForm = true) ∧
      ∀ entries, v = .map entries → Ascending entries →
        v.toJson = Json.ofEntries (toJsonEntries entries) ∧
          ofJson v.toJson = ofEntries (nulledEntries entries) := by
  refine ⟨ofJson_toJson v, ?_, ?_⟩
  · rw [ofJson_toJson]
    exact nulled_eq_self_iff v
  · rintro entries rfl h
    refine ⟨toJson_map_of_ascending h, ?_⟩
    -- The keys of the documents are those of the map, and so they are in order, too.
    rw [toJson, ofJson_obj_of_ascending (h.of_keys_eq (keys_toJsonEntries entries)),
      ofJsonEntries_toJsonEntries]

/-- Whole doubles stay doubles next to integers, and what has no form becomes null where it is. -/
theorem comes_back_but_for_nulls_of_mixed_map :
    Ascending [("nan", Value.float (0 / 0)), ("ones", .list [.int 1, .float 1, .iter ⟨0⟩])] ∧
      ofJson (toJson (.map [("nan", .float (0 / 0)),
          ("ones", .list [.int 1, .float 1, .iter ⟨0⟩])])) =
        ofEntries [("nan", .null), ("ones", .list [.int 1, .float 1, .null])] := by
  have h : Ascending [("nan", Value.float (0 / 0)),
      ("ones", .list [.int 1, .float 1, .iter ⟨0⟩])] := by
    simp only [Ascending, List.pairwise_cons]
    decide
  exact ⟨h, ((comes_back_but_for_nulls _).2.2 _ rfl h).2⟩

end Stencil.Value
