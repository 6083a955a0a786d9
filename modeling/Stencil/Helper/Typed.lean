import Stencil.Helper.Basic
import Stencil.Decimal.Numeral

/-!
# `Stencil.Helper.Typed`: helpers from typed functions

A Lean function becomes a helper when each of its arguments has a type with `FromValue` and its
result a type with `ToValue`. The types of the arguments are the ones that the helper declares. If
an argument does not fit, as when an integer of 64 bits is asked for as one of 32, the function is
not run and the value is null.
-/

set_option autoImplicit false

namespace Stencil

/-- A type that values can be taken as. -/
class FromValue (α : Type) where
  /-- The type that a helper declares for such an argument. -/
  param : ParamType
  /-- The value as one of the type, if it fits. -/
  ofValue? : Value → Option α

/-- A type that can be given as a value. -/
class ToValue (α : Type) where
  /-- The value for one of the type. -/
  toValue : α → Value

/-- The entries of a map. -/
structure ValueMap where
  entries : List (String × Value)
deriving Inhabited

/-- The integer of a value, if it lies between two bounds. -/
def Value.intWithin? (low high : Int) : Value → Option Int
  | .int n => if low ≤ n.toInt ∧ n.toInt ≤ high then some n.toInt else none
  | _ => none

/-- Any value is taken as it is. -/
instance : FromValue Value where
  param := .any
  ofValue? v := some v

/-- A switch is taken from a switch only; no other value counts as true or false here. -/
instance : FromValue Bool where
  param := .bool
  ofValue?
    | .bool b => some b
    | _ => none

/-- An integer of 64 bits is what a value holds. -/
instance : FromValue Int64 where
  param := .int
  ofValue?
    | .int n => some n
    | _ => none

/-- An integer of 32 bits is refused when the value lies outside its range. -/
instance : FromValue Int32 where
  param := .int
  ofValue? v := (v.intWithin? Int32.minValue.toInt Int32.maxValue.toInt).map Int32.ofInt

/-- A number without sign of 32 bits is refused when the value is negative or too large. -/
instance : FromValue UInt32 where
  param := .int
  ofValue? v := (v.intWithin? 0 (2 ^ 32 - 1)).map fun n => UInt32.ofNat n.toNat

/-- A number without sign of 64 bits is refused when the value is negative. -/
instance : FromValue UInt64 where
  param := .int
  ofValue? v := (v.intWithin? 0 (2 ^ 64 - 1)).map fun n => UInt64.ofNat n.toNat

/-- A double is also taken from an integer, and then is the one nearest to it. -/
instance : FromValue Float where
  param := .float
  ofValue?
    | .float x => some x
    | .int n => some n.toFloat
    | _ => none

/-- A text is taken from a value that is one. -/
instance : FromValue String where
  param := .str
  ofValue? v := v.str?

/-- The items of a list are not looked into. -/
instance : FromValue (List Value) where
  param := .list
  ofValue?
    | .list items => some items
    | _ => none

/-- The entries of a map are not looked into. -/
instance : FromValue ValueMap where
  param := .map
  ofValue?
    | .map entries => some ⟨entries⟩
    | _ => none

/-- A value is its own value. -/
instance : ToValue Value := ⟨id⟩

/-- A switch as a value. -/
instance : ToValue Bool := ⟨.bool⟩

/-- An integer of 64 bits as a value. -/
instance : ToValue Int64 := ⟨.int⟩

/-- An integer of 32 bits always fits. -/
instance : ToValue Int32 := ⟨fun n => .int n.toInt64⟩

/-- A number without sign of 32 bits always fits. -/
instance : ToValue UInt32 := ⟨fun n => .int (Int64.ofNat n.toNat)⟩

/-- A number without sign that is too large for an integer becomes the nearest double. -/
instance : ToValue UInt64 where
  toValue n :=
    if n.toNat < 2 ^ 63 then .int (Int64.ofNat n.toNat)
    else .float (Decimal.Numeral.toFloat ⟨false, n.toNat, 0⟩)

/-- A double as a value. -/
instance : ToValue Float := ⟨.float⟩

/-- A text as a value. -/
instance : ToValue String := ⟨.str⟩

/-- An enumerator as a value. -/
instance : ToValue Handle := ⟨.iter⟩

/-- A map as a value. -/
instance : ToValue ValueMap := ⟨fun m => .map m.entries⟩

/-- A list becomes a list of the values of its items. -/
instance {α : Type} [ToValue α] : ToValue (List α) := ⟨fun xs => .list (xs.map ToValue.toValue)⟩

/-- Where there is nothing, the value is null. -/
instance {α : Type} [ToValue α] : ToValue (Option α) where
  toValue
    | some a => ToValue.toValue a
    | none => .null

/-- A type of functions that can be called with values. -/
class ValueFunction (φ : Type) where
  /-- The types that are declared for the arguments. -/
  params : List ParamType
  /-- The result for some values, or null if one of them is missing or does not fit. -/
  apply : φ → List Value → Value

/-- A result by itself is a function of no arguments. Further values are passed over. -/
instance {α : Type} [ToValue α] : ValueFunction α where
  params := []
  apply a _ := ToValue.toValue a

/-- A function takes the first value as its argument, and is null if there is none or it does not
fit. -/
instance {α φ : Type} [FromValue α] [ValueFunction φ] : ValueFunction (α → φ) where
  params := FromValue.param α :: ValueFunction.params φ
  apply f
    | [] => .null
    | v :: vs =>
      match FromValue.ofValue? v with
      | some a => ValueFunction.apply (f a) vs
      | none => .null

/-- The helper that runs a function of the context and of typed arguments. -/
def Helper.ofFunction {φ : Type} [ValueFunction φ] (identity : Nat) (f : HelperContext → φ) :
    Helper where
  identity := identity
  params := ValueFunction.params φ
  run cx values store := (ValueFunction.apply (f cx) values, store)

end Stencil
