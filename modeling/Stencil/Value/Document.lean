import Stencil.Value.Basic
import Stencil.Json.Writer

/-!
# `Stencil.Value.Document`: values and JSON

`Value.ofJson` takes a document as a value. A whole number that fits into 64 bits with a sign is
an integer, any other number a double. `Value.toJson` gives a value as a document; what JSON has
no form for, an enumerator or a double that is not finite, becomes null.
-/

set_option autoImplicit false

namespace Stencil

namespace Value

/-- A whole number as an integer, or as the nearest double if it does not fit. -/
def ofInt (n : Int) : Value :=
  if Int64.minValue.toInt ≤ n ∧ n ≤ Int64.maxValue.toInt then .int (Int64.ofInt n)
  else .float (Decimal.Numeral.toFloat ⟨n < 0, n.natAbs, 0⟩)

mutual

/-- A document as a value. -/
def ofJson : Json → Value
  | .null => .null
  | .bool b => .bool b
  | .int n => ofInt n
  | .float x => .float x
  | .str s => .str s
  | .arr items => .list (ofJsonItems items)
  | .obj entries => .map (ofJsonEntries entries)

/-- The items of a list as values. -/
def ofJsonItems : List Json → List Value
  | [] => []
  | j :: js => ofJson j :: ofJsonItems js

/-- The entries of an object as entries of a map. -/
def ofJsonEntries : List (String × Json) → List (String × Value)
  | [] => []
  | (key, j) :: rest => (key, ofJson j) :: ofJsonEntries rest

end

mutual

/-- A value as a document. -/
def toJson : Value → Json
  | .null => .null
  | .bool b => .bool b
  | .int n => .int n.toInt
  | .float x => if x.isFinite then .float x else .null
  | .str s => .str s
  | .list items => .arr (toJsonItems items)
  | .map entries => .obj (toJsonEntries entries)
  | .iter _ => .null

/-- The items of a list as documents. -/
def toJsonItems : List Value → List Json
  | [] => []
  | v :: vs => toJson v :: toJsonItems vs

/-- The entries of a map as entries of an object. -/
def toJsonEntries : List (String × Value) → List (String × Json)
  | [] => []
  | (key, v) :: rest => (key, toJson v) :: toJsonEntries rest

end

end Value

end Stencil
