import Stencil.Helper.Basic
import Stencil.Value.Format

/-!
# `Stencil.Helper.Coercion`: arguments of the declared type

An argument that is not of the type that its helper declares is converted: numbers and truth
values to text and back in the locale of the render, numbers and truth values among each other.
Where a number or a truth value is asked for and nothing is found, the argument itself is taken
as a text, so that `5` can be written without quotes.
-/

set_option autoImplicit false

namespace Stencil

open Text Decimal

/-- The integer nearest to a double, the even one of two, if it has 64 bits at most. -/
def roundToInt? (x : Float) : Option Int64 := do
  let n ← (Binary.ofFloat x).nearestInteger?
  if n < Int64.minValue.toInt ∨ Int64.maxValue.toInt < n then none else some (Int64.ofInt n)

/-- The truth value that a text spells, in any case and with blanks around it. -/
def readBool? (text : String) : Option Bool :=
  let word := String.ofList ((trim text.toList).map Char.toLower)
  if word = "true" then some true
  else if word = "false" then some false
  else none

namespace Value

/-- A value of another shape as a value of a type. -/
def change? (l : Locale) (target : ParamType) (v : Value) : Option Value :=
  match target, v with
  | .str, .bool _ | .str, .int _ | .str, .float _ => some (.str (v.format l))
  | .int, .float x => (roundToInt? x).map .int
  | .int, .bool b => some (.int (if b then 1 else 0))
  | .int, .str s => (l.parseInt? s).map .int
  | .float, .int n => some (.float n.toFloat)
  | .float, .bool b => some (.float (if b then 1 else 0))
  | .float, .str s => (l.parseFloat? s).map .float
  | .bool, .int n => some (.bool (n != 0))
  | .bool, .float x => some (.bool (x != 0))
  | .bool, .str s => (readBool? s).map .bool
  | _, _ => none

/-- A value that is not null as a value of a type. -/
def coerce? (l : Locale) (target : ParamType) (v : Value) : Option Value :=
  if target.accepts v.kind then some v else v.change? l target

/-- The value found for an argument as a value of a type. `raw` is the argument as written. -/
def convert? (l : Locale) (target : ParamType) (raw : String) (v : Value) : Option Value :=
  match v with
  -- A name that is not found may be a number or a truth value without quotes.
  | .null => if target.isRequired then (Value.str raw).coerce? l target else none
  | v => v.coerce? l target

end Value

end Stencil
