/-!
# `Stencil.Decimal.Binary`: the value of a double

A double is a NaN, an infinity, or a whole number times a power of two. `Binary.ofFloat` takes
it apart, and `Binary.nearestInteger` rounds the finite ones to whole numbers.

`roundDiv_exact` says that rounding leaves a quotient without remainder alone.
-/

set_option autoImplicit false

namespace Stencil

-- A power is the one of the core library, also where another one is in scope.
attribute [default_instance high, scoped instance (high)] instPowNat

end Stencil

namespace Stencil.Decimal

/-- Which of two neighbours an exact half goes to. -/
inductive Tie where
  /-- The larger one. -/
  | up
  /-- The one whose last digit is even. -/
  | even
deriving DecidableEq, Repr, Inhabited

/-- Whether a number `lower + remainder / divisor` is rounded to `lower + 1`. -/
def Tie.roundsUp (tie : Tie) (lower remainder divisor : Nat) : Bool :=
  match compare (2 * remainder) divisor with
  | .lt => false
  | .gt => true
  | .eq => match tie with
    | .up => true
    | .even => lower % 2 = 1

/-- The whole number nearest to `num / den`. -/
def roundDiv (tie : Tie) (num den : Nat) : Nat :=
  if tie.roundsUp (num / den) (num % den) den then num / den + 1 else num / den

/-- What a double stands for. -/
inductive Binary where
  | nan
  | infinite (negative : Bool)
  /-- The number `mantissa * 2 ^ exponent`, or its opposite. -/
  | finite (negative : Bool) (mantissa : Nat) (exponent : Int)
deriving DecidableEq, Repr, Inhabited

/-- What a double stands for: its top bit is the sign, the next 11 bits the exponent, the rest
the mantissa, to which a leading one belongs unless the exponent is the least. -/
def Binary.ofFloat (x : Float) : Binary :=
  let bits : Nat := x.toBits.toNat
  let negative : Bool := bits / 2 ^ 63 = 1
  let exponent : Nat := bits / 2 ^ 52 % 2 ^ 11
  let fraction : Nat := bits % 2 ^ 52
  -- The largest exponent is kept for what is not finite.
  if exponent = 2047 then
    if fraction = 0 then .infinite negative else .nan
  else if exponent = 0 then .finite negative fraction (-1074)
  else .finite negative (fraction + 2 ^ 52) (exponent - 1075)

/-- A number `mantissa * 2 ^ exponent` as a quotient of whole numbers. -/
def quotient (mantissa : Nat) (exponent : Int) : Nat × Nat :=
  if exponent < 0 then (mantissa, 2 ^ exponent.natAbs) else (mantissa * 2 ^ exponent.natAbs, 1)

/-- The whole number nearest to a finite double, the even one of two. -/
def Binary.nearestInteger? : Binary → Option Int
  | .finite negative mantissa exponent =>
    let (num, den) := quotient mantissa exponent
    let magnitude := roundDiv .even num den
    some (if negative then -(magnitude : Int) else magnitude)
  | _ => none

/-- A quotient that is a whole number needs no rounding. -/
theorem roundDiv_exact (tie : Tie) (n : Nat) {den : Nat} (h : 0 < den) :
    roundDiv tie (n * den) den = n := by
  -- Nothing remains, and twice nothing is less than the divisor.
  have hlt : compare (2 * 0) den = .lt := by
    simp [Nat.compare_eq_lt, h]
  simp [roundDiv, Tie.roundsUp, Nat.mul_div_cancel _ h] at *
  simp [hlt]

end Stencil.Decimal
