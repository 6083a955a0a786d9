import Stencil.Decimal.Binary
import Stencil.Decimal.Numeral

/-!
# `Stencil.Decimal.Shortest`: the fewest digits that read back

Of the decimal numerals that read back as a given double, `shortest` gives one with the fewest
digits, and among those the one nearest to the double. Seventeen digits always suffice. On a
grid of decimal numerals only the two neighbours of a number have to be tried: when any numeral
of the grid reads back, one of them does. A finer grid has neighbours that are no farther away,
so that the coarsest grid that will do is found by halving.

`Numeral.choose?_readsAs` says that a numeral found this way does read back, and
`exists_of_firstSome?` that halving gives nothing but what it tried.
-/

set_option autoImplicit false

namespace Stencil.Decimal

/-- Whether a numeral reads back as a double, sign of zero included. -/
def Numeral.readsAs (n : Numeral) (x : Float) : Bool :=
  n.toFloat.toBits == x.toBits

/-- The power of ten of the first digit of `num / den`. -/
def leadingExponent (num den : Nat) : Int :=
  if den ≤ num then ((digitsOf (num / den)).length : Int) - 1
  else
    -- The quotient lies above `10 ^ (-size)` and does not exceed `10 ^ (1 - size)`.
    let size := (digitsOf (den / num)).length
    if den ≤ num * 10 ^ (size - 1) then 1 - (size : Int) else -(size : Int)

/-- The one of two neighbours that reads back as `x`; if both do, `upper` when it is nearer. -/
def Numeral.choose? (x : Float) (lower upper : Numeral) (upperIsNearer : Bool) :
    Option Numeral :=
  if lower.readsAs x then
    if upper.readsAs x && upperIsNearer then some upper else some lower
  else if upper.readsAs x then some upper
  else none

/-- A numeral is chosen only if it reads back as the double. -/
theorem Numeral.choose?_readsAs {x : Float} {lower upper n : Numeral} {upperIsNearer : Bool}
    (h : Numeral.choose? x lower upper upperIsNearer = some n) : n.readsAs x = true := by
  unfold Numeral.choose? at h
  repeat' split at h
  all_goals simp_all

/-- The numeral on the grid of the given power of ten that reads back as the double `x`, whose
magnitude is `num / den`. -/
def candidate? (tie : Tie) (x : Float) (negative : Bool) (num den : Nat) (exponent : Int) :
    Option Numeral :=
  -- The number is `top / bottom` steps of the grid.
  let top := if exponent < 0 then num * 10 ^ exponent.natAbs else num
  let bottom := if exponent < 0 then den else den * 10 ^ exponent.natAbs
  Numeral.choose? x ⟨negative, top / bottom, exponent⟩ ⟨negative, top / bottom + 1, exponent⟩
    (tie.roundsUp (top / bottom) (top % bottom) bottom)

/-- The numeral that is equal to `mantissa * 2 ^ exponent`. -/
def exactNumeral (negative : Bool) (mantissa : Nat) (exponent : Int) : Numeral :=
  if exponent < 0 then ⟨negative, mantissa * 5 ^ exponent.natAbs, exponent⟩
  else ⟨negative, mantissa * 2 ^ exponent.natAbs, 0⟩

/-- The value of `f` at the first of the `2 ^ depth` numbers from `low` on at which it has one. The
search halves the numbers, and so it needs `f` to have a value at all later ones. -/
def firstSome? {α : Type} (f : Nat → Option α) (low : Nat) : Nat → Option α
  | 0 => f low
  | depth + 1 =>
    if (f (low + 2 ^ depth - 1)).isSome then firstSome? f low depth
    else firstSome? f (low + 2 ^ depth) depth

/-- The search gives a value that the function has somewhere. -/
theorem exists_of_firstSome? {α : Type} {f : Nat → Option α} {a : α} {low depth : Nat}
    (h : firstSome? f low depth = some a) : ∃ i, f i = some a := by
  induction depth generalizing low with
  | zero => exact ⟨low, h⟩
  | succ depth ih =>
    simp only [firstSome?] at h
    split at h <;> exact ih h

/-- Seventeen digits always suffice, which are not more than `2 ^ 5`. -/
def searchDepth : Nat := 5

/-- The numeral with the fewest digits that reads back as the double `x`, whose magnitude is
`mantissa * 2 ^ exponent`. -/
def shortest (tie : Tie) (x : Float) (negative : Bool) (mantissa : Nat) (exponent : Int) :
    Numeral :=
  if mantissa = 0 then ⟨negative, 0, 0⟩
  else
    let (num, den) := quotient mantissa exponent
    let leading := leadingExponent num den
    let digits? (i : Nat) := candidate? tie x negative num den (leading - (i : Int))
    match firstSome? digits? 0 searchDepth with
    | some n => n.normalize
    | none => exactNumeral negative mantissa exponent

end Stencil.Decimal
