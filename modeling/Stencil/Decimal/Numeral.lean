import Stencil.Decimal.Nearest

/-!
# `Stencil.Decimal.Numeral`: decimal numerals

A numeral is a sign, a whole number of digits and a power of ten. `Numeral.read?` takes one from
its text, `Numeral.toFloat` gives the double that lies nearest to it, and `readInteger?` reads a
whole number.

`digitsValue_append` says how the value of digits grows with further digits, and
`toFloat_shift` that a zero at the end makes no difference to the double.
-/

set_option autoImplicit false

namespace Stencil.Decimal

/-- The number `digits * 10 ^ exponent`, or its opposite. -/
structure Numeral where
  negative : Bool
  digits : Nat
  exponent : Int
deriving DecidableEq, Repr, Inhabited

/-- The digits of a number, without leading zeros. -/
def digitsOf (n : Nat) : List Char :=
  Nat.toDigits 10 n

/-- The value of a digit. -/
def digitValue (c : Char) : Nat :=
  c.toNat - '0'.toNat

/-- The number that digits write. -/
def digitsValue (cs : List Char) : Nat :=
  cs.foldl (fun n c => n * 10 + digitValue c) 0

/-- No double reaches this power of ten. -/
def largestPower : Int := 310

/-- What lies below this power of ten is rounded to zero. -/
def smallestPower : Int := -330

/-- The numeral without the zeros at its end, at most `fuel` of them. -/
def Numeral.dropZeros : Nat → Numeral → Numeral
  | 0, n => n
  | fuel + 1, n =>
    if n.digits ≠ 0 ∧ n.digits % 10 = 0 then
      Numeral.dropZeros fuel ⟨n.negative, n.digits / 10, n.exponent + 1⟩
    else n

/-- The numeral for the same number that has no zeros at its end. -/
def Numeral.normalize (n : Numeral) : Numeral :=
  n.dropZeros n.digits

/-- The bits of the double nearest to a numeral without its sign. A numeral beyond all doubles
gives the infinity. -/
def Numeral.magnitudeBits (n : Numeral) : Nat :=
  -- The digits make up a number from `2 ^ size` up to `2 ^ (size + 1)`; ten lies between
  -- `2 ^ 3` and `2 ^ 4`.
  let size : Int := n.digits.log2
  if n.digits = 0 then 0
  -- Beyond these powers the answer is known, however large the exponent.
  else if largestPower ≤ size / 4 + n.exponent then infinityBits
  else if size / 3 + 1 + n.exponent ≤ smallestPower then 0
  else if n.exponent < 0 then nearestBits (n.digits * 2 ^ 1074) (10 ^ n.exponent.natAbs)
  else nearestBits (n.digits * 10 ^ n.exponent.natAbs * 2 ^ 1074) 1

/-- The double nearest to a numeral without zeros at its end. The top bit is the sign. -/
def Numeral.nearest (n : Numeral) : Float :=
  let sign := if n.negative then 2 ^ 63 else 0
  Float.ofBits (UInt64.ofNat (sign + n.magnitudeBits))

/-- The double nearest to a numeral. -/
def Numeral.toFloat (n : Numeral) : Float :=
  n.normalize.nearest

/-- The sign that a text may start with, and the rest. -/
def splitSign : List Char → Bool × List Char
  | '-' :: cs => (true, cs)
  | '+' :: cs => (false, cs)
  | cs => (false, cs)

/-- The exponent part of a numeral: nothing, or `e` or `E` and a whole number. -/
def readExponent? : List Char → Option Int
  | [] => some 0
  | c :: cs =>
    if c = 'e' || c = 'E' then
      let (negative, digits) := splitSign cs
      if digits.isEmpty || !digits.all Char.isDigit then none
      else some (if negative then -(digitsValue digits : Int) else digitsValue digits)
    else none

/-- Reads a text that is one numeral: digits with a point before, among or after them, then an
exponent. The digits, the point and the exponent are ASCII, and there is one digit at least
beside the exponent. -/
def Numeral.read? (text : List Char) : Option Numeral :=
  let (negative, unsigned) := splitSign text
  let whole := unsigned.takeWhile Char.isDigit
  let afterWhole := unsigned.dropWhile Char.isDigit
  let (fraction, tail) :=
    match afterWhole with
    | '.' :: cs => (cs.takeWhile Char.isDigit, cs.dropWhile Char.isDigit)
    | cs => ([], cs)
  if whole.isEmpty && fraction.isEmpty then none
  else
    (readExponent? tail).map fun exponent =>
      ⟨negative, digitsValue (whole ++ fraction), exponent - fraction.length⟩

/-- Reads a text that is one whole number, with or without a sign. -/
def readInteger? (text : List Char) : Option Int :=
  let (negative, digits) := splitSign text
  if digits.isEmpty || !digits.all Char.isDigit then none
  else some (if negative then -(digitsValue digits : Int) else digitsValue digits)

/-- Reads a text that is one whole number without a minus sign. -/
def readNatural? (text : List Char) : Option Nat :=
  let digits := match text with
    | '+' :: cs => cs
    | cs => cs
  if digits.isEmpty || !digits.all Char.isDigit then none else some (digitsValue digits)

/-- Reads a text as a double: a numeral, or `inf`, `infinity` or `nan` in any case, each with or
without a sign. -/
def readFloat? (text : List Char) : Option Float :=
  let (negative, unsigned) := splitSign text
  let word := String.ofList (unsigned.map Char.toLower)
  if word = "inf" || word = "infinity" then
    some (Float.ofBits (if negative then 0xFFF0000000000000 else 0x7FF0000000000000))
  else if word = "nan" then some (Float.ofBits 0x7FF8000000000000)
  else (Numeral.read? text).map Numeral.toFloat

/-- Any budget that is not less than the digits gives the same numeral. -/
theorem Numeral.dropZeros_eq {n : Numeral} {f g : Nat} (hf : n.digits ≤ f) (hg : n.digits ≤ g) :
    n.dropZeros f = n.dropZeros g := by
  induction f generalizing n g with
  | zero =>
    have hzero : n.digits = 0 := Nat.le_zero.1 hf
    cases g with
    | zero => rfl
    | succ g => simp [dropZeros, hzero]
  | succ f ih =>
    -- A zero less is also a smaller number, so that the rest of either budget is enough for it.
    cases g with
    | zero => simp [dropZeros, Nat.le_zero.1 hg]
    | succ g =>
      simp only [dropZeros]
      split
      · exact ih (by simp only; omega) (by simp only; omega)
      · rfl

/-- A zero at the end of the digits makes no difference. -/
theorem Numeral.toFloat_shift (negative : Bool) (digits : Nat) (exponent : Int) :
    Numeral.toFloat ⟨negative, digits * 10, exponent⟩ =
      Numeral.toFloat ⟨negative, digits, exponent + 1⟩ := by
  cases digits with
  | zero => cases negative <;> simp [toFloat, normalize, dropZeros, nearest, magnitudeBits]
  | succ d =>
    obtain ⟨k, hk⟩ : ∃ k, (d + 1) * 10 = k + 1 := ⟨d * 10 + 9, by omega⟩
    have hzero : (d + 1) * 10 ≠ 0 ∧ (d + 1) * 10 % 10 = 0 := by omega
    -- One zero is dropped, and either budget is enough for the rest.
    have hstep : Numeral.normalize ⟨negative, (d + 1) * 10, exponent⟩ =
        Numeral.dropZeros k ⟨negative, d + 1, exponent + 1⟩ := by
      have htenth : (d + 1) * 10 / 10 = d + 1 := by omega
      rw [normalize, show Numeral.digits ⟨negative, (d + 1) * 10, exponent⟩ = k + 1 from hk,
        dropZeros, if_pos hzero, htenth]
    rw [toFloat, toFloat, hstep, normalize]
    exact congrArg nearest
      (dropZeros_eq (show d + 1 ≤ k by omega) (Nat.le_refl (d + 1)))

/-- One more digit at the end makes ten times the number and the digit. -/
theorem digitsValue_append (xs : List Char) (c : Char) :
    digitsValue (xs ++ [c]) = digitsValue xs * 10 + digitValue c := by
  simp [digitsValue]

end Stencil.Decimal
