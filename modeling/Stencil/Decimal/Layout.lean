import Stencil.Decimal.Shortest

/-!
# `Stencil.Decimal.Layout`: the text of a double

The digits of a double are the shortest that read back. How they are set out is a matter of the
format: up to which magnitudes they are written out in full, whether a whole number shows its
point, and how an exponent looks. `Layout.print` sets them out, `fixed` writes a given number of
places instead.
-/

set_option autoImplicit false

namespace Stencil.Decimal

/-- The way in which a format sets out a double. -/
structure Layout where
  /-- Where the last digit goes when two numerals are equally near. -/
  tie : Tie
  /-- The numbers from `10 ^ a` up to below `10 ^ b` have no exponent; without bounds none has. -/
  bounds : Option (Int × Int)
  /-- Whether a whole number without an exponent ends in `.0`. -/
  showsPoint : Bool
  /-- Whether a positive exponent has a sign. -/
  showsPlus : Bool
deriving Repr

/-- Digits with the point where the power of ten of the last digit puts it. -/
def positional (digits : List Char) (exponent : Int) (showsPoint : Bool) : List Char :=
  if 0 ≤ exponent then
    digits ++ List.replicate exponent.natAbs '0' ++ (if showsPoint then ['.', '0'] else [])
  else
    -- At least one digit stands before the point.
    let places := exponent.natAbs
    let padded := List.replicate (places + 1 - digits.length) '0' ++ digits
    padded.take (padded.length - places) ++ '.' :: padded.drop (padded.length - places)

/-- Digits with the point after the first, and the power of ten of the first. -/
def scientific (digits : List Char) (leading : Int) (showsPlus : Bool) : List Char :=
  let significand :=
    match digits with
    | d :: e :: es => d :: '.' :: e :: es
    | ds => ds
  let sign := if leading < 0 then ['-'] else if showsPlus then ['+'] else []
  significand ++ 'e' :: sign ++ digitsOf leading.natAbs

/-- A numeral in a layout. -/
def Layout.printNumeral (l : Layout) (n : Numeral) : List Char :=
  let digits := digitsOf n.digits
  let leading : Int := n.exponent + digits.length - 1
  let isPositional :=
    n.digits = 0 || (match l.bounds with
      | none => true
      | some (low, high) => low ≤ leading && leading < high)
  let magnitude :=
    if isPositional then positional digits n.exponent l.showsPoint
    else scientific digits leading l.showsPlus
  if n.negative then '-' :: magnitude else magnitude

/-- The text of a double in a layout. -/
def Layout.print (l : Layout) (x : Float) : String :=
  match Binary.ofFloat x with
  | .nan => "NaN"
  | .infinite negative => if negative then "-inf" else "inf"
  | .finite negative mantissa exponent =>
    String.ofList (l.printNumeral (shortest l.tie x negative mantissa exponent))

/-- Numbers shown to a reader never have an exponent, and a whole number has no point. -/
def Layout.plain : Layout := ⟨.up, none, false, false⟩

/-- A double with exactly `places` digits after its point, rounded half to even. The sign of a
negative number stays when it is rounded to zero. -/
def fixed (places : Nat) (x : Float) : String :=
  match Binary.ofFloat x with
  | .nan => "NaN"
  | .infinite negative => if negative then "-inf" else "inf"
  | .finite negative mantissa exponent =>
    let (num, den) := quotient mantissa exponent
    let scaled := roundDiv .even (num * 10 ^ places) den
    let digits := positional (digitsOf scaled) (-(places : Int)) false
    String.ofList (if negative then '-' :: digits else digits)

end Stencil.Decimal
