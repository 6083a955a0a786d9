import Stencil.Text.Blank
import Stencil.Decimal.Layout

/-!
# `Stencil.Locale`: how numbers are written

A locale has a tag, a decimal separator and a group separator. Numbers are shown with the decimal
separator and without groups. A number is read with groups wherever they stand, and a point or
comma that is neither separator is an error.
-/

set_option autoImplicit false

namespace Stencil

open Text Decimal

/-- The separators of a place or culture. -/
structure Locale where
  tag : String
  /-- Stands before the fraction. -/
  decimal : Char
  /-- May stand between groups of digits. -/
  group : Char
deriving DecidableEq, Repr, Inhabited

namespace Locale

/-- The locale of a render that does not choose one. -/
def invariant : Locale := ⟨"", '.', ','⟩

/-- The locales that can be found by their tags. -/
def known : List Locale :=
  [invariant,
    ⟨"en-US", '.', ','⟩,
    ⟨"en-GB", '.', ','⟩,
    ⟨"de-DE", ',', '.'⟩,
    ⟨"fr-FR", ',', '\u202f'⟩,
    ⟨"ru-RU", ',', '\u00a0'⟩]

/-- A tag as it is compared: trimmed, with hyphens, and in ASCII lower case. -/
def normalizeTag (tag : String) : List Char :=
  (trim tag.toList).map fun c => if c = '_' then '-' else c.toLower

/-- The known locale with a tag. Case does not matter, and underscores count as hyphens. -/
def ofTag? (tag : String) : Option Locale :=
  known.find? fun l => l.tag.toList.map Char.toLower = normalizeTag tag

/-- The text of a double. -/
def formatFloat (l : Locale) (x : Float) : String :=
  (Layout.plain.print x).map fun c => if c = '.' then l.decimal else c

/-- Reads an integer of 64 bits with blanks around it. Separators have no place in it. -/
def parseInt? (_ : Locale) (text : String) : Option Int64 := do
  let n ← readInteger? (trim text.toList)
  if n < Int64.minValue.toInt ∨ Int64.maxValue.toInt < n then none else some (Int64.ofInt n)

/-- A text without its group separators and with a point for the decimal separator. The group
separator is looked for first. A point or comma that is neither makes it no number. -/
def normalizeNumber? (l : Locale) : List Char → Option (List Char)
  | [] => some []
  | c :: cs =>
    -- A locale may use one character for both; then it separates groups.
    if c = l.group then l.normalizeNumber? cs
    else if c = l.decimal then (l.normalizeNumber? cs).map ('.' :: ·)
    else if c = '.' || c = ',' then none
    else (l.normalizeNumber? cs).map (c :: ·)

/-- Whether a character may stand in a number. -/
def isNumberChar (c : Char) : Bool :=
  c.isDigit || c = '.' || c = '-' || c = '+' || c = 'e' || c = 'E'

/-- Reads a finite double with blanks around it. -/
def parseFloat? (l : Locale) (text : String) : Option Float := do
  let cs ← l.normalizeNumber? (trim text.toList)
  guard (cs.all isNumberChar)
  let n ← Numeral.read? cs
  guard n.toFloat.isFinite
  some n.toFloat

end Locale

end Stencil
