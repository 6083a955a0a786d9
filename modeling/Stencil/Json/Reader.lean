import Stencil.Json.Basic
import Stencil.Decimal.Numeral

/-!
# `Stencil.Json.Reader`: reading JSON text

`Json.read?` reads a text that is one document, with blanks around it at most. It is strict:
no comments, no trailing commas, no leading zeros, no control characters in strings, no halves of
surrogate pairs, and no numbers beyond the doubles. Lists and objects may be nested up to a given
depth. A number without point and exponent that fits into 64 bits is a whole number, except `-0`,
which is a double because it has a sign. Of two entries with the same key the later one counts.
-/

set_option autoImplicit false

namespace Stencil.Json

open Decimal

/-- Whether a character may stand between the parts of a document. -/
def isGap (c : Char) : Bool :=
  c = ' ' || c = '\t' || c = '\n' || c = '\r'

/-- The text from the next part of the document on. -/
def skipGap (cs : List Char) : List Char :=
  cs.dropWhile isGap

/-- The value of a hexadecimal digit. -/
def hexValue? (c : Char) : Option Nat :=
  if '0' ≤ c ∧ c ≤ '9' then some (c.toNat - '0'.toNat)
  else if 'a' ≤ c ∧ c ≤ 'f' then some (c.toNat - 'a'.toNat + 10)
  else if 'A' ≤ c ∧ c ≤ 'F' then some (c.toNat - 'A'.toNat + 10)
  else none

/-- The unit of 16 bits that the next four digits give. -/
def readUnit? : List Char → Option (Nat × List Char)
  | a :: b :: c :: d :: cs => do
    let a ← hexValue? a
    let b ← hexValue? b
    let c ← hexValue? c
    let d ← hexValue? d
    some (((a * 16 + b) * 16 + c) * 16 + d, cs)
  | _ => none

/-- The character that is given by one unit, or by two that make up a surrogate pair. -/
def readUnits? (cs : List Char) : Option (Char × List Char) := do
  let (first, rest) ← readUnit? cs
  if 0xD800 ≤ first ∧ first ≤ 0xDBFF then
    -- The first half of a pair counts only with the second one right behind it.
    match rest with
    | '\\' :: 'u' :: rest => do
      let (second, rest) ← readUnit? rest
      if 0xDC00 ≤ second ∧ second ≤ 0xDFFF then
        some (Char.ofNat (0x10000 + (first - 0xD800) * 0x400 + (second - 0xDC00)), rest)
      else none
    | _ => none
  else if 0xDC00 ≤ first ∧ first ≤ 0xDFFF then none
  else some (Char.ofNat first, rest)

/-- The character that an escape gives; the text starts after the backslash. -/
def readEscape? : List Char → Option (Char × List Char)
  | '"' :: cs => some ('"', cs)
  | '\\' :: cs => some ('\\', cs)
  | '/' :: cs => some ('/', cs)
  | 'b' :: cs => some ('\x08', cs)
  | 'f' :: cs => some ('\x0c', cs)
  | 'n' :: cs => some ('\n', cs)
  | 'r' :: cs => some ('\r', cs)
  | 't' :: cs => some ('\t', cs)
  | 'u' :: cs => readUnits? cs
  | _ => none

/-- A string and the text after its closing quote. The list holds the characters of the string
that are read already, the last one first. -/
def readString? : Nat → List Char → List Char → Option (String × List Char)
  | 0, _, _ => none
  | _ + 1, _, [] => none
  | fuel + 1, inside, c :: cs =>
    if c = '"' then some (String.ofList inside.reverse, cs)
    else if c = '\\' then do
      let (d, rest) ← readEscape? cs
      readString? fuel (d :: inside) rest
    else if c.toNat < 0x20 then none
    else readString? fuel (c :: inside) cs

/-- A whole number as a document. -/
def ofWhole? (negative : Bool) (digits : List Char) : Option Json :=
  let n := digitsValue digits
  -- A minus sign makes a double of zero, since an integer has no zero with a sign.
  if negative then
    if n ≠ 0 ∧ n ≤ 2 ^ 63 then some (.int (-(n : Int)))
    else ofFloat? (Numeral.toFloat ⟨true, n, 0⟩)
  else if n < 2 ^ 64 then some (.int n)
  else ofFloat? (Numeral.toFloat ⟨false, n, 0⟩)
where
  /-- A double as a document, if it is one of the finite ones. -/
  ofFloat? (x : Float) : Option Json :=
    if x.isFinite then some (.float x) else none

/-- Whether a text starts as a number does: a digit, or a zero that no digit follows. -/
def startsNumber : List Char → Bool
  | '0' :: c :: _ => !c.isDigit
  | c :: _ => c.isDigit
  | [] => false

/-- A number and the text after it. -/
def readNumber? (cs : List Char) : Option (Json × List Char) := do
  let (negative, unsigned) :=
    match cs with
    | '-' :: cs => (true, cs)
    | cs => (false, cs)
  guard (startsNumber unsigned)
  let whole := unsigned.takeWhile Char.isDigit
  let afterWhole := unsigned.dropWhile Char.isDigit
  let (fraction, afterFraction) ←
    match afterWhole with
    | '.' :: cs =>
      let fraction := cs.takeWhile Char.isDigit
      if fraction.isEmpty then none else some (some fraction, cs.dropWhile Char.isDigit)
    | cs => some (none, cs)
  let (exponent, rest) ←
    match afterFraction with
    | c :: cs =>
      if c = 'e' || c = 'E' then
        let (minus, digits) := splitSign cs
        let power := digits.takeWhile Char.isDigit
        if power.isEmpty then none
        else
          let value : Int := digitsValue power
          some (some (if minus then -value else value), digits.dropWhile Char.isDigit)
      else some (none, c :: cs)
    | [] => some (none, [])
  match fraction, exponent with
  | none, none => do
    let j ← ofWhole? negative whole
    some (j, rest)
  | fraction, exponent => do
    let fraction := fraction.getD []
    let n : Numeral :=
      ⟨negative, digitsValue (whole ++ fraction), exponent.getD 0 - fraction.length⟩
    let j ← ofWhole?.ofFloat? n.toFloat
    some (j, rest)

mutual

/-- A document and the text after it. Lists and objects may be nested `depth` levels deep, and
`fuel` is more than the number of characters that are left. -/
def readValue? : Nat → Nat → List Char → Option (Json × List Char)
  | 0, _, _ => none
  | fuel + 1, depth, cs =>
    match skipGap cs with
    | 'n' :: 'u' :: 'l' :: 'l' :: rest => some (.null, rest)
    | 't' :: 'r' :: 'u' :: 'e' :: rest => some (.bool true, rest)
    | 'f' :: 'a' :: 'l' :: 's' :: 'e' :: rest => some (.bool false, rest)
    | '"' :: rest => (readString? fuel [] rest).map fun (s, rest) => (.str s, rest)
    | '[' :: rest =>
      match depth with
      | 0 => none
      | depth + 1 =>
        match skipGap rest with
        | ']' :: rest => some (.arr [], rest)
        | rest => readItems? fuel depth [] rest
    | '\x7b' :: rest =>
      match depth with
      | 0 => none
      | depth + 1 =>
        match skipGap rest with
        | '\x7d' :: rest => some (.obj [], rest)
        | rest => readEntries? fuel depth [] rest
    | rest => readNumber? rest

/-- The items of a list after those in `items`, the last of which comes first. -/
def readItems? : Nat → Nat → List Json → List Char → Option (Json × List Char)
  | 0, _, _, _ => none
  | fuel + 1, depth, items, cs =>
    match readValue? fuel depth cs with
    | none => none
    | some (j, rest) =>
      match skipGap rest with
      | ',' :: rest => readItems? fuel depth (j :: items) rest
      | ']' :: rest => some (.arr (j :: items).reverse, rest)
      | _ => none

/-- The entries of an object after those in `entries`. -/
def readEntries? : Nat → Nat → List (String × Json) → List Char → Option (Json × List Char)
  | 0, _, _, _ => none
  | fuel + 1, depth, entries, cs =>
    match skipGap cs with
    | '"' :: rest =>
      match readString? fuel [] rest with
      | none => none
      | some (key, rest) =>
        match skipGap rest with
        | ':' :: rest =>
          match readValue? fuel depth rest with
          | none => none
          | some (j, rest) =>
            match skipGap rest with
            | ',' :: rest => readEntries? fuel depth (insertEntry key j entries) rest
            | '\x7d' :: rest => some (.obj (insertEntry key j entries), rest)
            | _ => none
        | _ => none
    | _ => none

end

/-- The deepest nesting of lists and objects that `Json.read?` accepts by default. -/
def defaultDepth : Nat := 127

/-- Reads a text that is one document, nested at most `depth` levels deep. -/
def readToDepth? (depth : Nat) (text : String) : Option Json :=
  let cs := text.toList
  -- Every two calls take up a character at least: one opens a list, the other reads its item.
  match readValue? (2 * cs.length + 2) depth cs with
  | some (j, rest) => if (skipGap rest).isEmpty then some j else none
  | none => none

/-- Reads a text that is one document. -/
def read? (text : String) : Option Json :=
  readToDepth? defaultDepth text

end Stencil.Json
