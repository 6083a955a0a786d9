import Stencil.Json.Basic
import Stencil.Decimal.Layout

/-!
# `Stencil.Json.Writer`: JSON text

Documents are written without blanks. In a string the quote, the backslash and the control
characters are escaped, with the short escapes where there is one. A double shows its point, or
an exponent with its sign when it is 1e16 or more, or less than 1e-5; a NaN or an infinity is
written as null.
-/

set_option autoImplicit false

namespace Stencil.Json

open Decimal

/-- How a double looks in JSON text. -/
def numberLayout : Layout := ⟨.even, some (-5, 16), true, true⟩

/-- The hexadecimal digits of a number, in lower case, with leading zeros up to a width. -/
def hexDigits (width n : Nat) : List Char :=
  let digits := Nat.toDigits 16 n
  List.replicate (width - digits.length) '0' ++ digits

/-- A character inside a string. -/
def escapeChar (c : Char) : List Char :=
  match c with
  | '"' => ['\\', '"']
  | '\\' => ['\\', '\\']
  | '\x08' => ['\\', 'b']
  | '\x0c' => ['\\', 'f']
  | '\n' => ['\\', 'n']
  | '\r' => ['\\', 'r']
  | '\t' => ['\\', 't']
  | c => if c.toNat < 0x20 then '\\' :: 'u' :: hexDigits 4 c.toNat else [c]

/-- The text of a string, with its quotes. -/
def stringText (s : String) : List Char :=
  '"' :: s.toList.flatMap escapeChar ++ ['"']

/-- The text of a double, or null if it is not finite. -/
def floatText (x : Float) : List Char :=
  match Binary.ofFloat x with
  | .finite .. => (numberLayout.print x).toList
  | _ => "null".toList

mutual

/-- Writes a document before the text that follows it. -/
def writeBefore (rest : List Char) : Json → List Char
  | .null => "null".toList ++ rest
  | .bool b => (if b then "true" else "false").toList ++ rest
  | .int n => (toString n).toList ++ rest
  | .float x => floatText x ++ rest
  | .str s => stringText s ++ rest
  | .arr items => '[' :: writeItemsBefore (']' :: rest) items
  | .obj entries => '\x7b' :: writeEntriesBefore ('\x7d' :: rest) entries

/-- Writes the items of a list, with commas between them. -/
def writeItemsBefore (rest : List Char) : List Json → List Char
  | [] => rest
  | [j] => writeBefore rest j
  | j :: js => writeBefore (',' :: writeItemsBefore rest js) j

/-- Writes the entries of an object, with commas between them. -/
def writeEntriesBefore (rest : List Char) : List (String × Json) → List Char
  | [] => rest
  | [(key, j)] => stringText key ++ ':' :: writeBefore rest j
  | (key, j) :: more =>
    stringText key ++ ':' :: writeBefore (',' :: writeEntriesBefore rest more) j

end

/-- The text of a document. -/
def render (j : Json) : String :=
  String.ofList (writeBefore [] j)

end Stencil.Json
