import Stencil.Helper.Typed
import Stencil.Text.Replace
import Stencil.Value.Format

/-!
# `Stencil.Helper.ReadyMade`: ready-made helpers

Helpers for arithmetic, texts, lists and numbers of various widths, found by name.
-/

set_option autoImplicit false

namespace Stencil.ReadyMade

open Text Decimal

/-- The 64-bit integer nearest to a whole number. -/
def saturate (n : Int) : Int64 :=
  Int64.ofInt (max Int64.minValue.toInt (min n Int64.maxValue.toInt))

/-- The integers from `start` up to below the integer that lies `count` further, or below the
largest one. -/
def range (start count : Int64) : List Int64 :=
  let stop := (saturate (start.toInt + count.toInt)).toInt
  (List.range (stop - start.toInt).toNat).map fun (i : Nat) => Int64.ofInt (start.toInt + (i : Int))

/-- The largest number of integers that the ready-made `Range` gives. -/
def rangeLimit : Int64 := 1000

/-- An amount of pounds. -/
def formatPounds (amount : Float) : String :=
  "£" ++ fixed 2 amount

/-- A text in capitals, as far as ASCII goes. -/
def upper (text : String) : String :=
  text.map Char.toUpper

/-- A text with every occurrence of another one replaced. -/
def replace (text old new : String) : String :=
  String.ofList (replaceAll old.toList new.toList text.toList)

/-- A number, with a comma unless it is the last item of the list `List` in scope. -/
def printWithComma (cx : HelperContext) (item : Int64) : String :=
  let last? := match cx.lookup "List" with
    | .list items => items.getLast?
    | _ => none
  match last? with
  | some (.int n) => if n = item then toString item.toInt else toString item.toInt ++ ", "
  | _ => toString item.toInt ++ ", "

/-- The items of the list `List` in scope, with commas between them. -/
def printListWithComma (cx : HelperContext) : String :=
  match cx.lookup "List" with
  | .list items => String.intercalate ", " (items.map (·.format cx.locale))
  | _ => ""

/-- The helper of a name, which gets an identity. -/
def find? (name : String) (identity : Nat) : Option Helper :=
  match name with
  | "FormatCurrency" => some (.ofFunction identity fun _ => formatPounds)
  | "Multiply" => some (.ofFunction identity fun _ (a b : Float) => a * b)
  | "Divide" => some (.ofFunction identity fun _ (a b : Float) => a / b)
  | "Upper" => some (.ofFunction identity fun _ => upper)
  | "Replace" => some (.ofFunction identity fun _ => replace)
  | "IfEquals" => some (.ofFunction identity fun _ (a b : Int64) => a == b)
  | "Range" => some (.ofFunction identity fun _ (start count : Int64) =>
      range start (min count rangeLimit))
  | "Not" => some (.ofFunction identity fun _ (b : Bool) => !b)
  | "I32" => some (.ofFunction identity fun _ (n : Int32) => n)
  | "U32" => some (.ofFunction identity fun _ (n : UInt32) => n)
  | "U64" => some (.ofFunction identity fun _ (n : UInt64) => toString n.toNat)
  | "Usize" => some (.ofFunction identity fun _ (n : UInt64) => n)
  | "Len" => some (.ofFunction identity fun _ (items : List Value) => UInt64.ofNat items.length)
  | "Keys" => some (.ofFunction identity fun _ (m : ValueMap) => m.entries.map (·.1))
  | "Positive" => some (.ofFunction identity fun _ (n : Int64) => if 0 < n then some n else none)
  | "Price" => some (.ofFunction identity fun cx => cx.locale.formatFloat)
  | "PrintWithComma" => some (.ofFunction identity printWithComma)
  | "PrintListWithComma" => some (.ofFunction identity printListWithComma)
  | "Any" => some (.ofFunction identity fun cx (v : Value) => v.format cx.locale)
  | "Twice" => some (.ofFunction identity fun cx => cx.body.map fun b => b ++ b)
  | _ => none

end Stencil.ReadyMade
