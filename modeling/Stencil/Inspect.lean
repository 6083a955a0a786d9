import Stencil.Settings
import Stencil.Text.InvisibleTable
import Stencil.Text.LowerCase
import Stencil.Value.Basic

/-!
# `Stencil.Inspect`: values and settings for developers

These texts show how a value, a helper or the settings of an engine are made up. They are meant
for messages and tests, not for output: strings are quoted, doubles always show a point or an
exponent, and of an enumerator only its presence is told.
-/

set_option autoImplicit false

namespace Stencil.Inspect

open Text Decimal

/-- How a double looks to developers. -/
def floatLayout : Layout := ⟨.up, some (-4, 16), true, false⟩

/-- A character inside quotes. -/
def character (c : Char) : List Char :=
  match c with
  | '\x00' => ['\\', '0']
  | '\t' => ['\\', 't']
  | '\n' => ['\\', 'n']
  | '\r' => ['\\', 'r']
  | '\\' => ['\\', '\\']
  | '"' => ['\\', '"']
  | c =>
    if inRanges invisibleRanges c.toNat then
      '\\' :: 'u' :: '\x7b' :: Nat.toDigits 16 c.toNat ++ ['\x7d']
    else [c]

/-- A text in quotes. -/
def string (s : String) : String :=
  "\"" ++ String.ofList (s.toList.flatMap character) ++ "\""

/-- Texts with commas between them, in brackets. -/
def list (items : List String) : String :=
  "[" ++ String.intercalate ", " items ++ "]"

mutual

/-- A value. -/
def value : Value → String
  | .null => "Null"
  | .bool b => "Bool(" ++ (if b then "true" else "false") ++ ")"
  | .int n => "Int(" ++ toString n.toInt ++ ")"
  | .float x => "Float(" ++ floatLayout.print x ++ ")"
  | .str s => "Str(" ++ string s ++ ")"
  | .list items => "List(" ++ list (values items) ++ ")"
  | .map entries => "Map(\x7b" ++ String.intercalate ", " (mapEntries entries) ++ "\x7d)"
  | .iter _ => "Iter(SharedEnumerator(..))"

/-- Each of some values. -/
def values : List Value → List String
  | [] => []
  | v :: vs => value v :: values vs

/-- Each entry of a map. -/
def mapEntries : List (String × Value) → List String
  | [] => []
  | (key, v) :: rest => (string key ++ ": " ++ value v) :: mapEntries rest

end

/-- A helper, by the types of its arguments. -/
def helper (h : Helper) : String :=
  let params := "Context" :: h.params.map fun p => "Typed(" ++ p.name ++ ")"
  "HelperRef \x7b params: " ++ list params ++ ", .. \x7d"

/-- The settings of an engine. -/
def settings (s : Settings) : String :=
  "RendererSettings \x7b parsers: " ++ list (s.pipeline.names.map string) ++
    ", token_renderers: " ++ toString s.rules.length ++
    ", section_exclusions: " ++ list (s.excluded.map (·.name)) ++
    ", default_tags: Tags \x7b start: " ++ string s.delimiters.opening ++
    ", end: " ++ string s.delimiters.closing ++ " \x7d \x7d"

end Stencil.Inspect
