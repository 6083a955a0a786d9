import Stencil.Helper.ReadyMade
import Stencil.Settings

/-!
# `Stencil.Demo`: helpers for invoices

The helpers that the command line renders its templates with: amounts in the currency of the
locale, products, defaults, comparisons and ranges.
-/

set_option autoImplicit false

namespace Stencil.Demo

open Decimal

/-- An amount with two places, the separator of the locale, and its currency if it has one. -/
def formatCurrency (l : Locale) (amount : Float) : String :=
  let number := (fixed 2 amount).map fun c => if c = '.' then l.decimal else c
  match l.tag with
  | "en-GB" => "£" ++ number
  | "en-US" => "$" ++ number
  | "de-DE" => number ++ " €"
  | "fr-FR" => number ++ " €"
  | "ru-RU" => number ++ " ₽"
  | _ => number

/-- A text, or another one if it is empty. -/
def defaultMe (text fallback : String) : String :=
  if text = "" then fallback else text

/-- The helpers that are called by tags of their own. -/
def inlineHelpers : Except RegistryError Registry :=
  Registry.ofList [
    ("FormatCurrency", .ofFunction 0 fun cx => formatCurrency cx.locale),
    ("Multiply", .ofFunction 1 fun _ (a b : Float) => a * b),
    ("DefaultMe", .ofFunction 2 fun _ => defaultMe)]

/-- The helpers that blocks are opened for. -/
def sectionHelpers : Except RegistryError Registry :=
  Registry.ofList [
    ("IfEquals", .ofFunction 3 fun _ (left right : String) => left == right),
    ("Range", .ofFunction 4 fun _ => ReadyMade.range)]

/-- Settings with the helpers for invoices. -/
def addTo (s : Settings) : Except RegistryError Settings := do
  let inline ← inlineHelpers
  let sections ← sectionHelpers
  pure ((s.addHelpers inline).addSectionHelpers sections)

end Stencil.Demo
