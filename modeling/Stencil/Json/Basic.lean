import Stencil.Entries

/-!
# `Stencil.Json.Basic`: JSON documents

A document is null, a truth value, a number, a text, a list, or an object. Numbers written
without point and exponent are kept apart from doubles, so that a document says which of the two
it holds. An object lists its entries by ascending key, each key once.
-/

set_option autoImplicit false

namespace Stencil

/-- A JSON document. -/
inductive Json where
  | null
  | bool (b : Bool)
  /-- A number without point and exponent. -/
  | int (n : Int)
  /-- Any other number. -/
  | float (x : Float)
  | str (s : String)
  | arr (items : List Json)
  /-- The entries by ascending key, each key once. -/
  | obj (entries : List (String × Json))
deriving Inhabited

namespace Json

/-- The value under a key of an object. -/
def get? (j : Json) (key : String) : Option Json :=
  match j with
  | .obj entries => valueAt? key entries
  | _ => none

/-- An object of the given entries; of two with the same key the later one stays. -/
def ofEntries (entries : List (String × Json)) : Json :=
  .obj (entries.foldl (fun sorted (key, value) => insertEntry key value sorted) [])

end Json

end Stencil
