import Stencil.Entries

/-!
# `Stencil.Value.Basic`: the values of a view

A template is rendered with a view, and helpers take and give values of the same kinds: null,
truth values, integers of 64 bits, doubles, texts, lists, maps, and enumerators. An enumerator
is only named here; what it enumerates and how far it has come is kept in a `Store`.
-/

set_option autoImplicit false

namespace Stencil

/-- The name of an enumerator in a store. -/
structure Handle where
  index : Nat
deriving DecidableEq, Repr, Inhabited

/-- A value of a view or of a helper. -/
inductive Value where
  | null
  | bool (b : Bool)
  | int (n : Int64)
  | float (x : Float)
  | str (s : String)
  | list (items : List Value)
  /-- The entries by ascending key, each key once. -/
  | map (entries : List (String × Value))
  /-- A sequence of values that is used up one by one and can be started over. -/
  | iter (handle : Handle)
deriving Inhabited

/-- The shape of a value. -/
inductive ValueKind where
  | null
  | bool
  | int
  | float
  | str
  | list
  | map
  | iter
deriving DecidableEq, Repr, Inhabited

/-- The name of a shape. -/
def ValueKind.name : ValueKind → String
  | .null => "Null"
  | .bool => "Bool"
  | .int => "Int"
  | .float => "Float"
  | .str => "Str"
  | .list => "List"
  | .map => "Map"
  | .iter => "Iter"

namespace Value

/-- The shape of the value. -/
def kind : Value → ValueKind
  | .null => .null
  | .bool _ => .bool
  | .int _ => .int
  | .float _ => .float
  | .str _ => .str
  | .list _ => .list
  | .map _ => .map
  | .iter _ => .iter

/-- Whether a block shows its children for the value. Null, false, the empty text and the empty
list do not count; zero, a NaN, an empty map and an enumerator without values do. -/
def isTruthy : Value → Bool
  | .null => false
  | .bool b => b
  | .str s => s != ""
  | .list items => !items.isEmpty
  | _ => true

/-- The text of the value, if it is one. -/
def str? : Value → Option String
  | .str s => some s
  | _ => none

/-- The value under a key of a map. -/
def get? (v : Value) (key : String) : Option Value :=
  match v with
  | .map entries => valueAt? key entries
  | _ => none

/-- A map of the given entries; of two with the same key the later one stays. -/
def ofEntries (entries : List (String × Value)) : Value :=
  .map (entries.foldl (fun sorted (key, value) => insertEntry key value sorted) [])

mutual

/-- Whether two values are equal. Doubles are compared as numbers, so that a NaN differs from
itself and the two zeros are equal; an integer differs from every double; enumerators are equal
when they are the same one. -/
def equal : Value → Value → Bool
  | .null, .null => true
  | .bool a, .bool b => a == b
  | .int a, .int b => a == b
  | .float a, .float b => a == b
  | .str a, .str b => a == b
  | .list as, .list bs => equalItems as bs
  | .map as, .map bs => equalEntries as bs
  | .iter a, .iter b => a == b
  | _, _ => false

/-- Whether two lists have equal items, one by one. -/
def equalItems : List Value → List Value → Bool
  | [], [] => true
  | a :: as, b :: bs => equal a b && equalItems as bs
  | _, _ => false

/-- Whether two maps have the same keys with equal values. -/
def equalEntries : List (String × Value) → List (String × Value) → Bool
  | [], [] => true
  | (j, a) :: as, (k, b) :: bs => j == k && equal a b && equalEntries as bs
  | _, _ => false

end

/-- The instance is not lawful, since a NaN differs from itself. -/
instance : BEq Value := ⟨equal⟩

end Value

end Stencil
