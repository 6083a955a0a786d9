import Stencil.Helper.Basic
import Stencil.Value.Format

/-!
# `Stencil.Helper.Formula`: helpers written as data

A formula says how the value of a helper comes from its arguments and its context, without a
function of the host program. Its parts are evaluated in order, each on the store that the one
before it has left.
-/

set_option autoImplicit false

namespace Stencil

/-- A way to compute the value of a helper. -/
inductive Formula where
  /-- A value that is made anew for each call. -/
  | constant (make : Store → Value × Store)
  /-- An argument, or null if there are not so many. -/
  | argument (index : Nat)
  /-- All arguments as a list. -/
  | arguments
  /-- The names of the shapes of all arguments. -/
  | kinds
  /-- The value at a path. -/
  | lookup (path : String)
  /-- The body of the block that the helper stands for, or null. -/
  | body
  /-- That body, repeated. -/
  | repeatedBody (count : Nat)
  /-- The tag and the separators of the locale. -/
  | locale
  /-- Whether two arguments are equal. Two that are missing are. -/
  | equal (i j : Nat)
  /-- The texts of some formulas, joined. -/
  | concat (parts : List Formula)
  /-- The second formula if the first gives a value that counts as true, or else the third. -/
  | choose (condition positive negative : Formula)
  /-- An enumerator. -/
  | enumerator (handle : Handle)
  /-- The next value of an enumerator, or null. -/
  | next (handle : Handle)
deriving Inhabited

namespace Formula

/-- Whether two arguments, each perhaps missing, are equal. -/
def equalArguments : Option Value → Option Value → Bool
  | some a, some b => a == b
  | none, none => true
  | _, _ => false

/-- The tag and the separators of a locale. -/
def ofLocale (l : Locale) : Value :=
  .ofEntries [("tag", .str l.tag), ("decimal", .str (String.singleton l.decimal)),
    ("group", .str (String.singleton l.group))]

mutual

/-- The value of a formula, and the store after it was computed. -/
def eval (cx : HelperContext) (args : List Value) : Formula → Store → Value × Store
  | .constant make, store => make store
  | .argument i, store => (args[i]?.getD .null, store)
  | .arguments, store => (.list args, store)
  | .kinds, store => (.list (args.map fun v => .str v.kind.name), store)
  | .lookup path, store => (cx.lookup path, store)
  | .body, store => ((cx.body.map Value.str).getD .null, store)
  | .repeatedBody count, store =>
    ((cx.body.map fun b => Value.str (String.join (List.replicate count b))).getD .null, store)
  | .locale, store => (ofLocale cx.locale, store)
  | .equal i j, store => (.bool (equalArguments args[i]? args[j]?), store)
  | .concat parts, store =>
    let (text, store) := evalText cx args parts store
    (.str text, store)
  | .choose condition positive negative, store =>
    let (v, store) := eval cx args condition store
    if v.isTruthy then eval cx args positive store else eval cx args negative store
  | .enumerator handle, store => (.iter handle, store)
  | .next handle, store =>
    let (v, store) := store.next handle
    (v.getD .null, store)

/-- The joined texts of some formulas, and the store after they were computed. -/
def evalText (cx : HelperContext) (args : List Value) : List Formula → Store → String × Store
  | [], store => ("", store)
  | part :: parts, store =>
    let (v, store) := eval cx args part store
    let (rest, store) := evalText cx args parts store
    (v.format cx.locale ++ rest, store)

end

end Formula

/-- The helper that computes a formula. -/
def Helper.ofFormula (identity : Nat) (params : List ParamType) (f : Formula) : Helper where
  identity := identity
  params := params
  run cx args store := f.eval cx args store

end Stencil
