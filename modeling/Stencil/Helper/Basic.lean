import Stencil.Scope
import Stencil.Locale
import Stencil.Value.Store

/-!
# `Stencil.Helper.Basic`: helpers

A helper is a function that a tag can call. It declares the types of its arguments, sees the
scope and the locale of the render, and, when it stands for a block, the body of that block. It
may step enumerators and make new ones, so it takes and gives back the store.
-/

set_option autoImplicit false

namespace Stencil

/-- The type that an argument of a helper is converted to. -/
inductive ParamType where
  /-- Any value but null, as it is. -/
  | any
  | bool
  | int
  | float
  | str
  | list
  | map
deriving DecidableEq, Repr, Inhabited

namespace ParamType

/-- The name of a type. -/
def name : ParamType → String
  | .any => "Any"
  | .bool => "Bool"
  | .int => "Int"
  | .float => "Float"
  | .str => "Str"
  | .list => "List"
  | .map => "Map"

/-- Whether a missing value is replaced by the text of the argument itself. -/
def isRequired : ParamType → Bool
  | .bool | .int | .float => true
  | _ => false

/-- Whether values of a shape need no conversion. -/
def accepts : ParamType → ValueKind → Bool
  | .any, .null => false
  | .any, _ => true
  | .bool, .bool => true
  | .int, .int => true
  | .float, .float => true
  | .str, .str => true
  | .list, .list => true
  | .map, .map => true
  | _, _ => false

end ParamType

/-- What a helper sees of the render that calls it. -/
structure HelperContext where
  scope : Scope
  locale : Locale
  /-- The text between the tags of the block that the helper stands for. -/
  body : Option String
deriving Inhabited

namespace HelperContext

/-- The value at a path of the scope. -/
def lookup (cx : HelperContext) (path : String) : Value :=
  cx.scope.lookup path

end HelperContext

/-- A function that a tag can call. -/
structure Helper where
  /-- Tells the helper from others, which may declare the same types. -/
  identity : Nat
  /-- The types of the arguments. -/
  params : List ParamType
  /-- The value for arguments of these types. -/
  run : HelperContext → List Value → Store → Value × Store
deriving Inhabited

namespace Helper

/-- The number of arguments that the helper takes. -/
def arity (h : Helper) : Nat :=
  h.params.length

/-- Whether two helpers are the same one. -/
def same (g h : Helper) : Bool :=
  g.identity == h.identity && g.params == h.params

end Helper

end Stencil
