import Stencil.Helper.Registry
import Stencil.Helper.Coercion
import Stencil.Template.Token

/-!
# `Stencil.Helper.Call`: calling a helper by name

A call looks its helper up, counts the arguments, finds their values and converts them. A call
that fails on the way does not run the helper and says why; that is not an error of the render.
-/

set_option autoImplicit false

namespace Stencil

/-- A reason why a helper was not run. -/
inductive Refusal where
  /-- There is no helper of this name. -/
  | unknown (name : String)
  /-- The helper takes another number of arguments. -/
  | arity (name : String) (expected given : Nat)
  /-- An argument has no value of the declared type. -/
  | argument (name raw : String) (target : ParamType)
deriving DecidableEq, Repr, Inhabited

/-- The wording of a refusal. -/
def Refusal.message : Refusal → String
  | unknown name => s!"no helper named {name}"
  | arity name expected given => s!"helper {name} expects {expected} arguments, got {given}"
  | argument name raw target =>
    s!"helper {name} argument '{raw}' cannot be passed as " ++ target.name

/-- The value of an argument before it is converted. -/
def Argument.resolve (scope : Scope) : Argument → Value
  | .lookup path => scope.lookup path
  | .literal text => .str text

/-- The values of arguments, each converted to its type. -/
def resolveArguments (cx : HelperContext) (name : String) :
    List Argument → List ParamType → Except Refusal (List Value)
  | arg :: args, target :: targets =>
    match (arg.resolve cx.scope).convert? cx.locale target arg.raw with
    | none => .error (.argument name arg.raw target)
    | some v =>
      match resolveArguments cx name args targets with
      | .error e => .error e
      | .ok vs => .ok (v :: vs)
  | _, _ => .ok []

namespace Registry

/-- The helper of a name with the values that it is called with. -/
def prepare (r : Registry) (cx : HelperContext) (name : String) (args : List Argument) :
    Except Refusal (Helper × List Value) :=
  match r.get? name with
  | none => .error (.unknown name)
  | some h =>
    if h.arity = args.length then
      match resolveArguments cx name args h.params with
      | .error e => .error e
      | .ok values => .ok (h, values)
    else .error (.arity name h.arity args.length)

/-- The value of a helper, and the store after it has run. -/
def call (r : Registry) (cx : HelperContext) (name : String) (args : List Argument)
    (store : Store) : Except Refusal (Value × Store) :=
  match r.prepare cx name args with
  | .error e => .error e
  | .ok (h, values) => .ok (h.run cx values store)

end Registry

end Stencil
