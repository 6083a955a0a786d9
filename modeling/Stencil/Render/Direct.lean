import Stencil.Render.Action

/-!
# `Stencil.Render.Direct`: the text of a template

The text of tokens, a list of characters, is put together from the texts of their parts. The only
error is that of a template that a helper has made and that cannot be parsed. A helper can make
templates that call it again, and a block can go through an enumerator that its children start
over, so a render need not end: it is given a budget, which every call of a function takes one
off, and gives nothing when that is used up.
-/

set_option autoImplicit false

namespace Stencil

/-- A computation that may change the store and may fail with a parse error. It gives nothing when
its budget is used up. The store is kept when it fails. -/
abbrev Direct (α : Type) := ExceptT ParseError (StateT Store Option) α

namespace Direct

/-- Runs a computation on a store. -/
def runOn {α : Type} (d : Direct α) (store : Store) : Option (Except ParseError α × Store) :=
  d store

/-- Runs a computation of a text on a store. -/
def textOn (d : Direct (List Char)) (store : Store) : Option (Except ParseError String × Store) :=
  (d.runOn store).map fun (result, store) => (result.map String.ofList, store)

/-- The budget is used up. -/
def exhausted {α : Type} : Direct α :=
  fun _ => none

/-- A change of the store with a result. -/
def step {α : Type} (f : Store → α × Store) : Direct α :=
  fun store => let (a, store) := f store; some (.ok a, store)

/-- A change of the store after a computation, also when that has failed. -/
def thenAlways {α : Type} (d : Direct α) (f : Store → Store) : Direct α :=
  fun store => (d store).map fun (result, store) => (result, f store)

mutual

/-- The text of tokens, one after the other. -/
def tokens (cx : RenderContext) : Nat → Scope → List Token → Direct (List Char)
  | 0, _, _ => exhausted
  | _ + 1, _, [] => pure []
  | fuel + 1, scope, token :: rest => do
    let action ← step (token.act cx scope)
    let head ← perform cx fuel scope action
    let tail ← tokens cx fuel scope rest
    pure (head ++ tail)

/-- The text that an action gives. -/
def perform (cx : RenderContext) : Nat → Scope → Action → Direct (List Char)
  | 0, _, _ => exhausted
  | _ + 1, _, .write text => pure text.toList
  | fuel + 1, scope, .block plan b children =>
    match plan with
    | .skip => pure []
    | .here => tokens cx fuel scope children
    | .reparse text =>
      match cx.settings.pipeline.parse text b.delimiters with
      | .error e => throw e
      | .ok parsed => tokens cx fuel scope parsed
    | .each values => each cx fuel scope children values
    -- The enumerator is put back also when a child has failed.
    | .drain handle => thenAlways (drain cx fuel scope children handle) (·.reset handle)
    | .once v => tokens cx fuel (scope.push v) children

/-- The texts of tokens for some values, one after the other. -/
def each (cx : RenderContext) : Nat → Scope → List Token → List Value → Direct (List Char)
  | 0, _, _, _ => exhausted
  | _ + 1, _, _, [] => pure []
  | fuel + 1, scope, children, v :: vs => do
    let head ← tokens cx fuel (scope.push v) children
    let tail ← each cx fuel scope children vs
    pure (head ++ tail)

/-- The texts of tokens for the values that an enumerator gives, one after the other. -/
def drain (cx : RenderContext) : Nat → Scope → List Token → Handle → Direct (List Char)
  | 0, _, _, _ => exhausted
  | fuel + 1, scope, children, handle => do
    match ← step (·.next handle) with
    | none => pure []
    | some v =>
      let head ← tokens cx fuel (scope.push v) children
      let tail ← drain cx fuel scope children handle
      pure (head ++ tail)

end

end Direct

end Stencil
