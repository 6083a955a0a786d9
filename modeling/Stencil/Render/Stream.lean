import Stencil.Render.Action
import Stencil.Render.Sink

/-!
# `Stencil.Render.Stream`: a template written to a sink

The tokens of a template are shown in order, and each text is handed to a sink as soon as it is
known. When the sink fails the render stops there; enumerators that blocks were going through are
reset on the way out. As for the text of a template, there is a budget.
-/

set_option autoImplicit false

namespace Stencil

/-- A reason why an engine does not do what it is asked for. -/
inductive Error where
  | parse (e : ParseError)
  | registry (e : RegistryError)
  | sink (e : SinkError)
deriving DecidableEq, Repr, Inhabited

/-- The wording of an error. -/
def Error.message : Error → String
  | parse e => e.message
  | registry e => e.message
  | sink e => "failed to write output: " ++ e.message

/-- What a streamed render changes. -/
structure StreamState where
  store : Store
  sink : Sink
deriving Inhabited

/-- A computation that may change the store, write to the sink and fail. It gives nothing when its
budget is used up. Store and sink are kept when it fails. -/
abbrev Stream (α : Type) := ExceptT Error (StateT StreamState Option) α

namespace Stream

/-- Runs a computation on a store and a sink. -/
def runOn {α : Type} (d : Stream α) (state : StreamState) :
    Option (Except Error α × StreamState) :=
  d state

/-- The budget is used up. -/
def exhausted {α : Type} : Stream α :=
  fun _ => none

/-- A change of the store with a result. -/
def step {α : Type} (f : Store → α × Store) : Stream α :=
  fun state => let (a, store) := f state.store; some (.ok a, { state with store })

/-- A change of the store after a computation, also when that has failed. -/
def thenAlways {α : Type} (d : Stream α) (f : Store → Store) : Stream α :=
  fun state => (d state).map fun (result, state) =>
    (result, { state with store := f state.store })

/-- Hands a text to the sink. -/
def write (text : String) : Stream Unit :=
  fun state =>
    let (result, sink) := state.sink.write (Text.encode text.toList)
    some (result.mapError .sink, { state with sink })

/-- Flushes the sink. -/
def flush : Stream Unit :=
  fun state => some (state.sink.flush.mapError .sink, state)

mutual

/-- Shows tokens, one after the other. -/
def tokens (cx : RenderContext) : Nat → Scope → List Token → Stream Unit
  | 0, _, _ => exhausted
  | _ + 1, _, [] => pure ()
  | fuel + 1, scope, token :: rest => do
    let action ← step (token.act cx scope)
    perform cx fuel scope action
    tokens cx fuel scope rest

/-- Does what a token asks for. -/
def perform (cx : RenderContext) : Nat → Scope → Action → Stream Unit
  | 0, _, _ => exhausted
  | _ + 1, _, .write text => write text
  | fuel + 1, scope, .block plan b children =>
    match plan with
    | .skip => pure ()
    | .here => tokens cx fuel scope children
    | .reparse text =>
      match cx.settings.pipeline.parse text b.delimiters with
      | .error e => throw (.parse e)
      | .ok parsed => tokens cx fuel scope parsed
    | .each values => each cx fuel scope children values
    -- The enumerator is put back also when a child or the sink has failed.
    | .drain handle => thenAlways (drain cx fuel scope children handle) (·.reset handle)
    | .once v => tokens cx fuel (scope.push v) children

/-- Shows tokens for some values, one after the other. -/
def each (cx : RenderContext) : Nat → Scope → List Token → List Value → Stream Unit
  | 0, _, _, _ => exhausted
  | _ + 1, _, _, [] => pure ()
  | fuel + 1, scope, children, v :: vs => do
    tokens cx fuel (scope.push v) children
    each cx fuel scope children vs

/-- Shows tokens for the values that an enumerator gives, one after the other. -/
def drain (cx : RenderContext) : Nat → Scope → List Token → Handle → Stream Unit
  | 0, _, _, _ => exhausted
  | fuel + 1, scope, children, handle => do
    match ← step (·.next handle) with
    | none => pure ()
    | some v =>
      tokens cx fuel (scope.push v) children
      drain cx fuel scope children handle

end

end Stream

end Stencil
