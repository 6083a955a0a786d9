import Stencil.Settings
import Stencil.Helper.Call
import Stencil.Text.Html

/-!
# `Stencil.Render.Action`: what a token asks for

Showing a token starts with a decision that does not depend on where the output goes: to write a
text, or to deal with the children of a block in a certain way. The decision looks values up in
the scope and runs helpers, which may change the store.
-/

set_option autoImplicit false

namespace Stencil

open Text

/-- What a render does not change. -/
structure RenderContext where
  settings : Settings
  locale : Locale

/-- How a block deals with its children. -/
inductive BlockPlan where
  /-- It does not show them. -/
  | skip
  /-- It shows them once in the scope around it. -/
  | here
  /-- It shows, in the scope around it, a text in their place, parsed as a template. -/
  | reparse (text : String)
  /-- It shows them for each value, which is pushed onto the scope. -/
  | each (values : List Value)
  /-- It shows them for each value that an enumerator still has, and resets that at the end. -/
  | drain (handle : Handle)
  /-- It shows them once, with a value pushed onto the scope. -/
  | once (value : Value)
deriving Inhabited

/-- How a block shows its children for a value. A text that comes from a helper is a template. -/
def BlockPlan.ofValue (s : Settings) (ofHelper : Bool) (v : Value) : BlockPlan :=
  if !v.isTruthy then .skip
  else
    match v with
    -- A text in the scope is data, one of a helper is a template.
    | .str text => if ofHelper then .reparse text else .once v
    | .list values => if s.excluded.contains .list then .once v else .each values
    | .iter handle => if s.excluded.contains .iter then .once v else .drain handle
    | _ => .once v

/-- What a token asks for. -/
inductive Action where
  /-- To write a text. -/
  | write (text : String)
  /-- To deal with the children of a block. -/
  | block (plan : BlockPlan) (b : Block) (children : List Token)
deriving Inhabited

namespace RenderContext

/-- What a helper called in a scope sees. -/
def helperContext (cx : RenderContext) (scope : Scope) (body : Option String) : HelperContext :=
  ⟨scope, cx.locale, body⟩

/-- The text of an interpolation. -/
def interpolate (cx : RenderContext) (scope : Scope) (i : Interpolation) : String :=
  let text := (scope.lookup i.path).format cx.locale
  if i.escaped then String.ofList (escapeHtml text.toList) else text

/-- The value of a helper in a scope, or null if it was not run. -/
def callHelper (cx : RenderContext) (scope : Scope) (body : Option String) (r : Registry)
    (name : String) (args : List Argument) (store : Store) : Value × Store :=
  match r.call (cx.helperContext scope body) name args store with
  | .ok result => result
  | .error _ => (.null, store)

end RenderContext

/-- What a rule makes of a token in a scope, and the store after that. A token that the rule does
not accept is passed over. -/
def RenderRule.act (cx : RenderContext) (scope : Scope) (rule : RenderRule) (token : Token)
    (store : Store) : Action × Store :=
  if !rule.accepts token then (.write "", store)
  else
    match rule, token with
    | .text, .text literal => (.write literal, store)
    | .interpolation, .interpolation i => (.write (cx.interpolate scope i), store)
    | .plainSection, .block b children =>
      (.block (.ofValue cx.settings false (scope.lookup b.name)) b children, store)
    | .invertedSection, .block b children =>
      (.block (if (scope.lookup b.name).isTruthy then .skip else .here) b children, store)
    | .helperCall r, .call c =>
      let (v, store) := cx.callHelper scope none r c.name c.args store
      (.write (v.format cx.locale), store)
    | .helperSection r, .block b children =>
      let (v, store) := cx.callHelper scope (some b.body) r b.name b.args store
      (.block (.ofValue cx.settings true v) b children, store)
    | .invertedHelperSection r, .block b children =>
      let (v, store) := cx.callHelper scope (some b.body) r b.name b.args store
      (.block (if v.isTruthy then .skip else .here) b children, store)
    | .custom _ shown, token => (.write (shown token), store)
    | _, _ => (.write "", store)

/-- What a token asks for in a scope, and the store after that. A token without a rule is passed
over. -/
def Token.act (cx : RenderContext) (scope : Scope) (token : Token) (store : Store) :
    Action × Store :=
  match cx.settings.ruleFor? token with
  | some rule => rule.act cx scope token store
  | none => (.write "", store)

end Stencil
