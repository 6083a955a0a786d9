import Stencil.Render.Direct
import Stencil.Render.Stream

/-!
# `Stencil.Engine`: rendering templates

`compile` parses a template once, `Template.render` gives its text for a view, and `renderTo`
streams it to a sink. The enumerators of the view live in a store, which comes back as the render
left it, whether it failed or not.
-/

set_option autoImplicit false

namespace Stencil

/-- A parsed template. -/
structure Template where
  tokens : List Token
deriving DecidableEq, Inhabited

/-- The budget of a render. Only one that does not end uses it up. -/
def renderBudget : Nat := 2 ^ 62

/-- Parses a template with the delimiters of the settings. -/
def compile (s : Settings) (template : String) : Except ParseError Template :=
  (s.pipeline.parse template s.delimiters).map Template.mk

namespace Template

/-- The text of a template for a view, and the store after the render, within a budget. -/
def renderWithin (budget : Nat) (t : Template) (s : Settings) (l : Locale) (view : Value)
    (store : Store) : Option (Except ParseError String × Store) :=
  (Direct.tokens ⟨s, l⟩ budget (.root view) t.tokens).textOn store

/-- The text of a template for a view, and the store after the render. -/
def render : Template → Settings → Locale → Value → Store →
    Option (Except ParseError String × Store) :=
  renderWithin renderBudget

/-- Writes a template for a view to a sink within a budget, and flushes that. -/
def renderToWithin (budget : Nat) (t : Template) (s : Settings) (l : Locale) (view : Value)
    (state : StreamState) : Option (Except Error Unit × StreamState) :=
  Stream.runOn (do Stream.tokens ⟨s, l⟩ budget (.root view) t.tokens; Stream.flush) state

/-- Writes a template for a view to a sink and flushes that. -/
def renderTo : Template → Settings → Locale → Value → StreamState →
    Option (Except Error Unit × StreamState) :=
  renderToWithin renderBudget

end Template

namespace RenderRule

/-- The text that a rule gives for a token, whether it would be chosen for that or not. -/
def render (rule : RenderRule) (s : Settings) (l : Locale) (view : Value) (token : Token)
    (store : Store) : Option (Except ParseError String × Store) :=
  let (action, store) := rule.act ⟨s, l⟩ (.root view) token store
  (Direct.perform ⟨s, l⟩ renderBudget (.root view) action).textOn store

/-- Writes what a rule gives for a token to a sink. -/
def renderTo (rule : RenderRule) (s : Settings) (l : Locale) (view : Value) (token : Token)
    (state : StreamState) : Option (Except Error Unit × StreamState) :=
  let (action, store) := rule.act ⟨s, l⟩ (.root view) token state.store
  (Stream.perform ⟨s, l⟩ renderBudget (.root view) action).runOn { state with store }

end RenderRule

/-- The text of a template that is not parsed yet, within a budget. -/
def renderWithin (budget : Nat) (s : Settings) (template : String) (l : Locale) (view : Value)
    (store : Store) : Option (Except ParseError String × Store) :=
  match compile s template with
  | .error e => some (.error e, store)
  | .ok t => t.renderWithin budget s l view store

/-- The text of a template that is not parsed yet. -/
def render : Settings → String → Locale → Value → Store →
    Option (Except ParseError String × Store) :=
  renderWithin renderBudget

/-- Writes a template that is not parsed yet to a sink within a budget. Nothing is written if it
cannot be parsed. -/
def renderToWithin (budget : Nat) (s : Settings) (template : String) (l : Locale) (view : Value)
    (state : StreamState) : Option (Except Error Unit × StreamState) :=
  match compile s template with
  | .error e => some (.error (.parse e), state)
  | .ok t => t.renderToWithin budget s l view state

/-- Writes a template that is not parsed yet to a sink. -/
def renderTo : Settings → String → Locale → Value → StreamState →
    Option (Except Error Unit × StreamState) :=
  renderToWithin renderBudget

end Stencil
