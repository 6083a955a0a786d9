import Stencil.Template.Tags

/-!
# `Stencil.Template.Pipeline`: an ordered list of recognizers

A pipeline starts as the stock one, or empty, and is edited by name: a recognizer can be
appended, put in front of another, or taken out. `insertBefore` appends when the name it is
given is missing, and says so with a notice.
-/

set_option autoImplicit false

namespace Stencil

/-- The recognizers that a template is parsed with, in the order in which they are asked. -/
structure Pipeline where
  recognizers : List Recognizer

/-- The recognizer `appended` was to stand before `missing`, but there is no such recognizer. -/
structure PlacementNotice where
  missing : String
  appended : String
deriving DecidableEq, Repr

/-- The wording of a placement notice. -/
def PlacementNotice.message (n : PlacementNotice) : String :=
  s!"no parser named {n.missing} in pipeline, appending {n.appended}"

namespace Pipeline

/-- A pipeline without recognizers. -/
def empty : Pipeline := ⟨[]⟩

/-- The recognizers of the language. -/
def stock : Pipeline := ⟨stockRecognizers⟩

/-- The names of the recognizers, in order. -/
def names (p : Pipeline) : List String :=
  p.recognizers.map (·.name)

/-- Puts a recognizer at the end. -/
def append (p : Pipeline) (r : Recognizer) : Pipeline :=
  ⟨p.recognizers ++ [r]⟩

/-- Takes out every recognizer of a name. -/
def remove (p : Pipeline) (name : String) : Pipeline :=
  ⟨p.recognizers.filter (·.name != name)⟩

/-- Puts a recognizer in front of the first one of a name, or at the end if there is none. -/
def insertBefore (p : Pipeline) (name : String) (r : Recognizer) : Pipeline :=
  let before := p.recognizers.takeWhile (·.name != name)
  ⟨before ++ r :: p.recognizers.drop before.length⟩

/-- What `insertBefore` has to say about a name that is missing. -/
def placementNotice? (p : Pipeline) (name : String) (r : Recognizer) : Option PlacementNotice :=
  if p.recognizers.any (·.name == name) then none else some ⟨name, r.name⟩

end Pipeline

end Stencil
