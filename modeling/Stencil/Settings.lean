import Stencil.Helper.Tags
import Stencil.Template.Parse

/-!
# `Stencil.Settings`: what an engine is made of

The settings of an engine are the pipeline that parses its templates, the rules that show its
tokens, the kinds of values that blocks do not go through one by one, and the delimiters that a
template starts with. A token is shown by the first rule that accepts it. Adding helpers puts a
recognizer in front of the stock one for the same mark and a rule at the end.
-/

set_option autoImplicit false

namespace Stencil

/-- A way to show tokens of some kind. -/
inductive RenderRule where
  /-- Literal text, as it is. -/
  | text
  /-- The text of the value at a path. -/
  | interpolation
  /-- A block for a value in the scope. -/
  | plainSection
  /-- A block for the absence of a value in the scope. -/
  | invertedSection
  /-- The text of the value of a helper. -/
  | helperCall (registry : Registry)
  /-- A block for the value of a helper. -/
  | helperSection (registry : Registry)
  /-- A block for the absence of a value of a helper. -/
  | invertedHelperSection (registry : Registry)
  /-- A rule of one's own, which shows a text for the tokens it accepts. -/
  | custom (accepts : Token → Bool) (text : Token → String)
deriving Inhabited

/-- Whether a rule shows a token. -/
def RenderRule.accepts : RenderRule → Token → Bool
  | .text, .text _ => true
  | .interpolation, .interpolation _ => true
  | .plainSection, .block b _ => b.kind = .plain
  | .invertedSection, .block b _ => b.kind = .inverted
  | .helperCall r, .call c => r.contains c.name
  | .helperSection r, .block b _ => b.kind = .helper && r.contains b.name
  | .invertedHelperSection r, .block b _ => b.kind = .invertedHelper && r.contains b.name
  | .custom accepts _, token => accepts token
  | _, _ => false

/-- The settings of an engine. -/
structure Settings where
  pipeline : Pipeline
  /-- The rules in the order in which they are asked. -/
  rules : List RenderRule
  /-- The kinds of values for which a block shows its children once, however many items. -/
  excluded : List ValueKind
  /-- The delimiters that a template starts with. -/
  delimiters : Delimiters

namespace Settings

/-- The rules for the tokens of the language. -/
def stockRules : List RenderRule :=
  [.text, .interpolation, .plainSection, .invertedSection]

/-- The settings of an engine without helpers. -/
def stock : Settings :=
  ⟨.stock, stockRules, [], .standard⟩

/-- Changes the pipeline. -/
def editPipeline (s : Settings) (edit : Pipeline → Pipeline) : Settings :=
  { s with pipeline := edit s.pipeline }

/-- Adds a rule that is asked after those that are there. -/
def addRule (s : Settings) (rule : RenderRule) : Settings :=
  { s with rules := s.rules ++ [rule] }

/-- Adds helpers that are called by tags of their own. -/
def addHelpers (s : Settings) (r : Registry) : Settings :=
  (s.editPipeline (·.insertBefore "interpolation" (.helper r))).addRule (.helperCall r)

/-- Adds helpers that blocks are opened for. -/
def addSectionHelpers (s : Settings) (r : Registry) : Settings :=
  let s := s.editPipeline fun p =>
    (p.insertBefore "section" (.helperSection r)).insertBefore "inverted_section"
      (.helperInvertedSection r)
  (s.addRule (.helperSection r)).addRule (.invertedHelperSection r)

/-- Leaves values of a kind whole in blocks. -/
def exclude (s : Settings) (kind : ValueKind) : Settings :=
  if s.excluded.contains kind then s else { s with excluded := s.excluded ++ [kind] }

/-- Lets templates start with other delimiters. -/
def setDelimiters (s : Settings) (d : Delimiters) : Settings :=
  { s with delimiters := d }

/-- The rule that shows a token. -/
def ruleFor? (s : Settings) (token : Token) : Option RenderRule :=
  s.rules.find? (·.accepts token)

end Settings

end Stencil
