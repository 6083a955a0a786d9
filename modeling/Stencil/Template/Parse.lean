import Stencil.Template.Scan

/-!
# `Stencil.Template.Parse`: pieces nested into tokens

The open and close tags among the pieces of a template have to match like brackets, by name. A
`Nesting` holds the blocks that are open at some piece, innermost first, and the tokens so far of
the innermost one. Adding the pieces one after the other and finishing with no block open gives
the tokens of the template.

Errors come in the order of the template: the first close tag at fault, then the tag that ended
the scan, then a block left open.
-/

set_option autoImplicit false

namespace Stencil

open Text

/-- A block whose close tag has not been seen yet. -/
structure OpenBlock where
  opening : OpenTag
  /-- The place where its body starts. -/
  inside : Cursor
  /-- The tokens before it in the block around it, the last one first. -/
  before : List Token
deriving Inhabited

/-- The blocks open at some point of a template. -/
structure Nesting where
  /-- The tokens of the innermost open block so far, the last one first. -/
  tokens : List Token
  /-- The open blocks, innermost first. -/
  stack : List OpenBlock
deriving Inhabited

namespace Nesting

/-- No block is open and no token has been seen. -/
def start : Nesting := ⟨[], []⟩

/-- Closes the innermost open block, which has to be of the given name. -/
def close (n : Nesting) (name : String) (tag : Span) (delimiters : Delimiters) :
    Except ParseError Nesting :=
  match n.stack with
  | [] => .error (.unopenedClose name tag.start)
  | top :: stack =>
    if top.opening.name = name then
      let body := takeBytes (tag.start - top.inside.offset) top.inside.rest
      let block : Block := ⟨top.opening, tag, String.ofList body, delimiters⟩
      .ok ⟨.block block n.tokens.reverse :: top.before, stack⟩
    else
      .error (.mismatchedClose name tag.start top.opening.name top.opening.tag.start)

/-- Adds the next piece of the template. -/
def add (n : Nesting) (piece : Piece) : Except ParseError Nesting :=
  match piece.event with
  | .token token => .ok ⟨token :: n.tokens, n.stack⟩
  | .enter opening => .ok ⟨[], ⟨opening, piece.stop, n.tokens⟩ :: n.stack⟩
  | .leave name tag => n.close name tag piece.delimiters
  | .change _ => .ok n
  | .skip => .ok n

/-- The tokens of a template that ends here. -/
def finish (n : Nesting) : Except ParseError (List Token) :=
  match n.stack with
  | [] => .ok n.tokens.reverse
  | top :: _ => .error (.unclosedBlock top.opening.name top.opening.tag.start)

/-- The tokens that pieces of a template nest into. -/
def ofPieces (pieces : List Piece) (failure : Option ParseError) :
    Except ParseError (List Token) := do
  -- A close tag at fault stands before the tag that ended the scan.
  let n ← pieces.foldlM add start
  match failure with
  | some e => .error e
  | none => n.finish

end Nesting

/-- The tokens of a template that starts with the given delimiters. -/
def Pipeline.parse (p : Pipeline) (source : String) (delimiters : Delimiters) :
    Except ParseError (List Token) :=
  let (pieces, failure) := p.scan source.toList ⟨.atStart source.toList, delimiters⟩
  Nesting.ofPieces pieces failure

end Stencil
