import Stencil.Template.Token
import Stencil.Text.Size

/-!
# `Stencil.Template.Error`: why a template cannot be parsed

Every cause names the byte offset of the tag at fault, and most quote the text that leads up to
it. `excerpt` chooses that text: whole characters only, 32 bytes at most.
-/

set_option autoImplicit false

namespace Stencil

open Text

/-- The number of bytes that an excerpt may have. -/
def excerptSize : Nat := 32

/-- The text that leads up to a byte offset: of the whole characters that lie before it, those
at the end that fit into `excerptSize` bytes. -/
def excerpt (source : List Char) (position : Nat) : String :=
  String.ofList (takeLastBytes excerptSize (takeBytes position source))

/-- A reason to reject a template. -/
inductive ParseError where
  /-- A tag has no closing delimiter, or no recognizer takes it. -/
  | unclosedTag (position : Nat) (near : String)
  /-- A quoted argument has no closing quote before the end of its tag. -/
  | unclosedString (position : Nat) (near : String)
  /-- A close tag does not name the innermost open block. -/
  | mismatchedClose (found : String) (position : Nat) (expected : String) (openedAt : Nat)
  /-- A close tag stands where no block is open. -/
  | unopenedClose (name : String) (position : Nat)
  /-- The template ends inside a block. -/
  | unclosedBlock (name : String) (position : Nat)
  /-- A change of delimiters does not give exactly two, both free of `=`. -/
  | invalidDelimiters (position : Nat) (near : String)
  /-- There is nothing between the delimiters of a tag. -/
  | emptyTag (position : Nat) (near : String)
  /-- A tag takes up no text, so that the same tag would be read for ever. -/
  | stalled (position : Nat)
deriving DecidableEq, Repr, Inhabited

/-- The wording of a parse error. -/
def ParseError.message : ParseError → String
  | unclosedTag position near => s!"unclosed tag at {position} near \"" ++ near ++ "\""
  | unclosedString position near => s!"unclosed string at {position} near \"" ++ near ++ "\""
  | mismatchedClose found position expected openedAt =>
    s!"cannot close block '{found}' at {position}: " ++
      s!"there is already an unclosed block '{expected}' opened at {openedAt}"
  | unopenedClose name position => s!"unexpected close of block '{name}' at {position}"
  | unclosedBlock name position => s!"unclosed block '{name}' opened at {position}"
  | invalidDelimiters position near =>
    s!"invalid delimiter change at {position} near \"" ++ near ++ "\""
  | emptyTag position near => s!"empty tag at {position} near \"" ++ near ++ "\""
  | stalled position => s!"tag at {position} takes up no text"

end Stencil
