/-!
# `Stencil.Template.Token`: parsed templates

A parsed template is a list of tokens: literal text, interpolations, calls of inline helpers,
and blocks, which hold the tokens between their open and close tags. Spans are byte ranges of
the template. A block also keeps the text of its body, so that a helper can look at it or give
it back to be parsed once more.
-/

set_option autoImplicit false

namespace Stencil

/-- A range of bytes of a template. -/
structure Span where
  /-- Offset of the first byte. -/
  start : Nat
  /-- Offset just past the last byte. -/
  stop : Nat
deriving DecidableEq, Repr, Inhabited

/-- The texts between which a tag stands. -/
structure Delimiters where
  /-- Starts a tag. -/
  opening : String
  /-- Ends a tag. -/
  closing : String
deriving DecidableEq, Repr, Inhabited

/-- The delimiters of a template that does not choose its own. -/
def Delimiters.standard : Delimiters :=
  ⟨"\x7b\x7b", "\x7d\x7d"⟩

/-- An argument of a helper, by position. -/
inductive Argument where
  /-- A path that is looked up in the scope when the helper is called. -/
  | lookup (path : String)
  /-- A text given as it is. -/
  | literal (text : String)
deriving DecidableEq, Repr, Inhabited

/-- The argument as the helper's author sees it: the path, or the text without its quotes. -/
def Argument.raw : Argument → String
  | .lookup path => path
  | .literal text => text

/-- A tag that is replaced by the value at a path. -/
structure Interpolation where
  path : String
  /-- Whether the characters special in HTML are escaped. -/
  escaped : Bool
  tag : Span
deriving DecidableEq, Repr, Inhabited

/-- A tag that calls an inline helper. -/
structure HelperCall where
  name : String
  args : List Argument
  tag : Span
  /-- From the first byte of the name to the last of the arguments. -/
  content : Span
deriving DecidableEq, Repr, Inhabited

/-- What a block does with its children. -/
inductive BlockKind where
  /-- Shows them for a value in the scope. -/
  | plain
  /-- Shows them when a value in the scope is missing, false or empty. -/
  | inverted
  /-- Shows them for the value of a helper. -/
  | helper
  /-- Shows them when a helper has no value, or one that is false or empty. -/
  | invertedHelper
deriving DecidableEq, Repr, Inhabited

/-- The tag that opens a block. -/
structure OpenTag where
  kind : BlockKind
  name : String
  /-- The arguments of the helper; a block without a helper has none. -/
  args : List Argument
  tag : Span
deriving DecidableEq, Repr, Inhabited

/-- A block without its children. -/
structure Block where
  opening : OpenTag
  /-- The tag that closes the block. -/
  closing : Span
  /-- The text between the open and the close tag. -/
  body : String
  /-- The delimiters in effect at the close tag. -/
  delimiters : Delimiters
deriving DecidableEq, Repr, Inhabited

namespace Block

/-- The kind of a block is the one of its open tag. -/
def kind (b : Block) : BlockKind := b.opening.kind

/-- The name of a block, as its open tag gives it. -/
def name (b : Block) : String := b.opening.name

/-- The arguments of a block stand in its open tag. -/
def args (b : Block) : List Argument := b.opening.args

/-- From the end of the open tag to the start of the close tag. -/
def content (b : Block) : Span := ⟨b.opening.tag.stop, b.closing.start⟩

end Block

/-- A piece of a parsed template. -/
inductive Token where
  | text (text : String)
  | interpolation (i : Interpolation)
  | call (c : HelperCall)
  | block (b : Block) (children : List Token)
deriving Inhabited

mutual

/-- Whether two tokens are the same, spans and children included. -/
def Token.same : Token → Token → Bool
  | .text s, .text t => s == t
  | .interpolation i, .interpolation j => i == j
  | .call c, .call d => c == d
  | .block b cs, .block d ds => b == d && Token.sameList cs ds
  | _, _ => false

/-- Whether two lists hold the same tokens in the same order. -/
def Token.sameList : List Token → List Token → Bool
  | [], [] => true
  | c :: cs, d :: ds => Token.same c d && Token.sameList cs ds
  | _, _ => false

end

-- By recursion on the left token; on the right one every other shape is refused.
mutual

/-- Two tokens are the same exactly if they are equal. -/
theorem Token.same_iff : ∀ {a b : Token}, Token.same a b = true ↔ a = b
  | .text s, b => by cases b <;> simp [Token.same]
  | .interpolation i, b => by cases b <;> simp [Token.same]
  | .call c, b => by cases b <;> simp [Token.same]
  | .block b cs, d => by
    cases d with
    | block d ds => simp [Token.same, @Token.sameList_iff cs ds]
    | _ => simp [Token.same]

/-- Two lists of tokens are the same exactly if they are equal. -/
theorem Token.sameList_iff : ∀ {as bs : List Token}, Token.sameList as bs = true ↔ as = bs
  | [], bs => by cases bs <;> simp [Token.sameList]
  | a :: as, bs => by
    cases bs with
    | nil => simp [Token.sameList]
    | cons b bs =>
      simp [Token.sameList, @Token.same_iff a b,
        @Token.sameList_iff as bs]

end

/-- Trees of tokens can be told apart by computing. -/
instance : DecidableEq Token := fun _ _ => decidable_of_iff _ Token.same_iff

end Stencil
