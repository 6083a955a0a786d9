import Stencil.Template.Pipeline

/-!
# `Stencil.Template.Scan`: a template cut into pieces

A scan walks over a template from one opening delimiter to the next. It gives the literal text
between tags and the event of each tag, in order, up to the end of the template or to the first
tag that cannot be read. Blocks play no part in it: whether open and close tags match is decided
from the pieces alone.

`Pipeline.reaches_of_step` says that a scan goes forward over the text of the template. A tag that
takes up no text would be read again and again. The scan stops there with an error.
-/

set_option autoImplicit false

namespace Stencil

open Text

/-- A piece of a template: what it says, the bytes that it takes up, and the delimiters in effect
where it stands. -/
structure Piece where
  event : Event
  /-- Offset of the first byte. -/
  start : Nat
  /-- The place just past the last byte. -/
  stop : Cursor
  delimiters : Delimiters
deriving DecidableEq, Inhabited

/-- The bytes that a piece takes up. -/
def Piece.span (piece : Piece) : Span :=
  ⟨piece.start, piece.stop.offset⟩

/-- The state of a scan: a place in the template and the delimiters in effect there. -/
structure Scanner where
  cursor : Cursor
  delimiters : Delimiters
deriving Repr, Inhabited

/-- What a scan finds next. -/
inductive Step where
  /-- No tag follows, only this text. -/
  | finish (text : List Char)
  /-- A text and then a tag that cannot be read. -/
  | fail (text : List Char) (error : ParseError)
  /-- A text, then a tag that starts at a byte offset, and the state after it. -/
  | advance (text : List Char) (start : Nat) (event : Event) (next : Scanner)

/-- What the pipeline makes of the text up to the end of the next tag. -/
def Pipeline.step (p : Pipeline) (source : List Char) (s : Scanner) : Step :=
  match s.cursor.cut? s.delimiters.opening.toList with
  | none => .finish s.cursor.rest
  | some (text, found, cursor) =>
    match recognize p.recognizers ⟨source, found.offset, cursor, s.delimiters⟩ with
    | .error e => .fail text e
    | .ok (event, next) =>
      .advance text found.offset event ⟨next, event.delimitersAfter s.delimiters⟩

/-- A step never goes back in the text. -/
theorem Pipeline.reaches_of_step {p : Pipeline} {source text : List Char} {s next : Scanner}
    {start : Nat} {event : Event} (h : p.step source s = .advance text start event next) :
    s.cursor.Reaches next.cursor := by
  unfold Pipeline.step at h
  split at h
  · simp at h
  · rename_i hcut
    have ⟨hfound, hopening⟩ := Cursor.reaches_of_cut? hcut
    split at h
    · simp at h
    · rename_i hread
      simp only [Step.advance.injEq] at h
      obtain ⟨_, _, _, rfl⟩ := h
      -- Over the text before the tag, its opening delimiter, and what the recognizer takes.
      exact hfound.trans (hopening.trans (reaches_of_recognize hread))

/-- The piece for a literal text that starts where the scanner stands; an empty text gives none. -/
def Scanner.textPieces (s : Scanner) (text : List Char) : List Piece :=
  if text.isEmpty then []
  else
    [⟨.token (.text (String.ofList text)), s.cursor.offset,
      s.cursor.past text (s.cursor.rest.drop text.length), s.delimiters⟩]

/-- The pieces of a template from a place on, and the error that ended the scan, if one did. -/
def Pipeline.scan (p : Pipeline) (source : List Char) (s : Scanner) :
    List Piece × Option ParseError :=
  match _step_eq : p.step source s with
  | .finish text => (s.textPieces text, none)
  | .fail text e => (s.textPieces text, some e)
  | .advance text start event next =>
    -- A tag between delimiters that are empty may end where it starts.
    if _advances : s.cursor.offset < next.cursor.offset then
      let (pieces, failure) := p.scan source next
      (s.textPieces text ++ ⟨event, start, next.cursor, s.delimiters⟩ :: pieces, failure)
    else
      (s.textPieces text, some (.stalled start))
termination_by s.cursor.rest.length
decreasing_by exact (Pipeline.reaches_of_step _step_eq).length_lt _advances

end Stencil
