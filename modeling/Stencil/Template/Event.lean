import Stencil.Template.Cursor
import Stencil.Template.Error

/-!
# `Stencil.Template.Event`: what a tag says

A recognizer looks at a tag and says what it is: a finished token, the open or close tag of a
block, a change of delimiters, or nothing to show. A pipeline offers a tag to its recognizers in
turn, each at the same place, and the first that takes it decides.

`reaches_of_recognize` says that a tag ends at or after its opening delimiter, at a place that the
text in between leads to.
-/

set_option autoImplicit false

namespace Stencil

open Text

/-- What a tag says. -/
inductive Event where
  /-- A token of its own. -/
  | token (token : Token)
  /-- A block starts. -/
  | enter (opening : OpenTag)
  /-- The block of this name ends. -/
  | leave (name : String) (tag : Span)
  /-- Other delimiters hold from here on. -/
  | change (delimiters : Delimiters)
  /-- The tag shows nothing. -/
  | skip
deriving DecidableEq, Inhabited

/-- The delimiters that hold after an event. -/
def Event.delimitersAfter (before : Delimiters) : Event → Delimiters
  | .change delimiters => delimiters
  | _ => before

/-- A tag that is about to be read. -/
structure Site where
  /-- The whole template. -/
  source : List Char
  /-- The byte offset at which the opening delimiter starts. -/
  start : Nat
  /-- The place just past the opening delimiter. -/
  cursor : Cursor
  /-- The delimiters in effect. -/
  delimiters : Delimiters
deriving Repr, Inhabited

namespace Site

/-- The delimiter that ends the tag. -/
def closing (site : Site) : List Char :=
  site.delimiters.closing.toList

/-- The error for a tag without an end. -/
def unclosed (site : Site) : ParseError :=
  .unclosedTag site.start (excerpt site.source (byteSize site.source))

/-- The error for a tag without content that was read up to a byte offset. -/
def empty (site : Site) (position : Nat) : ParseError :=
  .emptyTag site.start (excerpt site.source position)

/-- The span of the tag when it ends at a place. -/
def spanTo (site : Site) (stop : Cursor) : Span :=
  ⟨site.start, stop.offset⟩

/-- The text up to the next `ending`, the place where that starts and the place where it ends. A
tag that has none is unclosed. -/
def upTo (site : Site) (cursor : Cursor) (ending : List Char) :
    Except ParseError (List Char × Cursor × Cursor) :=
  match cursor.cut? ending with
  | some found => .ok found
  | none => .error site.unclosed

/-- The way to the end of a tag goes over what stands before its ending, and then over the ending.
-/
theorem reaches_of_upTo {site : Site} {cursor found next : Cursor} {ending before : List Char}
    (h : site.upTo cursor ending = .ok (before, found, next)) :
    cursor.Reaches found ∧ found.Reaches next := by
  unfold upTo at h
  split at h
  · rename_i result hcut
    simp only [Except.ok.injEq] at h
    subst h
    exact Cursor.reaches_of_cut? hcut
  · simp at h

end Site

/-- A reader of one kind of tag. It declines a tag by giving no event; the place that it gives
with that is of no account. -/
structure Recognizer where
  /-- Tells where in a pipeline other recognizers are put. -/
  name : String
  /-- The event of a tag and the place where the tag ends. -/
  read : Site → Except ParseError (Option Event × Cursor)
  /-- The text after the opening delimiter leads to the place where the tag ends. -/
  reaches : ∀ {site : Site} {event : Event} {next : Cursor},
    read site = .ok (some event, next) → site.cursor.Reaches next

/-- The event of the first recognizer that takes the tag. Each is offered the tag as it stands. A
tag that none takes is unclosed. -/
def recognize : List Recognizer → Site → Except ParseError (Event × Cursor)
  | [], site => .error site.unclosed
  | r :: rs, site =>
    match r.read site with
    | .error e => .error e
    | .ok (some event, next) => .ok (event, next)
    | .ok (none, _) => recognize rs site

/-- Every recognizer answers for the way it goes, and so does a list of them. -/
theorem reaches_of_recognize {rs : List Recognizer} {site : Site} {event : Event} {next : Cursor}
    (h : recognize rs site = .ok (event, next)) : site.cursor.Reaches next := by
  induction rs with
  | nil => simp [recognize] at h
  | cons r rs ih =>
    unfold recognize at h
    split at h
    · simp at h
    · rename_i hread
      simp only [Except.ok.injEq, Prod.mk.injEq] at h
      obtain ⟨rfl, rfl⟩ := h
      exact r.reaches hread
    · exact ih h

/-- A computation that succeeds after another one starts from the result of that. -/
theorem exists_ok_of_bind {ε α β : Type} {x : Except ε α} {f : α → Except ε β} {b : β}
    (h : x >>= f = .ok b) : ∃ a, x = .ok a ∧ f a = .ok b := by
  cases x with
  | error e => simp [bind, Except.bind] at h
  | ok a => exact ⟨a, rfl, h⟩

end Stencil
