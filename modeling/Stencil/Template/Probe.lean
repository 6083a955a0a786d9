import Stencil.Template.Event
import Stencil.Json.Writer
import Stencil.Decimal.Numeral

/-!
# `Stencil.Template.Probe`: recognizers that test a pipeline

These recognizers make visible what a recognizer is given and what a pipeline does with its
answers: one that declines every tag from another place, one that fails at a place of the
template's own choosing, and one that shows the places that it sees.
-/

set_option autoImplicit false

namespace Stencil.Recognizer

open Text Decimal

/-- Declines every tag, at the end of the template. -/
def decline (name : String) : Recognizer where
  name := name
  read site := .ok (none, ⟨byteSize site.source, []⟩)
  reaches := by simp

/-- Takes the tags that start with a tilde and a number of at most 64 bits, and fails as if it
had read so many bytes of the tag and found it empty. -/
def emptyAt : Recognizer where
  name := "empty_at"
  read site :=
    match site.cursor.after? ['~'] with
    | none => .ok (none, site.cursor)
    | some start =>
      let digits := start.rest.takeWhile Char.isDigit
      let n := digitsValue digits
      if digits.isEmpty || 2 ^ 64 ≤ n then .ok (none, site.cursor)
      else .error (site.empty (site.start + n))
  reaches := by
    intro site e next h
    split at h
    · simp at h
    · simp only at h
      split at h <;> simp at h

/-- What `probe` sees of a tag whose content starts at a place. -/
def report (site : Site) (start : Cursor) : Json :=
  let word := start.skipBlank
  let wordStop := (word.name site.closing).2
  let nextClosing : Json :=
    match start.cut? site.closing with
    | some (_, found, _) => .int found.offset
    | none => .null
  .arr [
    .int site.start,
    .int site.cursor.offset,
    .int word.offset,
    .int wordStop.offset,
    nextClosing,
    .bool (wordStop.after? site.closing).isSome,
    .int (byteSize site.source),
    .int (byteSize site.cursor.rest),
    .str site.delimiters.opening,
    .str site.delimiters.closing]

/-- Takes the tags that start with a question mark. Its token shows, as a JSON list, where the tag
starts and where its content, its first word and that word's end lie, where the closing delimiter
comes next and whether it follows the word, the number of bytes of the template and of the rest
of it, and the delimiters. -/
def probe : Recognizer where
  name := "probe"
  read site :=
    match site.cursor.after? ['?'] with
    | none => .ok (none, site.cursor)
    | some start => do
      let (_, _, next) ← site.upTo (start.skipBlank.name site.closing).2 site.closing
      .ok (some (.token (.text (report site start).render)), next)
  reaches := by
    intro site e next h
    split at h
    · simp at h
    · rename_i start hstart
      obtain ⟨⟨inside, found, next'⟩, hfound, h⟩ := exists_ok_of_bind h
      have ⟨hinside, hclosing⟩ := Site.reaches_of_upTo hfound
      simp only [Except.ok.injEq, Prod.mk.injEq] at h
      obtain ⟨_, rfl⟩ := h
      -- Over the mark, blanks, the first word, the rest of the content, and the delimiter.
      have hword := (Cursor.reaches_skipBlank start).trans (Cursor.reaches_name _ site.closing)
      exact (Cursor.reaches_of_after? hstart).trans (hword.trans (hinside.trans hclosing))

end Stencil.Recognizer
