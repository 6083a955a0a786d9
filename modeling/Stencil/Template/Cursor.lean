import Stencil.Text.Blank
import Stencil.Text.Size
import Stencil.Text.Search

/-!
# `Stencil.Template.Cursor`: a place in a template

A cursor is a byte offset together with the text from there on. `c.Reaches d` says that `d` lies
at or after `c` in the same text: some characters are between the two, and their size is the
distance of the offsets. Every move of this module gives a place that is reached in this sense, so
that the offset of a cursor that started at the beginning always lies on a character boundary.

`Reaches.trans` puts two ways together, and `Reaches.length_lt` says that less text is left after a
way that is not empty.
-/

set_option autoImplicit false

namespace Stencil

open Text

/-- A place in a template. -/
structure Cursor where
  /-- The number of bytes before the place. -/
  offset : Nat
  /-- The text after the place. -/
  rest : List Char
deriving DecidableEq, Repr, Inhabited

namespace Cursor

/-- The beginning of a text. -/
def atStart (source : List Char) : Cursor :=
  ⟨0, source⟩

/-- The place after `taken`, where `rest` follows. -/
def past (c : Cursor) (taken rest : List Char) : Cursor :=
  ⟨c.offset + byteSize taken, rest⟩

/-- The place after `lead`, if that is what follows. -/
def after? (c : Cursor) (lead : List Char) : Option Cursor :=
  (Text.after? lead c.rest).map (c.past lead)

/-- The text up to the next `needle`, the place where that starts and the place where it ends. -/
def cut? (c : Cursor) (needle : List Char) : Option (List Char × Cursor × Cursor) :=
  (Text.cut? needle c.rest).map fun (before, rest) =>
    let found := c.past before (needle ++ rest)
    (before, found, found.past needle rest)

/-- The next place that is not followed by a blank. -/
def skipBlank (c : Cursor) : Cursor :=
  c.past (c.rest.takeWhile isBlank) (trimStart c.rest)

/-- A name and the place where it ends: at a blank, at `closing`, or at the end of the text. -/
def name (c : Cursor) (closing : List Char) : List Char × Cursor :=
  let (name, rest) := spanUntil isBlank closing c.rest
  (name, c.past name rest)

/-- The text after `c` leads to the place `d`. -/
def Reaches (c d : Cursor) : Prop :=
  ∃ taken, c.rest = taken ++ d.rest ∧ d.offset = c.offset + byteSize taken

/-- Every place leads to itself. -/
theorem Reaches.refl (c : Cursor) : c.Reaches c :=
  ⟨[], by simp⟩

/-- What leads to a place leads to all that it leads to. -/
theorem Reaches.trans {c d e : Cursor} (h : c.Reaches d) (k : d.Reaches e) : c.Reaches e := by
  obtain ⟨first, hrest, hoffset⟩ := h
  obtain ⟨second, krest, koffset⟩ := k
  exact ⟨first ++ second, by simp [hrest, krest], by simp [hoffset, koffset, Nat.add_assoc]⟩

/-- A way that is not empty leaves less text. -/
theorem Reaches.length_lt {c d : Cursor} (h : c.Reaches d) (hlt : c.offset < d.offset) :
    d.rest.length < c.rest.length := by
  obtain ⟨taken, hrest, hoffset⟩ := h
  -- The offsets differ by the size of the text between, which is therefore not empty.
  have hne : taken ≠ [] := by
    rintro rfl
    simp only [byteSize_nil] at hoffset
    omega
  have hpos := List.length_pos_iff.2 hne
  rw [hrest, List.length_append]
  omega

/-- The text taken is the way to the place past it. -/
theorem reaches_past {c : Cursor} {taken rest : List Char} (h : c.rest = taken ++ rest) :
    c.Reaches (c.past taken rest) :=
  ⟨taken, h, rfl⟩

/-- A text that stands at a place leads to its end. -/
theorem reaches_of_after? {c d : Cursor} {lead : List Char} (h : c.after? lead = some d) :
    c.Reaches d := by
  obtain ⟨rest, hrest, rfl⟩ := Option.map_eq_some_iff.1 h
  exact reaches_past (after?_eq_some.1 hrest)

/-- The text before a needle leads to it, and the needle leads to its end. -/
theorem reaches_of_cut? {c found next : Cursor} {needle before : List Char}
    (h : c.cut? needle = some (before, found, next)) : c.Reaches found ∧ found.Reaches next := by
  obtain ⟨⟨before', rest⟩, hcut, heq⟩ := Option.map_eq_some_iff.1 h
  simp only [Prod.mk.injEq] at heq
  obtain ⟨rfl, rfl, rfl⟩ := heq
  exact ⟨reaches_past (by simpa using cut?_eq_some hcut), reaches_past rfl⟩

/-- Blanks lead to the place where they end. -/
theorem reaches_skipBlank (c : Cursor) : c.Reaches c.skipBlank :=
  reaches_past List.takeWhile_append_dropWhile.symm

/-- A name leads to the place where it ends. -/
theorem reaches_name (c : Cursor) (closing : List Char) : c.Reaches (c.name closing).2 :=
  reaches_past (spanUntil_append isBlank closing c.rest).symm

end Cursor

end Stencil
