import Stencil.Helper.Registry
import Stencil.Template.Arguments
import Stencil.Template.Pipeline

/-!
# `Stencil.Helper.Tags`: the tags that call helpers

A tag calls a helper when its first word is the name of one. These recognizers decline all other
tags, so that they stand in front of the stock recognizers for the same marks. What follows the
name is a list of arguments, unless the helper takes none: then it is passed over.
-/

set_option autoImplicit false

namespace Stencil

open Text

/-- A tag that calls a helper. -/
structure CallTag where
  name : String
  args : List Argument
  tag : Span
  /-- From the first byte of the name to the last of the arguments. -/
  content : Span
  /-- The place where the tag ends. -/
  next : Cursor
deriving Repr, Inhabited

/-- Reads a helper's name and arguments from a place inside a tag to the end of the tag. There
is nothing to read if the name is not in the registry. -/
def Site.call (site : Site) (registry : Registry) (start : Cursor) :
    Except ParseError (Option CallTag) :=
  let nameStart := start.skipBlank
  let (name, nameStop) := nameStart.name site.closing
  match registry.get? (String.ofList name) with
  | none => .ok none
  | some helper => do
    let argsStart := nameStop.skipBlank
    let (inside, stop, next) ← site.upTo argsStart site.closing
    -- What follows the name of a helper without arguments is of no account.
    if helper.arity = 0 then
      .ok (some ⟨String.ofList name, [], site.spanTo next, ⟨nameStart.offset, stop.offset⟩, next⟩)
    else
      let text := trimEnd inside
      let args ← Argument.readAll ⟨argsStart.offset, text⟩
      let content : Span := ⟨nameStart.offset, argsStart.offset + byteSize text⟩
      .ok (some ⟨String.ofList name, args, site.spanTo next, content, next⟩)

/-- A call tag ends behind the place where its reading started. -/
theorem Site.reaches_of_call {site : Site} {registry : Registry} {start : Cursor} {c : CallTag}
    (h : site.call registry start = .ok (some c)) : start.Reaches c.next := by
  unfold Site.call at h
  simp only at h
  split at h
  · simp at h
  · obtain ⟨⟨inside, found, next⟩, hfound, h⟩ := exists_ok_of_bind h
    have ⟨hinside, hclosing⟩ := Site.reaches_of_upTo hfound
    -- Over blanks, the name, blanks again, the arguments, and the closing delimiter.
    have hname := (Cursor.reaches_skipBlank start).trans (Cursor.reaches_name _ site.closing)
    have hnext := hname.trans ((Cursor.reaches_skipBlank _).trans (hinside.trans hclosing))
    simp only at h
    split at h
    · simp only [Except.ok.injEq, Option.some.injEq] at h
      subst h
      exact hnext
    · obtain ⟨args, _, h⟩ := exists_ok_of_bind h
      simp only [Except.ok.injEq, Option.some.injEq] at h
      subst h
      exact hnext

namespace Recognizer

/-- The call of an inline helper. -/
def helper (registry : Registry) : Recognizer where
  name := "helper"
  read site := do
    match ← site.call registry site.cursor with
    | none => .ok (none, site.cursor)
    | some c => .ok (some (.token (.call ⟨c.name, c.args, c.tag, c.content⟩)), c.next)
  reaches := by
    intro site e next h
    obtain ⟨c?, hcall, h⟩ := exists_ok_of_bind h
    split at h
    · simp at h
    · simp only [Except.ok.injEq, Prod.mk.injEq] at h
      obtain ⟨_, rfl⟩ := h
      exact Site.reaches_of_call hcall

/-- The open tag of a block with a helper, marked like the block of the given kind. -/
def helperBlock (name : String) (mark : List Char) (kind : BlockKind) (registry : Registry) :
    Recognizer where
  name := name
  read site := do
    match site.cursor.after? mark with
    | none => .ok (none, site.cursor)
    | some start =>
      match ← site.call registry start with
      | none => .ok (none, site.cursor)
      | some c => .ok (some (.enter ⟨kind, c.name, c.args, c.tag⟩), c.next)
  reaches := by
    intro site e next h
    split at h
    · simp at h
    · rename_i start hstart
      obtain ⟨c?, hcall, h⟩ := exists_ok_of_bind h
      split at h
      · simp at h
      · simp only [Except.ok.injEq, Prod.mk.injEq] at h
        obtain ⟨_, rfl⟩ := h
        exact (Cursor.reaches_of_after? hstart).trans (Site.reaches_of_call hcall)

/-- The open tag of a block that shows its children for the value of a helper. -/
def helperSection : Registry → Recognizer :=
  helperBlock "helper_section" ['#'] .helper

/-- The open tag of a block that shows its children in the absence of a helper's value. -/
def helperInvertedSection : Registry → Recognizer :=
  helperBlock "helper_inverted_section" ['^'] .invertedHelper

end Recognizer

end Stencil
