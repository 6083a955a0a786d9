import Stencil.Text.Search

/-!
# `Stencil.Text.Replace`: replacing one text by another

`replaceAll` replaces the occurrences of a text that do not overlap, from the left to the right.
The empty text occurs before every character and at the end.

`replaceAll_of_not_found` says that a text without occurrences stays as it is.
-/

set_option autoImplicit false

namespace Stencil.Text

/-- Replaces a text that is not empty, at most `fuel` times. -/
def replaceUpTo (old new : List Char) : Nat → List Char → List Char
  | 0, cs => cs
  | fuel + 1, cs =>
    match cut? old cs with
    | none => cs
    | some (before, rest) => before ++ new ++ replaceUpTo old new fuel rest

/-- Replaces each occurrence of `old` by `new`. -/
def replaceAll (old new cs : List Char) : List Char :=
  if old.isEmpty then new ++ cs.flatMap (fun c => c :: new)
  else replaceUpTo old new cs.length cs

/-- A text in which nothing is found stays as it is. -/
theorem replaceAll_of_not_found {old new cs : List Char} (h : cut? old cs = none) :
    replaceAll old new cs = cs := by
  unfold replaceAll
  split
  · rename_i hempty
    cases cs with
    | nil => simp [cut?_nil, hempty] at h
    | cons c cs =>
      rw [List.isEmpty_iff.1 hempty] at h
      simp [cut?_cons, after?] at h
  · cases cs with
    | nil => rfl
    | cons c cs => simp [replaceUpTo, h]

end Stencil.Text
