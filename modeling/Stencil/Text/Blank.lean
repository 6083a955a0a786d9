/-!
# `Stencil.Text.Blank`: blank characters

The blank characters are those with the Unicode property White_Space. Tags, argument lists,
paths and helper names are trimmed of them, and they end a name. `trimStart`, `trimEnd` and
`trim` drop them from a text, `words` cuts a text at them.

`isBlank_of_isWhitespace` says that every white space character of the core library is blank.
-/

set_option autoImplicit false

namespace Stencil.Text

/-- Whether a character has the Unicode property White_Space. -/
def isBlank (c : Char) : Bool :=
  let n := c.toNat
  (9 ≤ n && n ≤ 13) || n = 0x20 || n = 0x85 || n = 0xA0 || n = 0x1680 ||
    (0x2000 ≤ n && n ≤ 0x200A) || n = 0x2028 || n = 0x2029 || n = 0x202F || n = 0x205F ||
    n = 0x3000

/-- The text without its leading blanks. -/
def trimStart (cs : List Char) : List Char :=
  cs.dropWhile isBlank

/-- The text without its trailing blanks. -/
def trimEnd (cs : List Char) : List Char :=
  (cs.reverse.dropWhile isBlank).reverse

/-- The text without the blanks on either side. -/
def trim (cs : List Char) : List Char :=
  trimEnd (trimStart cs)

/-- A string without the blanks on either side. -/
def trimmed (s : String) : String :=
  String.ofList (trim s.toList)

/-- The maximal runs of characters that are not blank, in order. -/
def words : List Char → List (List Char)
  | [] => []
  | c :: cs =>
    if isBlank c then words cs
    else
      match cs with
      | [] => [[c]]
      | d :: _ =>
        if isBlank d then [c] :: words cs
        else
          match words cs with
          | [] => [[c]]
          | w :: ws => (c :: w) :: ws

/-- The white space of the core library is blank. -/
theorem isBlank_of_isWhitespace {c : Char} (h : c.isWhitespace = true) : isBlank c = true := by
  simp only [Char.isWhitespace, Bool.or_eq_true, decide_eq_true_eq] at h
  rcases h with ((rfl | rfl) | rfl) | rfl <;> decide

end Stencil.Text
