import Stencil.Text.CaseTable

/-!
# `Stencil.Text.LowerCase`: texts in lower case

Each character is replaced by its lower case. A capital sigma at the end of a word becomes a final
sigma, elsewhere a small one, and a capital I with a dot keeps its dot as a character of its own.
Names of helpers are compared in this form.

`lowerCase_of_ascii` says that on ASCII texts this is the map of `Char.toLower`.
-/

set_option autoImplicit false

namespace Stencil.Text

/-- Whether a code point lies in one of some ranges. -/
def inRanges (ranges : List (Nat × Nat)) (n : Nat) : Bool :=
  ranges.any fun (first, last) => first ≤ n && n ≤ last

/-- The lower case of a character that has one of its own, or else the character. -/
def lowerCaseChar (c : Char) : Char :=
  if c.toNat < 0x80 then c.toLower
  else
    let n := c.toNat
    let range := lowerCaseRanges.find? fun (first, last, step, _) =>
      first ≤ n && n ≤ last && (n - first) % step == 0
    match range with
    | some (_, _, _, distance) => Char.ofNat (n + distance).toNat
    | none => c

/-- Whether the first character that is not passed over is a letter with case. -/
def nextIsCased (cs : List Char) : Bool :=
  match cs.dropWhile fun c => inRanges caseIgnorableRanges c.toNat with
  | c :: _ => inRanges casedRanges c.toNat
  | [] => false

/-- The lower case of a character between the text `before` it, last character first, and the
text `after` it. -/
def lowerCaseWithin (before : List Char) (c : Char) (after : List Char) : List Char :=
  if c = 'Σ' then [if nextIsCased before && !nextIsCased after then 'ς' else 'σ']
  else if c = 'İ' then ['i', '\u0307']
  else [lowerCaseChar c]

/-- The lower case of a text that follows the text `before`, given last character first. -/
def lowerCaseAfter (before : List Char) : List Char → List Char
  | [] => []
  | c :: cs => lowerCaseWithin before c cs ++ lowerCaseAfter (c :: before) cs

/-- A string in lower case. -/
def lowerCase (s : String) : String :=
  String.ofList (lowerCaseAfter [] s.toList)

/-- An ASCII text has the lower case of its characters, whatever stands before it. -/
theorem lowerCaseAfter_of_ascii {before cs : List Char} (h : ∀ c ∈ cs, c.toNat < 0x80) :
    lowerCaseAfter before cs = cs.map Char.toLower := by
  induction cs generalizing before with
  | nil => rfl
  | cons c cs ih =>
    have hc : c.toNat < 0x80 := h c (by simp)
    -- The two characters with rules of their own are not ASCII.
    have hsigma : c ≠ 'Σ' := by rintro rfl; revert hc; decide
    have hdot : c ≠ 'İ' := by rintro rfl; revert hc; decide
    have htail : ∀ d ∈ cs, d.toNat < 0x80 := fun d hd => h d (by simp [hd])
    simp [lowerCaseAfter, lowerCaseWithin, hsigma, hdot, lowerCaseChar, hc, ih htail]

/-- The lower case of an ASCII string is the one of its characters. -/
theorem lowerCase_of_ascii {s : String} (h : ∀ c ∈ s.toList, c.toNat < 0x80) :
    lowerCase s = String.ofList (s.toList.map Char.toLower) := by
  rw [lowerCase, lowerCaseAfter_of_ascii h]

end Stencil.Text
