import Stencil.Proofs.Template.Lexemes

/-!
# `Stencil.Proofs.Template.Spelling`: argument lists that are written out

Every list of arguments can be written, if its paths can be written at all: a path is written as it
is, and a literal in quotes of either kind, with a backslash before each backslash and each quote of
that kind. `parseArguments_write` says that what is written is read back, with any blanks around the
arguments as long as some stand between two of them.

The text of a literal is an inside that stands for the literal (`inside_escape`), so that the written
list is one of the grammar of argument lists (`lexemes_write`).
-/

set_option autoImplicit false

namespace Stencil

open Text

/-- The text of a literal between two quotes: a backslash stands before each backslash and each
quote of that kind. -/
def escapeQuoted (quote : Char) (cs : List Char) : List Char :=
  cs.flatMap fun c => if c = '\\' ∨ c = quote then ['\\', c] else [c]

/-- A backslash and a quote stand for themselves behind a backslash. -/
theorem unescapedChar_of_special {quote c : Char} (hquote : isQuote quote = true)
    (hc : c = '\\' ∨ c = quote) : unescapedChar c = c := by
  simp only [isQuote, Bool.or_eq_true, beq_iff_eq] at hquote
  obtain rfl | rfl := hc
  · rfl
  · obtain rfl | rfl := hquote <;> rfl

/-- What is written between two quotes stands for the text that was to be written. -/
theorem inside_escape {quote : Char} (hquote : isQuote quote = true) (cs : List Char) :
    Inside quote (escapeQuoted quote cs) cs := by
  induction cs with
  | nil => exact .nil
  | cons c cs ih =>
    by_cases hc : c = '\\' ∨ c = quote
    · have hpair : escapeQuoted quote (c :: cs) = '\\' :: c :: escapeQuoted quote cs := by
        simp [escapeQuoted, hc]
      rw [hpair]
      conv => rhs; rw [← unescapedChar_of_special hquote hc]
      exact .pair c ih
    · have hplain : escapeQuoted quote (c :: cs) = c :: escapeQuoted quote cs := by
        simp [escapeQuoted, hc]
      rw [hplain]
      exact .plain (fun h => hc (.inr h)) (fun h => hc (.inl h)) ih

/-- An argument that can be written. A literal may be any text, a path has no blanks and starts
with no quote. -/
def Argument.Writable : Argument → Prop
  | .lookup path => IsWord path.toList ∧ ∀ c ∈ path.toList.head?, isQuote c = false
  | .literal _ => True

/-- An argument with a choice of how to write it: the quote that is put around a literal, and the
blanks that follow. -/
structure SpelledArgument where
  /-- The argument to be written. -/
  argument : Argument
  /-- The quote on either side of a literal. -/
  quote : Char
  /-- The blanks behind the argument. -/
  behind : List Char
  writable : argument.Writable
  isQuote_quote : isQuote quote = true
  allBlank_behind : AllBlank behind

namespace SpelledArgument

/-- The lexeme of an argument. -/
def lexeme (s : SpelledArgument) : List Char :=
  match s.argument with
  | .lookup path => path.toList
  | .literal text => s.quote :: escapeQuoted s.quote text.toList ++ [s.quote]

/-- The lexeme of an argument and the blanks behind it. -/
def write (s : SpelledArgument) : List Char :=
  s.lexeme ++ s.behind

/-- What is written for an argument is a lexeme of it. -/
theorem lexeme_spec (s : SpelledArgument) : s.argument.Lexeme s.lexeme := by
  obtain ⟨argument, quote, behind, hwritable, hquote, hbehind⟩ := s
  cases argument with
  | lookup path =>
    have hlexeme := Argument.Lexeme.lookup hwritable.1 hwritable.2
    rwa [String.ofList_toList] at hlexeme
  | literal text =>
    have hlexeme := Argument.Lexeme.literal hquote (inside_escape hquote text.toList)
    rwa [String.ofList_toList] at hlexeme

/-- An argument ends before blanks, and at the end of the text. -/
theorem endsBefore (s : SpelledArgument) {rest : List Char} (h : s.behind = [] → rest = []) :
    s.argument.EndsBefore (s.behind ++ rest) := by
  cases s.argument with
  | literal text => trivial
  | lookup path =>
    intro c hc
    -- Either nothing follows at all, or the first character that follows is a blank.
    cases hbehind : s.behind with
    | nil =>
      rw [hbehind, h hbehind] at hc
      simp at hc
    | cons d ds =>
      rw [hbehind] at hc
      obtain rfl : d = c := Option.some.inj hc
      exact s.allBlank_behind d (by rw [hbehind]; simp)

/-- Arguments that are written one behind the other are an argument list, if blanks stand behind
each but the last. -/
theorem lexemes_write {lead : List Char} {spelled : List SpelledArgument} (hlead : AllBlank lead)
    (hgaps : ∀ s ∈ spelled.dropLast, s.behind ≠ []) :
    Lexemes [] (spelled.map argument) (lead ++ spelled.flatMap write) := by
  induction spelled generalizing lead with
  | nil =>
    rw [List.flatMap_nil, List.append_nil]
    exact .nil hlead
  | cons s spelled ih =>
    -- Without blanks behind it, an argument is the last one.
    have hlast : s.behind = [] → spelled = [] := by
      intro hnone
      by_contra hmore
      obtain ⟨t, ts, rfl⟩ := List.exists_cons_of_ne_nil hmore
      exact hgaps s (by simp) hnone
    have hends : s.argument.EndsBefore (s.behind ++ spelled.flatMap write) := by
      refine s.endsBefore ?_
      intro hnone
      rw [hlast hnone]
      rfl
    -- The blanks behind this argument are those in front of the next.
    have htail := ih s.allBlank_behind (by
      intro t ht
      cases spelled with
      | nil => simp at ht
      | cons u us => exact hgaps t (by simp [ht]))
    have hall := Lexemes.cons hlead s.lexeme_spec (by rwa [List.append_nil]) htail
    rw [List.flatMap_cons, write, List.append_assoc, ← List.append_assoc lead]
    exact hall

end SpelledArgument

open SpelledArgument in
/-- Every list of arguments that can be written is read back from what is written, at any position
of a template. -/
theorem parseArguments_write (lead : List Char) (spelled : List SpelledArgument) (position : Nat)
    (hlead : AllBlank lead) (hgaps : ∀ s ∈ spelled.dropLast, s.behind ≠ []) :
    parseArguments (String.ofList (lead ++ spelled.flatMap write)) position =
      .ok (spelled.map argument) := by
  have hlist := lexemes_write hlead hgaps
  rw [parseArguments, String.toList_ofList]
  exact Argument.readAll_of_lexemes hlist position

/-- A path, a literal with its own kind of quote, a backslash and an `n`, and an empty literal at the
end, with several blanks and a line break between them. -/
theorem parseArguments_write_of_escapes :
    parseArguments "\tuser.name  \"say \\\"\\\\n'é\"\n''" 7 =
      .ok [.lookup "user.name", .literal "say \"\\n'é", .literal ""] :=
  parseArguments_write ['\t']
    [⟨.lookup "user.name", '"', [' ', ' '], ⟨by decide, by rintro c ⟨⟩; rfl⟩, by decide, by decide⟩,
      ⟨.literal "say \"\\n'é", '"', ['\n'], trivial, by decide, by decide⟩,
      ⟨.literal "", '\'', [], trivial, by decide, by decide⟩]
    7 (by decide) (by decide)

end Stencil
