import Stencil.Template.Cursor
import Stencil.Template.Error

/-!
# `Stencil.Template.Arguments`: the arguments of a helper tag

What follows the name of a helper is a list of arguments between blanks. An argument that starts
with a quote runs to the next quote of the same kind and gives a literal; in it a backslash
stands together with the character after it. Any other argument runs to the next blank and gives
a path to look up.

`quotedSpan?_eq_some` says that a quoted text is its inside, its closing quote and the rest.
-/

set_option autoImplicit false

namespace Stencil

open Text

/-- Whether a character starts a literal. -/
def isQuote (c : Char) : Bool :=
  c == '\'' || c == '"'

/-- A quote is no backslash, so that an escape cannot close a literal. -/
theorem ne_backslash_of_isQuote {c : Char} (h : isQuote c = true) : c ≠ '\\' := by
  rintro rfl
  exact absurd h (by decide)

/-- A quote is no blank, so that blanks in front of a literal are not part of it. -/
theorem isBlank_of_isQuote {c : Char} (h : isQuote c = true) : isBlank c = false := by
  simp only [isQuote, Bool.or_eq_true, beq_iff_eq] at h
  obtain rfl | rfl := h <;> decide

/-- The character that a backslash and `c` stand for. -/
def unescapedChar (c : Char) : Char :=
  match c with
  | 'n' => '\n'
  | 'r' => '\r'
  | 't' => '\t'
  | '0' => '\x00'
  | c => c

/-- The text that the inside of a literal stands for: each pair of a backslash and a character
gives one character. -/
def unescape : List Char → List Char
  | '\\' :: c :: cs => unescapedChar c :: unescape cs
  | c :: cs => c :: unescape cs
  | [] => []

/-- The inside of a literal and the text after its closing quote. A quote that follows a
backslash belongs to the inside. -/
def quotedSpan? (quote : Char) : List Char → Option (List Char × List Char)
  | [] => none
  | '\\' :: c :: cs =>
    (quotedSpan? quote cs).map fun (inside, rest) => ('\\' :: c :: inside, rest)
  | c :: cs =>
    if c = quote then some ([], cs)
    else (quotedSpan? quote cs).map fun (inside, rest) => (c :: inside, rest)

/-- A quoted text is its inside, its closing quote and the rest. -/
theorem quotedSpan?_eq_some {quote : Char} {cs inside rest : List Char}
    (h : quotedSpan? quote cs = some (inside, rest)) : cs = inside ++ quote :: rest := by
  fun_induction quotedSpan? quote cs generalizing inside with
  | case1 => simp at h
  | case2 c cs ih =>
    obtain ⟨⟨i, r⟩, hi, heq⟩ := Option.map_eq_some_iff.1 h
    simp only [Prod.mk.injEq] at heq
    obtain ⟨rfl, rfl⟩ := heq
    simp [ih hi]
  | case3 => simp_all
  | case4 c cs hc _ ih =>
    obtain ⟨⟨i, r⟩, hi, heq⟩ := Option.map_eq_some_iff.1 h
    simp only [Prod.mk.injEq] at heq
    obtain ⟨rfl, rfl⟩ := heq
    simp [ih hi]

/-- A lexeme of an argument list with the place where it ends. The cursor stands on its first
character, `c`, and `cs` is what follows that. -/
def Argument.readAt (cursor : Cursor) (c : Char) (cs : List Char) :
    Except ParseError (Argument × Cursor) :=
  if isQuote c then
    match quotedSpan? c cs with
    | none => .error (.unclosedString cursor.offset
        (String.ofList (takeLastBytes excerptSize (c :: cs))))
    | some (inside, rest) =>
      .ok (.literal (String.ofList (unescape inside)),
        cursor.past (c :: inside ++ [c]) rest)
  else
    let word := (c :: cs).takeWhile (!isBlank ·)
    .ok (.lookup (String.ofList word), cursor.past word ((c :: cs).dropWhile (!isBlank ·)))

/-- Reading an argument uses up a character at least. This is what ends the reading of a list. -/
theorem Argument.length_lt_of_readAt {cursor next : Cursor} {c : Char} {cs : List Char}
    {argument : Argument} (hblank : isBlank c = false)
    (h : Argument.readAt cursor c cs = .ok (argument, next)) :
    next.rest.length < (c :: cs).length := by
  unfold Argument.readAt at h
  split at h
  · split at h
    · simp at h
    · rename_i inside rest hspan
      simp only [Except.ok.injEq, Prod.mk.injEq] at h
      obtain ⟨_, rfl⟩ := h
      have := congrArg List.length (quotedSpan?_eq_some hspan)
      simp only [List.length_append, List.length_cons] at this ⊢
      simp only [Cursor.past]
      omega
  · simp only [Except.ok.injEq, Prod.mk.injEq] at h
    obtain ⟨_, rfl⟩ := h
    simp only [Cursor.past, List.dropWhile_cons, hblank, Bool.not_false, if_true,
      List.length_cons]
    have := (List.dropWhile_suffix (l := cs) (!isBlank ·)).length_le
    omega

/-- Reads an argument list from a place to the end of the text. -/
def Argument.readAll (cursor : Cursor) : Except ParseError (List Argument) :=
  match _rest_eq : cursor.skipBlank.rest with
  | [] => .ok []
  | c :: cs =>
    match _read_eq : Argument.readAt cursor.skipBlank c cs with
    | .error e => .error e
    | .ok (argument, next) => (argument :: ·) <$> Argument.readAll next
termination_by cursor.rest.length
decreasing_by
  -- Skipping blanks takes nothing away but blanks, and a lexeme has a character at least.
  have hlen : cursor.skipBlank.rest.length ≤ cursor.rest.length :=
    (List.dropWhile_suffix isBlank).length_le
  have hblank : isBlank c = false := by
    have := List.head?_dropWhile_not isBlank cursor.rest
    rw [show cursor.rest.dropWhile isBlank = c :: cs from _rest_eq] at this
    simpa using this
  have := Argument.length_lt_of_readAt hblank _read_eq
  rw [_rest_eq] at hlen
  omega

/-- There are no arguments where nothing but blanks follows. -/
theorem Argument.readAll_of_blank {c : Cursor} (h : c.skipBlank.rest = []) :
    Argument.readAll c = .ok [] := by
  rw [Argument.readAll]
  split
  · rfl
  · simp_all

/-- The first argument is read, and then those of the text behind it. -/
theorem Argument.readAll_of_cons {c : Cursor} {d : Char} {ds : List Char}
    (h : c.skipBlank.rest = d :: ds) :
    Argument.readAll c =
      Argument.readAt c.skipBlank d ds >>= fun read => (read.1 :: ·) <$> Argument.readAll read.2 := by
  rw [Argument.readAll]
  split
  · simp_all
  · rename_i d' ds' hcons
    obtain ⟨rfl, rfl⟩ := List.cons.inj (h.symm.trans hcons)
    split
    · rename_i hread
      rw [hread]
      rfl
    · rename_i hread
      rw [hread]
      rfl

/-- The arguments written in a text that starts at a byte offset of the template. -/
def parseArguments (source : String) (position : Nat) : Except ParseError (List Argument) :=
  Argument.readAll ⟨position, source.toList⟩

end Stencil
