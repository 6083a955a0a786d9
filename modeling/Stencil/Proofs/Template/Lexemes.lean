import Mathlib.Data.List.Induction
import Stencil.Proofs.Text.Words
import Stencil.Template.Arguments

/-!
# `Stencil.Proofs.Template.Lexemes`: the texts that are argument lists

`Lexemes rest args text` is the grammar of argument lists: blanks and one lexeme for each argument,
in order and with nothing between. A lookup's lexeme is a word that does not start with a quote and
runs to the next blank; a literal's is a quote, an `Inside` and the same quote. A text that is no
argument list breaks off (`BreaksOff`): behind blanks and whole lexemes stands a quote, and each later
quote of its kind is escaped, by the last of an odd run of backslashes.

`parseArguments_decides` says that these two are the answers of the reader, and that a text has
exactly one of them. `quotedSpan?_eq_some_iff` and `quotedSpan?_eq_none_iff` are its two halves for a
literal: the reader passes over pairs of a backslash and a character, and the number of backslashes
in front of a quote says whether such a pair ends there.
-/

set_option autoImplicit false

namespace Stencil

open Text

/-! ### The inside of a literal -/

/-- What stands between the quotes of a literal, and the text that it stands for: pairs of a
backslash and a character, and characters that are neither a backslash nor the quote. -/
inductive Inside (quote : Char) : List Char → List Char → Prop where
  | nil : Inside quote [] []
  | pair {cs text : List Char} (c : Char) (h : Inside quote cs text) :
    Inside quote ('\\' :: c :: cs) (unescapedChar c :: text)
  | plain {c : Char} {cs text : List Char} (hquote : c ≠ quote) (hbackslash : c ≠ '\\')
    (h : Inside quote cs text) : Inside quote (c :: cs) (c :: text)

/-- The number of backslashes that a text ends with. -/
def backslashesAtEnd (cs : List Char) : Nat :=
  (cs.reverse.takeWhile (· == '\\')).length

/-- No quote of the text closes a literal that runs through it: an odd number of backslashes
stands in front of each. -/
def NeverCloses (quote : Char) (cs : List Char) : Prop :=
  ∀ before after, cs = before ++ quote :: after → backslashesAtEnd before % 2 = 1

/-- The text that an inside stands for is the one that the reader makes of it. -/
theorem Inside.unescape_eq {quote : Char} {cs text : List Char} (h : Inside quote cs text) :
    unescape cs = text := by
  induction h with
  | nil => rfl
  | pair c h ih => rw [unescape, ih]
  | plain hquote hbackslash h ih => simp [unescape, hbackslash, ih]

/-- A literal is closed by the first quote that no inside takes in. -/
theorem quotedSpan?_eq_some_iff {quote : Char} (hquote : quote ≠ '\\') {cs inside rest : List Char} :
    quotedSpan? quote cs = some (inside, rest) ↔
      cs = inside ++ quote :: rest ∧ ∃ text, Inside quote inside text := by
  constructor
  · intro h
    refine ⟨quotedSpan?_eq_some h, ?_⟩
    fun_induction quotedSpan? quote cs generalizing inside with
    | case1 => simp at h
    | case2 c cs ih =>
      obtain ⟨⟨i, r⟩, hi, heq⟩ := Option.map_eq_some_iff.1 h
      simp only [Prod.mk.injEq] at heq
      obtain ⟨rfl, rfl⟩ := heq
      obtain ⟨text, htext⟩ := ih hi
      exact ⟨_, .pair c htext⟩
    | case3 cs hpair =>
      simp only [Option.some.injEq, Prod.mk.injEq] at h
      obtain ⟨rfl, rfl⟩ := h
      exact ⟨_, .nil⟩
    | case4 c cs hpair hc ih =>
      obtain ⟨⟨i, r⟩, hi, heq⟩ := Option.map_eq_some_iff.1 h
      simp only [Prod.mk.injEq] at heq
      obtain ⟨rfl, rfl⟩ := heq
      obtain ⟨text, htext⟩ := ih hi
      -- A backslash that is no pair is the last character, and then there is no quote.
      have hbackslash : c ≠ '\\' := by
        rintro rfl
        cases cs with
        | nil => simp [quotedSpan?] at hi
        | cons d ds => exact hpair d ds rfl rfl
      exact ⟨_, .plain hc hbackslash htext⟩
  · rintro ⟨rfl, text, htext⟩
    induction htext with
    | nil => simp [quotedSpan?, hquote]
    | pair c h ih => simp [quotedSpan?, ih]
    | plain hc hbackslash h ih => simp [quotedSpan?, hc, hbackslash, ih]

/-! ### Literals that nothing closes -/

/-- Whether the character behind a text is escaped. -/
def escapesNext (cs : List Char) : Bool :=
  cs.foldl (fun escaped c => c == '\\' && !escaped) false

/-- A character is escaped by the last of an odd number of backslashes. -/
theorem escapesNext_eq_true_iff (cs : List Char) :
    escapesNext cs = true ↔ backslashesAtEnd cs % 2 = 1 := by
  induction cs using List.reverseRecOn with
  | nil => simp [escapesNext, backslashesAtEnd]
  | append_singleton cs c ih =>
    have hstep : escapesNext (cs ++ [c]) = (c == '\\' && !escapesNext cs) := by
      simp [escapesNext]
    by_cases hc : c = '\\'
    -- Each backslash turns the answer over, and so it does with the number of them.
    · have hone : backslashesAtEnd (cs ++ [c]) = backslashesAtEnd cs + 1 := by
        simp [backslashesAtEnd, hc]
      rw [hstep, hone]
      cases hescapes : escapesNext cs with
      | false =>
        have := mt ih.2 (by simp [hescapes])
        simp only [hc, beq_self_eq_true, Bool.not_false, Bool.and_self, true_iff]
        omega
      | true =>
        have := ih.1 hescapes
        simp only [Bool.not_true, Bool.and_false, Bool.false_eq_true, false_iff]
        omega
    · have hzero : backslashesAtEnd (cs ++ [c]) = 0 := by
        simp [backslashesAtEnd, hc]
      rw [hstep, hzero]
      simp [hc]

/-- Behind a pair the reader starts over. -/
theorem escapesNext_pair (c : Char) (cs : List Char) :
    escapesNext ('\\' :: c :: cs) = escapesNext cs := by
  simp [escapesNext]

/-- Behind a character that is no backslash the reader starts over. -/
theorem escapesNext_cons {c : Char} (hc : c ≠ '\\') (cs : List Char) :
    escapesNext (c :: cs) = escapesNext cs := by
  have hfirst : (c == '\\' && !false) = false := by simp [hc]
  rw [escapesNext, List.foldl_cons, hfirst]
  rfl

/-- No quote closes exactly if each one is escaped. -/
theorem neverCloses_iff_escapesNext {quote : Char} {cs : List Char} :
    NeverCloses quote cs ↔
      ∀ before after, cs = before ++ quote :: after → escapesNext before = true := by
  simp only [NeverCloses, ← escapesNext_eq_true_iff]

/-- The first quote of a text that starts with one is not escaped. -/
theorem not_neverCloses_quote (quote : Char) (cs : List Char) :
    ¬ NeverCloses quote (quote :: cs) := by
  intro h
  exact absurd (h [] cs rfl) (by decide)

/-- Behind a pair a literal is as open as before it. -/
theorem neverCloses_pair {quote : Char} (hquote : quote ≠ '\\') (c : Char) (cs : List Char) :
    NeverCloses quote ('\\' :: c :: cs) ↔ NeverCloses quote cs := by
  rw [neverCloses_iff_escapesNext, neverCloses_iff_escapesNext]
  constructor
  · intro h before after heq
    have hescapes := h ('\\' :: c :: before) after (by rw [heq]; rfl)
    rwa [escapesNext_pair] at hescapes
  · intro h before after heq
    -- The quote is not the backslash; it is escaped if it is the other half of the pair.
    cases before with
    | nil => exact absurd (List.cons.inj heq).1.symm hquote
    | cons b before =>
      obtain ⟨rfl, htail⟩ := List.cons.inj heq
      cases before with
      | nil => rfl
      | cons d before =>
        obtain ⟨rfl, hrest⟩ := List.cons.inj htail
        rw [escapesNext_pair]
        exact h before after hrest

/-- Behind a character that is neither quote nor backslash a literal is as open as before it. -/
theorem neverCloses_cons {quote c : Char} (hc : c ≠ quote) (hbackslash : c ≠ '\\')
    (cs : List Char) : NeverCloses quote (c :: cs) ↔ NeverCloses quote cs := by
  rw [neverCloses_iff_escapesNext, neverCloses_iff_escapesNext]
  constructor
  · intro h before after heq
    have hescapes := h (c :: before) after (by rw [heq]; rfl)
    rwa [escapesNext_cons hbackslash] at hescapes
  · intro h before after heq
    cases before with
    | nil => exact absurd (List.cons.inj heq).1 hc
    | cons b before =>
      obtain ⟨rfl, hrest⟩ := List.cons.inj heq
      rw [escapesNext_cons hbackslash]
      exact h before after hrest

/-- A text without the quote closes nothing. -/
theorem neverCloses_of_not_mem {quote : Char} {cs : List Char} (h : quote ∉ cs) :
    NeverCloses quote cs := by
  rintro before after rfl
  exact absurd (by simp) h

/-- The reader finds no closing quote if and only if each quote is escaped. -/
theorem quotedSpan?_eq_none_iff {quote : Char} (hquote : quote ≠ '\\') {cs : List Char} :
    quotedSpan? quote cs = none ↔ NeverCloses quote cs := by
  fun_induction quotedSpan? quote cs with
  | case1 => simp [neverCloses_of_not_mem]
  | case2 c cs ih => rw [Option.map_eq_none_iff, ih, neverCloses_pair hquote]
  | case3 cs hpair => simp [not_neverCloses_quote]
  | case4 c cs hpair hc ih =>
    rw [Option.map_eq_none_iff, ih]
    by_cases hbackslash : c = '\\'
    · -- A backslash that is no pair is the last character.
      obtain rfl : cs = [] := by
        cases cs with
        | nil => rfl
        | cons d ds => exact (hpair d ds hbackslash rfl).elim
      have hlast : quote ∉ [c] := by simpa using Ne.symm hc
      exact iff_of_true (neverCloses_of_not_mem (by simp)) (neverCloses_of_not_mem hlast)
    · exact (neverCloses_cons hc hbackslash cs).symm

/-! ### Lexemes -/

/-- A text that gives an argument. -/
inductive Argument.Lexeme : Argument → List Char → Prop where
  | lookup {word : List Char} (hword : IsWord word) (hquote : ∀ c ∈ word.head?, isQuote c = false) :
    Lexeme (.lookup (String.ofList word)) word
  | literal {quote : Char} {inside text : List Char} (hquote : isQuote quote = true)
    (htext : Inside quote inside text) :
    Lexeme (.literal (String.ofList text)) (quote :: inside ++ [quote])

/-- An argument may end where a text follows: a lookup does so at a blank and at the end of the
text only, a literal has its own end. -/
def Argument.EndsBefore : Argument → List Char → Prop
  | .lookup _, rest => ∀ c ∈ rest.head?, isBlank c = true
  | .literal _, _ => True

/-- A text that `rest` follows is made of blanks and a lexeme for each of some arguments. -/
inductive Lexemes (rest : List Char) : List Argument → List Char → Prop where
  | nil {lead : List Char} (hlead : AllBlank lead) : Lexemes rest [] lead
  | cons {lead lexeme behind : List Char} {argument : Argument} {args : List Argument}
    (hlead : AllBlank lead) (hlexeme : argument.Lexeme lexeme)
    (hends : argument.EndsBefore (behind ++ rest)) (hbehind : Lexemes rest args behind) :
    Lexemes rest (argument :: args) (lead ++ lexeme ++ behind)

/-- A text that starts at a position breaks off with an error: behind blanks and lexemes a quote
starts a lexeme, which nothing closes. The error names the offset of that quote, and quotes the end
of the text from there. -/
def BreaksOff (position : Nat) (source : List Char) (e : ParseError) : Prop :=
  ∃ args before quote inside,
    source = before ++ quote :: inside ∧ Lexemes (quote :: inside) args before ∧
      isQuote quote = true ∧ NeverCloses quote inside ∧
      e = .unclosedString (position + byteSize before)
        (String.ofList (takeLastBytes excerptSize (quote :: inside)))

namespace Argument

/-- A lexeme starts with a character that is not blank, and is read where it may end. -/
theorem readAt_of_lexeme {argument : Argument} {lexeme rest : List Char}
    (hlexeme : argument.Lexeme lexeme) (hends : argument.EndsBefore rest) :
    ∃ c cs, lexeme ++ rest = c :: cs ∧ isBlank c = false ∧
      ∀ cursor, readAt cursor c cs = .ok (argument, cursor.past lexeme rest) := by
  cases hlexeme with
  | lookup hword hquote =>
    obtain ⟨c, cs, rfl, hc⟩ := hword.exists_cons
    refine ⟨c, cs ++ rest, rfl, hc, ?_⟩
    intro cursor
    have hnot : ∀ d ∈ c :: cs, (!isBlank d) = true := by
      intro d hd
      rw [hword.2 d hd]
      rfl
    -- The word ends where the text behind it says so.
    have hstop : rest.takeWhile (!isBlank ·) = [] ∧ rest.dropWhile (!isBlank ·) = rest := by
      cases rest with
      | nil => exact ⟨rfl, rfl⟩
      | cons d ds => simp [hends d rfl]
    have htake : (c :: (cs ++ rest)).takeWhile (!isBlank ·) = c :: cs := by
      rw [← List.cons_append, List.takeWhile_append_of_pos hnot, hstop.1, List.append_nil]
    have hdrop : (c :: (cs ++ rest)).dropWhile (!isBlank ·) = rest := by
      rw [← List.cons_append, List.dropWhile_append_of_pos hnot, hstop.2]
    have hplain : isQuote c = false := hquote c rfl
    rw [readAt, if_neg (by simp [hplain])]
    simp only [htake, hdrop]
  | @literal quote inside text hquote htext =>
    -- A literal ends at the first quote that is not escaped.
    refine ⟨quote, inside ++ quote :: rest, by simp, isBlank_of_isQuote hquote, ?_⟩
    intro cursor
    have hspan : quotedSpan? quote (inside ++ quote :: rest) = some (inside, rest) :=
      (quotedSpan?_eq_some_iff (ne_backslash_of_isQuote hquote)).2 ⟨rfl, text, htext⟩
    rw [readAt, if_pos hquote, hspan]
    simp only [htext.unescape_eq]

/-- What is read as an argument is a lexeme of it, which may end there. -/
theorem exists_lexeme_of_readAt {cursor next : Cursor} {c : Char} {cs : List Char}
    {argument : Argument} (hc : isBlank c = false)
    (h : readAt cursor c cs = .ok (argument, next)) :
    ∃ lexeme, argument.Lexeme lexeme ∧ c :: cs = lexeme ++ next.rest ∧
      argument.EndsBefore next.rest ∧ next.offset = cursor.offset + byteSize lexeme := by
  unfold readAt at h
  split at h
  · rename_i hquote
    split at h
    · simp at h
    · rename_i inside rest hspan
      simp only [Except.ok.injEq, Prod.mk.injEq] at h
      obtain ⟨rfl, rfl⟩ := h
      obtain ⟨hsplit, text, htext⟩ :=
        (quotedSpan?_eq_some_iff (ne_backslash_of_isQuote hquote)).1 hspan
      refine ⟨c :: inside ++ [c], ?_, ?_, trivial, rfl⟩
      · rw [htext.unescape_eq]
        exact .literal hquote htext
      · rw [hsplit]
        simp [Cursor.past]
  · rename_i hquote
    simp only [Except.ok.injEq, Prod.mk.injEq] at h
    obtain ⟨rfl, rfl⟩ := h
    refine ⟨(c :: cs).takeWhile (!isBlank ·), ?_, List.takeWhile_append_dropWhile.symm, ?_, rfl⟩
    -- A word has its first character, since that is not blank.
    · have hcons : (c :: cs).takeWhile (!isBlank ·) = c :: cs.takeWhile (!isBlank ·) := by
        simp [hc]
      refine .lookup ⟨by rw [hcons]; simp, ?_⟩ ?_
      · intro d hd
        simpa using List.all_eq_true.1 List.all_takeWhile d hd
      · rw [hcons]
        intro d hd
        obtain rfl : c = d := Option.some.inj hd
        simpa using hquote
    · intro d hd
      have hhead := List.head?_dropWhile_not (!isBlank ·) (c :: cs)
      rw [show ((c :: cs).dropWhile (!isBlank ·)).head? = some d from hd] at hhead
      simpa using hhead

/-- A lexeme that cannot be read is a literal without a closing quote. -/
theorem isQuote_of_readAt {cursor : Cursor} {c : Char} {cs : List Char} {e : ParseError}
    (h : readAt cursor c cs = .error e) :
    isQuote c = true ∧ quotedSpan? c cs = none ∧
      e = .unclosedString cursor.offset (String.ofList (takeLastBytes excerptSize (c :: cs))) := by
  unfold readAt at h
  split at h
  · rename_i hquote
    split at h
    · rename_i hspan
      exact ⟨hquote, hspan, (Except.error.inj h).symm⟩
    · simp at h
  · simp at h

/-! ### The reader and the grammar -/

/-- Blanks in front of a list are passed over. -/
theorem skipBlank_append {lead : List Char} (hlead : AllBlank lead) (n : Nat) (cs : List Char) :
    (Cursor.mk n (lead ++ cs)).skipBlank = (Cursor.mk (n + byteSize lead) cs).skipBlank := by
  simp only [Cursor.skipBlank, Cursor.past, trimStart, List.takeWhile_append_of_pos hlead,
    List.dropWhile_append_of_pos hlead, byteSize_append, Nat.add_assoc]

/-- Where no blank stands nothing is passed over. -/
theorem skipBlank_of_cons {c : Char} (hc : isBlank c = false) (n : Nat) (cs : List Char) :
    (Cursor.mk n (c :: cs)).skipBlank = ⟨n, c :: cs⟩ := by
  simp [Cursor.skipBlank, Cursor.past, trimStart, hc]

/-- The arguments of the lexemes are read, and then those of the text behind. -/
theorem readAll_append {rest before : List Char} {args : List Argument}
    (h : Lexemes rest args before) (n : Nat) :
    readAll ⟨n, before ++ rest⟩ = (args ++ ·) <$> readAll ⟨n + byteSize before, rest⟩ := by
  induction h generalizing n with
  | @nil lead hlead =>
    -- Reading begins behind the blanks, wherever these stand.
    have hskip := skipBlank_append hlead n rest
    have hsame : readAll ⟨n, lead ++ rest⟩ = readAll ⟨n + byteSize lead, rest⟩ := by
      cases hrest : (Cursor.mk (n + byteSize lead) rest).skipBlank.rest with
      | nil =>
        rw [readAll_of_blank hrest]
        exact readAll_of_blank (by rw [hskip]; exact hrest)
      | cons d ds =>
        rw [readAll_of_cons hrest, ← hskip]
        exact readAll_of_cons (by rw [hskip]; exact hrest)
    rw [hsame]
    exact (id_map _).symm
  | @cons lead lexeme behind argument args hlead hlexeme hends hbehind ih =>
    obtain ⟨c, cs, hcons, hc, hread⟩ := readAt_of_lexeme hlexeme hends
    have htext : lead ++ lexeme ++ behind ++ rest = lead ++ (c :: cs) := by
      rw [← hcons]
      simp
    have hskip : (Cursor.mk n (lead ++ lexeme ++ behind ++ rest)).skipBlank =
        ⟨n + byteSize lead, c :: cs⟩ := by
      rw [htext, skipBlank_append hlead, skipBlank_of_cons hc]
    rw [readAll_of_cons (by rw [hskip]), hskip, hread]
    show (argument :: ·) <$> readAll ⟨n + byteSize lead + byteSize lexeme, behind ++ rest⟩ = _
    rw [ih, show n + byteSize (lead ++ lexeme ++ behind) =
      n + byteSize lead + byteSize lexeme + byteSize behind by simp [Nat.add_assoc]]
    rw [← comp_map]
    rfl

/-- The arguments that are read cover the text, and where the reader fails the text breaks off. -/
theorem covers_of_readAll (c : Cursor) :
    (∀ args, readAll c = .ok args → Lexemes [] args c.rest) ∧
      ∀ e, readAll c = .error e → BreaksOff c.offset c.rest e := by
  have hsplit : c.rest = c.rest.takeWhile isBlank ++ c.skipBlank.rest :=
    List.takeWhile_append_dropWhile.symm
  have hlead : AllBlank (c.rest.takeWhile isBlank) := allBlank_takeWhile c.rest
  fun_induction readAll c with
  | case1 c hnil =>
    refine ⟨?_, by simp⟩
    rintro args ⟨⟩
    rw [hsplit, hnil, List.append_nil]
    exact .nil hlead
  | case2 c d ds hcons e hread =>
    refine ⟨by simp, ?_⟩
    -- The first lexeme is a quote that nothing closes.
    rintro e' ⟨⟩
    obtain ⟨hquote, hspan, rfl⟩ := isQuote_of_readAt hread
    rw [hcons] at hsplit
    exact ⟨[], _, d, ds, hsplit, .nil hlead, hquote,
      (quotedSpan?_eq_none_iff (ne_backslash_of_isQuote hquote)).1 hspan, rfl⟩
  | case3 c d ds hcons argument next hread ih =>
    have hblank : isBlank d = false := by
      have hhead := List.head?_dropWhile_not isBlank c.rest
      rw [show (c.rest.dropWhile isBlank).head? = some d from congrArg List.head? hcons] at hhead
      simpa using hhead
    obtain ⟨lexeme, hlexeme, htext, hends, hoffset⟩ := exists_lexeme_of_readAt hblank hread
    obtain ⟨hall, hbreaks⟩ := ih List.takeWhile_append_dropWhile.symm (allBlank_takeWhile _)
    have hrest : c.rest = c.rest.takeWhile isBlank ++ lexeme ++ next.rest := by
      rw [List.append_assoc, ← htext, ← hcons]
      exact hsplit
    cases hnext : readAll next with
    | ok args =>
      refine ⟨?_, by simp⟩
      rintro args' ⟨⟩
      rw [hrest]
      exact .cons hlead hlexeme (by rwa [List.append_nil]) (hall args hnext)
    | error e =>
      refine ⟨by simp, ?_⟩
      rintro e' ⟨⟩
      -- The lexemes before the quote go on from this one, and so does the distance to it.
      obtain ⟨args, before, quote, inside, hinside, hbefore, hquote, hnever, rfl⟩ :=
        hbreaks e hnext
      refine ⟨argument :: args, c.rest.takeWhile isBlank ++ lexeme ++ before, quote, inside, ?_,
        .cons hlead hlexeme (by rwa [← hinside]) hbefore, hquote, hnever, ?_⟩
      · rw [List.append_assoc _ before, ← hinside]
        exact hrest
      · rw [hoffset]
        simp only [Cursor.skipBlank, Cursor.past, byteSize_append, Nat.add_assoc]

/-- A text that is an argument list is read as its arguments. -/
theorem readAll_of_lexemes {text : List Char} {args : List Argument} (h : Lexemes [] args text)
    (n : Nat) : readAll ⟨n, text⟩ = .ok args := by
  have hall := readAll_append h n
  have hend : readAll ⟨n + byteSize text, []⟩ = .ok [] := readAll_of_blank rfl
  rw [List.append_nil, hend] at hall
  rw [hall]
  exact congrArg Except.ok (List.append_nil args)

/-- A text that breaks off is not read. -/
theorem readAll_of_breaksOff {text : List Char} {n : Nat} {e : ParseError}
    (h : BreaksOff n text e) : readAll ⟨n, text⟩ = .error e := by
  obtain ⟨args, before, quote, inside, rfl, hbefore, hquote, hnever, rfl⟩ := h
  have hskip := skipBlank_of_cons (isBlank_of_isQuote hquote) (n + byteSize before) inside
  have hspan := (quotedSpan?_eq_none_iff (ne_backslash_of_isQuote hquote)).2 hnever
  have hread : readAt ⟨n + byteSize before, quote :: inside⟩ quote inside =
      .error (.unclosedString (n + byteSize before)
        (String.ofList (takeLastBytes excerptSize (quote :: inside)))) := by
    rw [readAt, if_pos hquote, hspan]
  rw [readAll_append hbefore, readAll_of_cons (by rw [hskip]), hskip, hread]
  rfl

end Argument

/-- A text is an argument list or breaks off, and not both. What the reader gives says which of
the two it is, with its arguments or with the error at the quote where it breaks off. -/
theorem parseArguments_decides (source : String) (position : Nat) :
    (∀ args, parseArguments source position = .ok args ↔ Lexemes [] args source.toList) ∧
      (∀ e, parseArguments source position = .error e ↔ BreaksOff position source.toList e) ∧
      ((∃ args, Lexemes [] args source.toList) ∨ ∃ e, BreaksOff position source.toList e) ∧
      ¬ ((∃ args, Lexemes [] args source.toList) ∧ ∃ e, BreaksOff position source.toList e) := by
  obtain ⟨hall, hbreaks⟩ := Argument.covers_of_readAll ⟨position, source.toList⟩
  refine ⟨fun args => ⟨hall args, fun h => Argument.readAll_of_lexemes h position⟩,
    fun e => ⟨hbreaks e, Argument.readAll_of_breaksOff⟩, ?_, ?_⟩
  · cases hread : parseArguments source position with
    | ok args => exact .inl ⟨args, hall args hread⟩
    | error e => exact .inr ⟨e, hbreaks e hread⟩
  -- The reader is one function, and cannot give two answers.
  · rintro ⟨⟨args, hargs⟩, e, he⟩
    have hok := Argument.readAll_of_lexemes hargs position
    rw [Argument.readAll_of_breaksOff he] at hok
    simp at hok

end Stencil
