import Stencil.Template.Error
import Stencil.Template.Cursor

/-!
# `Stencil.Proofs.Template.Offsets`: places kept as byte offsets

The library keeps a place in a template as a cursor, which has the text behind it. A place can also
be kept as a byte offset alone. The text behind it is then cut out of the template each time it is
looked at, and cutting fails where no character starts.

This file has the moves of `Cursor` and the excerpts of `ParseError` in that form, with a failure
for every cut that is not possible. Each of them agrees with the form that the library uses:

* `textFrom_of_reaches`, `between_of_reaches`: cuts at places that the start of the template reaches
  are possible and give the text there.
* `findFrom_of_reaches`, `skipBlank_of_reaches`, `nameEnd_of_reaches`: the searches of a scanner.
* `near_eq`: an excerpt is cut at the last character boundary in front of its end, and again at the
  first one that leaves no more than `excerptSize` bytes.
-/

set_option autoImplicit false

namespace Stencil

open Text

/-- A character starts at a byte offset of a text, or the text ends there. -/
def IsBoundary (text : List Char) (offset : Nat) : Prop :=
  ∃ before after, text = before ++ after ∧ byteSize before = offset

/-! ### Beginnings of a given size -/

/-- What a budget takes is a beginning of the text. -/
theorem takeBytes_isPrefix (n : Nat) (cs : List Char) : takeBytes n cs <+: cs := by
  induction cs generalizing n with
  | nil => exact List.nil_prefix
  | cons c cs ih =>
    rw [takeBytes]
    split
    · exact (List.prefix_cons_inj c).2 (ih _)
    · exact List.nil_prefix

/-- A text that fits into a budget is taken whole. -/
theorem takeBytes_of_byteSize_le {n : Nat} {cs : List Char} (h : byteSize cs ≤ n) :
    takeBytes n cs = cs := by
  induction cs generalizing n with
  | nil => rfl
  | cons c cs ih =>
    rw [byteSize_cons] at h
    rw [takeBytes, if_pos (by omega), ih (by omega)]

/-- A budget behind the end of a text takes what the size of the text does. -/
theorem takeBytes_min (n : Nat) (cs : List Char) :
    takeBytes (min n (byteSize cs)) cs = takeBytes n cs := by
  rcases Nat.le_total n (byteSize cs) with hle | hle
  · rw [Nat.min_eq_left hle]
  · rw [Nat.min_eq_right hle, takeBytes_of_byteSize_le hle, takeBytes_of_byteSize_le (Nat.le_refl _)]

/-- A smaller budget takes the same if that fits into it. -/
theorem takeBytes_eq_of_le {m n : Nat} {cs : List Char} (hle : n ≤ m)
    (h : byteSize (takeBytes m cs) ≤ n) : takeBytes n cs = takeBytes m cs := by
  induction cs generalizing m n with
  | nil => rfl
  | cons c cs ih =>
    rw [takeBytes] at h ⊢
    by_cases hc : c.utf8Size ≤ m
    · rw [if_pos hc, byteSize_cons] at h
      have htail : takeBytes (n - c.utf8Size) cs = takeBytes (m - c.utf8Size) cs :=
        ih (by omega) (by omega)
      rw [takeBytes, if_pos hc, if_pos (by omega), htail]
    · rw [takeBytes, if_neg hc, if_neg (by omega)]

/-- A text backwards has the size of the text. -/
theorem byteSize_reverse (cs : List Char) : byteSize cs.reverse = byteSize cs := by
  induction cs with
  | nil => rfl
  | cons c cs ih =>
    rw [List.reverse_cons, byteSize_append, ih, byteSize_cons, byteSize_cons, byteSize_nil]
    omega

/-- What a budget takes from the end is an end of the text. -/
theorem takeLastBytes_isSuffix (n : Nat) (cs : List Char) : takeLastBytes n cs <:+ cs := by
  have hends := List.reverse_suffix.2 (takeBytes_isPrefix n cs.reverse)
  rwa [List.reverse_reverse] at hends

/-- A text that fits into a budget is taken whole, also from the end. -/
theorem takeLastBytes_of_byteSize_le {n : Nat} {cs : List Char} (h : byteSize cs ≤ n) :
    takeLastBytes n cs = cs := by
  rw [takeLastBytes, takeBytes_of_byteSize_le, List.reverse_reverse]
  rwa [byteSize_reverse]

/-- A boundary is where a budget of as many bytes is used up exactly. -/
theorem isBoundary_iff {text : List Char} {offset : Nat} :
    IsBoundary text offset ↔ byteSize (takeBytes offset text) = offset := by
  constructor
  · rintro ⟨before, after, rfl, rfl⟩
    rw [takeBytes_byteSize_append]
  · intro h
    obtain ⟨after, hafter⟩ := takeBytes_isPrefix offset text
    exact ⟨takeBytes offset text, after, hafter.symm, h⟩

/-- Whether a character starts at an offset can be decided, by taking as many bytes. -/
instance (text : List Char) (offset : Nat) : Decidable (IsBoundary text offset) :=
  decidable_of_iff _ isBoundary_iff.symm

/-- No boundary lies behind the end of the text. -/
theorem IsBoundary.le {text : List Char} {offset : Nat} (h : IsBoundary text offset) :
    offset ≤ byteSize text := by
  obtain ⟨before, after, rfl, rfl⟩ := h
  rw [byteSize_append]
  omega

/-- Seen from the end, the boundaries of a text are those of the text backwards. -/
theorem isBoundary_reverse {text : List Char} {n : Nat} (hn : n ≤ byteSize text) :
    IsBoundary text.reverse n ↔ IsBoundary text (byteSize text - n) := by
  -- The two halves of the text change places.
  constructor
  · rintro ⟨before, after, htext, rfl⟩
    have hsplit : text = after.reverse ++ before.reverse := by
      rw [← List.reverse_append, ← htext, List.reverse_reverse]
    refine ⟨after.reverse, before.reverse, hsplit, ?_⟩
    rw [hsplit, byteSize_append, byteSize_reverse before]
    omega
  · rintro ⟨before, after, htext, hsize⟩
    refine ⟨after.reverse, before.reverse, ?_, ?_⟩
    · rw [htext, List.reverse_append]
    · have hall := congrArg byteSize htext
      rw [byteSize_append] at hall
      rw [byteSize_reverse]
      omega

namespace Offsets

/-- Why a parser that keeps offsets has no result. -/
inductive Halt where
  /-- The template cannot be parsed. -/
  | error (e : ParseError)
  /-- A text was to be cut where no character starts. -/
  | badSlice (offset : Nat)
  /-- A loop has not ended within the iterations that it was given. -/
  | unfinished
deriving DecidableEq, Repr

/-! ### Cuts -/

/-- The text from an offset on. -/
def textFrom (text : List Char) (offset : Nat) : Except Halt (List Char) :=
  if IsBoundary text offset then .ok (text.drop (takeBytes offset text).length)
  else .error (.badSlice offset)

/-- The text from one offset to another. -/
def between (text : List Char) (start stop : Nat) : Except Halt (List Char) := do
  let rest ← textFrom text start
  if IsBoundary text stop ∧ start ≤ stop then .ok (takeBytes (stop - start) rest)
  else .error (.badSlice stop)

/-- Behind the size of a beginning lies the rest of the text. -/
theorem textFrom_append (before after : List Char) :
    textFrom (before ++ after) (byteSize before) = .ok after := by
  rw [textFrom, if_pos ⟨before, after, rfl, rfl⟩, takeBytes_byteSize_append, List.drop_left]

/-- Between the sizes of two beginnings lies what the longer one has more. -/
theorem between_append (before inside after : List Char) :
    between (before ++ inside ++ after) (byteSize before) (byteSize before + byteSize inside) =
      .ok inside := by
  have hstop : IsBoundary (before ++ inside ++ after) (byteSize before + byteSize inside) :=
    ⟨before ++ inside, after, rfl, byteSize_append before inside⟩
  have hrest : textFrom (before ++ inside ++ after) (byteSize before) = .ok (inside ++ after) := by
    rw [List.append_assoc]
    exact textFrom_append before (inside ++ after)
  have hsize : byteSize before + byteSize inside - byteSize before = byteSize inside := by omega
  rw [between, hrest]
  show (if _ then _ else _) = _
  rw [if_pos ⟨hstop, by omega⟩, hsize, takeBytes_byteSize_append]

section Places

variable {source : List Char} {c d : Cursor}

/-- A place that the start of a text reaches lies at the size of what is before it. -/
theorem exists_before (hc : (Cursor.atStart source).Reaches c) :
    ∃ before, source = before ++ c.rest ∧ c.offset = byteSize before := by
  obtain ⟨before, hrest, hoffset⟩ := hc
  exact ⟨before, hrest, hoffset.trans (Nat.zero_add _)⟩

/-- A place that a cursor comes to is a boundary. -/
theorem isBoundary_of_reaches (hc : (Cursor.atStart source).Reaches c) :
    IsBoundary source c.offset := by
  obtain ⟨before, hsource, hoffset⟩ := exists_before hc
  exact ⟨before, c.rest, hsource, hoffset.symm⟩

/-- What lies before a cursor and behind it make up the text. -/
theorem byteSize_of_reaches (hc : (Cursor.atStart source).Reaches c) :
    byteSize source = c.offset + byteSize c.rest := by
  obtain ⟨before, hsource, hoffset⟩ := exists_before hc
  rw [hoffset, hsource, byteSize_append]

/-- The text from a place on is what the cursor has behind it. -/
theorem textFrom_of_reaches (hc : (Cursor.atStart source).Reaches c) :
    textFrom source c.offset = .ok c.rest := by
  obtain ⟨before, hsource, hoffset⟩ := exists_before hc
  rw [hoffset, hsource]
  exact textFrom_append before c.rest

/-- The text between two places is what leads from one to the other. -/
theorem between_of_reaches {taken : List Char} (hc : (Cursor.atStart source).Reaches c)
    (hrest : c.rest = taken ++ d.rest) (hoffset : d.offset = c.offset + byteSize taken) :
    between source c.offset d.offset = .ok taken := by
  obtain ⟨before, hsource, hbefore⟩ := exists_before hc
  rw [hoffset, hbefore, hsource, hrest, ← List.append_assoc]
  exact between_append before taken d.rest

end Places

/-! ### Excerpts -/

/-- The last boundary of a text that is not behind an offset. -/
def floorBoundary (text : List Char) : Nat → Nat
  | 0 => 0
  | n + 1 => if IsBoundary text (n + 1) then n + 1 else floorBoundary text n

/-- The first boundary among the last bytes of a text, when as many are left as the number says. -/
def ceilBoundary (text : List Char) : Nat → Nat
  | 0 => byteSize text
  | n + 1 =>
    if IsBoundary text (byteSize text - (n + 1)) then byteSize text - (n + 1)
    else ceilBoundary text n

/-- The end of a text, of no more than `excerptSize` bytes. -/
def lastBytes (text : List Char) : Except Halt String :=
  if excerptSize < byteSize text then
    String.ofList <$> textFrom text (ceilBoundary text excerptSize)
  else .ok (String.ofList text)

/-- The text that leads up to an offset. -/
def near (source : List Char) (position : Nat) : Except Halt String := do
  let lead ← between source 0 (floorBoundary source (min position (byteSize source)))
  lastBytes lead

/-- The last boundary in front of an offset is where a budget of as many bytes ends. -/
theorem floorBoundary_eq (text : List Char) (n : Nat) :
    floorBoundary text n = byteSize (takeBytes n text) := by
  induction n with
  | zero => rw [takeBytes_zero]; rfl
  | succ n ih =>
    rw [floorBoundary]
    split
    · rename_i hboundary
      exact (isBoundary_iff.1 hboundary).symm
    · rename_i hboundary
      -- The next byte is inside a character, which the budget does not take either.
      have hle := byteSize_takeBytes_le (n + 1) text
      have hne : byteSize (takeBytes (n + 1) text) ≠ n + 1 := by
        intro heq
        exact hboundary (isBoundary_iff.2 heq)
      have hsame : takeBytes n text = takeBytes (n + 1) text :=
        takeBytes_eq_of_le (by omega) (by omega)
      rw [ih, hsame]

/-- The first boundary among the last bytes is where a budget of as many bytes ends, counted from
the end. -/
theorem ceilBoundary_eq {text : List Char} {n : Nat} (hn : n ≤ byteSize text) :
    ceilBoundary text n = byteSize text - byteSize (takeLastBytes n text) := by
  -- As for `floorBoundary`, on the text backwards.
  have hreverse : ∀ k, byteSize (takeLastBytes k text) = byteSize (takeBytes k text.reverse) := by
    intro k
    rw [takeLastBytes, byteSize_reverse]
  induction n with
  | zero =>
    rw [hreverse, takeBytes_zero]
    rfl
  | succ n ih =>
    rw [ceilBoundary]
    split
    · rename_i hboundary
      have hsize := isBoundary_iff.1 ((isBoundary_reverse hn).2 hboundary)
      rw [hreverse, hsize]
    · rename_i hboundary
      have hle := byteSize_takeBytes_le (n + 1) text.reverse
      have hne : byteSize (takeBytes (n + 1) text.reverse) ≠ n + 1 := by
        intro heq
        exact hboundary ((isBoundary_reverse hn).1 (isBoundary_iff.2 heq))
      have hsame : takeBytes n text.reverse = takeBytes (n + 1) text.reverse :=
        takeBytes_eq_of_le (by omega) (by omega)
      rw [ih (by omega), hreverse, hreverse, hsame]

/-- The end of a text is cut out where a character starts. -/
theorem lastBytes_eq (text : List Char) :
    lastBytes text = .ok (String.ofList (takeLastBytes excerptSize text)) := by
  rw [lastBytes]
  split
  · rename_i hlong
    obtain ⟨more, hmore⟩ := takeLastBytes_isSuffix excerptSize text
    -- What is in front of the end has the size that is left over.
    have hstart : ceilBoundary text excerptSize = byteSize more := by
      have hsize := congrArg byteSize hmore
      rw [byteSize_append] at hsize
      rw [ceilBoundary_eq (Nat.le_of_lt hlong)]
      omega
    have hcut := textFrom_append more (takeLastBytes excerptSize text)
    rw [hmore] at hcut
    rw [hstart, hcut]
    rfl
  · rename_i hshort
    rw [takeLastBytes_of_byteSize_le (Nat.le_of_not_lt hshort)]

/-- An excerpt is cut out where characters start. -/
theorem near_eq (source : List Char) (position : Nat) :
    near source position = .ok (excerpt source position) := by
  obtain ⟨after, hafter⟩ := takeBytes_isPrefix position source
  have hcut : between source 0 (byteSize (takeBytes position source)) =
      .ok (takeBytes position source) := by
    have happend := between_append [] (takeBytes position source) after
    rw [List.nil_append, hafter, byteSize_nil, Nat.zero_add] at happend
    exact happend
  rw [near, floorBoundary_eq, takeBytes_min, hcut]
  exact lastBytes_eq _

/-! ### Searches -/

/-- The offset at which a text occurs first, at or behind another offset. -/
def findFrom (source needle : List Char) (offset : Nat) : Except Halt (Option Nat) := do
  let rest ← textFrom source offset
  .ok ((Text.cut? needle rest).map fun found => offset + byteSize found.1)

/-- The offset of the first character that satisfies a predicate, in a text that starts at an
offset. -/
def offsetOf? (stops : Char → Bool) : Nat → List Char → Option Nat
  | _, [] => none
  | offset, c :: cs =>
    if stops c then some offset else offsetOf? stops (offset + c.utf8Size) cs

/-- The first offset, at or behind another one, at which no blank stands. -/
def skipBlank (source : List Char) (offset : Nat) : Except Halt Nat := do
  let rest ← textFrom source offset
  .ok ((offsetOf? (!isBlank ·) offset rest).getD (byteSize source))

/-- The offset where a name ends: at a blank, at `closing`, or at the end. The characters are those
that follow the offset. -/
def nameEndFrom (source closing : List Char) : Nat → List Char → Except Halt Nat
  | _, [] => .ok (byteSize source)
  | offset, c :: cs =>
    if isBlank c then .ok offset
    else do
      let rest ← textFrom source offset
      if (Text.after? closing rest).isSome then .ok offset
      else nameEndFrom source closing (offset + c.utf8Size) cs

/-- The offset where a name ends that starts at an offset. -/
def nameEnd (source closing : List Char) (offset : Nat) : Except Halt Nat := do
  let rest ← textFrom source offset
  nameEndFrom source closing offset rest

/-- The offset of the first character that satisfies a predicate, or the end of the text without
one, lies behind the characters in front that do not. -/
theorem offsetOf?_getD (stops : Char → Bool) (offset : Nat) (cs : List Char) :
    (offsetOf? stops offset cs).getD (offset + byteSize cs) =
      offset + byteSize (cs.takeWhile (!stops ·)) := by
  induction cs generalizing offset with
  | nil => rfl
  | cons c cs ih =>
    by_cases hc : stops c = true
    · simp [offsetOf?, hc]
    · have htail := ih (offset + c.utf8Size)
      simp only [offsetOf?, hc, if_false, List.takeWhile_cons, byteSize_cons, Bool.false_eq_true,
        Bool.not_false, if_true, ← Nat.add_assoc]
      exact htail

section Places

variable {source : List Char} {c : Cursor}

/-- A search at a place finds what the cursor finds. -/
theorem findFrom_of_reaches (hc : (Cursor.atStart source).Reaches c) (needle : List Char) :
    findFrom source needle c.offset =
      .ok ((Text.cut? needle c.rest).map fun found => c.offset + byteSize found.1) := by
  rw [findFrom, textFrom_of_reaches hc]
  rfl

/-- Blanks at a place are passed over as the cursor passes over them. -/
theorem skipBlank_of_reaches (hc : (Cursor.atStart source).Reaches c) :
    skipBlank source c.offset = .ok c.skipBlank.offset := by
  have hfirst := offsetOf?_getD (!isBlank ·) c.offset c.rest
  simp only [Bool.not_not] at hfirst
  rw [skipBlank, textFrom_of_reaches hc, byteSize_of_reaches hc]
  exact congrArg Except.ok hfirst

/-- A name ends where the cursor ends it, looked at one character after the other. -/
theorem nameEndFrom_of_reaches (hc : (Cursor.atStart source).Reaches c) (closing : List Char) :
    nameEndFrom source closing c.offset c.rest = .ok (c.name closing).2.offset := by
  -- By induction on the text, since each character is one more place to look at.
  generalize hcs : c.rest = cs
  induction cs generalizing c with
  | nil =>
    rw [nameEndFrom, byteSize_of_reaches hc, hcs, Cursor.name, hcs]
    rfl
  | cons e cs ih =>
    have hfrom := textFrom_of_reaches hc
    rw [hcs] at hfrom
    rw [nameEndFrom, Cursor.name, hcs, spanUntil]
    by_cases hblank : isBlank e = true
    · rw [if_pos hblank]
      simp [hblank, Cursor.past]
    · rw [if_neg hblank, hfrom]
      -- A name ends in front of a closing delimiter, even without a blank.
      by_cases hclosing : (Text.after? closing (e :: cs)).isSome = true
      · simp [hclosing, Cursor.past, bind, Except.bind]
      · have hnext : (Cursor.atStart source).Reaches (c.past [e] cs) :=
          hc.trans (Cursor.reaches_past hcs)
        have htail := ih hnext rfl
        have hone : (c.past [e] cs).offset = c.offset + e.utf8Size := by
          simp [Cursor.past]
        rw [hone] at htail
        simp only [bind, Except.bind, hclosing, hblank, Bool.false_eq_true, if_false,
          Bool.or_self]
        rw [htail, Cursor.name]
        simp [Cursor.past, Nat.add_assoc]

/-- A name that starts at a place ends where the cursor ends it. -/
theorem nameEnd_of_reaches (hc : (Cursor.atStart source).Reaches c) (closing : List Char) :
    nameEnd source closing c.offset = .ok (c.name closing).2.offset := by
  rw [nameEnd, textFrom_of_reaches hc]
  exact nameEndFrom_of_reaches hc closing

end Places

end Offsets

end Stencil
