import Stencil.Proofs.Template.Offsets

/-!
# `Stencil.Proofs.Template.Excerpts`: what an error quotes

An error quotes the text that leads up to an offset: of the longest beginning of the template that
the offset leaves room for, the longest ending that fits into 32 bytes, both of whole characters.

In bytes, either end of an excerpt is searched for. From the offset a search goes back to where a
character starts, and from 32 bytes in front of that another one goes forth. `Cuts` is the run that
does so. It tells the start of a character by the first bits of a byte, which is enough
(`isBoundary_iff_startsAt`).

`seeks_floorBoundary` and `seeks_ceilBoundary` say that the searches come to an end, and where. A
character has four bytes at most, so that neither moves more than three times and no more than three
of the 32 bytes are given up (`lt_byteSize_takeBytes_add`). `excerpt_is_longest` puts this together.
-/

set_option autoImplicit false

namespace Stencil

open Text

/-! ### Longest beginnings and endings -/

/-- The longest beginning of a text, made of whole characters, that has no more than `n` bytes. -/
structure LongestBeginning (n : Nat) (text lead : List Char) : Prop where
  begins : lead <+: text
  fits : byteSize lead ≤ n
  longest : ∀ other, other <+: text → byteSize other ≤ n → byteSize other ≤ byteSize lead

/-- The longest ending of a text, made of whole characters, that has no more than `n` bytes. -/
structure LongestEnding (n : Nat) (text last : List Char) : Prop where
  ends : last <:+ text
  fits : byteSize last ≤ n
  longest : ∀ other, other <:+ text → byteSize other ≤ n → byteSize other ≤ byteSize last

/-- No beginning that fits is longer than the one that is taken. -/
theorem byteSize_le_takeBytes {n : Nat} {text other : List Char} (hother : other <+: text)
    (hsize : byteSize other ≤ n) : byteSize other ≤ byteSize (takeBytes n text) := by
  induction text generalizing n other with
  | nil =>
    obtain rfl := List.prefix_nil.1 hother
    exact Nat.zero_le _
  | cons c cs ih =>
    rcases List.prefix_cons_iff.1 hother with rfl | ⟨rest, rfl, hrest⟩
    · exact Nat.zero_le _
    -- Both start with the same character, and what is left of the budget goes to the rest.
    · rw [byteSize_cons] at hsize
      have htail : byteSize rest ≤ byteSize (takeBytes (n - c.utf8Size) cs) :=
        ih hrest (by omega)
      rw [takeBytes, if_pos (by omega), byteSize_cons, byteSize_cons]
      omega

/-- What is taken at the beginning is the longest beginning that fits. -/
theorem longestBeginning_takeBytes (n : Nat) (text : List Char) :
    LongestBeginning n text (takeBytes n text) where
  begins := takeBytes_isPrefix n text
  fits := byteSize_takeBytes_le n text
  longest _ hother hsize := byteSize_le_takeBytes hother hsize

/-- What is taken at the end is the longest ending that fits. -/
theorem longestEnding_takeLastBytes (n : Nat) (text : List Char) :
    LongestEnding n text (takeLastBytes n text) where
  ends := takeLastBytes_isSuffix n text
  fits := by
    rw [takeLastBytes, byteSize_reverse]
    exact byteSize_takeBytes_le n text.reverse
  longest other hother hsize := by
    rw [← byteSize_reverse] at hsize
    rw [takeLastBytes, byteSize_reverse, ← byteSize_reverse other]
    exact byteSize_le_takeBytes (List.reverse_prefix.2 hother) hsize

/-- No more than three bytes of a budget are left over, since the character that does not fit any
more has four at most. -/
theorem lt_byteSize_takeBytes_add {n : Nat} {text : List Char} (h : n ≤ byteSize text) :
    n < byteSize (takeBytes n text) + 4 := by
  induction text generalizing n with
  | nil =>
    rw [byteSize_nil] at h
    omega
  | cons c cs ih =>
    rw [takeBytes]
    split
    · rw [byteSize_cons] at h ⊢
      have htail : n - c.utf8Size < byteSize (takeBytes (n - c.utf8Size) cs) + 4 := ih (by omega)
      omega
    · have hfour := c.utf8Size_le_four
      omega

/-- The same at the end of a text. -/
theorem lt_byteSize_takeLastBytes_add {n : Nat} {text : List Char} (h : n ≤ byteSize text) :
    n < byteSize (takeLastBytes n text) + 4 := by
  rw [takeLastBytes, byteSize_reverse]
  exact lt_byteSize_takeBytes_add (by rwa [byteSize_reverse])

namespace Offsets

/-! ### Characters in bytes -/

/-- A character starts at an offset of a text in bytes, or the text ends there. The first bits of a
byte tell whether it is the first one of a character. -/
def StartsAt (bytes : List UInt8) (offset : Nat) : Prop :=
  offset = bytes.length ∨ ∃ b, bytes[offset]? = some b ∧ b.IsUTF8FirstByte

/-- A boundary of a text is in front of its first character, or one of the rest. -/
theorem isBoundary_cons {c : Char} {cs : List Char} {offset : Nat} :
    IsBoundary (c :: cs) offset ↔
      offset = 0 ∨ c.utf8Size ≤ offset ∧ IsBoundary cs (offset - c.utf8Size) := by
  constructor
  · rintro ⟨before, after, htext, rfl⟩
    cases before with
    | nil => exact .inl rfl
    | cons d before =>
      obtain ⟨rfl, rfl⟩ := List.cons.inj htext
      rw [byteSize_cons]
      exact .inr ⟨by omega, before, after, rfl, by omega⟩
  · rintro (rfl | ⟨hle, before, after, rfl, hsize⟩)
    · exact ⟨[], c :: cs, rfl, rfl⟩
    · exact ⟨c :: before, after, rfl, by rw [byteSize_cons]; omega⟩

/-- In bytes, the first character starts the text, and later ones start as in the rest. -/
theorem startsAt_encode_cons {c : Char} {cs : List Char} {offset : Nat} :
    StartsAt (encode (c :: cs)) offset ↔
      offset = 0 ∨ c.utf8Size ≤ offset ∧ StartsAt (encode cs) (offset - c.utf8Size) := by
  have hbytes : encode (c :: cs) = String.utf8EncodeChar c ++ encode cs := List.flatMap_cons
  have hlength := String.length_utf8EncodeChar c
  have hpos := c.utf8Size_pos
  rw [StartsAt, hbytes, List.length_append, hlength]
  rcases Nat.lt_or_ge offset c.utf8Size with hlt | hge
  · -- Of the bytes of a character only the first looks like one.
    rw [List.getElem?_append_left (by omega), List.getElem?_eq_getElem (by omega)]
    simp only [Option.some.injEq, exists_eq_left', UInt8.isUTF8FirstByte_getElem_utf8EncodeChar]
    omega
  · rw [List.getElem?_append_right (by omega), hlength, StartsAt]
    constructor
    · rintro (hend | hfirst)
      · exact .inr ⟨hge, .inl (by omega)⟩
      · exact .inr ⟨hge, .inr hfirst⟩
    · rintro (hzero | ⟨_, hend | hfirst⟩)
      · omega
      · exact .inl (by omega)
      · exact .inr hfirst

/-- Where characters start can be told from the bytes alone. -/
theorem isBoundary_iff_startsAt {text : List Char} {offset : Nat} :
    IsBoundary text offset ↔ StartsAt (encode text) offset := by
  induction text generalizing offset with
  | nil =>
    constructor
    · intro h
      exact .inl (Nat.le_zero.1 h.le)
    · rintro (rfl | ⟨b, hb, _⟩)
      · exact ⟨[], [], rfl, rfl⟩
      · cases hb
  | cons c cs ih => rw [isBoundary_cons, startsAt_encode_cons, ih]

/-! ### Searches -/

/-- The way that a search goes. -/
inductive Direction where
  | back
  | forth
deriving DecidableEq, Repr

/-- The offset that comes next. There is none in front of the first. -/
def Direction.next? : Direction → Nat → Option Nat
  | back, 0 => none
  | back, n + 1 => some n
  | forth, n => some (n + 1)

/-- A search moves an offset on until a character starts there. The second number counts the moves,
the third is the offset that it comes to. -/
inductive Seeks (bytes : List UInt8) (way : Direction) : Nat → Nat → Nat → Prop where
  | here {offset : Nat} (found : StartsAt bytes offset) : Seeks bytes way offset 0 offset
  | move {offset next moves stop : Nat} (inside : ¬ StartsAt bytes offset)
    (moved : way.next? offset = some next) (rest : Seeks bytes way next moves stop) :
    Seeks bytes way offset (moves + 1) stop

/-- A search makes the same moves to the same offset whenever it is run. -/
theorem Seeks.unique {bytes : List UInt8} {way : Direction} {offset m n stop stop' : Nat}
    (h : Seeks bytes way offset m stop) (h' : Seeks bytes way offset n stop') :
    m = n ∧ stop = stop' := by
  induction h generalizing n with
  | here found =>
    cases h' with
    | here found' => exact ⟨rfl, rfl⟩
    | move inside moved rest => exact absurd found inside
  | move inside moved rest ih =>
    cases h' with
    | here found => exact absurd found inside
    | move inside' moved' rest' =>
      obtain rfl := Option.some.inj (moved.symm.trans moved')
      obtain ⟨rfl, rfl⟩ := ih rest'
      exact ⟨rfl, rfl⟩

/-- A search back comes to the last boundary that is not behind its start. -/
theorem seeks_floorBoundary (text : List Char) (n : Nat) :
    Seeks (encode text) .back n (n - floorBoundary text n) (floorBoundary text n) := by
  induction n with
  | zero => exact .here (isBoundary_iff_startsAt.1 ⟨[], text, rfl, rfl⟩)
  | succ n ih =>
    rw [floorBoundary]
    split
    · rename_i hboundary
      rw [Nat.sub_self]
      exact .here (isBoundary_iff_startsAt.1 hboundary)
    -- The next offset to look at is one less, and the search goes on from there.
    · rename_i hboundary
      have hle : floorBoundary text n ≤ n := by
        rw [floorBoundary_eq]
        exact byteSize_takeBytes_le n text
      rw [Nat.sub_add_comm hle]
      exact .move (fun h => hboundary (isBoundary_iff_startsAt.2 h)) rfl ih

/-- A search forth does not come to an offset in front of its start. -/
theorem le_ceilBoundary (text : List Char) (n : Nat) : byteSize text - n ≤ ceilBoundary text n := by
  induction n with
  | zero => exact Nat.le_refl _
  | succ n ih =>
    rw [ceilBoundary]
    split
    · exact Nat.le_refl _
    · omega

/-- A search forth, from some bytes in front of the end, comes to the first boundary there. -/
theorem seeks_ceilBoundary {text : List Char} {n : Nat} (hn : n ≤ byteSize text) :
    Seeks (encode text) .forth (byteSize text - n) (ceilBoundary text n - (byteSize text - n))
      (ceilBoundary text n) := by
  induction n with
  | zero =>
    rw [ceilBoundary, Nat.sub_zero, Nat.sub_self]
    exact .here (.inl (length_encode text).symm)
  | succ n ih =>
    rw [ceilBoundary]
    split
    · rename_i hboundary
      rw [Nat.sub_self]
      exact .here (isBoundary_iff_startsAt.1 hboundary)
    -- Looking at the next offset is one move more.
    · rename_i hboundary
      have hle := le_ceilBoundary text n
      have hmoves : ceilBoundary text n - (byteSize text - (n + 1)) =
          ceilBoundary text n - (byteSize text - n) + 1 := by omega
      have hnext : byteSize text - (n + 1) + 1 = byteSize text - n := by omega
      rw [hmoves]
      exact .move (fun h => hboundary (isBoundary_iff_startsAt.2 h)) (congrArg some hnext)
        (ih (by omega))

/-! ### Excerpts -/

/-- A run that cuts an excerpt out of the bytes of a template. The second number counts the moves of
its searches. -/
inductive Cuts (source : List UInt8) (position : Nat) : Nat → List UInt8 → Prop where
  /-- What leads up to the offset is short enough. -/
  | whole {moves stop : Nat} (back : Seeks source .back (min position source.length) moves stop)
    (short : stop ≤ excerptSize) : Cuts source position moves (source.take stop)
  /-- Only the end of it is kept. -/
  | last {moves more stop start : Nat}
    (back : Seeks source .back (min position source.length) moves stop) (long : excerptSize < stop)
    (forth : Seeks (source.take stop) .forth (stop - excerptSize) more start) :
    Cuts source position (moves + more) ((source.take stop).drop start)

/-- The bytes cut out are the same, with the same moves, whenever the run is made. -/
theorem Cuts.unique {source bytes bytes' : List UInt8} {position m n : Nat}
    (h : Cuts source position m bytes) (h' : Cuts source position n bytes') :
    m = n ∧ bytes = bytes' := by
  cases h with
  | whole back short =>
    cases h' with
    | whole back' short' =>
      obtain ⟨rfl, rfl⟩ := back.unique back'
      exact ⟨rfl, rfl⟩
    | last back' long' forth' =>
      obtain ⟨rfl, rfl⟩ := back.unique back'
      exact absurd long' (Nat.not_lt.2 short)
  | last back long forth =>
    cases h' with
    | whole back' short' =>
      obtain ⟨rfl, rfl⟩ := back.unique back'
      exact absurd long (Nat.not_lt.2 short')
    | last back' long' forth' =>
      obtain ⟨rfl, rfl⟩ := back.unique back'
      obtain ⟨rfl, rfl⟩ := forth.unique forth'
      exact ⟨rfl, rfl⟩

/-- The lead of an excerpt is found by a search back that moves three times at most. -/
theorem exists_seeks_lead (source : List Char) (position : Nat) :
    ∃ moves ≤ 3, Seeks (encode source) .back (min position (encode source).length) moves
      (byteSize (takeBytes position source)) := by
  have hseeks := seeks_floorBoundary source (min position (byteSize source))
  have hbound : min position (byteSize source) <
      byteSize (takeBytes (min position (byteSize source)) source) + 4 :=
    lt_byteSize_takeBytes_add (Nat.min_le_right _ _)
  rw [floorBoundary_eq, takeBytes_min] at hseeks
  rw [takeBytes_min] at hbound
  rw [length_encode]
  exact ⟨_, by omega, hseeks⟩

/-- The end of a long text is found by a search forth that moves three times at most. -/
theorem exists_seeks_last {text : List Char} (h : excerptSize < byteSize text) :
    ∃ moves ≤ 3, Seeks (encode text) .forth (byteSize text - excerptSize) moves
      (byteSize text - byteSize (takeLastBytes excerptSize text)) := by
  have hseeks := seeks_ceilBoundary (Nat.le_of_lt h)
  have hbound := lt_byteSize_takeLastBytes_add (Nat.le_of_lt h)
  rw [ceilBoundary_eq (Nat.le_of_lt h)] at hseeks
  exact ⟨_, by omega, hseeks⟩

/-- The bytes of a beginning are the first ones. -/
theorem take_encode {lead text : List Char} (h : lead <+: text) :
    (encode text).take (byteSize lead) = encode lead := by
  obtain ⟨after, rfl⟩ := h
  rw [encode_append, ← length_encode, List.take_left]

/-- The bytes of an ending are the last ones. -/
theorem drop_encode {last text : List Char} (h : last <:+ text) :
    (encode text).drop (byteSize text - byteSize last) = encode last := by
  obtain ⟨before, rfl⟩ := h
  rw [byteSize_append, Nat.add_sub_cancel, encode_append, ← length_encode, List.drop_left]

/-- An excerpt is cut out of the bytes of a template by two short searches. -/
theorem exists_cuts (source : List Char) (position : Nat) :
    ∃ moves ≤ 6, Cuts (encode source) position moves
      (encode (takeLastBytes excerptSize (takeBytes position source))) := by
  obtain ⟨moves, hmoves, hback⟩ := exists_seeks_lead source position
  have hlead := take_encode (takeBytes_isPrefix position source)
  generalize takeBytes position source = lead at hback hlead ⊢
  -- Either the lead is cut once more, or it is kept whole.
  rcases Nat.lt_or_ge excerptSize (byteSize lead) with hlong | hshort
  · obtain ⟨more, hmore, hforth⟩ := exists_seeks_last hlong
    have hcuts := Cuts.last hback hlong (hlead.symm ▸ hforth)
    rw [hlead, drop_encode (takeLastBytes_isSuffix excerptSize lead)] at hcuts
    exact ⟨moves + more, by omega, hcuts⟩
  · have hcuts := Cuts.whole hback hshort
    rw [hlead] at hcuts
    rw [takeLastBytes_of_byteSize_le hshort]
    exact ⟨moves, by omega, hcuts⟩

end Offsets

/-- Of the longest beginning of a template that an offset leaves room for, an excerpt is the longest
ending that fits into 32 bytes: all of it if it is no longer, and 29 bytes of it at least if it is.
No cut falls inside a character, and one run alone cuts the excerpt out of the bytes of the template,
with six moves at most. -/
theorem excerpt_is_longest (source : List Char) (position : Nat) :
    ∃ lead last, excerpt source position = String.ofList last ∧
      LongestBeginning position source lead ∧ LongestEnding 32 lead last ∧
      (byteSize lead ≤ 32 ∧ last = lead ∨ 32 < byteSize lead ∧ 29 ≤ byteSize last) ∧
      Offsets.near source position = .ok (excerpt source position) ∧
      ∃ moves ≤ 6, ∀ n bytes, Offsets.Cuts (encode source) position n bytes ↔
        n = moves ∧ bytes = encode last := by
  obtain ⟨moves, hmoves, hcuts⟩ := Offsets.exists_cuts source position
  refine ⟨takeBytes position source, takeLastBytes 32 (takeBytes position source), rfl,
    longestBeginning_takeBytes position source, longestEnding_takeLastBytes 32 _, ?_,
    Offsets.near_eq source position, moves, hmoves, ?_⟩
  -- Of a long lead three bytes are given up at most.
  · rcases Nat.lt_or_ge 32 (byteSize (takeBytes position source)) with hlong | hshort
    · have hkept := lt_byteSize_takeLastBytes_add (Nat.le_of_lt hlong)
      exact .inr ⟨hlong, by omega⟩
    · exact .inl ⟨hshort, takeLastBytes_of_byteSize_le hshort⟩
  · intro n bytes
    constructor
    · intro h
      exact h.unique hcuts
    · rintro ⟨rfl, rfl⟩
      exact hcuts

/-- A character that would only fit in part is left out, at the start of an excerpt and in front of
the offset. -/
example :
    excerpt ("aaaaaaaaaaé".toList ++ List.replicate 31 'b') 43 =
        "bbbbbbbbbbbbbbbbbbbbbbbbbbbbbbb" ∧
      excerpt ("aaaaaaaaaaé".toList ++ List.replicate 31 'b') 11 = "aaaaaaaaaa" := by
  decide

end Stencil
