import Stencil.Proofs.Text.Occurrence
import Stencil.Proofs.Text.Words
import Stencil.Proofs.Template.TagExtent
import Stencil.Template.Scan

/-!
# `Stencil.Proofs.Template.Pieces`: the pieces of a template

A scan that does not fail cuts a template into pieces. `Pipeline.step_eq_finish_iff` and
`Pipeline.step_eq_advance_iff` say what one step of a scan does, `Pipeline.scan_of_finish` and
`Pipeline.scan_of_advance` how a scan is made of steps. `Pipeline.Meets` are the tags that a scan
comes to, whether it fails or not, and nothing else about its pipeline matters
(`Pipeline.scan_congr`).

`Tiled` is what all of them come to: each piece starts where the one before it stops, it takes up
some text, it is a tag that is recognized or all of the text in front of one, and the delimiters in
effect change behind a tag that changes them and nowhere else. `tiled_of_scan` says that the pieces
of a scan are tiled, for any delimiters to start with, and `scan_of_tiled` that nothing else is, as
long as no opening delimiter is empty.
-/

set_option autoImplicit false

namespace Stencil

open Text

/-! ### One step of a scan -/

/-- The site of the tag that follows a text, when `rest` stands behind its opening delimiter. -/
def Scanner.siteAfter (s : Scanner) (source text rest : List Char) : Site :=
  ⟨source, s.cursor.offset + byteSize text,
    ⟨s.cursor.offset + byteSize text + byteSize s.delimiters.opening.toList, rest⟩,
    s.delimiters⟩

/-- A scan finishes where no opening delimiter follows. -/
theorem Pipeline.step_eq_finish_iff {p : Pipeline} {source text : List Char} {s : Scanner} :
    p.step source s = .finish text ↔
      ¬ s.delimiters.opening.toList <:+: s.cursor.rest ∧ text = s.cursor.rest := by
  rw [← cut?_eq_none_iff, Pipeline.step, Cursor.cut?]
  cases h : Text.cut? s.delimiters.opening.toList s.cursor.rest with
  | none => simp [eq_comm]
  | some found =>
    simp only [Option.map_some, reduceCtorEq, false_and, iff_false]
    split <;> simp

/-- A scan goes on behind the next tag, which one of the recognizers has read. -/
theorem Pipeline.step_eq_advance_iff {p : Pipeline} {source text : List Char}
    {s next : Scanner} {start : Nat} {event : Event} :
    p.step source s = .advance text start event next ↔
      ∃ rest, Text.cut? s.delimiters.opening.toList s.cursor.rest = some (text, rest) ∧
        recognize p.recognizers (s.siteAfter source text rest) = .ok (event, next.cursor) ∧
        start = s.cursor.offset + byteSize text ∧
        next.delimiters = event.delimitersAfter s.delimiters := by
  rw [Pipeline.step, Cursor.cut?]
  cases h : Text.cut? s.delimiters.opening.toList s.cursor.rest with
  | none => simp
  | some found =>
    obtain ⟨text', rest⟩ := found
    simp only [Option.map_some, Cursor.past]
    constructor
    · intro hstep
      split at hstep
      · simp at hstep
      · rename_i hread
        simp only [Step.advance.injEq] at hstep
        obtain ⟨rfl, rfl, rfl, rfl⟩ := hstep
        exact ⟨rest, rfl, hread, rfl, rfl⟩
    · rintro ⟨rest', heq, hread, rfl, hdelimiters⟩
      obtain ⟨rfl, rfl⟩ := Prod.mk.inj (Option.some.inj heq)
      have hread' : recognize p.recognizers ⟨source, s.cursor.offset + byteSize text',
          ⟨s.cursor.offset + byteSize text' + byteSize s.delimiters.opening.toList, rest⟩,
          s.delimiters⟩ = .ok (event, next.cursor) := hread
      rw [hread']
      simp only [Step.advance.injEq, true_and]
      rw [← hdelimiters]

/-- A scan fails at a tag that no recognizer can read. -/
theorem Pipeline.step_eq_fail {p : Pipeline} {source text rest : List Char} {s : Scanner}
    {e : ParseError}
    (hcut : Text.cut? s.delimiters.opening.toList s.cursor.rest = some (text, rest))
    (hread : recognize p.recognizers (s.siteAfter source text rest) = .error e) :
    p.step source s = .fail text e := by
  have hread' : recognize p.recognizers ⟨source, s.cursor.offset + byteSize text,
      ⟨s.cursor.offset + byteSize text + byteSize s.delimiters.opening.toList, rest⟩,
      s.delimiters⟩ = .error e := hread
  simp only [Pipeline.step, Cursor.cut?, hcut, Option.map_some, Cursor.past, hread']

/-! ### A scan as steps -/

/-- At the last step, a scan finds the literal text that is left. -/
theorem Pipeline.scan_of_finish {p : Pipeline} {source text : List Char} {s : Scanner}
    (h : p.step source s = .finish text) : p.scan source s = (s.textPieces text, none) := by
  rw [Pipeline.scan]
  split <;> simp_all

/-- At a step that fails, a scan finds the literal text before it and its error. -/
theorem Pipeline.scan_of_fail {p : Pipeline} {source text : List Char} {s : Scanner}
    {e : ParseError} (h : p.step source s = .fail text e) :
    p.scan source s = (s.textPieces text, some e) := by
  rw [Pipeline.scan]
  split <;> simp_all

/-- At a step that goes on, a scan finds a literal text, a tag, and what it finds behind that. -/
theorem Pipeline.scan_of_advance {p : Pipeline} {source text : List Char} {s next : Scanner}
    {start : Nat} {event : Event} (h : p.step source s = .advance text start event next)
    (hlt : s.cursor.offset < next.cursor.offset) :
    p.scan source s = (s.textPieces text ++ ⟨event, start, next.cursor, s.delimiters⟩ ::
      (p.scan source next).1, (p.scan source next).2) := by
  rw [Pipeline.scan]
  split
  · simp_all
  · simp_all
  · rename_i heq
    rw [h] at heq
    simp only [Step.advance.injEq] at heq
    obtain ⟨rfl, rfl, rfl, rfl⟩ := heq
    rw [dif_pos hlt]

/-- The pieces of a template, if no more than `n` steps of a scan are needed to its end. -/
def Pipeline.scanWithin (p : Pipeline) (source : List Char) : Nat → Scanner → Option (List Piece)
  | 0, _ => none
  | n + 1, s =>
    match p.step source s with
    | .finish text => some (s.textPieces text)
    | .fail _ _ => none
    | .advance text start event next =>
      if s.cursor.offset < next.cursor.offset then
        (p.scanWithin source n next).map fun pieces =>
          s.textPieces text ++ ⟨event, start, next.cursor, s.delimiters⟩ :: pieces
      else none

/-- A scan can be evaluated step by step. -/
theorem Pipeline.scan_of_scanWithin {p : Pipeline} {source : List Char} {n : Nat} {s : Scanner}
    {pieces : List Piece} (h : p.scanWithin source n s = some pieces) :
    p.scan source s = (pieces, none) := by
  induction n generalizing s pieces with
  | zero => simp [scanWithin] at h
  | succ n ih =>
    rw [scanWithin] at h
    split at h
    · rename_i hstep
      rw [scan_of_finish hstep, Option.some.inj h]
    · simp at h
    · rename_i hstep
      split at h
      · rename_i hlt
        obtain ⟨rest, hrest, rfl⟩ := Option.map_eq_some_iff.1 h
        rw [scan_of_advance hstep hlt, ih hrest]
      · simp at h

/-- A property of scans that do not fail holds if it holds of the last step and each step that
goes on hands it on. -/
theorem Pipeline.scan_induction {p : Pipeline} {source : List Char}
    {motive : Scanner → List Piece → Prop}
    (finish : ∀ s text, p.step source s = .finish text → motive s (s.textPieces text))
    (advance : ∀ s text start event next pieces,
      p.step source s = .advance text start event next → s.cursor.offset < next.cursor.offset →
      p.scan source next = (pieces, none) → motive next pieces →
      motive s (s.textPieces text ++ ⟨event, start, next.cursor, s.delimiters⟩ :: pieces))
    {s : Scanner} {pieces : List Piece} (h : p.scan source s = (pieces, none)) :
    motive s pieces := by
  fun_induction p.scan source s generalizing pieces with
  | case1 s text hstep =>
    obtain ⟨rfl, _⟩ := Prod.mk.inj h
    exact finish s text hstep
  | case2 s text e hstep => simp at h
  | case3 s text start event next hstep hlt pieces' failure hrest ih =>
    obtain ⟨rfl, rfl⟩ := Prod.mk.inj h
    exact advance s text start event next pieces' hstep hlt hrest (ih hrest)
  | case4 s text start event next hstep hlt => simp at h

/-! ### The tags of a scan -/

/-- The tags that a scan comes to, whether they can be read or not. -/
inductive Pipeline.Meets (p : Pipeline) (source : List Char) : Scanner → Site → Prop where
  | here {s : Scanner} (text rest : List Char)
    (found : Text.cut? s.delimiters.opening.toList s.cursor.rest = some (text, rest)) :
    Meets p source s (s.siteAfter source text rest)
  | later {s next : Scanner} {site : Site} {text : List Char} {start : Nat} {event : Event}
    (step : p.step source s = .advance text start event next)
    (advances : s.cursor.offset < next.cursor.offset) (meets : Meets p source next site) :
    Meets p source s site

section Congr

variable {p q : Pipeline} {source : List Char} {s : Scanner}

/-- Two pipelines make the same step if they read alike the tag that it comes to. -/
theorem Pipeline.step_congr
    (h : ∀ site, p.Meets source s site →
      recognize p.recognizers site = recognize q.recognizers site) :
    p.step source s = q.step source s := by
  cases hcut : Text.cut? s.delimiters.opening.toList s.cursor.rest with
  | none => simp only [step, Cursor.cut?, hcut, Option.map_none]
  | some found =>
    obtain ⟨text, rest⟩ := found
    have hread : recognize p.recognizers (s.siteAfter source text rest) =
        recognize q.recognizers (s.siteAfter source text rest) := h _ (.here text rest hcut)
    simp only [Scanner.siteAfter] at hread
    simp only [step, Cursor.cut?, hcut, Option.map_some, Cursor.past, hread]

/-- Two pipelines scan alike if they read alike every tag that one of them comes to. -/
theorem Pipeline.scan_congr
    (h : ∀ site, p.Meets source s site →
      recognize p.recognizers site = recognize q.recognizers site) :
    p.scan source s = q.scan source s := by
  have hstep := step_congr h
  fun_induction p.scan source s with
  | case1 s text hs => rw [scan_of_finish (hstep.symm.trans hs)]
  | case2 s text e hs => rw [scan_of_fail (hstep.symm.trans hs)]
  | case3 s text start event next hs hlt pieces failure hrest ih =>
    have hlater := fun site hsite => h site (.later hs hlt hsite)
    rw [scan_of_advance (hstep.symm.trans hs) hlt, ← ih hlater (step_congr hlater), hrest]
  | case4 s text start event next hs hlt =>
    rw [scan]
    split <;> simp_all

end Congr

/-! ### Pieces side by side -/

/-- How a piece takes up the text at a place: as all of the text up to the next opening delimiter
or to the end, or as a tag. -/
inductive Piece.Takes (p : Pipeline) (source : List Char) (c : Cursor) (piece : Piece) : Prop where
  | text (text : List Char) (event : piece.event = .token (.text (String.ofList text)))
    (some_ : text ≠ []) (rest : c.rest = text ++ piece.stop.rest)
    (offset : piece.stop.offset = c.offset + byteSize text)
    (whole : (¬ piece.delimiters.opening.toList <:+: text ∧ piece.stop.rest = []) ∨
      (StartsFirst piece.delimiters.opening.toList text ∧
        piece.delimiters.opening.toList <+: piece.stop.rest))
  | tag (behind : Cursor) (rest : c.rest = piece.delimiters.opening.toList ++ behind.rest)
    (offset : behind.offset = c.offset + byteSize piece.delimiters.opening.toList)
    (read : recognize p.recognizers ⟨source, c.offset, behind, piece.delimiters⟩ =
      .ok (piece.event, piece.stop))

/-- The pieces follow each other from one place to another without a gap. The first of them
stands between the given delimiters. -/
def Tiled (p : Pipeline) (source : List Char) : Delimiters → Cursor → List Piece → Cursor → Prop
  | _, c, [], stop => c = stop
  | d, c, piece :: pieces, stop =>
    piece.start = c.offset ∧ piece.delimiters = d ∧ piece.Takes p source c ∧
      c.offset < piece.stop.offset ∧
      Tiled p source (piece.event.delimitersAfter d) piece.stop pieces stop

/-- A place behind some text lies further on by the size of that. -/
theorem offset_lt_of_ne_nil {text : List Char} (h : text ≠ []) (offset : Nat) :
    offset < offset + byteSize text := by
  obtain ⟨c, cs, rfl⟩ := List.exists_cons_of_ne_nil h
  have := c.utf8Size_pos
  simp only [byteSize_cons]
  omega

/-- A literal text takes up the text in front of what the other pieces take up. -/
theorem tiled_textPieces_append {p : Pipeline} {source text rest : List Char} {s : Scanner}
    {pieces : List Piece} {stop : Cursor} (hrest : s.cursor.rest = text ++ rest)
    (hwhole : (¬ s.delimiters.opening.toList <:+: text ∧ rest = []) ∨
      (StartsFirst s.delimiters.opening.toList text ∧ s.delimiters.opening.toList <+: rest))
    (h : Tiled p source s.delimiters ⟨s.cursor.offset + byteSize text, rest⟩ pieces stop) :
    Tiled p source s.delimiters s.cursor (s.textPieces text ++ pieces) stop := by
  unfold Scanner.textPieces
  -- No text makes no piece, so that the places before it and behind it are one.
  split
  · rename_i hempty
    obtain rfl := List.isEmpty_iff.1 hempty
    have hcursor : s.cursor = ⟨s.cursor.offset + byteSize [], rest⟩ := by
      rw [byteSize_nil, Nat.add_zero, ← List.nil_append rest, ← hrest]
    rw [List.nil_append, hcursor]
    exact h
  · rename_i hempty
    have hne : text ≠ [] := by
      intro hnil
      exact hempty (List.isEmpty_iff.2 hnil)
    have hdrop : s.cursor.rest.drop text.length = rest := by
      rw [hrest, List.drop_left]
    rw [hdrop]
    exact ⟨rfl, rfl, .text text rfl hne hrest rfl hwhole, offset_lt_of_ne_nil hne _, h⟩

/-- The pieces of a scan that does not fail make up the rest of the template. -/
theorem tiled_of_scan {p : Pipeline} {source : List Char} {s : Scanner} {pieces : List Piece}
    (h : p.scan source s = (pieces, none)) :
    Tiled p source s.delimiters s.cursor pieces
      ⟨s.cursor.offset + byteSize s.cursor.rest, []⟩ := by
  refine Pipeline.scan_induction (motive := fun s pieces => Tiled p source s.delimiters s.cursor
    pieces ⟨s.cursor.offset + byteSize s.cursor.rest, []⟩) ?_ ?_ h
  · intro s text hstep
    obtain ⟨hfree, rfl⟩ := Pipeline.step_eq_finish_iff.1 hstep
    rw [← List.append_nil (s.textPieces _)]
    have hall : s.cursor.rest = s.cursor.rest ++ [] := (List.append_nil _).symm
    exact tiled_textPieces_append hall (.inl ⟨hfree, rfl⟩) rfl
  · intro s text start event next pieces hstep hlt _ ih
    obtain ⟨rest, hcut, hread, rfl, hdelimiters⟩ := Pipeline.step_eq_advance_iff.1 hstep
    obtain ⟨hrest, hfirst⟩ := cut?_eq_some_iff.1 hcut
    rw [List.append_assoc] at hrest
    have hreaches := reaches_of_recognize hread
    -- The places in front of the tag and behind it have the same end of the text before them.
    have hend : next.cursor.offset + byteSize next.cursor.rest =
        s.cursor.offset + byteSize s.cursor.rest := by
      obtain ⟨taken, htaken, hoffset⟩ := hreaches
      rw [hrest, hoffset]
      have : rest = taken ++ next.cursor.rest := htaken
      rw [this]
      simp only [Scanner.siteAfter, byteSize_append]
      omega
    rw [hend, hdelimiters] at ih
    refine tiled_textPieces_append hrest (.inr ⟨hfirst, List.prefix_append _ _⟩) ?_
    refine ⟨rfl, rfl, .tag (s.siteAfter source text rest).cursor rfl rfl hread, ?_, ih⟩
    -- An empty opening delimiter has no text in front of it, so that the tag takes up all.
    cases hopening : s.delimiters.opening.toList with
    | nil =>
      rw [hopening] at hfirst
      rw [hfirst.eq_nil_of_nil]
      simpa using hlt
    | cons c cs =>
      obtain ⟨taken, _, hoffset⟩ := hreaches
      rw [hoffset]
      simp only [Scanner.siteAfter, hopening]
      have := offset_lt_of_ne_nil (List.cons_ne_nil c cs) (s.cursor.offset + byteSize text)
      omega

/-- The delimiters in effect behind some pieces. -/
def delimitersAlong (d : Delimiters) (pieces : List Piece) : Delimiters :=
  pieces.foldl (fun d piece => piece.event.delimitersAfter d) d

/-- Pieces tile a text when their parts tile the parts of it. -/
theorem tiled_append_iff {p : Pipeline} {source : List Char} {d : Delimiters} {c stop : Cursor}
    {first second : List Piece} :
    Tiled p source d c (first ++ second) stop ↔ ∃ mid, Tiled p source d c first mid ∧
      Tiled p source (delimitersAlong d first) mid second stop := by
  induction first generalizing d c with
  | nil => simp [Tiled, delimitersAlong]
  | cons piece first ih =>
    simp only [List.cons_append, Tiled, ih]
    constructor
    · rintro ⟨hstart, hd, htakes, hlt, mid, hfirst, hsecond⟩
      exact ⟨mid, ⟨hstart, hd, htakes, hlt, hfirst⟩, hsecond⟩
    · rintro ⟨mid, ⟨hstart, hd, htakes, hlt, hfirst⟩, hsecond⟩
      exact ⟨hstart, hd, htakes, hlt, mid, hfirst, hsecond⟩

/-- The text at a place leads to the end of a piece there. -/
theorem Piece.Takes.reaches {p : Pipeline} {source : List Char} {c : Cursor} {piece : Piece}
    (h : piece.Takes p source c) : c.Reaches piece.stop := by
  cases h with
  | text text _ _ hrest hoffset _ => exact ⟨text, hrest, hoffset⟩
  | tag behind hrest hoffset hread =>
    have hbehind : c.Reaches behind := ⟨_, hrest, hoffset⟩
    exact hbehind.trans (reaches_of_recognize hread)

/-- The text at a place leads to the end of pieces that start there. -/
theorem Tiled.reaches {p : Pipeline} {source : List Char} {d : Delimiters} {c stop : Cursor}
    {pieces : List Piece} (h : Tiled p source d c pieces stop) : c.Reaches stop := by
  induction pieces generalizing d c with
  | nil =>
    obtain rfl : c = stop := h
    exact Cursor.Reaches.refl c
  | cons piece pieces ih =>
    obtain ⟨_, _, htakes, _, hrest⟩ := h
    exact htakes.reaches.trans (ih hrest)

/-- Where no text is left there are no more pieces. -/
theorem Tiled.eq_nil {p : Pipeline} {source : List Char} {d : Delimiters} {c stop : Cursor}
    {pieces : List Piece} (h : Tiled p source d c pieces stop) (hrest : c.rest = []) :
    pieces = [] := by
  cases pieces with
  | nil => rfl
  | cons piece pieces =>
    -- A piece that goes further needs some text for it.
    obtain ⟨_, _, htakes, hlt, _⟩ := h
    obtain ⟨taken, htaken, hoffset⟩ := htakes.reaches
    rw [hrest] at htaken
    obtain ⟨rfl, _⟩ := List.append_eq_nil_iff.1 htaken.symm
    rw [byteSize_nil] at hoffset
    omega

/-- No piece of a tiled text starts before it or stops behind it. -/
theorem Tiled.bounds {p : Pipeline} {source : List Char} {d : Delimiters} {c stop : Cursor}
    {pieces : List Piece} (h : Tiled p source d c pieces stop) :
    c.offset ≤ stop.offset ∧
      ∀ piece ∈ pieces, c.offset < piece.stop.offset ∧ piece.stop.offset ≤ stop.offset := by
  induction pieces generalizing d c with
  | nil =>
    obtain rfl : c = stop := h
    exact ⟨Nat.le_refl _, by simp⟩
  | cons piece pieces ih =>
    obtain ⟨_, _, _, hlt, hrest⟩ := h
    obtain ⟨hle, hbounds⟩ := ih hrest
    refine ⟨by omega, ?_⟩
    intro other hother
    rcases List.mem_cons.1 hother with rfl | hother
    · exact ⟨hlt, hle⟩
    · obtain ⟨hlow, hhigh⟩ := hbounds other hother
      exact ⟨by omega, hhigh⟩

/-! ### Delimiters that are words -/

/-- Delimiters that are not empty and have no blanks. -/
structure Delimiters.Proper (d : Delimiters) : Prop where
  opening : IsWord d.opening.toList
  closing : IsWord d.closing.toList

/-- The standard delimiters are words. -/
theorem Delimiters.proper_standard : standard.Proper where
  opening := by decide
  closing := by decide

/-- The delimiters that a tag changes to are words. -/
theorem Recognizer.proper_of_newDelimiters? {inside : List Char} {d : Delimiters}
    (h : newDelimiters? inside = some d) : d.Proper := by
  unfold newDelimiters? at h
  split at h
  · rename_i opening closing hwords
    split at h
    · simp at h
    · obtain rfl := Option.some.inj h
      have hword : ∀ word ∈ [opening, closing], IsWord word := by
        intro word hmem
        exact isWord_of_mem_words (hwords ▸ hmem)
      constructor
      · rw [String.toList_ofList]
        exact hword opening (by simp)
      · rw [String.toList_ofList]
        exact hword closing (by simp)
  · simp at h

/-! ### With helpers -/

section WithHelpers

variable {additions : List Addition} {source : List Char} {c : Cursor} {piece : Piece}

/-- A piece that is no literal text is read as a tag. -/
theorem Piece.Takes.reads (h : piece.Takes (.withHelpers additions) source c)
    (hevent : ∀ s, piece.event ≠ .token (.text s)) :
    ∃ behind : Cursor, c.rest = piece.delimiters.opening.toList ++ behind.rest ∧
      behind.offset = c.offset + byteSize piece.delimiters.opening.toList ∧
      (⟨source, c.offset, behind, piece.delimiters⟩ : Site).Reads piece.stop piece.event := by
  cases h with
  | text text htext => exact absurd htext (hevent _)
  | tag behind hrest hoffset hread => exact ⟨behind, hrest, hoffset, reads_of_recognize hread⟩

/-- The tag that opens a block records the bytes that its piece takes up. -/
theorem Piece.Takes.tag_of_enter {opening : OpenTag}
    (h : piece.Takes (.withHelpers additions) source c) (hevent : piece.event = .enter opening) :
    opening.tag = ⟨c.offset, piece.stop.offset⟩ := by
  obtain ⟨behind, _, _, hreads⟩ := h.reads (by simp [hevent])
  rw [hevent] at hreads
  cases hreads with
  | shown _ _ _ _ _ hshows => cases hshows; rfl

/-- The tag that closes a block records the bytes that its piece takes up. -/
theorem Piece.Takes.tag_of_leave {name : String} {tag : Span}
    (h : piece.Takes (.withHelpers additions) source c) (hevent : piece.event = .leave name tag) :
    tag = ⟨c.offset, piece.stop.offset⟩ := by
  obtain ⟨behind, _, _, hreads⟩ := h.reads (by simp [hevent])
  rw [hevent] at hreads
  cases hreads with
  | shown _ _ _ _ _ hshows => cases hshows; rfl

/-- No piece is a whole block: those come from the nesting of pieces. -/
theorem Piece.Takes.ne_block (h : piece.Takes (.withHelpers additions) source c) (b : Block)
    (children : List Token) : piece.event ≠ .token (.block b children) := by
  intro hevent
  obtain ⟨behind, _, _, hreads⟩ := h.reads (by simp [hevent])
  rw [hevent] at hreads
  cases hreads with
  | shown _ _ _ _ _ hshows => cases hshows

/-- No piece of a template is a whole block. -/
theorem Tiled.ne_block {d : Delimiters} {stop : Cursor} {pieces : List Piece}
    (h : Tiled (.withHelpers additions) source d c pieces stop) :
    ∀ piece ∈ pieces, ∀ b children, piece.event ≠ .token (.block b children) := by
  induction pieces generalizing d c with
  | nil => simp
  | cons piece pieces ih =>
    obtain ⟨_, _, htakes, _, hrest⟩ := h
    intro other hother b children
    rcases List.mem_cons.1 hother with rfl | hother
    · exact htakes.ne_block b children
    · exact ih hrest other hother b children

/-- The delimiters behind a tag between words are words. -/
theorem proper_delimitersAfter {d : Delimiters} {behind next : Cursor} {event : Event}
    (hd : d.Proper)
    (h : recognize (Pipeline.withHelpers additions).recognizers ⟨source, c.offset, behind, d⟩ =
      .ok (event, next)) : (event.delimitersAfter d).Proper := by
  -- Only a change of delimiters brings new ones, and these were checked to be words.
  cases reads_of_recognize h with
  | comment => exact hd
  | change inside d' _ _ hwords => exact Recognizer.proper_of_newDelimiters? hwords
  | shown _ _ _ _ _ hshows =>
    cases hshows <;> exact hd

/-- Between words at the beginning, tags stand between words all along. -/
theorem Tiled.proper_along {d : Delimiters} {stop : Cursor} {pieces taken : List Piece}
    (hd : d.Proper) (h : Tiled (.withHelpers additions) source d c pieces stop)
    (htaken : taken <+: pieces) : (delimitersAlong d taken).Proper := by
  induction taken generalizing d c pieces with
  | nil => exact hd
  | cons piece taken ih =>
    obtain ⟨more, rfl⟩ := htaken
    obtain ⟨_, rfl, htakes, _, hrest⟩ := h
    have hproper : (piece.event.delimitersAfter piece.delimiters).Proper := by
      cases htakes with
      | text text hevent =>
        rw [hevent]
        exact hd
      | tag behind _ _ hread => exact proper_delimitersAfter hd hread
    exact ih hproper hrest (List.prefix_append _ _)

end WithHelpers

/-! ### From pieces back to a scan -/

/-- A scan that starts at a text in front of a tag finds the text and then what a scan from the
tag on finds. -/
theorem Pipeline.scan_of_text {p : Pipeline} {source text : List Char} {c : Cursor}
    {d : Delimiters} {pieces : List Piece} {stop : Cursor} (hrest : c.rest = text ++ stop.rest)
    (hoffset : stop.offset = c.offset + byteSize text)
    (hfirst : StartsFirst d.opening.toList text) (hopens : d.opening.toList <+: stop.rest)
    (h : p.scan source ⟨stop, d⟩ = (pieces, none)) :
    p.scan source ⟨c, d⟩ = (Scanner.textPieces ⟨c, d⟩ text ++ pieces, none) := by
  obtain ⟨behind, hbehind⟩ := hopens
  have hmotive := Pipeline.scan_induction (motive := fun s pieces => s = ⟨stop, d⟩ →
    p.scan source ⟨c, d⟩ = (Scanner.textPieces ⟨c, d⟩ text ++ pieces, none)) ?_ ?_ h
  · exact hmotive rfl
  -- The scan cannot have ended, since an opening delimiter stands right here.
  · rintro s _ hstep rfl
    obtain ⟨hfree, _⟩ := Pipeline.step_eq_finish_iff.1 hstep
    exact absurd ⟨[], behind, by simpa using hbehind⟩ hfree
  · rintro s text' start event next pieces hstep hlt hscan _ rfl
    obtain ⟨rest, hcut, hread, rfl, hdelimiters⟩ := Pipeline.step_eq_advance_iff.1 hstep
    -- The opening delimiter stands right here.
    have hhere : Text.cut? d.opening.toList stop.rest = some ([], behind) :=
      cut?_eq_some_iff.2 ⟨by simp [hbehind], StartsFirst.nil _⟩
    obtain ⟨rfl, rfl⟩ := Prod.mk.inj (Option.some.inj (hhere.symm.trans hcut))
    have hsite : Scanner.siteAfter ⟨c, d⟩ source text behind =
        Scanner.siteAfter ⟨stop, d⟩ source [] behind := by
      simp only [Scanner.siteAfter, byteSize_nil, Nat.add_zero, hoffset]
    have hstep' : p.step source ⟨c, d⟩ = .advance text (stop.offset + byteSize []) event next := by
      refine Pipeline.step_eq_advance_iff.2 ⟨behind, ?_, ?_, ?_, hdelimiters⟩
      · refine cut?_eq_some_iff.2 ⟨?_, hfirst⟩
        rw [hrest, ← hbehind, List.append_assoc]
      · rw [hsite]
        exact hread
      · rw [byteSize_nil, Nat.add_zero, hoffset]
    have hlt' : c.offset < next.cursor.offset := by
      simp only [hoffset] at hlt
      omega
    rw [Pipeline.scan_of_advance hstep' hlt', hscan]
    simp [Scanner.textPieces]

/-- Pieces that make up the rest of a template are those of a scan, as long as the opening
delimiters in effect are not empty. -/
theorem scan_of_tiled {p : Pipeline} {source : List Char} {d : Delimiters} {c stop : Cursor}
    {pieces : List Piece} (h : Tiled p source d c pieces stop) (hstop : stop.rest = [])
    (hopening : ∀ taken, taken <+: pieces → (delimitersAlong d taken).opening.toList ≠ []) :
    p.scan source ⟨c, d⟩ = (pieces, none) := by
  induction pieces generalizing d c with
  | nil =>
    obtain rfl : c = stop := h
    have hd : d.opening.toList ≠ [] := hopening [] (List.prefix_refl [])
    have hstep : p.step source ⟨c, d⟩ = .finish [] :=
      Pipeline.step_eq_finish_iff.2 ⟨by rw [hstop]; simpa using hd, hstop.symm⟩
    rw [Pipeline.scan_of_finish hstep]
    rfl
  | cons piece pieces ih =>
    obtain ⟨event, start, next, d'⟩ := piece
    obtain ⟨rfl, rfl, htakes, hlt, hrest⟩ := h
    have hd : d'.opening.toList ≠ [] := hopening [] (List.nil_prefix)
    have hscan : p.scan source ⟨next, event.delimitersAfter d'⟩ = (pieces, none) := by
      refine ih hrest fun taken htaken => ?_
      exact hopening _ ((List.prefix_cons_inj _).2 htaken)
    cases htakes with
    | text text hevent hne htext hoffset hwhole =>
      obtain rfl : event = .token (.text (String.ofList text)) := hevent
      have hpieces : Scanner.textPieces ⟨c, d'⟩ text =
          [⟨.token (.text (String.ofList text)), c.offset, next, d'⟩] := by
        have hcursor : c.past text (c.rest.drop text.length) = next := by
          rw [htext, List.drop_left, Cursor.past, ← hoffset]
        simp [Scanner.textPieces, hne, hcursor]
      -- A text at the end is followed by nothing, any other by a tag.
      rcases hwhole with ⟨hfree, hend⟩ | ⟨hfirst, hopens⟩
      · simp only at hend htext
        obtain rfl := hrest.eq_nil hend
        rw [hend, List.append_nil] at htext
        have hstep : p.step source ⟨c, d'⟩ = .finish text :=
          Pipeline.step_eq_finish_iff.2 ⟨by rw [htext]; exact hfree, htext.symm⟩
        rw [Pipeline.scan_of_finish hstep, hpieces]
      · rw [Pipeline.scan_of_text htext hoffset hfirst hopens hscan, hpieces]
        rfl
    | tag behind htag hoffset hread =>
      have hstep : p.step source ⟨c, d'⟩ =
          .advance [] c.offset event ⟨next, event.delimitersAfter d'⟩ := by
        refine Pipeline.step_eq_advance_iff.2 ⟨behind.rest, ?_, ?_, by simp, rfl⟩
        · exact cut?_eq_some_iff.2 ⟨by simpa using htag, StartsFirst.nil _⟩
        · rw [Scanner.siteAfter]
          simp only [byteSize_nil, Nat.add_zero]
          simp only at hoffset
          rw [← hoffset]
          exact hread
      rw [Pipeline.scan_of_advance hstep hlt, hscan]
      rfl

end Stencil
