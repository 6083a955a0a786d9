import Stencil.Proofs.Template.Brackets
import Stencil.Proofs.Template.OffsetTags

/-!
# `Stencil.Proofs.Template.OffsetLoop`: a parse that keeps offsets

`Loop` is a parse that keeps its place as a byte offset and cuts texts out of the template:
`Loop.iterate` goes on behind the next tag, and `Loop.run` does that until no opening delimiter
follows, for a number of rounds at most. Open blocks stand on a stack, and the body of a block is cut
out when the block is closed.

`loopOf` takes a scan with its nesting to such a loop, if both lie in the template (`LiesIn`).
`iterate_loopOf` says that a round is a step of the scan whose piece is added to the nesting. There is
no other failure than the errors of that step, so that no cut fails.
-/

set_option autoImplicit false

namespace Stencil

open Text

namespace Offsets

/-! ### The loop -/

/-- A block whose close tag has not been seen yet. -/
structure Frame where
  opening : OpenTag
  /-- The tokens before it in the block around it, the last one first. -/
  before : List Token

/-- A parse between two tags. -/
structure Loop where
  cursor : Nat
  delimiters : Delimiters
  /-- The offset behind the last tag. -/
  textStart : Nat
  /-- The tokens of the innermost open block so far, the last one first. -/
  tokens : List Token
  /-- The open blocks, innermost first. -/
  stack : List Frame

/-- Puts a literal text behind some tokens, unless it is empty. -/
def pushText (tokens : List Token) (text : List Char) : List Token :=
  if text.isEmpty then tokens else .text (String.ofList text) :: tokens

namespace Loop

/-- The beginning of a parse. -/
def start (d : Delimiters) : Loop := ⟨0, d, 0, [], []⟩

/-- Closes the innermost open block. Its body is cut out of the template. -/
def close (source : List Char) (loop : Loop) (tokens : List Token) (name : String) (tag : Span)
    (next : Nat) : Except Halt Loop :=
  match loop.stack with
  | [] => .error (.error (.unopenedClose name tag.start))
  | top :: stack =>
    if top.opening.name = name then do
      let body ← between source top.opening.tag.stop tag.start
      let block : Block := ⟨top.opening, tag, String.ofList body, loop.delimiters⟩
      .ok ⟨next, loop.delimiters, next, .block block tokens.reverse :: top.before, stack⟩
    else
      .error (.error (.mismatchedClose name tag.start top.opening.name top.opening.tag.start))

/-- Goes on behind a tag that ends at an offset. -/
def take (source : List Char) (loop : Loop) (tokens : List Token) (event : Event) (next : Nat) :
    Except Halt Loop :=
  match event with
  | .token t => .ok ⟨next, loop.delimiters, next, t :: tokens, loop.stack⟩
  | .enter opening => .ok ⟨next, loop.delimiters, next, [], ⟨opening, tokens⟩ :: loop.stack⟩
  | .leave name tag => loop.close source tokens name tag next
  | .change d => .ok ⟨next, d, next, tokens, loop.stack⟩
  | .skip => .ok ⟨next, loop.delimiters, next, tokens, loop.stack⟩

/-- One round: finds the next tag, reads it, and goes on behind it. There is nothing to do if no
opening delimiter follows. -/
def iterate (readers : List Reader) (source : List Char) (loop : Loop) :
    Except Halt (Option Loop) := do
  match ← findFrom source loop.delimiters.opening.toList loop.cursor with
  | none => .ok none
  | some tagStart =>
    let text ← between source loop.textStart tagStart
    let cursor := tagStart + byteSize loop.delimiters.opening.toList
    let (event, next) ← dispatch readers ⟨source, tagStart, cursor, loop.delimiters⟩
    some <$> loop.take source (pushText loop.tokens text) event next

/-- The tokens of a template in which no tag follows. -/
def finish (source : List Char) (loop : Loop) : Except Halt (List Token) := do
  let text ← textFrom source loop.textStart
  match loop.stack with
  | [] => .ok (pushText loop.tokens text).reverse
  | top :: _ => .error (.error (.unclosedBlock top.opening.name top.opening.tag.start))

/-- The tokens of a template, if no more rounds are needed than the number says. -/
def run (readers : List Reader) (source : List Char) : Nat → Loop → Except Halt (List Token)
  | 0, _ => .error .unfinished
  | n + 1, loop => do
    match ← loop.iterate readers source with
    | none => loop.finish source
    | some next => run readers source n next

/-- The loops that a parse comes to. -/
inductive ComesTo (readers : List Reader) (source : List Char) (d : Delimiters) : Loop → Prop where
  | start : ComesTo readers source d (.start d)
  | next {loop next : Loop} (h : ComesTo readers source d loop)
    (round : loop.iterate readers source = .ok (some next)) : ComesTo readers source d next

/-- Both delimiters are empty, and the mark of a comment follows. -/
def Stuck (source : List Char) (loop : Loop) : Prop :=
  loop.delimiters.opening = "" ∧ loop.delimiters.closing = "" ∧
    ∃ rest, textFrom source loop.cursor = .ok ('!' :: rest)

end Loop

/-- The readers of an engine after some additions. -/
def readersOf (additions : List Addition) : List Reader :=
  readersWith (additions.filterMap Addition.sections?) (additions.filterMap Addition.inline?)

/-! ### Loops and scans -/

/-- An open block of a nesting, as a frame. -/
def frameOf (b : OpenBlock) : Frame := ⟨b.opening, b.before⟩

/-- The loop that stands where a scan does. -/
def loopOf (s : Scanner) (n : Nesting) : Loop :=
  ⟨s.cursor.offset, s.delimiters, s.cursor.offset, n.tokens, n.stack.map frameOf⟩

/-- A block was opened in a template, in front of a place. -/
structure OpensIn (source : List Char) (c : Cursor) (b : OpenBlock) : Prop where
  inside : (Cursor.atStart source).Reaches b.inside
  reaches : b.inside.Reaches c
  stop : b.opening.tag.stop = b.inside.offset

/-- A block that was opened in front of a place was opened in front of every later one. -/
theorem OpensIn.trans {source : List Char} {c d : Cursor} {b : OpenBlock}
    (h : OpensIn source c b) (hreaches : c.Reaches d) : OpensIn source d b where
  inside := h.inside
  reaches := h.reaches.trans hreaches
  stop := h.stop

/-- The body of a block that is closed at a place can be cut out of the template. -/
theorem OpensIn.between_eq {source : List Char} {c : Cursor} {b : OpenBlock}
    (h : OpensIn source c b) :
    between source b.opening.tag.stop c.offset =
      .ok (takeBytes (c.offset - b.inside.offset) b.inside.rest) := by
  obtain ⟨taken, hrest, hoffset⟩ := h.reaches
  have hsize : c.offset - b.inside.offset = byteSize taken := by omega
  rw [h.stop, hsize, hrest, takeBytes_byteSize_append]
  exact between_of_reaches h.inside hrest hoffset

/-- A scan with its nesting lies in a template. -/
structure LiesIn (source : List Char) (s : Scanner) (n : Nesting) : Prop where
  cursor : (Cursor.atStart source).Reaches s.cursor
  stack : ∀ b ∈ n.stack, OpensIn source s.cursor b

/-- At its beginning, a scan lies in the template that it scans. -/
theorem liesIn_start (source : List Char) (d : Delimiters) :
    LiesIn source ⟨.atStart source, d⟩ .start where
  cursor := Cursor.Reaches.refl _
  stack := by simp [Nesting.start]

/-- The nesting behind a text and the tag that follows it. -/
def behindTag (s : Scanner) (n : Nesting) (text : List Char) (start : Nat) (event : Event)
    (next : Scanner) : Except ParseError Nesting :=
  Nesting.add ⟨pushText n.tokens text, n.stack⟩ ⟨event, start, next.cursor, s.delimiters⟩

section Rounds

variable {additions : List Addition} {source text : List Char} {s next : Scanner}
  {n m : Nesting} {start : Nat} {event : Event}

/-- The piece of a literal text adds that text. -/
theorem foldlM_add_textPieces (s : Scanner) (n : Nesting) (text : List Char) :
    (s.textPieces text).foldlM Nesting.add n = .ok ⟨pushText n.tokens text, n.stack⟩ := by
  rw [Scanner.textPieces, pushText]
  split
  · rfl
  · rfl

/-- The tags of a block record where they stand. -/
theorem tag_of_step (h : (Pipeline.withHelpers additions).step source s =
      .advance text start event next) :
    (∀ opening, event = .enter opening → opening.tag.stop = next.cursor.offset) ∧
      ∀ name tag, event = .leave name tag → tag.start = start := by
  obtain ⟨rest, _, hread, rfl, _⟩ := Pipeline.step_eq_advance_iff.1 h
  have hreads := reads_of_recognize hread
  constructor
  · rintro opening rfl
    cases hreads with
    | shown _ _ _ _ _ hshows =>
      cases hshows
      rfl
  · rintro name tag rfl
    cases hreads with
    | shown _ _ _ _ _ hshows =>
      cases hshows
      rfl

/-- A scan goes on in the template that it is in. -/
theorem LiesIn.of_step (h : LiesIn source s n)
    (hstep : (Pipeline.withHelpers additions).step source s = .advance text start event next)
    (hadd : behindTag s n text start event next = .ok m) : LiesIn source next m := by
  have hreaches := Pipeline.reaches_of_step hstep
  -- Blocks that were open before stay so, further back in the template.
  have hkept : ∀ b ∈ n.stack, OpensIn source next.cursor b :=
    fun b hb => (h.stack b hb).trans hreaches
  refine ⟨h.cursor.trans hreaches, ?_⟩
  -- Only an open tag adds a block, whose body starts right behind the tag.
  rcases Nesting.add_cases hadd with ⟨t, _, rfl⟩ | ⟨_, rfl⟩ | ⟨opening, hevent, rfl⟩ |
    ⟨top, stack, tag, hstack, _, rfl⟩
  · exact hkept
  · exact hkept
  · intro b hb
    rcases List.mem_cons.1 hb with rfl | hb
    · exact ⟨h.cursor.trans hreaches, Cursor.Reaches.refl _, (tag_of_step hstep).1 opening hevent⟩
    · exact hkept b hb
  · intro b hb
    have hstack' : n.stack = top :: stack := hstack
    exact hkept b (hstack' ▸ List.mem_cons_of_mem top hb)

/-- A tag is taken by a loop as its piece is by a nesting. -/
theorem take_loopOf {place : Cursor}
    (hopens : ∀ b ∈ n.stack, OpensIn source place b)
    (hleave : ∀ name tag, event = .leave name tag → tag.start = place.offset) (start : Nat)
    (c : Cursor) :
    (loopOf s n).take source (pushText n.tokens text) event c.offset =
      lift (loopOf ⟨c, event.delimitersAfter s.delimiters⟩ <$>
        behindTag s n text start event ⟨c, event.delimitersAfter s.delimiters⟩) := by
  -- The two differ in a close tag alone: there the loop cuts the body out of the template.
  cases event with
  | token t => rfl
  | enter opening => rfl
  | change d => rfl
  | skip => rfl
  | leave name tag =>
    show Loop.close source (loopOf s n) (pushText n.tokens text) name tag c.offset =
      lift (loopOf _ <$> Nesting.close ⟨pushText n.tokens text, n.stack⟩ name tag s.delimiters)
    rw [Loop.close, Nesting.close, loopOf]
    -- Without an open block, both fail with the same error.
    cases hstack : n.stack with
    | nil => rfl
    | cons top stack =>
      have hbody := (hopens top (hstack ▸ List.mem_cons_self ..)).between_eq
      rw [← hleave name tag rfl] at hbody
      show (if top.opening.name = name then _ else _) =
        lift (loopOf _ <$> if top.opening.name = name then _ else _)
      split
      · show between source top.opening.tag.stop tag.start >>= _ = _
        rw [hbody]
        rfl
      · rfl

/-- The readers of an engine find what its pipeline finds. -/
theorem dispatch_readersOf (additions : List Addition) {site : Site}
    (hsite : (Cursor.atStart site.source).Reaches site.cursor) :
    dispatch (readersOf additions) (placeOf site) =
      lift ((fun found => (found.1, found.2.offset)) <$>
        recognize (Pipeline.withHelpers additions).recognizers site) := by
  rw [Pipeline.withHelpers, Settings.recognizers_withHelpers]
  exact dispatch_of_follows (follows_readersWith _ _) hsite

/-- A round of a loop is a step of a scan. -/
theorem iterate_loopOf (h : LiesIn source s n) :
    (loopOf s n).iterate (readersOf additions) source =
      match (Pipeline.withHelpers additions).step source s with
      | .finish _ => .ok none
      | .fail _ e => .error (.error e)
      | .advance text start event next =>
        lift ((fun m => some (loopOf next m)) <$> behindTag s n text start event next) := by
  rw [Loop.iterate]
  show findFrom source s.delimiters.opening.toList s.cursor.offset >>= _ = _
  rw [findFrom_of_reaches h.cursor]
  cases hcut : Text.cut? s.delimiters.opening.toList s.cursor.rest with
  | none =>
    have hfree := cut?_eq_none_iff.1 hcut
    rw [Pipeline.step_eq_finish_iff.2 ⟨hfree, rfl⟩]
    rfl
  | some split =>
    obtain ⟨text, rest⟩ := split
    have hrest := cut?_eq_some hcut
    rw [List.append_assoc] at hrest
    -- Between the text and what is behind the opening delimiter lies the place of the tag.
    have hfound := Cursor.reaches_past hrest
    have hsite : (Cursor.atStart source).Reaches (s.siteAfter source text rest).cursor :=
      (h.cursor.trans hfound).trans (Cursor.reaches_past rfl)
    have htext : between source s.cursor.offset (s.cursor.offset + byteSize text) = .ok text :=
      between_of_reaches (d := s.cursor.past text (s.delimiters.opening.toList ++ rest)) h.cursor
        hrest rfl
    show between source s.cursor.offset (s.cursor.offset + byteSize text) >>= _ = _
    rw [htext]
    show dispatch (readersOf additions) (placeOf (s.siteAfter source text rest)) >>= _ = _
    rw [dispatch_readersOf additions hsite]
    cases hread : recognize (Pipeline.withHelpers additions).recognizers
        (s.siteAfter source text rest) with
    -- A tag that cannot be read fails both with the error of the recognizers.
    | error e =>
      rw [Pipeline.step_eq_fail hcut hread]
      rfl
    | ok found =>
      obtain ⟨event, c⟩ := found
      have hstep : (Pipeline.withHelpers additions).step source s =
          .advance text (s.cursor.offset + byteSize text) event
            ⟨c, event.delimitersAfter s.delimiters⟩ :=
        Pipeline.step_eq_advance_iff.2 ⟨rest, hcut, hread, rfl, rfl⟩
      have hopens : ∀ b ∈ n.stack,
          OpensIn source (s.cursor.past text (s.delimiters.opening.toList ++ rest)) b :=
        fun b hb => (h.stack b hb).trans hfound
      rw [hstep]
      show some <$> (loopOf s n).take source (pushText n.tokens text) event c.offset =
        lift ((fun m => some (loopOf ⟨c, event.delimitersAfter s.delimiters⟩ m)) <$>
          behindTag s n text (s.cursor.offset + byteSize text) event
            ⟨c, event.delimitersAfter s.delimiters⟩)
      rw [take_loopOf hopens (tag_of_step hstep).2 (s.cursor.offset + byteSize text)]
      cases behindTag s n text (s.cursor.offset + byteSize text) event
        ⟨c, event.delimitersAfter s.delimiters⟩ with
      | error e => rfl
      | ok m => rfl

/-- A round goes on behind a tag that is read. -/
theorem iterate_of_advance (h : LiesIn source s n)
    (hstep : (Pipeline.withHelpers additions).step source s = .advance text start event next) :
    (loopOf s n).iterate (readersOf additions) source =
      lift ((fun m => some (loopOf next m)) <$> behindTag s n text start event next) := by
  rw [iterate_loopOf h, hstep]

end Rounds

end Offsets

end Stencil
