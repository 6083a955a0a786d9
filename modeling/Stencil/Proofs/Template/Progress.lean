import Stencil.Proofs.Template.OffsetLoop
import Stencil.Proofs.Template.TagMeaning

/-!
# `Stencil.Proofs.Template.Progress`: a parse cuts well and goes forward

A parse that keeps offsets (`Loop`) does what a scan does with the nesting of its pieces. So none of
its cuts fails (`iterate_ne_badSlice`), and what a run ends with is the result of `Pipeline.parse`
(`run_loopOf`).

`Recognizer.Moves` is what makes the rounds go forward: whatever the delimiters are, only a comment
may take up no text behind its opening delimiter. So there is one place where a round stays, which
`Scanner.Stuck` describes: an empty tag of two empty delimiters, marked as a comment
(`Pipeline.step_of_stuck`, `Pipeline.offset_lt_of_not_stuck`). Changed delimiters are never empty, so
that a parse with a delimiter that can be seen ends (`run_ne_unfinished`). The main result is
`goes_forward`.
-/

set_option autoImplicit false

namespace Stencil

open Text

/-! ### Tags that take up text -/

/-- A recognizer whose tags take up some text behind the opening delimiter, whatever the delimiters
are. -/
def Recognizer.Moves (r : Recognizer) : Prop :=
  ∀ {site : Site} {event : Event} {next : Cursor}, r.read site = .ok (some event, next) →
    site.cursor.offset < next.offset

/-- A tag with some text in it ends behind the place where that starts. -/
theorem Site.offset_lt_of_upTo {site : Site} {c found next : Cursor} {ending inside : List Char}
    (h : site.upTo c ending = .ok (inside, found, next)) (hne : inside ≠ []) :
    c.offset < next.offset := by
  obtain ⟨_, hfound, _⟩ := Site.eq_of_upTo h
  have hlt : c.offset < found.offset := by
    rw [hfound]
    exact offset_lt_of_ne_nil hne c.offset
  have hle := (Site.reaches_of_upTo h).2.offset_le
  omega

/-- A tag with a content takes up text, since the content is not blank. -/
theorem Recognizer.moves_ofContent (name : String) (mark : List Char)
    (event : String → Span → Event) : (Recognizer.ofContent name mark event).Moves := by
  intro site e next h
  obtain ⟨start, inside, found, hstart, hfound, hne, _⟩ := exists_of_read_ofContent h
  have hle := (Cursor.reaches_of_after? hstart).offset_le
  have hlt := Site.offset_lt_of_upTo hfound hne
  omega

/-- An interpolation that is not escaped takes up text, since its path is not blank. -/
theorem Recognizer.moves_unescaped : Recognizer.unescaped.Moves := by
  intro site e next h
  obtain ⟨start, ending, inside, found, hopen, hfound, hne, _⟩ := exists_of_read_unescaped h
  have hle := (reaches_of_openUnescaped? hopen).offset_le
  have hlt := Site.offset_lt_of_upTo hfound hne
  omega

/-- A change of delimiters takes up text, for its mark at the least. -/
theorem Recognizer.moves_delimiters : Recognizer.delimiters.Moves := by
  intro site e next h
  obtain ⟨start, inside, found, d, hstart, hfound, _, _⟩ := exists_of_read_delimiters h
  have hmark := (Cursor.after?_singleton_eq_some hstart).2
  have hpos := '='.utf8Size_pos
  obtain ⟨hinside, hclosing⟩ := Site.reaches_of_upTo hfound
  have hle := (hinside.trans hclosing).offset_le
  omega

section Helpers

variable {registry : Registry}

/-- A call has the name of a helper in it. -/
theorem Site.offset_lt_of_call {site : Site} {start : Cursor} {call : CallTag}
    (hname : registry.get? "" = none) (h : site.call registry start = .ok (some call)) :
    start.offset < call.next.offset := by
  unfold Site.call at h
  simp only at h
  split at h
  · simp at h
  · rename_i helper hhelper
    -- No helper has an empty name.
    have hne : (start.skipBlank.name site.closing).1 ≠ [] := by
      intro hnil
      rw [hnil] at hhelper
      exact absurd (hname.symm.trans hhelper) (by simp)
    have hstart := (Cursor.reaches_skipBlank start).offset_le
    have hstop : start.skipBlank.offset < (start.skipBlank.name site.closing).2.offset :=
      offset_lt_of_ne_nil hne _
    obtain ⟨⟨inside, found, next⟩, hfound, h⟩ := exists_ok_of_bind h
    obtain ⟨hinside, hclosing⟩ := Site.reaches_of_upTo hfound
    have hrest := ((Cursor.reaches_skipBlank (start.skipBlank.name site.closing).2).trans
      (hinside.trans hclosing)).offset_le
    -- The call ends where the closing delimiter does, with arguments or without.
    have hnext : call.next = next := by
      simp only at h
      split at h
      · simp only [Except.ok.injEq, Option.some.injEq] at h
        rw [← h]
      · obtain ⟨args, _, h⟩ := exists_ok_of_bind h
        simp only [Except.ok.injEq, Option.some.injEq] at h
        rw [← h]
    rw [hnext]
    omega

/-- A call takes up text, if no helper has an empty name. -/
theorem Recognizer.moves_helper (hname : registry.get? "" = none) :
    (Recognizer.helper registry).Moves := by
  intro site e next h
  obtain ⟨call, hcall, rfl, _⟩ := exists_of_read_helper h
  exact Site.offset_lt_of_call hname hcall

/-- The open tag of a block with a helper takes up text, if no helper has an empty name. -/
theorem Recognizer.moves_helperBlock (name : String) (mark : List Char) (kind : BlockKind)
    (hname : registry.get? "" = none) :
    (Recognizer.helperBlock name mark kind registry).Moves := by
  intro site e next h
  obtain ⟨start, call, hstart, hcall, rfl, _⟩ := exists_of_read_helperBlock h
  have hle := (Cursor.reaches_of_after? hstart).offset_le
  have hlt := Site.offset_lt_of_call hname hcall
  omega

end Helpers

/-- Only a comment may take up no text behind its opening delimiter. -/
theorem Recognizer.moves_of_mem {sections inlines : List Registry}
    (hsections : ∀ r ∈ sections, r.get? "" = none) (hinlines : ∀ r ∈ inlines, r.get? "" = none)
    {r : Recognizer} (hr : r ∈ recognizersWith sections inlines) : r = .comment ∨ r.Moves := by
  simp only [recognizersWith, sectionRecognizers, invertedRecognizers, unmarkedRecognizers,
    List.mem_append, List.mem_map, List.mem_cons, List.not_mem_nil, or_false] at hr
  rcases hr with ((((rfl | rfl) | (⟨registry, hmem, rfl⟩ | rfl)) |
    (⟨registry, hmem, rfl⟩ | rfl)) | rfl | rfl) | (⟨registry, hmem, rfl⟩ | rfl)
  · exact .inl rfl
  · exact .inr moves_delimiters
  · exact .inr (moves_helperBlock _ _ _ (hsections registry hmem))
  · exact .inr (moves_ofContent _ _ _)
  · exact .inr (moves_helperBlock _ _ _ (hsections registry hmem))
  · exact .inr (moves_ofContent _ _ _)
  · exact .inr (moves_ofContent _ _ _)
  · exact .inr moves_unescaped
  · exact .inr (moves_helper (hinlines registry hmem))
  · exact .inr (moves_ofContent _ _ _)

/-! ### Steps that go forward -/

/-- A scan is between two empty delimiters, and the mark of a comment follows. -/
def Scanner.Stuck (s : Scanner) : Prop :=
  s.delimiters.opening = "" ∧ s.delimiters.closing = "" ∧ ∃ rest, s.cursor.rest = '!' :: rest

section Forward

variable {additions : List Addition} {source text : List Char} {s next : Scanner} {start : Nat}
  {event : Event}

/-- An empty comment between empty delimiters leaves a scan where it is. -/
theorem Pipeline.step_of_stuck (hs : s.Stuck) :
    (Pipeline.withHelpers additions).step source s = .advance [] s.cursor.offset .skip s := by
  obtain ⟨hopening, hclosing, rest, hrest⟩ := hs
  have hcut : Text.cut? s.delimiters.opening.toList s.cursor.rest = some ([], s.cursor.rest) := by
    rw [hopening]
    exact cut?_eq_some_iff.2 ⟨rfl, StartsFirst.nil _⟩
  have hsite : (s.siteAfter source [] s.cursor.rest).cursor = s.cursor := by
    rw [Scanner.siteAfter, hopening]
    rfl
  have hends : (s.siteAfter source [] s.cursor.rest).Ends [] s.cursor := by
    constructor
    · rw [hsite, Site.closing]
      show s.cursor.rest = [] ++ s.delimiters.closing.toList ++ s.cursor.rest
      rw [hclosing]
      rfl
    · rw [hsite, Site.closing]
      show s.cursor.offset = s.cursor.offset + byteSize ([] ++ s.delimiters.closing.toList)
      rw [hclosing]
      rfl
  have hmark : (s.siteAfter source [] s.cursor.rest).cursor.rest.head? = some '!' := by
    rw [hsite, hrest]
    rfl
  have hread : recognize (Pipeline.withHelpers additions).recognizers
      (s.siteAfter source [] s.cursor.rest) = .ok (.skip, s.cursor) := by
    rw [Pipeline.withHelpers, Settings.recognizers_withHelpers]
    exact (recognize_of_comment hmark).2 ⟨[], hends, StartsFirst.nil _, rfl⟩
  exact Pipeline.step_eq_advance_iff.2 ⟨s.cursor.rest, hcut, hread, rfl, rfl⟩

/-- Everywhere else a step of a scan goes forward. -/
theorem Pipeline.offset_lt_of_not_stuck
    (hmade : ∀ a ∈ additions, ∃ helpers, Registry.ofList helpers = .ok a.registry)
    (hs : ¬ s.Stuck)
    (h : (Pipeline.withHelpers additions).step source s = .advance text start event next) :
    s.cursor.offset < next.cursor.offset := by
  -- Both delimiters are empty, or one of them takes up text.
  by_cases hvisible : s.delimiters.Visible
  · exact (Pipeline.offset_lt_of_step hvisible h).1
  have hopening : s.delimiters.opening = "" := by
    by_contra hne
    exact hvisible (.inl hne)
  have hclosing : s.delimiters.closing = "" := by
    by_contra hne
    exact hvisible (.inr hne)
  obtain ⟨rest, hcut, hread, _, _⟩ := Pipeline.step_eq_advance_iff.1 h
  -- The tag starts right here, and no mark of a comment does.
  obtain ⟨hrest, hfirst⟩ := cut?_eq_some_iff.1 hcut
  rw [hopening] at hrest hfirst
  obtain rfl := hfirst.eq_nil_of_nil
  have hmark : (s.siteAfter source [] rest).cursor.rest.head? ≠ some '!' := by
    intro hhead
    obtain ⟨cs, hcs⟩ := List.head?_eq_some_iff.1 hhead
    have hcs' : rest = '!' :: cs := hcs
    exact hs ⟨hopening, hclosing, cs, by rw [hrest, hcs']; rfl⟩
  obtain ⟨hsections, hinlines⟩ := Addition.get?_empty_of_made hmade
  rw [Pipeline.withHelpers, Settings.recognizers_withHelpers] at hread
  obtain ⟨r, hmem, hread⟩ := exists_read_of_recognize hread
  rcases Recognizer.moves_of_mem hsections hinlines hmem with rfl | hmoves
  · rw [Recognizer.comment_declines hmark] at hread
    simp at hread
  · have hlt := hmoves hread
    simp only [Scanner.siteAfter] at hlt
    omega

end Forward

namespace Offsets

/-! ### Rounds that go forward -/

section Forward

variable {additions : List Addition} {source : List Char} {s : Scanner} {n : Nesting}

/-- A loop is stuck where its scan is. -/
theorem stuck_loopOf (h : LiesIn source s n) :
    (loopOf s n).Stuck source ↔ s.Stuck := by
  rw [Loop.Stuck, Scanner.Stuck]
  show s.delimiters.opening = "" ∧ s.delimiters.closing = "" ∧
    (∃ rest, textFrom source s.cursor.offset = .ok ('!' :: rest)) ↔ _
  rw [textFrom_of_reaches h.cursor]
  simp only [Except.ok.injEq]

/-- A round that goes on is a step of a scan. -/
theorem exists_step_of_iterate {loop : Loop} (h : LiesIn source s n)
    (hround : (loopOf s n).iterate (readersOf additions) source = .ok (some loop)) :
    ∃ text start event next m,
      (Pipeline.withHelpers additions).step source s = .advance text start event next ∧
        LiesIn source next m ∧ loop = loopOf next m := by
  cases hstep : (Pipeline.withHelpers additions).step source s with
  | finish text => simp [iterate_loopOf h, hstep] at hround
  | fail text e => simp [iterate_loopOf h, hstep] at hround
  | advance text start event next =>
    rw [iterate_of_advance h hstep] at hround
    cases hadd : behindTag s n text start event next with
    | error e =>
      rw [hadd] at hround
      cases hround
    | ok m =>
      rw [hadd] at hround
      cases hround
      exact ⟨text, start, event, next, m, rfl, h.of_step hstep hadd, rfl⟩

/-- A parse comes to loops that stand where a scan does. -/
theorem exists_loopOf {d : Delimiters} {loop : Loop}
    (h : Loop.ComesTo (readersOf additions) source d loop) :
    ∃ s n, loop = loopOf s n ∧ LiesIn source s n := by
  induction h with
  | start => exact ⟨⟨.atStart source, d⟩, .start, rfl, liesIn_start source d⟩
  | next _ hround ih =>
    obtain ⟨s, n, rfl, hlies⟩ := ih
    obtain ⟨_, _, _, next, m, _, hnext, rfl⟩ := exists_step_of_iterate hlies hround
    exact ⟨next, m, rfl, hnext⟩

/-- What fails with an error of the template fails for no other reason. -/
theorem lift_ne_error {α : Type} {halt : Halt} (hhalt : ∀ e, halt ≠ .error e)
    (x : Except ParseError α) : lift x ≠ .error halt := by
  cases x with
  | error e =>
    intro h
    exact hhalt e (Except.error.inj h).symm
  | ok a => simp [lift, Except.mapError]

/-- No round cuts the template where no character starts. -/
theorem iterate_ne_badSlice (h : LiesIn source s n) (offset : Nat) :
    (loopOf s n).iterate (readersOf additions) source ≠ .error (.badSlice offset) := by
  rw [iterate_loopOf h]
  split
  · simp
  · simp
  · exact lift_ne_error (by simp) _

/-- A round that is stuck gives back the loop that it was given. -/
theorem iterate_of_stuck (h : LiesIn source s n) (hs : s.Stuck) :
    (loopOf s n).iterate (readersOf additions) source = .ok (some (loopOf s n)) := by
  rw [iterate_of_advance h (Pipeline.step_of_stuck hs)]
  rfl

/-! ### Runs -/

/-- The tokens of a template with some open blocks in front of what a scan finds. -/
def outcome (n : Nesting) (found : List Piece × Option ParseError) :
    Except ParseError (List Token) := do
  let m ← found.1.foldlM Nesting.add n
  match found.2 with
  | some e => .error e
  | none => m.finish

/-- A text is the last that a scan finds. -/
theorem outcome_textPieces (s : Scanner) (n : Nesting) (text : List Char)
    (failure : Option ParseError) :
    outcome n (s.textPieces text, failure) =
      match failure with
      | some e => .error e
      | none => Nesting.finish ⟨pushText n.tokens text, n.stack⟩ := by
  rw [outcome, foldlM_add_textPieces]
  rfl

/-- A text and a tag stand in front of what a scan finds. -/
theorem outcome_cons (s next : Scanner) (n : Nesting) (text : List Char) (start : Nat)
    (event : Event) (found : List Piece × Option ParseError) :
    outcome n (s.textPieces text ++ ⟨event, start, next.cursor, s.delimiters⟩ :: found.1,
      found.2) = behindTag s n text start event next >>= fun m => outcome m found := by
  rw [outcome, List.foldlM_append, foldlM_add_textPieces, behindTag]
  show (_ :: found.1).foldlM Nesting.add ⟨pushText n.tokens text, n.stack⟩ >>= _ = _
  rw [List.foldlM_cons]
  cases Nesting.add ⟨pushText n.tokens text, n.stack⟩
    ⟨event, start, next.cursor, s.delimiters⟩ with
  | error e => rfl
  | ok m => rfl

/-- A loop behind the last tag has the tokens of its nesting, with the rest of the template. -/
theorem finish_loopOf (h : LiesIn source s n) :
    (loopOf s n).finish source =
      lift (Nesting.finish ⟨pushText n.tokens s.cursor.rest, n.stack⟩) := by
  rw [Loop.finish]
  show textFrom source s.cursor.offset >>= _ = _
  rw [textFrom_of_reaches h.cursor]
  obtain ⟨tokens, stack⟩ := n
  cases stack with
  | nil => rfl
  | cons top stack => rfl

/-- A run gives what the pieces of a scan nest into, unless it has too few rounds. -/
theorem run_loopOf
    (hmade : ∀ a ∈ additions, ∃ helpers, Registry.ofList helpers = .ok a.registry)
    (h : LiesIn source s n) (rounds : Nat) :
    (loopOf s n).run (readersOf additions) source rounds = .error .unfinished ∨
      (loopOf s n).run (readersOf additions) source rounds =
        lift (outcome n ((Pipeline.withHelpers additions).scan source s)) := by
  induction rounds generalizing s n with
  | zero => exact .inl rfl
  | succ rounds ih =>
    by_cases hs : s.Stuck
    · -- This round changes nothing, so that the others start where it did.
      rw [Loop.run, iterate_of_stuck h hs]
      exact ih h
    cases hstep : (Pipeline.withHelpers additions).step source s with
    | finish text =>
      obtain ⟨_, rfl⟩ := Pipeline.step_eq_finish_iff.1 hstep
      rw [Loop.run, iterate_loopOf h, hstep, Pipeline.scan_of_finish hstep, outcome_textPieces]
      exact .inr (finish_loopOf h)
    | fail text e =>
      rw [Loop.run, iterate_loopOf h, hstep, Pipeline.scan_of_fail hstep, outcome_textPieces]
      exact .inr rfl
    | advance text start event next =>
      have hlt := Pipeline.offset_lt_of_not_stuck hmade hs hstep
      rw [Loop.run, iterate_of_advance h hstep, Pipeline.scan_of_advance hstep hlt, outcome_cons]
      cases hadd : behindTag s n text start event next with
      | error e => exact .inr rfl
      | ok m => exact ih (h.of_step hstep hadd)

/-- With a delimiter that can be seen, a run ends after as many rounds as there are bytes left, and
one more. -/
theorem run_ne_unfinished (hs : s.delimiters.Visible) (h : LiesIn source s n) {rounds : Nat}
    (hrounds : byteSize s.cursor.rest < rounds) :
    (loopOf s n).run (readersOf additions) source rounds ≠ .error .unfinished := by
  induction rounds generalizing s n with
  | zero => omega
  | succ rounds ih =>
    rw [Loop.run]
    cases hstep : (Pipeline.withHelpers additions).step source s with
    | finish text =>
      rw [iterate_loopOf h, hstep]
      show (loopOf s n).finish source ≠ _
      rw [finish_loopOf h]
      exact lift_ne_error (by simp) _
    | fail text e =>
      rw [iterate_loopOf h, hstep]
      intro hrun
      cases hrun
    | advance text start event next =>
      rw [iterate_of_advance h hstep]
      cases hadd : behindTag s n text start event next with
      | error e =>
        intro hrun
        cases hrun
      | ok m =>
        -- Less text is left, since the two offsets count the text of one template.
        obtain ⟨hlt, hvisible⟩ := Pipeline.offset_lt_of_step hs hstep
        have hnext := h.of_step hstep hadd
        have hsize := byteSize_of_reaches h.cursor
        have hsizeNext := byteSize_of_reaches hnext.cursor
        exact ih hvisible hnext (by omega)

end Forward

/-! ### The parse -/

/-- A parse of an engine with helpers, started with any delimiters, cuts its template at places
where characters start. Each round that goes on ends at such a place, which lies behind the one
before it, unless both delimiters are empty and the mark of a comment follows; then nothing changes.
A parse that ends has the tokens of the template, and one that starts with a delimiter that can be
seen ends after as many rounds as the template has bytes, and one more. -/
theorem goes_forward {additions : List Addition}
    (hmade : ∀ a ∈ additions, ∃ helpers, Registry.ofList helpers = .ok a.registry)
    (source : String) (d : Delimiters) :
    (∀ loop, Loop.ComesTo (readersOf additions) source.toList d loop →
      IsBoundary source.toList loop.cursor ∧
      (∀ offset, loop.iterate (readersOf additions) source.toList ≠ .error (.badSlice offset)) ∧
      (loop.Stuck source.toList →
        loop.iterate (readersOf additions) source.toList = .ok (some loop)) ∧
      (¬ loop.Stuck source.toList → ∀ next,
        loop.iterate (readersOf additions) source.toList = .ok (some next) →
          loop.cursor < next.cursor ∧ next.cursor ≤ byteSize source.toList ∧
            IsBoundary source.toList next.cursor)) ∧
    (∀ rounds,
      (Loop.start d).run (readersOf additions) source.toList rounds = .error .unfinished ∨
        (Loop.start d).run (readersOf additions) source.toList rounds =
          lift ((Pipeline.withHelpers additions).parse source d)) ∧
    (d.opening ≠ "" ∨ d.closing ≠ "" →
      (Loop.start d).run (readersOf additions) source.toList (byteSize source.toList + 1) =
        lift ((Pipeline.withHelpers additions).parse source d)) := by
  -- Each part is about the scan that the loop stands for.
  have hstart := liesIn_start source.toList d
  have hrun : ∀ rounds,
      (Loop.start d).run (readersOf additions) source.toList rounds = .error .unfinished ∨
        (Loop.start d).run (readersOf additions) source.toList rounds =
          lift ((Pipeline.withHelpers additions).parse source d) :=
    fun rounds => run_loopOf hmade hstart rounds
  refine ⟨?_, hrun, ?_⟩
  · intro loop hcomes
    obtain ⟨s, n, rfl, hlies⟩ := exists_loopOf hcomes
    rw [stuck_loopOf hlies]
    refine ⟨isBoundary_of_reaches hlies.cursor, iterate_ne_badSlice hlies,
      iterate_of_stuck hlies, ?_⟩
    intro hs next hround
    obtain ⟨_, _, _, behind, m, hstep, hbehind, rfl⟩ := exists_step_of_iterate hlies hround
    have hboundary : IsBoundary source.toList behind.cursor.offset :=
      isBoundary_of_reaches hbehind.cursor
    exact ⟨Pipeline.offset_lt_of_not_stuck hmade hs hstep, hboundary.le, hboundary⟩
  · intro hd
    have hended : (Loop.start d).run (readersOf additions) source.toList
        (byteSize source.toList + 1) ≠ .error .unfinished :=
      run_ne_unfinished (s := ⟨.atStart source.toList, d⟩) hd hstart (Nat.lt_succ_self _)
    exact (hrun _).resolve_left hended

/-- Two parses of an engine with a helper and an empty opening delimiter. With both delimiters
empty, a round at the mark of a comment changes nothing. With a closing delimiter of two bytes, a
change of delimiters and a call are read to the end. -/
theorem goes_forward_of_hidden_delimiters :
    (Loop.start ⟨"", ""⟩).iterate (readersOf [.inline .always]) "!é".toList =
      .ok (some (Loop.start ⟨"", ""⟩)) ∧
    (Loop.start ⟨"", "é"⟩).run (readersOf [.inline .always]) "=< >=é<always>ü".toList 18 =
      .ok [.call ⟨"always", [], ⟨7, 15⟩, ⟨8, 14⟩⟩, .text "ü"] := by
  have hmade : ∀ a ∈ [Addition.inline .always],
      ∃ helpers, Registry.ofList helpers = .ok a.registry := by
    have halways : Registry.ofList [("always", ⟨0, [], fun _ _ store => (.bool true, store)⟩)] =
        .ok .always := rfl
    intro a ha
    rw [List.mem_singleton.1 ha]
    exact ⟨_, halways⟩
  have hparse : (Pipeline.withHelpers [.inline .always]).parse "=< >=é<always>ü" ⟨"", "é"⟩ =
      .ok [.call ⟨"always", [], ⟨7, 15⟩, ⟨8, 14⟩⟩, .text "ü"] :=
    Pipeline.parse_of_parseWithin (n := 8) rfl
  have hstuck : (Loop.start ⟨"", ""⟩).Stuck "!é".toList := ⟨rfl, rfl, ['é'], by decide⟩
  constructor
  · obtain ⟨_, _, hstays, _⟩ := (goes_forward hmade "!é" ⟨"", ""⟩).1 _ .start
    exact hstays hstuck
  · have hends := (goes_forward hmade "=< >=é<always>ü" ⟨"", "é"⟩).2.2 (.inr (by decide))
    rw [hparse] at hends
    exact hends

end Offsets

end Stencil
