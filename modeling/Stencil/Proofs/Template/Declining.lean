import Mathlib.Data.List.InsertIdx
import Stencil.Proofs.Template.Pieces
import Stencil.Proofs.Template.Nests
import Stencil.Template.Probe

/-!
# `Stencil.Proofs.Template.Declining`: recognizers that decline leave no trace

A recognizer looks at a tag by moving a cursor over it, and may have moved it anywhere when it
declines the tag. `takeTurns` says what comes of that: recognizers are asked at one cursor, and it is
put back after each that declines. This is what `recognize` does without a cursor to put back
(`recognize_eq_takeTurns`).

A recognizer that declines every tag can therefore stand anywhere in a pipeline. The others see the
cursor where it was, and so does an error that quotes the text up to the cursor
(`takeTurns_insertIdx`). A parse depends on its pipeline through what is read at each tag alone, so
that it is the same with that recognizer and without. `parse_insertAt_of_declines` has both.
-/

set_option autoImplicit false

namespace Stencil

/-- What one recognizer makes of a tag by moving a cursor. It says nothing if it declines the tag,
and the cursor may be anywhere then. -/
abbrev Mover := Site → StateT Cursor (Except ParseError) (Option Event)

/-- A mover declines every tag, wherever it moves the cursor. -/
def Mover.Declines (m : Mover) : Prop :=
  ∀ site cursor, ∃ moved, m site cursor = .ok (none, moved)

/-- Asks movers in turn at one cursor, which is put back after each that declines the tag. -/
def takeTurns (site : Site) : List Mover → StateT Cursor (Except ParseError) Event
  | [] => throw site.unclosed
  | m :: ms => do
    let start ← get
    match ← m site with
    | some event => pure event
    | none => do
      set start
      takeTurns site ms

/-- A recognizer that moves the cursor of a site. -/
def Recognizer.mover (r : Recognizer) : Mover :=
  fun site cursor => r.read { site with cursor }

/-- A recognizer declines every tag, wherever it says that the tag ends. -/
def Recognizer.Declines (r : Recognizer) : Prop :=
  ∀ site, ∃ moved, r.read site = .ok (none, moved)

/-- The pipeline with one more recognizer at an index, if there are so many others. -/
def Pipeline.insertAt (p : Pipeline) (index : Nat) (r : Recognizer) : Pipeline :=
  ⟨p.recognizers.insertIdx index r⟩

section Turns

variable {site : Site} {cursor moved : Cursor} {m : Mover} {ms : List Mover}

/-- A mover that fails ends the turns with its error. -/
theorem takeTurns_of_error {e : ParseError} (h : m site cursor = .error e) :
    takeTurns site (m :: ms) cursor = .error e := by
  show (m site cursor >>= _) = _
  rw [h]
  rfl

/-- A mover that finds an event ends the turns with it, and the cursor stays where it is then. -/
theorem takeTurns_of_some {event : Event} (h : m site cursor = .ok (some event, moved)) :
    takeTurns site (m :: ms) cursor = .ok (event, moved) := by
  show (m site cursor >>= _) = _
  rw [h]
  rfl

/-- The next one is asked where the first one was, wherever that has moved the cursor. -/
theorem takeTurns_of_none (h : m site cursor = .ok (none, moved)) :
    takeTurns site (m :: ms) cursor = takeTurns site ms cursor := by
  show (m site cursor >>= _) = _
  rw [h]
  rfl

/-- One more mover that declines every tag changes neither the event nor the place of the cursor nor
the error. -/
theorem takeTurns_insertIdx (hm : m.Declines) (index : Nat) :
    takeTurns site (ms.insertIdx index m) = takeTurns site ms := by
  funext cursor
  induction ms generalizing index with
  | nil =>
    cases index with
    -- There is nobody left to ask after the new mover.
    | zero =>
      obtain ⟨moved, hmoved⟩ := hm site cursor
      exact takeTurns_of_none hmoved
    | succ index => rfl
  | cons first ms ih =>
    cases index with
    | zero =>
      obtain ⟨moved, hmoved⟩ := hm site cursor
      exact takeTurns_of_none hmoved
    | succ index =>
      -- The new mover stands behind the first one, so that it matters only if that one declines.
      rw [List.insertIdx_succ_cons]
      cases hfirst : first site cursor with
      | error e => rw [takeTurns_of_error hfirst, takeTurns_of_error hfirst]
      | ok result =>
        obtain ⟨event?, moved⟩ := result
        cases event? with
        | none => rw [takeTurns_of_none hfirst, takeTurns_of_none hfirst, ih index]
        | some event => rw [takeTurns_of_some hfirst, takeTurns_of_some hfirst]

end Turns

section Recognizers

variable {r : Recognizer}

/-- A recognizer that declines every tag is a mover that does. -/
theorem Recognizer.Declines.mover (h : r.Declines) : r.mover.Declines :=
  fun site cursor => h { site with cursor }

/-- Recognizers are asked like movers that take turns at the cursor of the site. -/
theorem recognize_eq_takeTurns (rs : List Recognizer) (site : Site) :
    recognize rs site = takeTurns site (rs.map Recognizer.mover) site.cursor := by
  induction rs with
  | nil => rfl
  | cons r rs ih =>
    have hmover : r.mover site site.cursor = r.read site := rfl
    rw [List.map_cons, recognize]
    cases hread : r.read site with
    | error e => exact (takeTurns_of_error (hmover.trans hread)).symm
    | ok result =>
      obtain ⟨event?, moved⟩ := result
      cases event? with
      | none => exact ih.trans (takeTurns_of_none (hmover.trans hread)).symm
      | some event => exact (takeTurns_of_some (hmover.trans hread)).symm

/-- One more recognizer is one more mover in the same place. -/
theorem Pipeline.movers_insertAt (p : Pipeline) (index : Nat) :
    (p.insertAt index r).recognizers.map Recognizer.mover =
      (p.recognizers.map Recognizer.mover).insertIdx index r.mover :=
  List.map_insertIdx ..

end Recognizers

/-! ### Pipelines -/

namespace Pipeline

/-- A list of which the beginning is as long as the index. -/
theorem insertIdx_length_append (before after : List Recognizer) (r : Recognizer) :
    (before ++ after).insertIdx before.length r = before ++ r :: after := by
  induction before with
  | nil => rfl
  | cons first before ih => exact congrArg (first :: ·) ih

/-- What stands at the end has all others in front of it. -/
theorem append_eq_insertAt (p : Pipeline) (r : Recognizer) :
    p.append r = p.insertAt p.recognizers.length r := by
  rw [append, insertAt, List.insertIdx_length_self]

/-- The index of a recognizer that is put in front of another one is how many are in front of it. -/
theorem insertBefore_eq_insertAt (p : Pipeline) (name : String) (r : Recognizer) :
    p.insertBefore name r =
      p.insertAt (p.recognizers.takeWhile (·.name != name)).length r := by
  obtain ⟨after, hafter⟩ := List.takeWhile_prefix (l := p.recognizers) (·.name != name)
  -- The recognizers are split where the name is found, and the new one goes in between.
  rw [insertBefore, insertAt]
  generalize p.recognizers.takeWhile (·.name != name) = before at hafter ⊢
  rw [← hafter, List.drop_left, insertIdx_length_append]

/-- Two pipelines parse alike if they read every tag alike. -/
theorem parse_congr {p q : Pipeline}
    (h : ∀ site, recognize p.recognizers site = recognize q.recognizers site) (source : String)
    (d : Delimiters) : p.parse source d = q.parse source d := by
  rw [parse, parse, scan_congr fun site _ => h site]

end Pipeline

/-- One more recognizer that declines every tag leaves no trace, wherever it stands in a pipeline and
wherever it moves the cursor. At each tag the recognizers do what they do without it, when they are
asked in turn at one cursor: they find the same, leave the cursor at the same place, or fail with the
same error. Every template is parsed as without it. -/
theorem parse_insertAt_of_declines {r : Recognizer} (h : r.Declines) (p : Pipeline) (index : Nat) :
    (∀ site, recognize (p.insertAt index r).recognizers site =
        takeTurns site ((p.insertAt index r).recognizers.map Recognizer.mover) site.cursor ∧
      takeTurns site ((p.insertAt index r).recognizers.map Recognizer.mover) =
        takeTurns site (p.recognizers.map Recognizer.mover)) ∧
    ∀ source d, (p.insertAt index r).parse source d = p.parse source d ∧
      (p.append r).parse source d = p.parse source d ∧
      ∀ name, (p.insertBefore name r).parse source d = p.parse source d := by
  have hturns : ∀ index site,
      takeTurns site ((p.insertAt index r).recognizers.map Recognizer.mover) =
        takeTurns site (p.recognizers.map Recognizer.mover) := by
    intro index site
    rw [p.movers_insertAt]
    exact takeTurns_insertIdx h.mover index
  have hparse : ∀ index source d, (p.insertAt index r).parse source d = p.parse source d := by
    intro index
    refine Pipeline.parse_congr fun site => ?_
    calc recognize (p.insertAt index r).recognizers site
      _ = takeTurns site ((p.insertAt index r).recognizers.map Recognizer.mover) site.cursor :=
        recognize_eq_takeTurns _ site
      _ = takeTurns site (p.recognizers.map Recognizer.mover) site.cursor := by
        rw [hturns index site]
      _ = recognize p.recognizers site := (recognize_eq_takeTurns _ site).symm
  refine ⟨fun site => ⟨recognize_eq_takeTurns _ site, hturns index site⟩, fun source d => ?_⟩
  refine ⟨hparse index source d, ?_, fun name => ?_⟩
  · rw [p.append_eq_insertAt]
    exact hparse _ source d
  · rw [p.insertBefore_eq_insertAt]
    exact hparse _ source d

/-- A recognizer that declines at the end of the template, in front of one that fails at a place
behind its cursor. -/
theorem parse_insertAt_of_decline :
    (Recognizer.decline "extra").Declines ∧
      ((Pipeline.stock.insertBefore "interpolation" .emptyAt).insertAt 6
        (.decline "extra")).parse "é<~3>" ⟨"<", ">"⟩ = .error (.emptyTag 2 "é<~3") := by
  have hdeclines : (Recognizer.decline "extra").Declines := fun site => ⟨_, rfl⟩
  refine ⟨hdeclines, ?_⟩
  rw [((parse_insertAt_of_declines hdeclines _ 6).2 _ _).1]
  -- The template fails at its first tag.
  exact Pipeline.parse_of_fail (show _ = Step.fail "é".toList _ from rfl)

end Stencil
