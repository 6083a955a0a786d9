import Stencil.Engine
import Stencil.Proofs.Template.Nests

/-!
# `Stencil.Proofs.Render.Streaming`: a streamed render writes the text of a template

The text of a template and its streamed form are computed by two families of functions. A streamed
computation follows a direct one (`Stream.Follows`) if it does to any sink what one write of all its
output at once would do: if that write succeeds, so does every part of it, and result and store are
those of the direct computation. If not, the sink has taken as much as it can, and the computation
fails with the error of the sink.

`Stream.follows_tokens` says this of whole templates, by one induction on the budget, and
`exists_emitted` what it comes to for sinks of any size.
-/

set_option autoImplicit false

namespace Stencil

open Text

/-! ### Writing piece by piece -/

namespace Sink

/-- Nothing to write leaves a sink as it is. -/
theorem write_nil (s : Sink) : s.write [] = (.ok (), s) := by
  obtain ⟨reversed, room, flushFails⟩ := s
  cases room with
  | none => rfl
  | some room => simp [write]

/-- A write does not change whether a flush fails. -/
theorem write_flushFails (s : Sink) (bs : List UInt8) :
    (s.write bs).2.flushFails = s.flushFails := by
  unfold write
  split
  · rfl
  · split
    · rfl
    · rfl

/-- A write that fits into a sink succeeds. -/
theorem write_of_le {s : Sink} {room : Nat} {bs : List UInt8} (hroom : s.room = some room)
    (h : bs.length ≤ room) : (s.write bs).1 = .ok () := by
  simp [write, hroom, h]

/-- A write that does not fit into a sink fails because the sink is full. -/
theorem write_of_lt {s : Sink} {room : Nat} {bs : List UInt8} (hroom : s.room = some room)
    (h : room < bs.length) : (s.write bs).1 = .error .full := by
  have hnot : ¬ bs.length ≤ room := by omega
  simp [write, hroom, hnot]

/-- After a write that succeeds, what follows is written behind it. -/
theorem write_append_of_ok {s s' : Sink} {first : List UInt8} (h : s.write first = (.ok (), s'))
    (second : List UInt8) : s.write (first ++ second) = s'.write second := by
  obtain ⟨reversed, room, flushFails⟩ := s
  cases room with
  | none =>
    simp only [write, Prod.mk.injEq, true_and] at h
    subst h
    simp [write]
  | some room =>
    simp only [write] at h
    split at h
    · rename_i hle
      simp only [Prod.mk.injEq, true_and] at h
      subst h
      -- The second part fits into what the first one has left exactly when both fit together.
      by_cases hboth : first.length + second.length ≤ room
      · have hsecond : second.length ≤ room - first.length := by omega
        simp only [write, List.length_append, hboth, hsecond, if_true, List.reverse_append,
          List.append_assoc, Nat.sub_sub]
      · have hsecond : ¬ second.length ≤ room - first.length := by omega
        simp only [write, List.length_append, hboth, hsecond, if_false, List.take_append,
          List.take_of_length_le hle, List.reverse_append, List.append_assoc]
    · simp at h

/-- After a write that fails, nothing more is written. -/
theorem write_append_of_error {s s' : Sink} {first : List UInt8} {e : SinkError}
    (h : s.write first = (.error e, s')) (second : List UInt8) :
    s.write (first ++ second) = (.error e, s') := by
  obtain ⟨reversed, room, flushFails⟩ := s
  cases room with
  | none => simp [write] at h
  | some room =>
    simp only [write] at h
    split at h
    · simp at h
    · rename_i hlt
      -- What does not fit alone does not fit with more behind it, and the sink takes the same of
      -- both.
      have hboth : ¬ (first ++ second).length ≤ room := by
        rw [List.length_append]
        omega
      have htake : (first ++ second).take room = first.take room :=
        List.take_append_of_le_length (by omega)
      simp only [write, hboth, if_false, htake]
      exact h

end Sink

/-! ### Computations one after the other -/

section Bind

variable {ε σ α β : Type} {x : ExceptT ε (StateT σ Option) α}
  {f : α → ExceptT ε (StateT σ Option) β} {s s' : σ}

/-- If the first part has no budget left, neither has the whole. -/
theorem bind_of_none (h : x s = none) : (x >>= f) s = none := by
  show (x s).bind _ = _
  rw [h]
  rfl

/-- After a first part that succeeds, the second one starts from its state. -/
theorem bind_of_ok {a : α} (h : x s = some (.ok a, s')) : (x >>= f) s = f a s' := by
  show (x s).bind _ = _
  rw [h]
  rfl

/-- After a first part that fails, there is no second one. -/
theorem bind_of_error {e : ε} (h : x s = some (.error e, s')) :
    (x >>= f) s = some (.error e, s') := by
  show (x s).bind _ = _
  rw [h]
  rfl

/-- A computation that is followed by another one fails, or the other one starts where it ends. -/
theorem cases_of_bind {result : Except ε β} (h : (x >>= f) s = some (result, s')) :
    (∃ e, x s = some (.error e, s') ∧ result = .error e) ∨
      ∃ a mid, x s = some (.ok a, mid) ∧ f a mid = some (result, s') := by
  cases hx : x s with
  | none =>
    have hnone : (x >>= f) s = none := bind_of_none hx
    simp [hnone] at h
  | some first =>
    obtain ⟨first, mid⟩ := first
    cases first with
    | error e =>
      rw [bind_of_error hx] at h
      obtain ⟨rfl, rfl⟩ := Prod.mk.inj (Option.some.inj h)
      exact .inl ⟨e, rfl, rfl⟩
    | ok a =>
      rw [bind_of_ok hx] at h
      exact .inr ⟨a, mid, rfl, h⟩

/-- A run whose result is read off has that result, and ends in some state. -/
theorem exists_of_map_toOption {run : Option (Except ε α × σ)} {a : α}
    (h : run.map (·.1.toOption) = some (some a)) : ∃ after, run = some (.ok a, after) := by
  obtain ⟨⟨result, after⟩, rfl, hresult⟩ := Option.map_eq_some_iff.1 h
  cases result with
  | error e => cases hresult
  | ok found =>
    obtain rfl : found = a := Option.some.inj hresult
    exact ⟨after, rfl⟩

end Bind

/-! ### Following a direct computation -/

/-- The result of a direct computation as one of a streamed computation. -/
def streamedResult {α : Type} (result : Except ParseError α) : Except Error Unit :=
  (result.map fun _ => ()).mapError .parse

namespace Stream

/-- A streamed computation that writes all of some output, or as much of it as the sink takes. The
sink passes on what it has taken. -/
def Emits (e : Stream Unit) (store : Store) (emitted : List UInt8) (result : Except Error Unit)
    (after : Store) : Prop :=
  ∀ sink : Sink, sink.flushFails = false →
    (∀ sink', sink.write emitted = (.ok (), sink') →
      e.runOn ⟨store, sink⟩ = some (result, ⟨after, sink'⟩)) ∧
    (∀ error sink', sink.write emitted = (.error error, sink') →
      ∃ stopped, e.runOn ⟨store, sink⟩ = some (.error (.sink error), ⟨stopped, sink'⟩))

/-- A streamed computation that does to a sink what one write of all its output would do, with the
result and the store of a direct computation. The output is the text of that, if it has one. -/
def Follows (e : Stream Unit) (d : Direct (List Char)) : Prop :=
  ∀ {store after : Store} {result : Except ParseError (List Char)},
    d.runOn store = some (result, after) →
    ∃ emitted, (∀ text, result = .ok text → emitted = encode text) ∧
      e.Emits store emitted (streamedResult result) after

/-! ### One lemma for each primitive -/

/-- A computation that writes nothing. -/
theorem emits_nil {e : Stream Unit} {store after : Store} {result : Except Error Unit}
    (h : ∀ sink : Sink, sink.flushFails = false →
      e.runOn ⟨store, sink⟩ = some (result, ⟨after, sink⟩)) :
    e.Emits store [] result after := by
  intro sink hflush
  rw [Sink.write_nil]
  constructor
  · intro sink' hwrite
    obtain ⟨_, rfl⟩ := Prod.mk.inj hwrite
    exact h sink hflush
  · intro error sink' hwrite
    simp at hwrite

/-- Everything follows a computation that does not end. -/
theorem follows_exhausted {e : Stream Unit} : e.Follows Direct.exhausted := by
  intro store after result h
  simp [Direct.exhausted, Direct.runOn] at h

/-- Without a text, nothing is written. -/
theorem follows_pure : Follows (pure ()) (pure []) := by
  intro store after result h
  obtain ⟨rfl, rfl⟩ := Prod.mk.inj (Option.some.inj h)
  refine ⟨[], ?_, emits_nil fun _ _ => rfl⟩
  intro text htext
  obtain rfl := Except.ok.inj htext
  rfl

/-- A failure writes nothing. -/
theorem follows_throw (error : ParseError) : Follows (throw (.parse error)) (throw error) := by
  intro store after result h
  obtain ⟨rfl, rfl⟩ := Prod.mk.inj (Option.some.inj h)
  exact ⟨[], by simp, emits_nil fun _ _ => rfl⟩

/-- A literal text is written in one go. -/
theorem follows_write (text : String) : Follows (write text) (pure text.toList) := by
  intro store after result h
  obtain ⟨rfl, rfl⟩ := Prod.mk.inj (Option.some.inj h)
  refine ⟨encode text.toList, ?_, ?_⟩
  · intro text' htext
    rw [Except.ok.inj htext]
  · intro sink _
    constructor
    -- The two cases are those of the one write that there is.
    · intro sink' hwrite
      simp only [runOn, write, hwrite]
      rfl
    · intro error sink' hwrite
      refine ⟨store, ?_⟩
      simp only [runOn, write, hwrite]
      rfl

/-- A change of the store comes before both computations. -/
theorem follows_step {α : Type} {f : Store → α × Store} {e : α → Stream Unit}
    {d : α → Direct (List Char)} (h : ∀ a, (e a).Follows (d a)) :
    Follows (step f >>= e) (Direct.step f >>= d) := by
  intro store after result hrun
  have hd : (d (f store).1).runOn (f store).2 = some (result, after) := hrun
  obtain ⟨emitted, htext, hemits⟩ := h (f store).1 hd
  exact ⟨emitted, htext, hemits⟩

/-- A change of the store comes after both computations, also when they have failed. -/
theorem follows_thenAlways {e : Stream Unit} {d : Direct (List Char)} (h : e.Follows d)
    (f : Store → Store) : Follows (thenAlways e f) (Direct.thenAlways d f) := by
  intro store after result hrun
  obtain ⟨⟨result', after'⟩, hd, heq⟩ := Option.map_eq_some_iff.1 hrun
  obtain ⟨rfl, rfl⟩ := Prod.mk.inj heq
  obtain ⟨emitted, htext, hemits⟩ := h hd
  refine ⟨emitted, htext, fun sink hflush => ⟨?_, ?_⟩⟩
  · intro sink' hwrite
    have hrun' : e ⟨store, sink⟩ = some (streamedResult result', ⟨after', sink'⟩) :=
      (hemits sink hflush).1 sink' hwrite
    simp only [runOn, thenAlways, hrun', Option.map_some]
  · intro error sink' hwrite
    obtain ⟨stopped, hrun'⟩ := (hemits sink hflush).2 error sink' hwrite
    have hrun' : e ⟨store, sink⟩ = some (.error (.sink error), ⟨stopped, sink'⟩) := hrun'
    refine ⟨f stopped, ?_⟩
    simp only [runOn, thenAlways, hrun', Option.map_some]

/-- What is emitted before a computation that emits more. -/
theorem emits_append {e e' : Stream Unit} {store mid after : Store} {first second : List UInt8}
    {result : Except Error Unit} (h : e.Emits store first (.ok ()) mid)
    (h' : e'.Emits mid second result after) :
    Emits (do e; e') store (first ++ second) result after := by
  intro sink hflush
  -- The first output decides: if it does not fit then the second one is never written.
  cases hfirst : sink.write first with
  | mk answer sink₁ =>
    cases answer with
    | ok _ =>
      have hrun : e ⟨store, sink⟩ = some (.ok (), ⟨mid, sink₁⟩) :=
        (h sink hflush).1 sink₁ hfirst
      have hflush₁ : sink₁.flushFails = false := by
        have hsame := sink.write_flushFails first
        rw [hfirst] at hsame
        exact hsame.trans hflush
      rw [Sink.write_append_of_ok hfirst]
      have hbind : runOn (do e; e') ⟨store, sink⟩ = e'.runOn ⟨mid, sink₁⟩ := bind_of_ok hrun
      rw [hbind]
      exact h' sink₁ hflush₁
    | error error =>
      obtain ⟨stopped, hrun⟩ := (h sink hflush).2 error sink₁ hfirst
      have hrun : e ⟨store, sink⟩ = some (.error (.sink error), ⟨stopped, sink₁⟩) := hrun
      rw [Sink.write_append_of_error hfirst]
      constructor
      · intro sink' hwrite
        simp at hwrite
      · intro error' sink' hwrite
        obtain ⟨herror, rfl⟩ := Prod.mk.inj hwrite
        obtain rfl := Except.error.inj herror
        exact ⟨stopped, bind_of_error hrun⟩

/-- A computation that fails by itself has emitted what it emits with another one behind it. -/
theorem emits_of_error {e e' : Stream Unit} {store after : Store} {emitted : List UInt8}
    {error : Error} (h : e.Emits store emitted (.error error) after) :
    Emits (do e; e') store emitted (.error error) after := by
  intro sink hflush
  constructor
  · intro sink' hwrite
    have hrun : e ⟨store, sink⟩ = some (.error error, ⟨after, sink'⟩) :=
      (h sink hflush).1 sink' hwrite
    exact bind_of_error hrun
  · intro error' sink' hwrite
    obtain ⟨stopped, hrun⟩ := (h sink hflush).2 error' sink' hwrite
    have hrun : e ⟨store, sink⟩ = some (.error (.sink error'), ⟨stopped, sink'⟩) := hrun
    exact ⟨stopped, bind_of_error hrun⟩

/-- Computations one after the other write their output one after the other. -/
theorem follows_append {e e' : Stream Unit} {d d' : Direct (List Char)} (h : e.Follows d)
    (h' : e'.Follows d') :
    Follows (do e; e') (do
      let head ← d
      let tail ← d'
      pure (head ++ tail)) := by
  intro store after result hrun
  -- The direct computation fails in its first part, in its second one, or not at all.
  rcases cases_of_bind hrun with ⟨error, hd, rfl⟩ | ⟨head, mid, hd, hrun⟩
  · obtain ⟨emitted, _, hemits⟩ := h hd
    exact ⟨emitted, by simp, emits_of_error hemits⟩
  · obtain ⟨first, hfirst, hemits⟩ := h hd
    obtain rfl := hfirst head rfl
    rcases cases_of_bind hrun with ⟨error, hd', rfl⟩ | ⟨tail, mid', hd', hrun⟩
    · obtain ⟨second, _, hemits'⟩ := h' hd'
      exact ⟨_, by simp, emits_append hemits hemits'⟩
    · obtain ⟨rfl, rfl⟩ := Prod.mk.inj (Option.some.inj hrun)
      obtain ⟨second, hsecond, hemits'⟩ := h' hd'
      obtain rfl := hsecond tail rfl
      refine ⟨_, ?_, emits_append hemits hemits'⟩
      intro text htext
      rw [← Except.ok.inj htext, encode_append]

/-! ### Whole templates -/

/-- Within every budget the streamed functions follow the direct ones. -/
theorem follows_all (cx : RenderContext) (fuel : Nat) :
    (∀ scope ts, (tokens cx fuel scope ts).Follows (Direct.tokens cx fuel scope ts)) ∧
    (∀ scope action,
      (perform cx fuel scope action).Follows (Direct.perform cx fuel scope action)) ∧
    (∀ scope children vs,
      (each cx fuel scope children vs).Follows (Direct.each cx fuel scope children vs)) ∧
    ∀ scope children handle,
      (drain cx fuel scope children handle).Follows
        (Direct.drain cx fuel scope children handle) := by
  induction fuel with
  | zero =>
    refine ⟨fun _ _ => ?_, fun _ _ => ?_, fun _ _ _ => ?_, fun _ _ _ => ?_⟩
    · exact follows_exhausted
    · exact follows_exhausted
    · exact follows_exhausted
    · exact follows_exhausted
  | succ fuel ih =>
    obtain ⟨ihTokens, ihPerform, ihEach, ihDrain⟩ := ih
    refine ⟨?_, ?_, ?_, ?_⟩
    · intro scope ts
      cases ts with
      | nil => exact follows_pure
      | cons token rest =>
        rw [tokens, Direct.tokens]
        exact follows_step fun action => follows_append (ihPerform scope action)
          (ihTokens scope rest)
    · intro scope action
      cases action with
      | write text => exact follows_write text
      | block plan b children =>
        cases plan with
        | skip => exact follows_pure
        | here => exact ihTokens scope children
        | reparse text =>
          rw [perform, Direct.perform]
          cases cx.settings.pipeline.parse text b.delimiters with
          | error e => exact follows_throw e
          | ok parsed => exact ihTokens scope parsed
        | each values => exact ihEach scope children values
        | drain handle =>
          rw [perform, Direct.perform]
          exact follows_thenAlways (ihDrain scope children handle) (·.reset handle)
        | once v => exact ihTokens (scope.push v) children
    · intro scope children vs
      cases vs with
      | nil => exact follows_pure
      | cons v vs =>
        rw [each, Direct.each]
        exact follows_append (ihTokens (scope.push v) children) (ihEach scope children vs)
    · intro scope children handle
      rw [drain, Direct.drain]
      refine follows_step fun v? => ?_
      cases v? with
      | none => exact follows_pure
      | some v =>
        exact follows_append (ihTokens (scope.push v) children) (ihDrain scope children handle)

/-- Within every budget a streamed render of tokens follows their text. -/
theorem follows_tokens (cx : RenderContext) (fuel : Nat) (scope : Scope) (ts : List Token) :
    (tokens cx fuel scope ts).Follows (Direct.tokens cx fuel scope ts) :=
  (follows_all cx fuel).1 scope ts

/-- A flush writes nothing. -/
theorem emits_flush (store : Store) : flush.Emits store [] (.ok ()) store := by
  refine emits_nil fun sink hflush => ?_
  have hflushed : sink.flush = .ok () := by simp [Sink.flush, hflush]
  rw [runOn, flush, hflushed]
  rfl

end Stream

/-! ### Sinks of any size -/

/-- A parsed template emits its text, if it has one. -/
theorem Template.exists_emits {t : Template} {budget : Nat} {s : Settings} {l : Locale}
    {view : Value} {store after : Store} {result : Except ParseError String}
    (h : t.renderWithin budget s l view store = some (result, after)) :
    ∃ emitted, (∀ text, result = .ok text → emitted = encode text.toList) ∧
      Stream.Emits (t.renderToWithin budget s l view) store emitted (streamedResult result)
        after := by
  obtain ⟨⟨direct, after'⟩, hdirect, heq⟩ := Option.map_eq_some_iff.1 h
  obtain ⟨rfl, rfl⟩ := Prod.mk.inj heq
  obtain ⟨emitted, htext, hemits⟩ :=
    Stream.follows_tokens ⟨s, l⟩ budget (.root view) t.tokens hdirect
  cases direct with
  | error error => exact ⟨emitted, by simp [Except.map], Stream.emits_of_error hemits⟩
  | ok chars =>
    refine ⟨emitted ++ [], ?_, Stream.emits_append hemits (Stream.emits_flush after')⟩
    intro text hok
    obtain rfl := Except.ok.inj hok
    rw [List.append_nil, String.toList_ofList]
    exact htext chars rfl

/-- A template emits its text, if it has one, whether it can be parsed or not. -/
theorem exists_emits {budget : Nat} {s : Settings} {template : String} {l : Locale} {view : Value}
    {store after : Store} {result : Except ParseError String}
    (h : renderWithin budget s template l view store = some (result, after)) :
    ∃ emitted, (∀ text, result = .ok text → emitted = encode text.toList) ∧
      Stream.Emits (renderToWithin budget s template l view) store emitted
        (streamedResult result) after := by
  cases hcompile : compile s template with
  | error error =>
    -- Nothing has been written yet, and nothing is flushed.
    simp only [renderWithin, hcompile] at h
    obtain ⟨rfl, rfl⟩ := Prod.mk.inj (Option.some.inj h)
    refine ⟨[], by simp, Stream.emits_nil fun sink _ => ?_⟩
    simp only [Stream.runOn, renderToWithin, hcompile]
    rfl
  | ok t =>
    simp only [renderWithin, hcompile] at h
    have hto : renderToWithin budget s template l view = t.renderToWithin budget s l view := by
      funext state
      simp only [renderToWithin, hcompile]
    rw [hto]
    exact Template.exists_emits h

/-- If the text of a template can be computed, there are bytes that its streamed form emits. They
are those of the text, if the render does not fail. A sink without a limit takes all of them, and
result and store are those of the text. So does a sink with room for them. A sink with less room
takes as many of them as fit, and the render fails because it is full. -/
theorem exists_emitted (budget : Nat) (s : Settings) (template : String) (l : Locale)
    (view : Value) {store after : Store} {result : Except ParseError String}
    (h : renderWithin budget s template l view store = some (result, after)) :
    ∃ emitted : List UInt8,
      (∀ text, result = .ok text → emitted = encode text.toList) ∧
      (∃ sink, renderToWithin budget s template l view ⟨store, .new none false⟩ =
          some (streamedResult result, ⟨after, sink⟩) ∧
        sink.bytes = emitted) ∧
      ∀ room,
        (emitted.length ≤ room →
          ∃ sink, renderToWithin budget s template l view ⟨store, .new (some room) false⟩ =
              some (streamedResult result, ⟨after, sink⟩) ∧
            sink.bytes = emitted) ∧
        (room < emitted.length →
          ∃ stopped, renderToWithin budget s template l view ⟨store, .new (some room) false⟩ =
              some (.error (.sink .full), stopped) ∧
            stopped.sink.bytes = emitted.take room) := by
  obtain ⟨emitted, htext, hemits⟩ := exists_emits h
  -- Each of the three sinks takes one write of all that is emitted.
  refine ⟨emitted, htext, ?_, fun room => ⟨?_, ?_⟩⟩
  · refine ⟨_, (hemits (.new none false) rfl).1 _ rfl, ?_⟩
    show (Sink.write (.new none false) emitted).2.bytes = emitted
    rw [Sink.write_bytes]
    rfl
  · intro hle
    have hok : (Sink.write (.new (some room) false) emitted).1 = .ok () := Sink.write_of_le rfl hle
    refine ⟨_, (hemits (.new (some room) false) rfl).1 _ (Prod.ext hok rfl), ?_⟩
    rw [Sink.write_bytes]
    exact List.take_of_length_le hle
  · intro hlt
    have hfull : (Sink.write (.new (some room) false) emitted).1 = .error .full :=
      Sink.write_of_lt rfl hlt
    obtain ⟨stopped, hrun⟩ :=
      (hemits (.new (some room) false) rfl).2 .full _ (Prod.ext hfull rfl)
    refine ⟨_, hrun, ?_⟩
    show (Sink.write (.new (some room) false) emitted).2.bytes = emitted.take room
    rw [Sink.write_bytes]
    rfl

/-- A block that goes through an enumerator, written to a sink that is full inside the second
character that the block shows. -/
theorem exists_emitted_of_enumerator :
    renderWithin 8 (.setDelimiters .stock ⟨"<", ">"⟩) "<#s><.>,</s>" .invariant
        (.map [("s", .iter ⟨0⟩)]) ⟨#[.atStart [.str "a", .str "é"]]⟩ =
      some (.ok "a,é,", ⟨#[.atStart [.str "a", .str "é"]]⟩) ∧
    ∃ stopped, renderToWithin 8 (.setDelimiters .stock ⟨"<", ">"⟩) "<#s><.>,</s>" .invariant
        (.map [("s", .iter ⟨0⟩)]) ⟨⟨#[.atStart [.str "a", .str "é"]]⟩, .new (some 3) false⟩ =
          some (.error (.sink .full), stopped) ∧
      stopped.sink.bytes = [97, 44, 195] := by
  have hparse : Pipeline.stock.parse "<#s><.>,</s>" ⟨"<", ">"⟩ =
      .ok [.block ⟨⟨.plain, "s", [], ⟨0, 4⟩⟩, ⟨8, 12⟩, "<.>,", ⟨"<", ">"⟩⟩
        [.interpolation ⟨".", true, ⟨4, 7⟩⟩, .text ","]] :=
    Pipeline.parse_of_parseWithin (n := 8) rfl
  have hcompile : compile (.setDelimiters .stock ⟨"<", ">"⟩) "<#s><.>,</s>" = _ :=
    congrArg (Except.map Template.mk) hparse
  have hrender : renderWithin 8 (.setDelimiters .stock ⟨"<", ">"⟩) "<#s><.>,</s>" .invariant
      (.map [("s", .iter ⟨0⟩)]) ⟨#[.atStart [.str "a", .str "é"]]⟩ =
        some (.ok "a,é,", ⟨#[.atStart [.str "a", .str "é"]]⟩) := by
    rw [renderWithin, hcompile]
    rfl
  obtain ⟨emitted, htext, _, hroom⟩ := exists_emitted 8 _ _ .invariant _ hrender
  have hemitted : emitted = encode "a,é,".toList := htext "a,é," rfl
  have hbytes : encode "a,é,".toList = [97, 44, 195, 169, 44] := by decide
  rw [hemitted, hbytes] at hroom
  exact ⟨hrender, (hroom 3).2 (by decide)⟩

end Stencil
