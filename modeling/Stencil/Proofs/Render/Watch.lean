import Stencil.Proofs.Render.Streaming

/-!
# `Stencil.Proofs.Render.Watch`: renders that note what blocks go through

The text of a template and its streamed form are computed alike. `Watch` is what they have in
common: a render whose texts go to some output, which may fail, and that notes which enumerators its
blocks go through. Apart from the note it is written like the other two.

`renderWithin_eq` and `renderToWithin_eq` say that each of them is a render of this kind with the
note left out. What holds of every watched render therefore holds of both.
-/

set_option autoImplicit false

namespace Stencil

/-- Where the texts of a render go. -/
structure Output (ε σ : Type) where
  write : String → σ → Except ε Unit × σ
  /-- What is done at the end. -/
  flush : σ → Except ε Unit
  /-- The error for a template that cannot be parsed. -/
  unparsed : ParseError → ε

/-- The output of a render that only puts a text together. -/
def Output.direct : Output ParseError (List Char) where
  write text out := (.ok (), out ++ text.toList)
  flush _ := .ok ()
  unparsed := id

/-- The output to a sink. -/
def Output.stream : Output Error Sink where
  write text sink :=
    let (result, sink) := sink.write (Text.encode text.toList)
    (result.mapError .sink, sink)
  flush sink := sink.flush.mapError .sink
  unparsed := .parse

/-- What a watched render changes. -/
structure WatchState (σ : Type) where
  store : Store
  out : σ
  /-- The enumerators that blocks went through, in the order in which they began with that. -/
  drained : List Handle

/-- A watched computation. It gives nothing when its budget is used up. -/
abbrev Watch (ε σ α : Type) := ExceptT ε (StateT (WatchState σ) Option) α

namespace Watch

section Primitives

variable {ε σ α : Type}

/-- The budget is used up. -/
def exhausted : Watch ε σ α :=
  fun _ => none

/-- A change of the store with a result. -/
def step (f : Store → α × Store) : Watch ε σ α :=
  fun state => let (a, store) := f state.store; some (.ok a, { state with store })

/-- A change of the store after a computation, also when that has failed. -/
def thenAlways (w : Watch ε σ α) (f : Store → Store) : Watch ε σ α :=
  fun state => (w state).map fun (result, state) =>
    (result, { state with store := f state.store })

/-- A text for the output. -/
def write (o : Output ε σ) (text : String) : Watch ε σ Unit :=
  fun state => let (result, out) := o.write text state.out; some (result, { state with out })

/-- The end of the output. -/
def flush (o : Output ε σ) : Watch ε σ Unit :=
  fun state => some (o.flush state.out, state)

/-- A note that a block goes through an enumerator from here on. -/
def note (handle : Handle) : Watch ε σ Unit :=
  fun state => some (.ok (), { state with drained := state.drained ++ [handle] })

end Primitives

variable {ε σ : Type}

mutual

/-- Shows tokens, one after the other. -/
def tokens (o : Output ε σ) (cx : RenderContext) : Nat → Scope → List Token → Watch ε σ Unit
  | 0, _, _ => exhausted
  | _ + 1, _, [] => pure ()
  | fuel + 1, scope, token :: rest => do
    let action ← step (token.act cx scope)
    perform o cx fuel scope action
    tokens o cx fuel scope rest

/-- Does what a token asks for. -/
def perform (o : Output ε σ) (cx : RenderContext) : Nat → Scope → Action → Watch ε σ Unit
  | 0, _, _ => exhausted
  | _ + 1, _, .write text => write o text
  | fuel + 1, scope, .block plan b children =>
    match plan with
    | .skip => pure ()
    | .here => tokens o cx fuel scope children
    | .reparse text =>
      match cx.settings.pipeline.parse text b.delimiters with
      | .error e => throw (o.unparsed e)
      | .ok parsed => tokens o cx fuel scope parsed
    | .each values => each o cx fuel scope children values
    | .drain handle => do
      note handle
      thenAlways (drain o cx fuel scope children handle) (·.reset handle)
    | .once v => tokens o cx fuel (scope.push v) children

/-- Shows tokens for some values, one after the other. -/
def each (o : Output ε σ) (cx : RenderContext) :
    Nat → Scope → List Token → List Value → Watch ε σ Unit
  | 0, _, _, _ => exhausted
  | _ + 1, _, _, [] => pure ()
  | fuel + 1, scope, children, v :: vs => do
    tokens o cx fuel (scope.push v) children
    each o cx fuel scope children vs

/-- Shows tokens for the values that an enumerator gives, one after the other. -/
def drain (o : Output ε σ) (cx : RenderContext) :
    Nat → Scope → List Token → Handle → Watch ε σ Unit
  | 0, _, _, _ => exhausted
  | fuel + 1, scope, children, handle => do
    match ← step (·.next handle) with
    | none => pure ()
    | some v =>
      tokens o cx fuel (scope.push v) children
      drain o cx fuel scope children handle

end

section Drain

variable {o : Output ε σ} {cx : RenderContext} {budget : Nat} {scope : Scope}
  {children : List Token} {handle : Handle} {state : WatchState σ} {store : Store}

/-- A loop is over when its enumerator has no value left. -/
theorem drain_of_none (hnext : state.store.next handle = (none, store)) :
    drain o cx (budget + 1) scope children handle state =
      some (.ok (), { state with store }) := by
  have hstep : (step (·.next handle) : Watch ε σ (Option Value)) state =
      some (.ok none, { state with store }) := by
    rw [step, hnext]
  rw [drain, bind_of_ok hstep]
  rfl

/-- Otherwise it shows the children for the value that comes next, and goes on. -/
theorem drain_of_some {v : Value} (hnext : state.store.next handle = (some v, store)) :
    drain o cx (budget + 1) scope children handle state =
      (do tokens o cx budget (scope.push v) children; drain o cx budget scope children handle)
        { state with store } := by
  have hstep : (step (·.next handle) : Watch ε σ (Option Value)) state =
      some (.ok (some v), { state with store }) := by
    rw [step, hnext]
  rw [drain, bind_of_ok hstep]

end Drain

/-! ### The text of a template -/

/-- The text of a direct computation is what a watched one adds to its output. Otherwise they do
the same, but for the note. -/
def AgreesDirect (d : Direct (List Char)) (w : Watch ParseError (List Char) Unit) : Prop :=
  ∀ state : WatchState (List Char), (w state = none ∧ d state.store = none) ∨
    ∃ result text state', w state = some (result, state') ∧ state'.out = state.out ++ text ∧
      d state.store = some (result.map fun _ => text, state'.store)

/-- Both have used up their budgets. -/
theorem agreesDirect_exhausted : AgreesDirect Direct.exhausted exhausted := by
  intro state
  exact .inl ⟨rfl, rfl⟩

/-- No text is added by doing nothing. -/
theorem agreesDirect_pure : AgreesDirect (pure []) (pure ()) := by
  intro state
  exact .inr ⟨_, [], state, rfl, (List.append_nil _).symm, rfl⟩

/-- No text is added by a failure. -/
theorem agreesDirect_throw (e : ParseError) : AgreesDirect (throw e) (throw e) := by
  intro state
  exact .inr ⟨_, [], state, rfl, (List.append_nil _).symm, rfl⟩

/-- A literal text is added to the output. -/
theorem agreesDirect_write (text : String) :
    AgreesDirect (pure text.toList) (write .direct text) := by
  intro state
  exact .inr ⟨_, text.toList, _, rfl, rfl, rfl⟩

/-- After the same change of the store come computations that agree. -/
theorem agreesDirect_step {α : Type} {f : Store → α × Store} {d : α → Direct (List Char)}
    {w : α → Watch ParseError (List Char) Unit} (h : ∀ a, AgreesDirect (d a) (w a)) :
    AgreesDirect (Direct.step f >>= d) (step f >>= w) := by
  intro state
  exact h (f state.store).1 { state with store := (f state.store).2 }

section Direct

variable {d d' : Direct (List Char)} {w w' : Watch ParseError (List Char) Unit}

/-- A note changes nothing that can be seen in the text. -/
theorem agreesDirect_note (h : AgreesDirect d w) (handle : Handle) :
    AgreesDirect d (do note handle; w) := by
  intro state
  -- Nothing that is compared depends on the note.
  exact h { state with drained := state.drained ++ [handle] }

/-- The same change of the store at the end keeps two computations alike. -/
theorem agreesDirect_thenAlways (h : AgreesDirect d w) (f : Store → Store) :
    AgreesDirect (Direct.thenAlways d f) (thenAlways w f) := by
  intro state
  rcases h state with ⟨hw, hd⟩ | ⟨result, text, state', hw, hout, hd⟩
  · refine .inl ⟨?_, ?_⟩
    · rw [thenAlways, hw]
      rfl
    · rw [Direct.thenAlways, hd]
      rfl
  · refine .inr ⟨result, text, { state' with store := f state'.store }, ?_, hout, ?_⟩
    · rw [thenAlways, hw]
      rfl
    · rw [Direct.thenAlways, hd]
      rfl

/-- Texts one after the other. -/
theorem agreesDirect_append (h : AgreesDirect d w) (h' : AgreesDirect d' w') :
    AgreesDirect (do
      let head ← d
      let tail ← d'
      pure (head ++ tail)) (do w; w') := by
  intro state
  rcases h state with ⟨hw, hd⟩ | ⟨result, head, mid, hw, hout, hd⟩
  · exact .inl ⟨bind_of_none hw, bind_of_none hd⟩
  · cases result with
    -- The text of a failed part is still in the output, and is not in the result of either.
    | error e => exact .inr ⟨.error e, head, mid, bind_of_error hw, hout, bind_of_error hd⟩
    | ok _ =>
      -- The second text goes behind the first one, in the output as in the result.
      rw [bind_of_ok hw, bind_of_ok hd]
      rcases h' mid with ⟨hw', hd'⟩ | ⟨result', tail, state', hw', hout', hd'⟩
      · exact .inl ⟨hw', bind_of_none hd'⟩
      · refine .inr ⟨result', head ++ tail, state', hw', ?_, ?_⟩
        · rw [hout', hout, List.append_assoc]
        · cases result' with
          | error e => exact bind_of_error hd'
          | ok _ => exact bind_of_ok hd'

end Direct

/-- Within every budget the text of a template is a watched render without the note. -/
theorem agreesDirect_all (cx : RenderContext) (fuel : Nat) :
    (∀ scope ts, AgreesDirect (Direct.tokens cx fuel scope ts) (tokens .direct cx fuel scope ts)) ∧
    (∀ scope action,
      AgreesDirect (Direct.perform cx fuel scope action) (perform .direct cx fuel scope action)) ∧
    (∀ scope children vs,
      AgreesDirect (Direct.each cx fuel scope children vs)
        (each .direct cx fuel scope children vs)) ∧
    ∀ scope children handle,
      AgreesDirect (Direct.drain cx fuel scope children handle)
        (drain .direct cx fuel scope children handle) := by
  induction fuel with
  | zero =>
    refine ⟨fun _ _ => ?_, fun _ _ => ?_, fun _ _ _ => ?_, fun _ _ _ => ?_⟩
    · exact agreesDirect_exhausted
    · exact agreesDirect_exhausted
    · exact agreesDirect_exhausted
    · exact agreesDirect_exhausted
  | succ fuel ih =>
    obtain ⟨ihTokens, ihPerform, ihEach, ihDrain⟩ := ih
    refine ⟨?_, ?_, ?_, ?_⟩
    · intro scope ts
      cases ts with
      | nil => exact agreesDirect_pure
      | cons token rest =>
        rw [tokens, Direct.tokens]
        exact agreesDirect_step fun action =>
          agreesDirect_append (ihPerform scope action) (ihTokens scope rest)
    · intro scope action
      cases action with
      | write text => exact agreesDirect_write text
      | block plan b children =>
        cases plan with
        | skip => exact agreesDirect_pure
        | here => exact ihTokens scope children
        | reparse text =>
          rw [perform, Direct.perform]
          cases cx.settings.pipeline.parse text b.delimiters with
          | error e => exact agreesDirect_throw e
          | ok parsed => exact ihTokens scope parsed
        | each values => exact ihEach scope children values
        | drain handle =>
          -- Only here the watched render does more: it notes the enumerator.
          rw [perform, Direct.perform]
          exact agreesDirect_note (agreesDirect_thenAlways (ihDrain scope children handle) _) handle
        | once v => exact ihTokens (scope.push v) children
    · intro scope children vs
      cases vs with
      | nil => exact agreesDirect_pure
      | cons v vs =>
        rw [each, Direct.each]
        exact agreesDirect_append (ihTokens (scope.push v) children) (ihEach scope children vs)
    · intro scope children handle
      rw [drain, Direct.drain]
      refine agreesDirect_step fun v? => ?_
      cases v? with
      | none => exact agreesDirect_pure
      | some v =>
        exact agreesDirect_append (ihTokens (scope.push v) children) (ihDrain scope children handle)

/-! ### The streamed form -/

/-- A streamed computation does what a watched one does that writes to a sink, but for the note. -/
def AgreesStream (e : Stream Unit) (w : Watch Error Sink Unit) : Prop :=
  ∀ state : WatchState Sink, e ⟨state.store, state.out⟩ =
    (w state).map fun (result, state') => (result, ⟨state'.store, state'.out⟩)

/-- Both have used up their budgets. -/
theorem agreesStream_exhausted : AgreesStream Stream.exhausted exhausted := by
  intro state
  rfl

/-- Doing nothing is the same in both. -/
theorem agreesStream_pure : AgreesStream (pure ()) (pure ()) := by
  intro state
  rfl

/-- A failure is the same in both. -/
theorem agreesStream_throw (e : Error) : AgreesStream (throw e) (throw e) := by
  intro state
  rfl

/-- A literal text is written to the same sink. -/
theorem agreesStream_write (text : String) :
    AgreesStream (Stream.write text) (write .stream text) := by
  intro state
  rfl

/-- A flush is that of the same sink. -/
theorem agreesStream_flush : AgreesStream Stream.flush (flush .stream) := by
  intro state
  rfl

/-- After the same change of the store come computations that agree. -/
theorem agreesStream_step {α : Type} {f : Store → α × Store} {e : α → Stream Unit}
    {w : α → Watch Error Sink Unit} (h : ∀ a, AgreesStream (e a) (w a)) :
    AgreesStream (Stream.step f >>= e) (step f >>= w) := by
  intro state
  exact h (f state.store).1 { state with store := (f state.store).2 }

section Stream

variable {e e' : Stream Unit} {w w' : Watch Error Sink Unit}

/-- A note changes nothing that can be seen in the sink. -/
theorem agreesStream_note (h : AgreesStream e w) (handle : Handle) :
    AgreesStream e (do note handle; w) := by
  intro state
  exact h { state with drained := state.drained ++ [handle] }

/-- The same change of the store at the end keeps two computations alike. -/
theorem agreesStream_thenAlways (h : AgreesStream e w) (f : Store → Store) :
    AgreesStream (Stream.thenAlways e f) (thenAlways w f) := by
  intro state
  rw [Stream.thenAlways, h state, thenAlways, Option.map_map, Option.map_map]
  rfl

/-- Computations one after the other. -/
theorem agreesStream_bind (h : AgreesStream e w) (h' : AgreesStream e' w') :
    AgreesStream (do e; e') (do w; w') := by
  intro state
  have heq := h state
  cases hw : w state with
  | none =>
    rw [hw] at heq
    rw [bind_of_none hw, bind_of_none heq]
    rfl
  | some ended =>
    obtain ⟨result, mid⟩ := ended
    rw [hw] at heq
    cases result with
    | error error =>
      rw [bind_of_error hw, bind_of_error heq]
      rfl
    | ok _ =>
      rw [bind_of_ok hw, bind_of_ok heq]
      exact h' mid

end Stream

/-- Within every budget the streamed form of a template is a watched render without the note. -/
theorem agreesStream_all (cx : RenderContext) (fuel : Nat) :
    (∀ scope ts, AgreesStream (Stream.tokens cx fuel scope ts) (tokens .stream cx fuel scope ts)) ∧
    (∀ scope action,
      AgreesStream (Stream.perform cx fuel scope action) (perform .stream cx fuel scope action)) ∧
    (∀ scope children vs,
      AgreesStream (Stream.each cx fuel scope children vs)
        (each .stream cx fuel scope children vs)) ∧
    ∀ scope children handle,
      AgreesStream (Stream.drain cx fuel scope children handle)
        (drain .stream cx fuel scope children handle) := by
  induction fuel with
  | zero =>
    refine ⟨fun _ _ => ?_, fun _ _ => ?_, fun _ _ _ => ?_, fun _ _ _ => ?_⟩
    · exact agreesStream_exhausted
    · exact agreesStream_exhausted
    · exact agreesStream_exhausted
    · exact agreesStream_exhausted
  | succ fuel ih =>
    obtain ⟨ihTokens, ihPerform, ihEach, ihDrain⟩ := ih
    refine ⟨?_, ?_, ?_, ?_⟩
    · intro scope ts
      cases ts with
      | nil => exact agreesStream_pure
      | cons token rest =>
        rw [tokens, Stream.tokens]
        exact agreesStream_step fun action =>
          agreesStream_bind (ihPerform scope action) (ihTokens scope rest)
    · intro scope action
      cases action with
      | write text => exact agreesStream_write text
      | block plan b children =>
        cases plan with
        | skip => exact agreesStream_pure
        | here => exact ihTokens scope children
        | reparse text =>
          -- The error of the parse is the one that the stream reports for it.
          rw [perform, Stream.perform]
          cases cx.settings.pipeline.parse text b.delimiters with
          | error e => exact agreesStream_throw (Error.parse e)
          | ok parsed => exact ihTokens scope parsed
        | each values => exact ihEach scope children values
        | drain handle =>
          rw [perform, Stream.perform]
          exact agreesStream_note (agreesStream_thenAlways (ihDrain scope children handle) _) handle
        | once v => exact ihTokens (scope.push v) children
    · intro scope children vs
      cases vs with
      | nil => exact agreesStream_pure
      | cons v vs =>
        rw [each, Stream.each]
        exact agreesStream_bind (ihTokens (scope.push v) children) (ihEach scope children vs)
    · intro scope children handle
      rw [drain, Stream.drain]
      refine agreesStream_step fun v? => ?_
      cases v? with
      | none => exact agreesStream_pure
      | some v =>
        exact agreesStream_bind (ihTokens (scope.push v) children) (ihDrain scope children handle)

end Watch

/-! ### Templates -/

/-- A watched render of a template that is not parsed yet, within a budget. -/
def watchWithin {ε σ : Type} (o : Output ε σ) (budget : Nat) (s : Settings) (template : String)
    (l : Locale) (view : Value) (store : Store) (out : σ) :
    Option (Except ε Unit × WatchState σ) :=
  match compile s template with
  | .error e => some (.error (o.unparsed e), ⟨store, out, []⟩)
  | .ok t =>
    (do Watch.tokens o ⟨s, l⟩ budget (.root view) t.tokens; Watch.flush o : Watch ε σ Unit)
      ⟨store, out, []⟩

section Templates

variable (budget : Nat) (s : Settings) (template : String) (l : Locale) (view : Value)

/-- The text of a template is the output of a watched render of it. -/
theorem renderWithin_eq (store : Store) :
    renderWithin budget s template l view store =
      (watchWithin .direct budget s template l view store []).map fun (result, state) =>
        (result.map fun _ => String.ofList state.out, state.store) := by
  rw [renderWithin, watchWithin]
  cases compile s template with
  | error e => rfl
  | ok t =>
    show Direct.textOn _ _ = Option.map _ ((do
      Watch.tokens .direct ⟨s, l⟩ budget (.root view) t.tokens
      Watch.flush .direct : Watch ParseError (List Char) Unit) ⟨store, [], []⟩)
    rw [Direct.textOn, Direct.runOn]
    rcases (Watch.agreesDirect_all ⟨s, l⟩ budget).1 (.root view) t.tokens ⟨store, [], []⟩ with
      ⟨hw, hd⟩ | ⟨result, text, state, hw, hout, hd⟩
    · rw [hd, bind_of_none hw]
      rfl
    · -- The output is empty at first, so the text that is added is all of it.
      obtain rfl : state.out = text := hout
      rw [hd]
      cases result with
      | error e =>
        rw [bind_of_error hw]
        rfl
      | ok _ =>
        rw [bind_of_ok hw]
        rfl

/-- The streamed form of a template is a watched render of it whose output is the sink. -/
theorem renderToWithin_eq (state : StreamState) :
    renderToWithin budget s template l view state =
      (watchWithin .stream budget s template l view state.store state.sink).map
        fun (result, state) => (result, ⟨state.store, state.out⟩) := by
  rw [renderToWithin, watchWithin]
  cases compile s template with
  | error e => rfl
  | ok t =>
    exact Watch.agreesStream_bind
      ((Watch.agreesStream_all ⟨s, l⟩ budget).1 (.root view) t.tokens) Watch.agreesStream_flush
      ⟨state.store, state.sink, []⟩

end Templates

end Stencil
