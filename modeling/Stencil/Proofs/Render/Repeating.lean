import Stencil.Proofs.Helper.Reach

/-!
# `Stencil.Proofs.Render.Repeating`: a render can be repeated

After a render the enumerators of a view are back where they were, but helpers may have made new
ones, so that those of another render get other handles (`Store.Extends.exists_shifted`). A helper
that is a function of its context and its arguments does the same in both stores, but for the handles
(`Helper.Uniform`).

`Watch.similar_all` says that so do whole renders. `rewinds_and_repeats` is the result: blocks put
back the enumerators that they go through, whatever happens, and a render from first values gives
the same answer again.
-/

set_option autoImplicit false

namespace Stencil

open Text

/-! ### Stores after a render -/

variable {n k : Nat}

namespace Store

/-- A store that follows from another one, whose enumerators it has kept, has the others behind
them. -/
theorem Extends.exists_shifted {before after : Store} (h : before.Extends after)
    (hclosed : before.Closed) :
    ∃ k, before.Shifted before.enumerators.size k after := by
  have hsize : before.enumerators.size ≤ after.enumerators.size := by
    by_cases hempty : before.enumerators.size = 0
    · omega
    · -- The last enumerator is still there.
      have hlast : before.enumerators.size - 1 < before.enumerators.size := by omega
      have hfind := h.kept ⟨before.enumerators.size - 1⟩ _ (Array.getElem?_eq_getElem hlast)
      have hlt := (Array.getElem?_eq_some_iff.1 hfind).1
      simp only at hlt
      omega
  obtain ⟨k, hk⟩ := Nat.exists_eq_add_of_le hsize
  refine ⟨k, Nat.le_refl _, hk, ?_⟩
  intro handle
  cases hfind : before.find? handle with
  | none =>
    have hle : before.enumerators.size ≤ handle.index := Array.getElem?_eq_none_iff.1 hfind
    rw [Handle.shift_of_le hle]
    exact Array.getElem?_eq_none_iff.2 (by simp only; omega)
  | some e =>
    have hlt : handle.index < before.enumerators.size := (Array.getElem?_eq_some_iff.1 hfind).1
    rw [Handle.shift_of_lt hlt, h.kept handle e hfind]
    -- The values of an enumerator that is there name none that is new.
    have hself : ∀ vs ⊆ e.values ++ e.remaining,
        vs.map (Value.rename (·.shift before.enumerators.size k)) = vs := by
      intro vs hvs
      refine (List.map_congr_left fun v hv => ?_).trans (List.map_id vs)
      exact Value.rename_eq_self fun g hg =>
        Handle.shift_of_lt (hclosed handle e hfind v (hvs hv) g hg)
    show some e = some (Enumerator.rename _ e)
    rw [Enumerator.rename, hself e.values (List.subset_append_left _ _),
      hself e.remaining (List.subset_append_right _ _)]

end Store

/-! ### What a token asks for -/

section Actions

variable {cx : RenderContext} {a b : Store}

/-- A call does the same under other handles, if the helpers of the registry do. -/
theorem RenderContext.callHelper_shifted (cx : RenderContext) {r : Registry}
    (h : ∀ name helper, r.get? name = some helper → helper.Uniform n) (hs : a.Shifted n k b)
    (scope : Scope) (body : Option String) (name : String) (args : List Argument) :
    (cx.callHelper (scope.rename (·.shift n k)) body r name args b).1 =
        (cx.callHelper scope body r name args a).1.rename (·.shift n k) ∧
      (cx.callHelper scope body r name args a).2.Shifted n k
        (cx.callHelper (scope.rename (·.shift n k)) body r name args b).2 := by
  have hcontext : cx.helperContext (scope.rename (·.shift n k)) body =
      (cx.helperContext scope body).rename (·.shift n k) := rfl
  rw [callHelper, callHelper, Registry.call, Registry.call, hcontext, Registry.prepare_rename]
  cases hprepare : r.prepare (cx.helperContext scope body) name args with
  -- The values are prepared in the same way, or the call fails in both.
  | error e => exact ⟨rfl, hs⟩
  | ok prepared =>
    obtain ⟨helper, values⟩ := prepared
    exact h name helper (r.prepare_passes hprepare).1 k _ values a b hs

/-- A token asks for the same under other handles. -/
theorem Token.act_shifted (h : ∀ helper, cx.settings.HasHelper helper → helper.Uniform n)
    (hs : a.Shifted n k b) (scope : Scope) (token : Token) :
    (token.act cx (scope.rename (·.shift n k)) b).1 =
        (token.act cx scope a).1.rename (·.shift n k) ∧
      (token.act cx scope a).2.Shifted n k
        (token.act cx (scope.rename (·.shift n k)) b).2 := by
  rw [act, act]
  cases hrule : cx.settings.ruleFor? token with
  | none => exact ⟨rfl, hs⟩
  | some rule =>
    have haccepts := Settings.accepts_of_ruleFor? hrule
    show (rule.act cx (scope.rename _) token b).1 = (rule.act cx scope token a).1.rename _ ∧
      (rule.act cx scope token a).2.Shifted n k (rule.act cx (scope.rename _) token b).2
    cases hcall : rule.call? token with
    | none =>
      rw [RenderRule.act_of_not_calls a haccepts hcall, RenderRule.act_of_not_calls b haccepts hcall]
      exact ⟨rule.outcome_rename _ cx scope token .null, hs⟩
    | some c =>
      obtain ⟨hvalue, hstores⟩ := RenderContext.callHelper_shifted cx
        (fun name helper hget => h helper (Settings.hasHelper_of_call hrule hcall hget)) hs scope
        c.body c.name c.args
      rw [RenderRule.act_of_calls a haccepts hcall, RenderRule.act_of_calls b haccepts hcall]
      refine ⟨?_, hstores⟩
      -- The value of the call differs by handles alone, and so does what the rule makes of it.
      rw [← RenderRule.outcome_rename]
      exact congrArg (rule.outcome cx _ token) hvalue

end Actions

/-! ### Similar computations -/

/-- The second state has some more enumerators, and the same output. -/
def WatchState.Shifted {σ : Type} (n k : Nat) (s t : WatchState σ) : Prop :=
  s.store.Shifted n k t.store ∧ s.out = t.out

/-- A change of the store that is the same under other handles, as is its result. -/
def ShiftedStep {γ : Type} (n k : Nat) (ρ : γ → γ) (f g : Store → γ × Store) : Prop :=
  ∀ a b : Store, a.Shifted n k b → (g b).1 = ρ (f a).1 ∧ (f a).2.Shifted n k (g b).2

/-- What a token does is such a change, if the helpers are uniform. -/
theorem shiftedStep_act {cx : RenderContext}
    (h : ∀ helper, cx.settings.HasHelper helper → helper.Uniform n) (scope : Scope)
    (token : Token) :
    ShiftedStep n k (Action.rename (·.shift n k)) (token.act cx scope)
      (token.act cx (scope.rename (·.shift n k))) := by
  intro a b hs
  exact Token.act_shifted h hs scope token

/-- A step of an enumerator is such a change. -/
theorem shiftedStep_next (handle : Handle) :
    ShiftedStep n k (Option.map (Value.rename (·.shift n k))) (·.next handle)
      (·.next (handle.shift n k)) := by
  intro a b hs
  exact hs.next handle

namespace Watch

variable {ε σ α β : Type}

/-- From a state with some more enumerators the second computation does what the first one does:
it has the same result and the same output. -/
def Similar (n k : Nat) (w w' : Watch ε σ α) : Prop :=
  ∀ s t : WatchState σ, s.Shifted n k t → ∀ (result : Except ε α) (s' : WatchState σ),
    w s = some (result, s') → ∃ t', w' t = some (result, t') ∧ s'.Shifted n k t'

section Similar

variable {w w' : Watch ε σ α}

/-- Doing nothing is similar under other handles. -/
theorem similar_pure (a : α) : Similar n k (pure a : Watch ε σ α) (pure a) := by
  rintro s t hs result s' ⟨⟩
  exact ⟨t, rfl, hs⟩

/-- A failure is similar under other handles. -/
theorem similar_throw (e : ε) : Similar n k (throw e : Watch ε σ α) (throw e) := by
  rintro s t hs result s' ⟨⟩
  exact ⟨t, rfl, hs⟩

/-- What has used up a budget does not end, so that nothing has to be similar to it. -/
theorem similar_exhausted : Similar n k (exhausted : Watch ε σ α) w := by
  rintro s t hs result s' ⟨⟩

/-- Writing does not look at the store. -/
theorem similar_write (o : Output ε σ) (text : String) :
    Similar n k (write o text) (write o text) := by
  rintro ⟨a, out, noted⟩ ⟨b, _, noted'⟩ ⟨hs, rfl⟩ result s' ⟨⟩
  exact ⟨_, rfl, hs, rfl⟩

/-- A flush does not look at the store. -/
theorem similar_flush (o : Output ε σ) : Similar n k (flush o) (flush o) := by
  rintro ⟨a, out, noted⟩ ⟨b, _, noted'⟩ ⟨hs, rfl⟩ result s' ⟨⟩
  exact ⟨_, rfl, hs, rfl⟩

/-- Computations one after the other. -/
theorem similar_bind {f f' : α → Watch ε σ β} (h : Similar n k w w')
    (h' : ∀ a, Similar n k (f a) (f' a)) : Similar n k (w >>= f) (w' >>= f') := by
  intro s t hs result s' hrun
  rcases cases_of_bind hrun with ⟨e, hw, rfl⟩ | ⟨a, mid, hw, hrun⟩
  · obtain ⟨t', hw', ht'⟩ := h s t hs _ _ hw
    exact ⟨t', bind_of_error hw', ht'⟩
  · obtain ⟨mid', hw', hmid⟩ := h s t hs _ _ hw
    obtain ⟨t', hrun', ht'⟩ := h' a mid mid' hmid _ _ hrun
    exact ⟨t', (bind_of_ok hw').trans hrun', ht'⟩

/-- After similar steps come similar computations. -/
theorem similar_step {γ : Type} {ρ : γ → γ} {f g : Store → γ × Store} {d e : γ → Watch ε σ α}
    (h : ShiftedStep n k ρ f g) (h' : ∀ c, Similar n k (d c) (e (ρ c))) :
    Similar n k (step f >>= d) (step g >>= e) := by
  intro s t hs result s' hrun
  -- Both go on with what the step gives, which differs by handles alone.
  obtain ⟨hresult, hstores⟩ := h s.store t.store hs.1
  have hrun' := h' (f s.store).1 { s with store := (f s.store).2 }
    { t with store := (g t.store).2 } ⟨hstores, hs.2⟩ result s' hrun
  rw [← hresult] at hrun'
  exact hrun'

/-- A block that goes through an enumerator. -/
theorem similar_drained (h : Similar n k w w') (handle : Handle) :
    Similar n k (do note handle; thenAlways w (·.reset handle))
      (do note (handle.shift n k); thenAlways w' (·.reset (handle.shift n k))) := by
  intro s t hs result s' hrun
  have hrun' : (thenAlways w (·.reset handle)) { s with drained := s.drained ++ [handle] } =
      some (result, s') := hrun
  obtain ⟨⟨result', ended⟩, hended, heq⟩ := Option.map_eq_some_iff.1 hrun'
  obtain ⟨rfl, rfl⟩ := Prod.mk.inj heq
  have hnoted : WatchState.Shifted n k { s with drained := s.drained ++ [handle] }
      { t with drained := t.drained ++ [handle.shift n k] } := hs
  obtain ⟨ended', hended', hs'⟩ := h _ _ hnoted _ _ hended
  exact ⟨_, Option.map_eq_some_iff.2 ⟨_, hended', rfl⟩, hs'.1.reset handle, hs'.2⟩

end Similar

/-- Within every budget a watched render does the same under other handles. -/
theorem similar_all {cx : RenderContext} (o : Output ε σ)
    (h : ∀ helper, cx.settings.HasHelper helper → helper.Uniform n) (fuel : Nat) :
    (∀ scope ts, Similar n k (tokens o cx fuel scope ts)
      (tokens o cx fuel (scope.rename (·.shift n k)) ts)) ∧
    (∀ scope action, Similar n k (perform o cx fuel scope action)
      (perform o cx fuel (scope.rename (·.shift n k)) (action.rename (·.shift n k)))) ∧
    (∀ scope children vs, Similar n k (each o cx fuel scope children vs)
      (each o cx fuel (scope.rename (·.shift n k)) children
        (vs.map (Value.rename (·.shift n k))))) ∧
    ∀ scope children handle, Similar n k (drain o cx fuel scope children handle)
      (drain o cx fuel (scope.rename (·.shift n k)) children (handle.shift n k)) := by
  induction fuel with
  | zero =>
    refine ⟨fun _ _ => ?_, fun _ _ => ?_, fun _ _ _ => ?_, fun _ _ _ => ?_⟩
    · exact similar_exhausted
    · exact similar_exhausted
    · exact similar_exhausted
    · exact similar_exhausted
  | succ fuel ih =>
    obtain ⟨ihTokens, ihPerform, ihEach, ihDrain⟩ := ih
    refine ⟨?_, ?_, ?_, ?_⟩
    · intro scope ts
      cases ts with
      | nil => exact similar_pure ()
      | cons token rest =>
        rw [tokens, tokens]
        exact similar_step (shiftedStep_act h scope token) fun action =>
          similar_bind (ihPerform scope action) fun _ => ihTokens scope rest
    · intro scope action
      cases action with
      | write text => exact similar_write o text
      | block plan b children =>
        cases plan with
        | skip => exact similar_pure ()
        | here => exact ihTokens scope children
        | reparse text =>
          rw [perform, Action.rename, BlockPlan.rename, perform]
          cases cx.settings.pipeline.parse text b.delimiters with
          | error e => exact similar_throw (o.unparsed e)
          | ok parsed => exact ihTokens scope parsed
        | each values => exact ihEach scope children values
        | drain handle =>
          rw [perform, Action.rename, BlockPlan.rename, perform]
          exact similar_drained (ihDrain scope children handle) handle
        | once v => exact ihTokens (scope.push v) children
    · intro scope children vs
      cases vs with
      | nil => exact similar_pure ()
      | cons v vs =>
        rw [each, List.map_cons, each]
        exact similar_bind (ihTokens (scope.push v) children) fun _ => ihEach scope children vs
    · intro scope children handle
      rw [drain, drain]
      refine similar_step (shiftedStep_next handle) fun v? => ?_
      cases v? with
      | none => exact similar_pure ()
      | some v =>
        exact similar_bind (ihTokens (scope.push v) children) fun _ =>
          ihDrain scope children handle

end Watch

/-! ### Rendering again -/

/-- All enumerators of the store stand at their first value. -/
def Store.AtStart (s : Store) : Prop :=
  ∀ (h : Handle) (e : Enumerator), s.find? h = some e → e = e.rewind

/-- What a render puts back to its first value was there before, if all enumerators were. -/
theorem Store.Rewound.extends {before after : Store} {drained : List Handle}
    (h : before.Rewound drained after) (hstart : before.AtStart) : before.Extends after where
  kept handle e he := by
    by_cases hmem : handle ∈ drained
    · rw [h.reset handle hmem e he, ← hstart handle e he]
    · exact h.kept handle hmem e he
  made := h.made

section Again

variable {budget : Nat} {s : Settings} {template : String} {l : Locale} {view : Value}

/-- A store is left by a render, which gives the text or writes it to a sink. It may have failed. -/
def LeftBy (budget : Nat) (s : Settings) (template : String) (l : Locale) (view : Value)
    (store after : Store) : Prop :=
  (∃ result, renderWithin budget s template l view store = some (result, after)) ∨
    ∃ sink result state, renderToWithin budget s template l view ⟨store, sink⟩ =
      some (result, state) ∧ state.store = after

/-- The view names only enumerators of the store. -/
theorem Scope.root_shift {store : Store}
    (hview : ∀ h ∈ view.handles, h.index < store.enumerators.size) (k : Nat) :
    (Scope.root view).rename (·.shift store.enumerators.size k) = .root view := by
  have hself : view.rename (·.shift store.enumerators.size k) = view :=
    Value.rename_eq_self fun h hh => Handle.shift_of_lt (hview h hh)
  rw [root, rename, hself]
  rfl

/-- A watched render does not depend on enumerators behind those that it can name. -/
theorem exists_watchWithin_of_shifted {ε σ : Type} {o : Output ε σ} {store store' : Store}
    {out : σ} {result : Except ε Unit} {after : WatchState σ}
    (huniform : ∀ helper, s.HasHelper helper → helper.Uniform store.enumerators.size)
    (hview : ∀ h ∈ view.handles, h.index < store.enumerators.size)
    (hs : store.Shifted store.enumerators.size k store')
    (h : watchWithin o budget s template l view store out = some (result, after)) :
    ∃ after', watchWithin o budget s template l view store' out = some (result, after') ∧
      after'.out = after.out := by
  rw [watchWithin] at h ⊢
  cases hcompile : compile s template with
  | error e =>
    rw [hcompile] at h
    obtain ⟨rfl, rfl⟩ := Prod.mk.inj (Option.some.inj h)
    exact ⟨_, rfl, rfl⟩
  | ok t =>
    rw [hcompile] at h
    have hcx : ∀ helper, (⟨s, l⟩ : RenderContext).settings.HasHelper helper →
      helper.Uniform store.enumerators.size := huniform
    have hsimilar := (Watch.similar_all (k := k) o hcx budget).1 (.root view) t.tokens
    rw [Scope.root_shift hview] at hsimilar
    -- The flush at the end belongs to what is watched.
    obtain ⟨after', hrun, -, hout⟩ :=
      Watch.similar_bind hsimilar (fun _ => Watch.similar_flush o) ⟨store, out, []⟩
        ⟨store', out, []⟩ ⟨hs, rfl⟩ _ _ h
    exact ⟨after', hrun, hout.symm⟩

/-- Blocks always put back the enumerators that they go through.

Let the helpers of an engine leave enumerators alone that they have not made. A render that comes to
an end does what a watched render does. The enumerators that this notes stand at their first value
then, and all others are where they were. This holds of the text of a template and of its streamed
form to any sink, and of every result: the text, an error of a template that a helper has made, at
any depth, or a failure of the sink at any byte.

If moreover the helpers are functions of their contexts and arguments, and all enumerators stand at
their first value, then after such a render another one of the same template and view gives the same
answer, as text or to any sink. -/
theorem rewinds_and_repeats (budget : Nat) (s : Settings) (template : String) (l : Locale)
    (view : Value) (hhelpers : ∀ helper, s.HasHelper helper → helper.LeavesAlone) :
    (∀ (store after : Store) (result : Except ParseError String),
      renderWithin budget s template l view store = some (result, after) →
        ∃ out drained, watchWithin .direct budget s template l view store [] =
            some (result.map fun _ => (), ⟨after, out, drained⟩) ∧
          (∀ text, result = .ok text → text = String.ofList out) ∧
          store.Rewound drained after) ∧
    (∀ (state after : StreamState) (result : Except Error Unit),
      renderToWithin budget s template l view state = some (result, after) →
        ∃ drained, watchWithin .stream budget s template l view state.store state.sink =
            some (result, ⟨after.store, after.sink, drained⟩) ∧
          state.store.Rewound drained after.store) ∧
    (∀ store : Store, store.AtStart → store.Closed →
      (∀ h ∈ view.handles, h.index < store.enumerators.size) →
      (∀ helper, s.HasHelper helper → helper.Uniform store.enumerators.size) →
      ∀ after, LeftBy budget s template l view store after →
        (∀ result ended, renderWithin budget s template l view store = some (result, ended) →
          ∃ again, renderWithin budget s template l view after = some (result, again)) ∧
        (∀ sink result ended,
          renderToWithin budget s template l view ⟨store, sink⟩ = some (result, ended) →
            ∃ again, renderToWithin budget s template l view ⟨after, sink⟩ =
                some (result, again) ∧
              again.sink = ended.sink)) := by
  have hdirect : ∀ (store after : Store) (result : Except ParseError String),
      renderWithin budget s template l view store = some (result, after) →
        ∃ out drained, watchWithin .direct budget s template l view store [] =
            some (result.map fun _ => (), ⟨after, out, drained⟩) ∧
          (∀ text, result = .ok text → text = String.ofList out) ∧
          store.Rewound drained after := by
    intro store after result h
    rw [renderWithin_eq] at h
    obtain ⟨⟨outcome, ended⟩, hwatched, heq⟩ := Option.map_eq_some_iff.1 h
    obtain ⟨rfl, rfl⟩ := Prod.mk.inj heq
    refine ⟨ended.out, ended.drained, ?_, ?_, rewound_of_watchWithin hhelpers hwatched⟩
    · rw [hwatched]
      cases outcome <;> rfl
    · intro text htext
      cases outcome with
      | error e => cases htext
      | ok _ => exact (Except.ok.inj htext).symm
  have hstream : ∀ (state after : StreamState) (result : Except Error Unit),
      renderToWithin budget s template l view state = some (result, after) →
        ∃ drained, watchWithin .stream budget s template l view state.store state.sink =
            some (result, ⟨after.store, after.sink, drained⟩) ∧
          state.store.Rewound drained after.store := by
    intro state after result h
    rw [renderToWithin_eq] at h
    obtain ⟨⟨outcome, ended⟩, hwatched, heq⟩ := Option.map_eq_some_iff.1 h
    obtain ⟨rfl, rfl⟩ := Prod.mk.inj heq
    exact ⟨ended.drained, hwatched, rewound_of_watchWithin hhelpers hwatched⟩
  refine ⟨hdirect, hstream, ?_⟩
  intro store hstart hclosed hview huniform after hleft
  -- All enumerators are where they were, but there may be new ones behind them.
  have hextends : store.Extends after := by
    rcases hleft with ⟨result, h⟩ | ⟨sink, result, state, h, rfl⟩
    · obtain ⟨out, drained, -, -, hrewound⟩ := hdirect store after result h
      exact hrewound.extends hstart
    · obtain ⟨drained, -, hrewound⟩ := hstream ⟨store, sink⟩ state result h
      exact hrewound.extends hstart
  obtain ⟨k, hs⟩ := hextends.exists_shifted hclosed
  constructor
  · intro result ended h
    rw [renderWithin_eq] at h ⊢
    obtain ⟨⟨outcome, first⟩, hwatched, heq⟩ := Option.map_eq_some_iff.1 h
    obtain ⟨rfl, rfl⟩ := Prod.mk.inj heq
    obtain ⟨second, hagain, hout⟩ := exists_watchWithin_of_shifted huniform hview hs hwatched
    refine ⟨second.store, ?_⟩
    rw [hagain, ← hout]
    rfl
  · intro sink result ended h
    rw [renderToWithin_eq] at h
    obtain ⟨⟨outcome, first⟩, hwatched, heq⟩ := Option.map_eq_some_iff.1 h
    obtain ⟨rfl, rfl⟩ := Prod.mk.inj heq
    obtain ⟨second, hagain, hout⟩ := exists_watchWithin_of_shifted huniform hview hs hwatched
    refine ⟨⟨second.store, second.out⟩, ?_, hout⟩
    rw [renderToWithin_eq, hagain]
    rfl

end Again

/-- A helper that gives a new enumerator at each call. -/
def freshlyHelper : Helper :=
  ⟨0, [], fun _ _ store =>
    let (handle, store) := store.fresh [.str "x", .str "y"]
    (.iter handle, store)⟩

/-- A new enumerator does not touch those that are there. -/
theorem leavesAlone_freshlyHelper : freshlyHelper.LeavesAlone := by
  intro cx values store
  exact store.extends_fresh _

/-- A new enumerator is the same in both stores, but for its handle. -/
theorem uniform_freshlyHelper (n : Nat) : freshlyHelper.Uniform n := by
  intro k cx values a b hs
  obtain ⟨hhandle, hstores⟩ := hs.fresh [.str "x", .str "y"]
  exact ⟨congrArg Value.iter hhandle, hstores⟩

/-- The ready-made helper for capitals. -/
def upperHelper : Helper :=
  .ofFunction 0 fun _ => ReadyMade.upper

/-- The ready-made helper of that name is the one above. -/
theorem find?_upper : ReadyMade.find? "Upper" 0 = some upperHelper := rfl

/-- An engine with the first helper for blocks and the ready-made one for tags. -/
def freshlySettings : Settings :=
  (Settings.withHelpers [.inline ⟨[("upper", upperHelper)]⟩,
    .sections ⟨[("freshly", freshlyHelper)]⟩]).setDelimiters ⟨"<", ">"⟩

/-- Both helpers leave enumerators alone and are functions of what they are given. -/
theorem reach_freshlySettings {helper : Helper} (h : freshlySettings.HasHelper helper) :
    helper.LeavesAlone ∧ ∀ n, helper.Uniform n := by
  have hadded : ((Settings.stock.add (.inline ⟨[("upper", upperHelper)]⟩)).add
      (.sections ⟨[("freshly", freshlyHelper)]⟩)).HasHelper helper := h
  -- Each of the two registries has one helper.
  rcases hadded.of_add with hbefore | ⟨name, hget⟩
  · rcases hbefore.of_add with hstock | ⟨name, hget⟩
    · exact absurd hstock (Settings.not_hasHelper_stock helper)
    · obtain rfl := Registry.eq_of_get?_singleton hget
      obtain ⟨hleaves, hreach⟩ := ReadyMade.reach_of_find? find?_upper
      exact ⟨hleaves, fun n => (hreach n).1⟩
  · obtain rfl := Registry.eq_of_get?_singleton hget
    exact ⟨leavesAlone_freshlyHelper, uniform_freshlyHelper⟩

/-- A block for an enumerator, and in it one for the helper that makes one. -/
theorem compile_freshlySettings : compile freshlySettings "<#s><#freshly><upper .></freshly></s>" =
    .ok ⟨[.block ⟨⟨.plain, "s", [], ⟨0, 4⟩⟩, ⟨33, 37⟩, "<#freshly><upper .></freshly>", ⟨"<", ">"⟩⟩
      [.block ⟨⟨.helper, "freshly", [], ⟨4, 14⟩⟩, ⟨23, 33⟩, "<upper .>", ⟨"<", ">"⟩⟩
        [.call ⟨"upper", [.lookup "."], ⟨14, 23⟩, ⟨15, 22⟩⟩]]]⟩ :=
  congrArg (Except.map Template.mk) (Pipeline.parse_of_parseWithin (n := 8) (by decide +kernel))

/-- A store with one enumerator. -/
def pairStore : Store :=
  ⟨#[.atStart [.str "a", .str "b"]]⟩

/-- The only enumerator of that store is at the first of two values. -/
theorem eq_of_find?_pairStore {h : Handle} {e : Enumerator} (hfind : pairStore.find? h = some e) :
    e = .atStart [.str "a", .str "b"] := by
  obtain ⟨hlt, heq⟩ := Array.getElem?_eq_some_iff.1 hfind
  have hzero : h.index = 0 := by
    simp only [pairStore, List.size_toArray, List.length_singleton] at hlt
    omega
  rw [← heq]
  simp only [hzero]
  rfl

/-- The values in that store name no enumerators. -/
theorem closed_pairStore : pairStore.Closed := by
  intro h e he v hv g hg
  rw [eq_of_find?_pairStore he] at hv
  have hvalue : v = .str "a" ∨ v = .str "b" ∨ v = .str "a" ∨ v = .str "b" := by
    simpa [Enumerator.atStart] using hv
  rcases hvalue with rfl | rfl | rfl | rfl <;> cases hg

/-- A view that names it. -/
def pairView : Value :=
  .map [("s", .iter ⟨0⟩)]

/-- The view names only the enumerator of the store. -/
theorem within_pairView : pairView.Within pairStore.enumerators.size := by
  intro h hh
  obtain rfl : h = ⟨0⟩ := by simpa [pairView, Value.handles, Value.handlesOfEntries] using hh
  decide

/-- A sink that is full inside the second of two nested blocks, each of which goes through an
enumerator. The text of the template can be had from what is left. -/
theorem rewinds_and_repeats_of_full_sink :
    ∃ (after : StreamState) (drained : List Handle),
      renderToWithin 20 freshlySettings "<#s><#freshly><upper .></freshly></s>" .invariant pairView
          ⟨pairStore, .new (some 3) false⟩ =
        some (.error (.sink .full), after) ∧
      watchWithin .stream 20 freshlySettings "<#s><#freshly><upper .></freshly></s>" .invariant
          pairView pairStore (.new (some 3) false) =
        some (.error (.sink .full), ⟨after.store, after.sink, drained⟩) ∧
      pairStore.Rewound drained after.store ∧
      ∃ again, renderWithin 20 freshlySettings "<#s><#freshly><upper .></freshly></s>" .invariant
        pairView after.store = some (.ok "XYXY", again) := by
  obtain ⟨-, hstream, hrepeats⟩ := rewinds_and_repeats 20 freshlySettings
    "<#s><#freshly><upper .></freshly></s>" .invariant pairView
    fun helper h => (reach_freshlySettings h).1
  -- The text has four bytes, and the sink has room for three.
  obtain ⟨ended, htext⟩ : ∃ ended, renderWithin 20 freshlySettings
      "<#s><#freshly><upper .></freshly></s>" .invariant pairView pairStore =
        some (.ok "XYXY", ended) := by
    rw [renderWithin, compile_freshlySettings]
    exact exists_of_map_toOption (by decide +kernel)
  obtain ⟨after, hfull⟩ : ∃ after, renderToWithin 20 freshlySettings
      "<#s><#freshly><upper .></freshly></s>" .invariant pairView
        ⟨pairStore, .new (some 3) false⟩ = some (.error (.sink .full), after) := by
    obtain ⟨emitted, hemitted, hemits⟩ := exists_emits htext
    have hbytes : emitted = encode "XYXY".toList := hemitted "XYXY" rfl
    have hlength : (encode "XYXY".toList).length = 4 := by decide
    have hwrite : (Sink.write (.new (some 3) false) emitted).1 = .error .full :=
      Sink.write_of_lt rfl (by rw [hbytes, hlength]; omega)
    obtain ⟨stopped, hrun⟩ := (hemits (.new (some 3) false) rfl).2 .full _ (Prod.ext hwrite rfl)
    exact ⟨_, hrun⟩
  obtain ⟨drained, hwatched, hrewound⟩ := hstream _ after _ hfull
  refine ⟨after, drained, hfull, hwatched, hrewound, ?_⟩
  -- What is left of the store by the first render gives the text to the second one.
  refine (hrepeats _ ?_ closed_pairStore within_pairView ?_ after.store
    (.inr ⟨_, _, after, hfull, rfl⟩)).1 _ ended htext
  · intro h e he
    rw [eq_of_find?_pairStore he]
    rfl
  · intro helper h
    exact (reach_freshlySettings h).2 _

end Stencil
