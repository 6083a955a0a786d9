import Stencil.Proofs.Additions
import Stencil.Proofs.Helper.WellTyped
import Stencil.Proofs.Render.Calls
import Stencil.Proofs.Render.Watch

/-!
# `Stencil.Proofs.Render.Rewinding`: blocks put enumerators back

A block that goes through an enumerator puts it back to its first value, however it ends. So a whole
render leaves every enumerator that a block went through at its first value, and every other one
where it was, provided that helpers keep their hands off (`Store.Rewound`).

While a block goes through an enumerator, that one may stand anywhere. `Store.Rewinds` leaves out
such a loose enumerator. The relation holds of one store and itself, carries over from one
computation to the next (`Rewinds.trans`), and loses the loose enumerator when that is reset
(`Rewinds.reset`). `Watch.winds_all` is the induction on the budget.
-/

set_option autoImplicit false

namespace Stencil

/-! ### Stores -/

/-- Putting an enumerator back twice is putting it back once. -/
theorem Enumerator.rewind_rewind (e : Enumerator) : e.rewind.rewind = e.rewind := rfl

namespace Store

/-- The enumerators of a store are still where they were. There may be new ones, which stand at
their first value. -/
structure Extends (before after : Store) : Prop where
  kept : ∀ (h : Handle) (e : Enumerator), before.find? h = some e → after.find? h = some e
  made : ∀ (h : Handle) (e : Enumerator), before.find? h = none → after.find? h = some e →
    e = e.rewind

/-- Some enumerators were put back to their first value. The others are where they were, and new
ones stand at their first value. -/
structure Rewound (before : Store) (drained : List Handle) (after : Store) : Prop where
  reset : ∀ h ∈ drained, ∀ e : Enumerator, before.find? h = some e →
    after.find? h = some e.rewind
  kept : ∀ h ∉ drained, ∀ e : Enumerator, before.find? h = some e → after.find? h = some e
  made : ∀ (h : Handle) (e : Enumerator), before.find? h = none → after.find? h = some e →
    e = e.rewind

/-- The same with the exception of one enumerator, which has the same values, but may stand at any
of them. -/
structure Rewinds (loose : Option Handle) (before : Store) (drained : List Handle)
    (after : Store) : Prop where
  kept : ∀ (h : Handle) (e : Enumerator), before.find? h = some e →
    ∃ e', after.find? h = some e' ∧ e'.values = e.values ∧
      (loose ≠ some h → e' = if h ∈ drained then e.rewind else e)
  made : ∀ (h : Handle) (e : Enumerator), before.find? h = none → after.find? h = some e →
    loose ≠ some h → e = e.rewind

/-- A store whose enumerators are still where they were is kept as said, with none put back. -/
theorem rewinds_of_extends {before after : Store} (h : before.Extends after)
    (loose : Option Handle) : Rewinds loose before [] after where
  kept handle e he := ⟨e, h.kept handle e he, rfl, fun _ => by simp⟩
  made handle e hnone he _ := h.made handle e hnone he

/-- Every store follows from itself. -/
theorem extends_refl (s : Store) : s.Extends s where
  kept _ _ h := h
  made h e hnone he := by simp [hnone] at he

/-- A new enumerator leaves those that are there where they are. -/
theorem extends_fresh (s : Store) (values : List Value) : s.Extends (s.fresh values).2 where
  kept h e he := by
    have hlt : h.index < s.enumerators.size := (Array.getElem?_eq_some_iff.1 he).1
    show (s.enumerators.push _)[h.index]? = some e
    rw [Array.getElem?_push_lt hlt]
    exact (Array.getElem?_eq_getElem hlt).symm.trans he
  made h e hnone he := by
    have hle : s.enumerators.size ≤ h.index := Array.getElem?_eq_none_iff.1 hnone
    have hfind : (s.enumerators.push (.atStart values))[h.index]? = some e := he
    rw [Array.getElem?_push] at hfind
    -- What was not there before is the new enumerator, or still not there.
    split at hfind
    · obtain rfl := Option.some.inj hfind
      rfl
    · have hold : s.find? h = some e := hfind
      rw [hnone] at hold
      cases hold

/-- Every store is kept as said if nothing happens. -/
theorem rewinds_refl (loose : Option Handle) (s : Store) : Rewinds loose s [] s :=
  rewinds_of_extends s.extends_refl loose

namespace Rewinds

variable {loose : Option Handle} {before mid after : Store} {first second drained : List Handle}

/-- A store that is kept with no exception is kept with one. -/
theorem loosen (h : Rewinds none before drained after) (loose : Option Handle) :
    Rewinds loose before drained after where
  kept handle e he := by
    obtain ⟨e', he', hvalues, hplace⟩ := h.kept handle e he
    exact ⟨e', he', hvalues, fun _ => hplace (by simp)⟩
  made handle e hnone he _ := h.made handle e hnone he (by simp)

/-- What one computation does to a store and then another one. -/
theorem trans (h : Rewinds loose before first mid) (h' : Rewinds loose mid second after) :
    Rewinds loose before (first ++ second) after where
  kept handle e he := by
    obtain ⟨e', he', hvalues, hplace⟩ := h.kept handle e he
    obtain ⟨e'', he'', hvalues', hplace'⟩ := h'.kept handle e' he'
    refine ⟨e'', he'', hvalues'.trans hvalues, ?_⟩
    intro hloose
    rw [hplace' hloose, hplace hloose]
    by_cases hfirst : handle ∈ first
    · -- It stays at its first value from there on.
      simp [hfirst, Enumerator.rewind_rewind]
    · simp [hfirst]
  made handle e hnone he hloose := by
    cases hmid : mid.find? handle with
    | none => exact h'.made handle e hmid he hloose
    | some e' =>
      have hstart : e' = e'.rewind := h.made handle e' hnone hmid hloose
      obtain ⟨e'', he'', _, hplace⟩ := h'.kept handle e' hmid
      obtain rfl := Option.some.inj (he''.symm.trans he)
      -- The first part made it at its first value, where the second part leaves it.
      rw [hplace hloose, ← hstart, ite_self]
      exact hstart

/-- A loose enumerator that is reset is put back, whatever happened to it. -/
theorem reset {handle : Handle} (h : Rewinds (some handle) before drained after) :
    Rewinds none before (handle :: drained) (after.reset handle) where
  kept other e he := by
    obtain ⟨e', he', hvalues, hplace⟩ := h.kept other e he
    by_cases heq : other = handle
    · -- Wherever it stands, its values are those that it had.
      subst heq
      refine ⟨e'.rewind, ?_, hvalues, fun _ => ?_⟩
      · rw [Store.reset, find?_update_self, he']
        rfl
      · simp [Enumerator.rewind, hvalues]
    · refine ⟨e', ?_, hvalues, fun _ => ?_⟩
      · rw [find?_reset_of_ne _ heq, he']
      · have hother : some handle ≠ some other := by simpa [eq_comm] using heq
        rw [hplace hother]
        simp [heq]
  made other e hnone he _ := by
    by_cases heq : other = handle
    · subst heq
      rw [Store.reset, find?_update_self] at he
      obtain ⟨e', _, rfl⟩ := Option.map_eq_some_iff.1 he
      rfl
    · rw [find?_reset_of_ne _ heq] at he
      exact h.made other e hnone he (by simpa [eq_comm] using heq)

/-- Without an exception, the enumerators are put back or kept. -/
theorem rewound (h : Rewinds none before drained after) : Rewound before drained after where
  reset handle hmem e he := by
    obtain ⟨e', he', _, hplace⟩ := h.kept handle e he
    rw [he', hplace (by simp), if_pos hmem]
  kept handle hmem e he := by
    obtain ⟨e', he', _, hplace⟩ := h.kept handle e he
    rw [he', hplace (by simp), if_neg hmem]
  made handle e hnone he := h.made handle e hnone he (by simp)

end Rewinds

/-- A step of an enumerator keeps all others where they are. -/
theorem rewinds_next (s : Store) (handle : Handle) :
    Rewinds (some handle) s [] (s.next handle).2 where
  kept other e he := by
    by_cases heq : other = handle
    · subst heq
      refine ⟨e.advance, ?_, rfl, fun hne => absurd rfl hne⟩
      rw [next, he]
      show (s.update other Enumerator.advance).find? other = _
      rw [find?_update_self, he]
      rfl
    · refine ⟨e, ?_, rfl, fun _ => by simp⟩
      rw [find?_next_of_ne _ heq, he]
  made other e hnone he hloose := by
    have heq : other ≠ handle := by simpa [eq_comm] using hloose
    rw [find?_next_of_ne _ heq, hnone] at he
    cases he

end Store

/-! ### Helpers that keep their hands off -/

/-- A helper leaves the enumerators alone that are there. It may make new ones. -/
def Helper.LeavesAlone (h : Helper) : Prop :=
  ∀ (cx : HelperContext) (values : List Value) (store : Store),
    store.Extends (h.run cx values store).2

/-- The registry of a rule that calls helpers. -/
def RenderRule.registry? : RenderRule → Option Registry
  | .helperCall r => some r
  | .helperSection r => some r
  | .invertedHelperSection r => some r
  | _ => none

/-- The helpers that an engine can call. -/
def Settings.HasHelper (s : Settings) (h : Helper) : Prop :=
  ∃ rule ∈ s.rules, ∃ registry name, rule.registry? = some registry ∧ registry.get? name = some h

/-- A helper that an engine has after an addition was added or was there before. -/
theorem Settings.HasHelper.of_add {s : Settings} {a : Addition} {h : Helper}
    (hh : (s.add a).HasHelper h) : s.HasHelper h ∨ ∃ name, a.registry.get? name = some h := by
  obtain ⟨rule, hrule, registry, name, hregistry, hget⟩ := hh
  have hnew : rule ∈ s.rules ∨ registry = a.registry := by
    cases a with
    | inline r =>
      rcases List.mem_append.1 hrule with hold | hnew
      · exact .inl hold
      · obtain rfl := List.mem_singleton.1 hnew
        exact .inr (Option.some.inj hregistry).symm
    | sections r =>
      rcases List.mem_append.1 hrule with hmid | hnew
      · rcases List.mem_append.1 hmid with hold | hnew
        · exact .inl hold
        · obtain rfl := List.mem_singleton.1 hnew
          exact .inr (Option.some.inj hregistry).symm
      · obtain rfl := List.mem_singleton.1 hnew
        exact .inr (Option.some.inj hregistry).symm
  rcases hnew with hold | rfl
  · exact .inl ⟨rule, hold, registry, name, hregistry, hget⟩
  · exact .inr ⟨name, hget⟩

/-- A stock engine has no helpers. -/
theorem Settings.not_hasHelper_stock (h : Helper) : ¬ Settings.stock.HasHelper h := by
  rintro ⟨rule, hrule, registry, name, hregistry, hget⟩
  have hnone : ∀ rule ∈ Settings.stockRules, rule.registry? = none := by
    simp [Settings.stockRules, RenderRule.registry?]
  rw [hnone rule hrule] at hregistry
  cases hregistry

section Helpers

variable {cx : RenderContext} {scope : Scope}

/-- The helper that a rule calls for a token is one of the engine. -/
theorem Settings.hasHelper_of_call {s : Settings} {token : Token} {rule : RenderRule}
    {c : RuleCall} {name : String} {helper : Helper} (hrule : s.ruleFor? token = some rule)
    (hcall : rule.call? token = some c) (hget : c.registry.get? name = some helper) :
    s.HasHelper helper := by
  have hregistry : rule.registry? = some c.registry := by
    unfold RenderRule.call? at hcall
    split at hcall
    · obtain rfl := Option.some.inj hcall
      rfl
    · obtain rfl := Option.some.inj hcall
      rfl
    · obtain rfl := Option.some.inj hcall
      rfl
    · cases hcall
  exact ⟨rule, List.mem_of_find?_eq_some hrule, c.registry, name, hregistry, hget⟩

/-- The helper that a token calls is one of the engine. -/
theorem Token.Calls.hasHelper {token : Token} {helper : Helper} {hcx : HelperContext}
    {values : List Value} (h : token.Calls cx scope helper hcx values) :
    cx.settings.HasHelper helper := by
  obtain ⟨rule, call, hrule, hcall, _, hprepare⟩ := h
  exact Settings.hasHelper_of_call hrule hcall (Registry.prepare_passes hprepare).1

/-- What a token asks for leaves enumerators alone, if the helpers do. -/
theorem Token.extends_act {token : Token} {store : Store}
    (h : ∀ helper, cx.settings.HasHelper helper → helper.LeavesAlone) :
    store.Extends (token.act cx scope store).2 := by
  rcases token.act_cases cx scope with hact | ⟨helper, hcx, values, hcalls, hact⟩
  · rw [hact]
    exact store.extends_refl
  · rw [hact]
    exact h helper hcalls.hasHelper hcx values store

end Helpers

/-! ### Watched renders -/

namespace Watch

variable {ε σ α β : Type}

/-- A watched computation keeps enumerators as `Store.Rewinds` says, with those that it notes. -/
def Winds (loose : Option Handle) (w : Watch ε σ α) : Prop :=
  ∀ (state state' : WatchState σ) (result : Except ε α), w state = some (result, state') →
    ∃ drained, state'.drained = state.drained ++ drained ∧
      Store.Rewinds loose state.store drained state'.store

section Winds

variable {loose : Option Handle} {w : Watch ε σ α}

/-- A computation that leaves the store as it is, and notes nothing. -/
theorem winds_of_same (h : ∀ (state state' : WatchState σ) (result : Except ε α),
    w state = some (result, state') →
      state'.drained = state.drained ∧ state'.store = state.store) : Winds loose w := by
  intro state state' result hw
  obtain ⟨hdrained, hstore⟩ := h _ _ _ hw
  refine ⟨[], by rw [hdrained, List.append_nil], ?_⟩
  rw [hstore]
  exact Store.rewinds_refl loose state.store

/-- What has used up a budget does nothing to the store. -/
theorem winds_exhausted : Winds loose (exhausted : Watch ε σ α) := by
  intro state state' result h
  cases h

/-- Doing nothing keeps the store. -/
theorem winds_pure (a : α) : Winds loose (pure a : Watch ε σ α) := by
  refine winds_of_same ?_
  rintro state state' result ⟨⟩
  exact ⟨rfl, rfl⟩

/-- A failure keeps the store. -/
theorem winds_throw (e : ε) : Winds loose (throw e : Watch ε σ α) := by
  refine winds_of_same ?_
  rintro state state' result ⟨⟩
  exact ⟨rfl, rfl⟩

/-- Writing keeps the store. -/
theorem winds_write (o : Output ε σ) (text : String) : Winds loose (write o text) := by
  refine winds_of_same ?_
  rintro state state' result ⟨⟩
  exact ⟨rfl, rfl⟩

/-- A flush keeps the store. -/
theorem winds_flush (o : Output ε σ) : Winds loose (flush o) := by
  refine winds_of_same ?_
  rintro state state' result ⟨⟩
  exact ⟨rfl, rfl⟩

/-- A change of the store that keeps its enumerators notes none of them. -/
theorem winds_step {f : Store → α × Store}
    (h : ∀ store, Store.Rewinds loose store [] (f store).2) :
    Winds loose (step f : Watch ε σ α) := by
  rintro state state' result ⟨⟩
  exact ⟨[], (List.append_nil _).symm, h state.store⟩

/-- A computation that keeps all enumerators keeps all but one. -/
theorem winds_loosen (h : Winds none w) (loose : Option Handle) : Winds loose w := by
  intro state state' result hw
  obtain ⟨drained, hdrained, hrewinds⟩ := h _ _ _ hw
  exact ⟨drained, hdrained, hrewinds.loosen loose⟩

/-- Computations one after the other. -/
theorem winds_bind {k : α → Watch ε σ β} (h : Winds loose w) (h' : ∀ a, Winds loose (k a)) :
    Winds loose (w >>= k) := by
  intro state state' result hw
  rcases cases_of_bind hw with ⟨e, hfailed, rfl⟩ | ⟨a, mid, hfirst, hsecond⟩
  · exact h _ _ _ hfailed
  · -- Without an error the notes of both are added up.
    obtain ⟨first, hnoted, hrewinds⟩ := h _ _ _ hfirst
    obtain ⟨second, hnoted', hrewinds'⟩ := h' a _ _ _ hsecond
    refine ⟨first ++ second, ?_, hrewinds.trans hrewinds'⟩
    rw [hnoted', hnoted, List.append_assoc]

/-- A block puts the enumerator back that it has noted. -/
theorem winds_drained {w : Watch ε σ α} {handle : Handle} (h : Winds (some handle) w) :
    Winds none (do note handle; thenAlways w (·.reset handle)) := by
  intro state state' result hw
  have hrun : (thenAlways w (·.reset handle)) { state with drained := state.drained ++ [handle] } =
      some (result, state') := hw
  obtain ⟨⟨result', ended⟩, hended, heq⟩ := Option.map_eq_some_iff.1 hrun
  obtain ⟨rfl, rfl⟩ := Prod.mk.inj heq
  obtain ⟨drained, hdrained, hrewinds⟩ := h _ _ _ hended
  -- The note of the block stands in front of those of its loop.
  refine ⟨handle :: drained, ?_, hrewinds.reset⟩
  rw [hdrained, List.append_assoc]
  rfl

end Winds

/-- Within every budget a watched render keeps enumerators, if the helpers leave them alone. In the
loop of a block its enumerator is loose. -/
theorem winds_all {cx : RenderContext} (o : Output ε σ)
    (h : ∀ helper, cx.settings.HasHelper helper → helper.LeavesAlone) (fuel : Nat) :
    (∀ scope ts, Winds none (tokens o cx fuel scope ts)) ∧
    (∀ scope action, Winds none (perform o cx fuel scope action)) ∧
    (∀ scope children vs, Winds none (each o cx fuel scope children vs)) ∧
    ∀ scope children handle, Winds (some handle) (drain o cx fuel scope children handle) := by
  induction fuel with
  | zero =>
    refine ⟨fun _ _ => ?_, fun _ _ => ?_, fun _ _ _ => ?_, fun _ _ _ => ?_⟩
    · exact winds_exhausted
    · exact winds_exhausted
    · exact winds_exhausted
    · exact winds_exhausted
  | succ fuel ih =>
    obtain ⟨ihTokens, ihPerform, ihEach, ihDrain⟩ := ih
    refine ⟨?_, ?_, ?_, ?_⟩
    · intro scope ts
      cases ts with
      | nil => exact winds_pure ()
      | cons token rest =>
        rw [tokens]
        have hact : ∀ store, Store.Rewinds none store [] (token.act cx scope store).2 := by
          intro store
          exact Store.rewinds_of_extends (Token.extends_act h) none
        exact winds_bind (winds_step hact) fun action =>
          winds_bind (ihPerform scope action) fun _ => ihTokens scope rest
    · intro scope action
      cases action with
      | write text => exact winds_write o text
      | block plan b children =>
        cases plan with
        | skip => exact winds_pure ()
        | here => exact ihTokens scope children
        | reparse text =>
          rw [perform]
          cases cx.settings.pipeline.parse text b.delimiters with
          | error e => exact winds_throw (o.unparsed e)
          | ok parsed => exact ihTokens scope parsed
        | each values => exact ihEach scope children values
        | drain handle => exact winds_drained (ihDrain scope children handle)
        | once v => exact ihTokens (scope.push v) children
    · intro scope children vs
      cases vs with
      | nil => exact winds_pure ()
      | cons v vs =>
        rw [each]
        exact winds_bind (ihTokens (scope.push v) children) fun _ => ihEach scope children vs
    · intro scope children handle
      rw [drain]
      -- A block inside the body may put back the same enumerator, which is loose here anyway.
      refine winds_bind (winds_step fun store => store.rewinds_next handle) fun v? => ?_
      cases v? with
      | none => exact winds_pure ()
      | some v =>
        exact winds_bind (winds_loosen (ihTokens (scope.push v) children) _) fun _ =>
          ihDrain scope children handle

end Watch

/-- A watched render puts back the enumerators that it notes, and leaves the others alone. -/
theorem rewound_of_watchWithin {ε σ : Type} {o : Output ε σ} {budget : Nat} {s : Settings}
    {template : String} {l : Locale} {view : Value} {store : Store} {out : σ}
    {result : Except ε Unit} {after : WatchState σ}
    (hhelpers : ∀ helper, s.HasHelper helper → helper.LeavesAlone)
    (h : watchWithin o budget s template l view store out = some (result, after)) :
    store.Rewound after.drained after.store := by
  rw [watchWithin] at h
  -- A template that cannot be parsed has not come to any block.
  cases hcompile : compile s template with
  | error e =>
    rw [hcompile] at h
    obtain ⟨rfl, rfl⟩ := Prod.mk.inj (Option.some.inj h)
    exact (Store.rewinds_refl none store).rewound
  | ok t =>
    rw [hcompile] at h
    have hwinds : Watch.Winds none (do
        Watch.tokens o ⟨s, l⟩ budget (.root view) t.tokens
        Watch.flush o) :=
      Watch.winds_bind ((Watch.winds_all o hhelpers budget).1 (.root view) t.tokens) fun _ =>
        Watch.winds_flush o
    obtain ⟨drained, hdrained, hrewinds⟩ := hwinds _ _ _ h
    obtain rfl : after.drained = drained := hdrained
    exact hrewinds.rewound

end Stencil
