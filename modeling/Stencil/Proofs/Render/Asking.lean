import Stencil.Proofs.Helper.Enumerating
import Stencil.Proofs.Render.Rewinding

/-!
# `Stencil.Proofs.Render.Asking`: what a token asks for in two engines

Two engines differ by helpers for blocks, some of which give enumerators in place of lists. A token
asks for the same in both, under other handles, or to go through a list in the one and through a new
enumerator over it in the other (`Inclusion.Asks`).

A rule makes its action from the value of a call. So it is enough that calls correspond
(`RuleCall.leads_run_varies`) and that actions for corresponding values do
(`RenderRule.asks_outcome`). `Token.leads_act` puts this together.
-/

set_option autoImplicit false

namespace Stencil

open Inclusion

variable {n m : Nat}

/-- A plan names only the first `n` enumerators of a store. -/
def BlockPlan.Within (n : Nat) : BlockPlan → Prop
  | .each values => ∀ v ∈ values, v.Within n
  | .drain handle => handle.index < n
  | .once v => v.Within n
  | _ => True

/-- An action names only the first `n` enumerators of a store. -/
def Action.Within (n : Nat) : Action → Prop
  | .write _ => True
  | .block plan _ _ => plan.Within n

/-- What corresponding tokens ask for: the same under the handles of the outer store, or to go
through a list in the one engine and through an enumerator over it in the other one. -/
inductive Inclusion.Asks (m : Nat) (i : Inclusion) : Action → Action → Prop
  | same {action action' : Action} (heq : action' = action.rename i.handle)
    (hwithin : action.Within i.inner.enumerators.size) : Asks m i action action'
  | items {vs : List Value} {handle : Handle} (h : i.Stands m vs handle) (b : Block)
    (children : List Token) :
    Asks m i (.block (.each vs) b children) (.block (.drain handle) b children)

/-- The second context has an engine with helpers that give enumerators. -/
structure RenderContext.Varies (cx cx' : RenderContext) : Prop where
  settings : cx.settings.Varies cx'.settings
  locale : cx'.locale = cx.locale

/-- How a block deals with its children names no other enumerators than the value of the block. -/
theorem BlockPlan.within_ofValue {v : Value} (h : v.Within n) (s : Settings) (ofHelper : Bool) :
    (ofValue s ofHelper v).Within n := by
  unfold ofValue
  split
  · trivial
  · cases v with
    | str text => cases ofHelper <;> trivial
    | list values =>
      cases s.excluded.contains .list with
      | false => exact Value.within_list.1 h
      | true => exact h
    | iter handle =>
      cases s.excluded.contains .iter with
      | false => exact h handle (List.mem_singleton.2 rfl)
      | true => exact h
    | _ => exact h

/-- What a rule makes of a token names no other enumerators than the scope and the value of the
call. -/
theorem RenderRule.within_outcome {cx : RenderContext} {scope : Scope} {v : Value}
    (hscope : scope.Within n) (hv : v.Within n) (rule : RenderRule) (token : Token) :
    (rule.outcome cx scope token v).Within n := by
  unfold outcome
  split
  · trivial
  · trivial
  · exact BlockPlan.within_ofValue (hscope.lookup _) _ _
  · show BlockPlan.Within n (if _ then _ else _)
    split <;> trivial
  · trivial
  · exact BlockPlan.within_ofValue hv _ _
  · show BlockPlan.Within n (if _ then _ else _)
    split <;> trivial
  · trivial
  · trivial

/-- A helper is called with what the scope names. -/
theorem Token.Calls.within {cx : RenderContext} {scope : Scope} {token : Token} {helper : Helper}
    {hcx : HelperContext} {values : List Value} (h : token.Calls cx scope helper hcx values)
    (hscope : scope.Within n) : hcx.scope.Within n ∧ ∀ v ∈ values, v.Within n := by
  obtain ⟨rule, call, _, _, rfl, hprepare⟩ := h
  exact ⟨hscope, Registry.within_prepare hscope hprepare⟩

section Actions

variable {cx cx' : RenderContext} {i j : Inclusion} {scope : Scope}

/-- How a block deals with its children depends on the kinds that are excluded. -/
theorem BlockPlan.ofValue_congr {s s' : Settings} (h : s'.excluded = s.excluded) (ofHelper : Bool)
    (v : Value) : ofValue s' ofHelper v = ofValue s ofHelper v := by
  unfold ofValue
  rw [h]

/-- What a rule makes of a token does not depend on the helpers of the engine. -/
theorem RenderRule.outcome_congr (h : cx.Varies cx') (rule : RenderRule) (scope : Scope)
    (token : Token) (v : Value) :
    rule.outcome cx' scope token v = rule.outcome cx scope token v := by
  obtain ⟨hsettings, hlocale⟩ := h
  have hplan := BlockPlan.ofValue_congr hsettings.excluded
  unfold outcome RenderContext.interpolate
  rw [hlocale]
  simp only [hplan]

/-- The same rule makes the same of a token for corresponding values. -/
theorem RenderRule.asks_outcome (h : cx.Varies cx') {v v' : Value}
    (hscope : scope.Within i.inner.enumerators.size) (hgrows : i.Grows m j)
    (hv : j.Matches v v') (rule : RenderRule) (token : Token) :
    j.Asks m (rule.outcome cx scope token v)
      (rule.outcome cx' (scope.rename i.handle) token v') := by
  refine .same ?_ (within_outcome (hscope.mono hgrows.le) hv.within rule token)
  rw [outcome_congr h, hv.eq, ← hgrows.scope_rename_eq hscope, outcome_rename]

/-- A call does the same in both stores. -/
theorem RuleCall.leads_run (hlocale : cx'.locale = cx.locale) {c : RuleCall}
    (hlocal : ∀ name helper, c.registry.get? name = some helper → helper.Local n)
    (hi : i.Valid n) (hroom : m ≤ i.outer.enumerators.size)
    (hscope : scope.Within i.inner.enumerators.size) :
    i.Leads n m Matches (c.run cx scope i.inner) (c.run cx' (scope.rename i.handle) i.outer) := by
  have hcontext : cx'.helperContext (scope.rename i.handle) c.body =
      (cx.helperContext scope c.body).rename i.handle := by
    rw [RenderContext.helperContext, hlocale]
    rfl
  rw [run, run, RenderContext.callHelper, RenderContext.callHelper, Registry.call, Registry.call,
    hcontext, Registry.prepare_rename]
  cases hprepare : c.registry.prepare (cx.helperContext scope c.body) c.name c.args with
  | error e =>
    refine hi.leads_refl ⟨rfl, ?_⟩
    intro handle hmem
    cases hmem
  | ok prepared =>
    obtain ⟨helper, values⟩ := prepared
    -- What the helper is called with names no other enumerators than the scope.
    have hhelper := hlocal c.name helper (c.registry.prepare_passes hprepare).1
    exact (hhelper i _ values hi hscope (Registry.within_prepare hscope hprepare)).mono hroom

/-- With a registry that varies, a call gives what it gave, or enumerates that. -/
theorem RuleCall.run_varies {c : RuleCall} {r : Registry} (h : c.registry.Varies r)
    (cx : RenderContext) (scope : Scope) (store : Store) :
    ({ c with registry := r } : RuleCall).run cx scope store = c.run cx scope store ∨
      ({ c with registry := r } : RuleCall).run cx scope store =
        enumerated (c.run cx scope store) := by
  simp only [run, RenderContext.callHelper, Registry.call]
  -- Both calls are refused, or find the same helper, or the second one enumerates its list.
  rcases h.prepare (cx.helperContext scope c.body) c.name c.args with
    ⟨e, herror, herror'⟩ | ⟨helper, helper', values, hok, hok', rfl | rfl⟩
  · rw [herror, herror']
    exact .inl rfl
  · rw [hok, hok']
    exact .inl rfl
  · rw [hok, hok']
    exact .inr rfl

/-- In the second engine a call for a block may give an enumerator for a list. -/
theorem RuleCall.leads_run_varies (hlocale : cx'.locale = cx.locale) {c : RuleCall} {r : Registry}
    (hvaries : c.registry.Varies r)
    (hlocal : ∀ name helper, c.registry.get? name = some helper → helper.Local n)
    (hi : i.Valid n) (hroom : m ≤ i.outer.enumerators.size)
    (hscope : scope.Within i.inner.enumerators.size) :
    i.Leads n m (Gives m) (c.run cx scope i.inner)
      (({ c with registry := r } : RuleCall).run cx' (scope.rename i.handle) i.outer) := by
  have hsame := leads_run hlocale hlocal hi hroom hscope
  rcases run_varies hvaries cx' (scope.rename i.handle) i.outer with hrun | hrun
  · rw [hrun]
    exact hsame.imp fun _ _ _ h => .same h
  · rw [hrun]
    exact hsame.enumerated_outer hroom

/-- A block goes through the items of a list that is not empty. -/
theorem BlockPlan.ofValue_list {s : Settings} (h : ValueKind.list ∉ s.excluded) (ofHelper : Bool)
    {vs : List Value} (hne : vs ≠ []) : ofValue s ofHelper (.list vs) = .each vs := by
  cases vs with
  | nil => exact absurd rfl hne
  | cons v vs =>
    have hexcluded : s.excluded.contains .list = false := by simpa using h
    unfold ofValue
    simp only [hexcluded]
    rfl

/-- A block goes through an enumerator. -/
theorem BlockPlan.ofValue_iter {s : Settings} (h : ValueKind.iter ∉ s.excluded) (ofHelper : Bool)
    (handle : Handle) : ofValue s ofHelper (.iter handle) = .drain handle := by
  have hexcluded : s.excluded.contains .iter = false := by simpa using h
  unfold ofValue
  simp only [hexcluded]
  rfl

/-- A block for a helper goes through a list in the one engine and through an enumerator over it in
the other. -/
theorem RenderRule.asks_outcome_helperSection (h : cx.Varies cx')
    (hlist : ValueKind.list ∉ cx.settings.excluded) (hiter : ValueKind.iter ∉ cx.settings.excluded)
    (hscope : scope.Within i.inner.enumerators.size) (hgrows : i.Grows m j) {v v' : Value}
    (hgives : j.Gives m v v') (r r' : Registry) (b : Block) (children : List Token) :
    j.Asks m ((RenderRule.helperSection r).outcome cx scope (.block b children) v)
      ((RenderRule.helperSection r').outcome cx' (scope.rename i.handle) (.block b children) v') := by
  cases hgives with
  | same hv => exact asks_outcome h hscope hgrows hv (.helperSection r) (.block b children)
  | items hne hstands =>
    have hiter' : ValueKind.iter ∉ cx'.settings.excluded := by
      rw [h.settings.excluded]
      exact hiter
    rw [outcome, outcome, BlockPlan.ofValue_list hlist true hne, BlockPlan.ofValue_iter hiter' true]
    exact .items hstands b children

/-- Neither a list that is not empty nor an enumerator is absent. -/
theorem RenderRule.asks_outcome_invertedHelperSection (h : cx.Varies cx')
    (hscope : scope.Within i.inner.enumerators.size) (hgrows : i.Grows m j) {v v' : Value}
    (hgives : j.Gives m v v') (r r' : Registry) (b : Block) (children : List Token) :
    j.Asks m ((RenderRule.invertedHelperSection r).outcome cx scope (.block b children) v)
      ((RenderRule.invertedHelperSection r').outcome cx' (scope.rename i.handle)
        (.block b children) v') := by
  cases hgives with
  | same hv => exact asks_outcome h hscope hgrows hv (.invertedHelperSection r) (.block b children)
  | @items vs handle hne hstands =>
    cases vs with
    -- An empty list is absent, but no enumerator stands for that.
    | nil => exact absurd rfl hne
    | cons v vs => exact .same rfl trivial

/-- A rule and one that varies make corresponding actions of a token. -/
theorem RenderRule.leads_act (h : cx.Varies cx') (hlist : ValueKind.list ∉ cx.settings.excluded)
    (hiter : ValueKind.iter ∉ cx.settings.excluded) {rule rule' : RenderRule} {token : Token}
    (hvaries : rule.Varies rule') (haccepts : rule.accepts token = true)
    (hlocal : ∀ c name helper, rule.call? token = some c → c.registry.get? name = some helper →
      helper.Local n)
    (hi : i.Valid n) (hroom : m ≤ i.outer.enumerators.size)
    (hscope : scope.Within i.inner.enumerators.size) :
    i.Leads n m (Asks m) (rule.act cx scope token i.inner)
      (rule'.act cx' (scope.rename i.handle) token i.outer) := by
  have haccepts' : rule'.accepts token = true := (hvaries.accepts_eq token).trans haccepts
  cases hvaries with
  | same =>
    cases hcall : rule.call? token with
    | none =>
      rw [act_of_not_calls _ haccepts hcall, act_of_not_calls _ haccepts' hcall]
      refine hi.leads_refl (asks_outcome h hscope hi.grows_refl ⟨rfl, ?_⟩ rule token)
      intro handle hmem
      cases hmem
    | some c =>
      have hrun := RuleCall.leads_run h.locale (fun name helper => hlocal c name helper hcall) hi
        hroom hscope
      rw [act_of_calls _ haccepts hcall, act_of_calls _ haccepts' hcall]
      exact hrun.map fun j v v' hgrows hv => asks_outcome h hscope hgrows hv rule token
  | @helperSection r r' hr =>
    cases token with
    | block b children =>
      have hrun := RuleCall.leads_run_varies (c := ⟨r, b.name, b.args, some b.body⟩) h.locale hr
        (fun name helper => hlocal _ name helper rfl) hi hroom hscope
      rw [act_of_calls _ haccepts rfl, act_of_calls _ haccepts' rfl]
      exact hrun.map fun j v v' hgrows hgives =>
        asks_outcome_helperSection h hlist hiter hscope hgrows hgives r r' b children
    | _ => cases haccepts
  | @invertedHelperSection r r' hr =>
    cases token with
    | block b children =>
      have hrun := RuleCall.leads_run_varies (c := ⟨r, b.name, b.args, some b.body⟩) h.locale hr
        (fun name helper => hlocal _ name helper rfl) hi hroom hscope
      rw [act_of_calls _ haccepts rfl, act_of_calls _ haccepts' rfl]
      exact hrun.map fun j v v' hgrows hgives =>
        asks_outcome_invertedHelperSection h hscope hgrows hgives r r' b children
    | _ => cases haccepts

/-- A token asks for corresponding actions in both engines. -/
theorem Token.leads_act (h : cx.Varies cx') (hlist : ValueKind.list ∉ cx.settings.excluded)
    (hiter : ValueKind.iter ∉ cx.settings.excluded)
    (hlocal : ∀ helper, cx.settings.HasHelper helper → helper.Local n) (hi : i.Valid n)
    (hroom : m ≤ i.outer.enumerators.size) (hscope : scope.Within i.inner.enumerators.size)
    (token : Token) :
    i.Leads n m (Asks m) (token.act cx scope i.inner)
      (token.act cx' (scope.rename i.handle) i.outer) := by
  rw [act, act]
  -- Both engines have a rule for the token, or neither of them has one.
  rcases h.settings.ruleFor? token with ⟨hnone, hnone'⟩ | ⟨rule, rule', hrule, hrule', hvaries⟩
  · rw [hnone, hnone']
    exact hi.leads_refl (.same rfl trivial)
  · rw [hrule, hrule']
    refine RenderRule.leads_act h hlist hiter hvaries (Settings.accepts_of_ruleFor? hrule) ?_ hi
      hroom hscope
    intro c name helper hcall hget
    exact hlocal helper (Settings.hasHelper_of_call hrule hcall hget)

end Actions

end Stencil
