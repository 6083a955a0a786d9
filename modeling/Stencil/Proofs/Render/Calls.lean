import Stencil.Proofs.Value.Renaming

/-!
# `Stencil.Proofs.Render.Calls`: what rules call helpers for

A rule calls at most one helper for a token. What it makes of the token is then determined by the
value of that call (`RenderRule.act_eq`). The store is changed by the call alone.

So what is shown for renamed values is the renamed action (`RenderRule.outcome_rename`), without
another look at the store.
-/

set_option autoImplicit false

namespace Stencil

/-- A call of a helper by a rule. -/
structure RuleCall where
  registry : Registry
  name : String
  args : List Argument
  body : Option String

/-- The value of the call in a scope, and the store after it. -/
def RuleCall.run (c : RuleCall) (cx : RenderContext) (scope : Scope) (store : Store) :
    Value × Store :=
  cx.callHelper scope c.body c.registry c.name c.args store

/-- The rule that shows a token accepts it. -/
theorem Settings.accepts_of_ruleFor? {s : Settings} {token : Token} {rule : RenderRule}
    (h : s.ruleFor? token = some rule) : rule.accepts token = true :=
  List.find?_some (p := fun rule : RenderRule => rule.accepts token) h

namespace RenderRule

/-- The call that a rule makes for a token that it accepts. -/
def call? : RenderRule → Token → Option RuleCall
  | .helperCall r, .call c => some ⟨r, c.name, c.args, none⟩
  | .helperSection r, .block b _ => some ⟨r, b.name, b.args, some b.body⟩
  | .invertedHelperSection r, .block b _ => some ⟨r, b.name, b.args, some b.body⟩
  | _, _ => none

/-- What a rule makes of a token that it accepts, given the value of the call. -/
def outcome (cx : RenderContext) (scope : Scope) : RenderRule → Token → Value → Action
  | .text, .text literal, _ => .write literal
  | .interpolation, .interpolation i, _ => .write (cx.interpolate scope i)
  | .plainSection, .block b children, _ =>
    .block (.ofValue cx.settings false (scope.lookup b.name)) b children
  | .invertedSection, .block b children, _ =>
    .block (if (scope.lookup b.name).isTruthy then .skip else .here) b children
  | .helperCall _, .call _, v => .write (v.format cx.locale)
  | .helperSection _, .block b children, v => .block (.ofValue cx.settings true v) b children
  | .invertedHelperSection _, .block b children, v =>
    .block (if v.isTruthy then .skip else .here) b children
  | .custom _ shown, token, _ => .write (shown token)
  | _, _, _ => .write ""

variable {cx : RenderContext} {scope : Scope} {rule : RenderRule} {token : Token}

/-- What a rule does is to make its call, if any, and to go on with the value of that. -/
theorem act_eq (store : Store) (haccepts : rule.accepts token = true) :
    rule.act cx scope token store =
      match rule.call? token with
      | none => (rule.outcome cx scope token .null, store)
      | some c =>
        let (v, store) := c.run cx scope store
        (rule.outcome cx scope token v, store) := by
  unfold act
  simp only [haccepts, Bool.not_true, Bool.false_eq_true, if_false]
  -- Where the rule and the token do not fit, both sides write nothing.
  cases rule <;> cases token <;> rfl

/-- A rule without a call leaves the store as it is. -/
theorem act_of_not_calls (store : Store) (haccepts : rule.accepts token = true)
    (hcall : rule.call? token = none) :
    rule.act cx scope token store = (rule.outcome cx scope token .null, store) := by
  rw [act_eq store haccepts, hcall]

/-- A rule with a call changes the store by that alone. -/
theorem act_of_calls {c : RuleCall} (store : Store) (haccepts : rule.accepts token = true)
    (hcall : rule.call? token = some c) :
    rule.act cx scope token store =
      (rule.outcome cx scope token (c.run cx scope store).1, (c.run cx scope store).2) := by
  rw [act_eq store haccepts, hcall]

end RenderRule

/-! ### What a token asks for -/

namespace Token

/-- The rule for a token calls a helper, in some context and with some values. -/
def Calls (cx : RenderContext) (scope : Scope) (token : Token) (helper : Helper)
    (hcx : HelperContext) (values : List Value) : Prop :=
  ∃ rule call, cx.settings.ruleFor? token = some rule ∧ rule.call? token = some call ∧
    hcx = cx.helperContext scope call.body ∧
    call.registry.prepare hcx call.name call.args = .ok (helper, values)

/-- What a token asks for, given the value of the call. -/
def outcome (cx : RenderContext) (scope : Scope) (token : Token) (v : Value) : Action :=
  match cx.settings.ruleFor? token with
  | some rule => rule.outcome cx scope token v
  | none => .write ""

/-- A token calls a helper, which gives the value that it makes its action of and alone changes the
store. Or none is called, or the call fails, and its action is the one for null. -/
theorem act_cases (cx : RenderContext) (scope : Scope) (token : Token) :
    (∀ store, token.act cx scope store = (token.outcome cx scope .null, store)) ∨
      ∃ helper hcx values, token.Calls cx scope helper hcx values ∧
        ∀ store, token.act cx scope store =
          (token.outcome cx scope (helper.run hcx values store).1,
            (helper.run hcx values store).2) := by
  cases hrule : cx.settings.ruleFor? token with
  | none =>
    refine .inl fun store => ?_
    rw [act, outcome, hrule]
  | some rule =>
    have haccepts := Settings.accepts_of_ruleFor? hrule
    have hact : ∀ store, token.act cx scope store = rule.act cx scope token store := by
      intro store
      rw [act, hrule]
    have houtcome : token.outcome cx scope = rule.outcome cx scope token := by
      funext v
      rw [outcome, hrule]
    rw [houtcome]
    cases hcall : rule.call? token with
    | none =>
      refine .inl fun store => ?_
      rw [hact, RenderRule.act_of_not_calls store haccepts hcall]
    | some c =>
      cases hprepare : c.registry.prepare (cx.helperContext scope c.body) c.name c.args with
      -- A call that is refused gives null and leaves the store alone.
      | error refusal =>
        refine .inl fun store => ?_
        rw [hact, RenderRule.act_of_calls store haccepts hcall, RuleCall.run,
          RenderContext.callHelper, Registry.call, hprepare]
      | ok prepared =>
        obtain ⟨helper, values⟩ := prepared
        refine .inr ⟨helper, _, values, ⟨rule, c, hrule, hcall, rfl, hprepare⟩, fun store => ?_⟩
        rw [hact, RenderRule.act_of_calls store haccepts hcall, RuleCall.run,
          RenderContext.callHelper, Registry.call, hprepare]

end Token

/-! ### Other handles -/

/-- The plan with other handles. -/
def BlockPlan.rename (f : Handle → Handle) : BlockPlan → BlockPlan
  | .skip => .skip
  | .here => .here
  | .reparse text => .reparse text
  | .each values => .each (values.map (Value.rename f))
  | .drain handle => .drain (f handle)
  | .once v => .once (v.rename f)

/-- The action with other handles. -/
def Action.rename (f : Handle → Handle) : Action → Action
  | .write text => .write text
  | .block plan b children => .block (plan.rename f) b children

/-- How a block deals with its children is decided by the value, not by the handles in it. -/
theorem BlockPlan.ofValue_rename (f : Handle → Handle) (s : Settings) (ofHelper : Bool)
    (v : Value) : ofValue s ofHelper (v.rename f) = (ofValue s ofHelper v).rename f := by
  cases v with
  | null => rfl
  | bool b => cases b <;> rfl
  | int x => rfl
  | float x => rfl
  -- Only a text of a helper is parsed, and only if it is not empty.
  | str text =>
    cases htext : text != "" <;> cases ofHelper <;>
      simp [ofValue, Value.rename, Value.isTruthy, rename, htext]
  | list values =>
    have htruthy := Value.isTruthy_rename f (.list values)
    rw [Value.rename_list] at htruthy ⊢
    simp only [ofValue, htruthy]
    cases (Value.list values).isTruthy with
    | false => rfl
    | true =>
      cases s.excluded.contains .list with
      | false => rfl
      | true => exact congrArg once (Value.rename_list f values).symm
  | map entries => rfl
  | iter handle =>
    simp only [ofValue, Value.rename, Value.isTruthy]
    cases s.excluded.contains .iter <;> rfl

/-- The text of an interpolation does not depend on the handles in the scope. -/
theorem RenderContext.interpolate_rename (f : Handle → Handle) (cx : RenderContext)
    (scope : Scope) (i : Interpolation) :
    cx.interpolate (scope.rename f) i = cx.interpolate scope i := by
  simp only [interpolate, Scope.lookup_rename, Value.format_rename]

/-- A block for the absence of a value. -/
theorem BlockPlan.rename_inverted (f : Handle → Handle) (v : Value) :
    (if (v.rename f).isTruthy then BlockPlan.skip else .here) =
      (if v.isTruthy then BlockPlan.skip else .here).rename f := by
  rw [Value.isTruthy_rename]
  split <;> rfl

/-- A rule makes the same of a token under other handles. -/
theorem RenderRule.outcome_rename (f : Handle → Handle) (cx : RenderContext) (scope : Scope)
    (rule : RenderRule) (token : Token) (v : Value) :
    rule.outcome cx (scope.rename f) token (v.rename f) =
      (rule.outcome cx scope token v).rename f := by
  unfold outcome
  split
  · rfl
  · exact congrArg Action.write (RenderContext.interpolate_rename f cx scope _)
  · rw [Scope.lookup_rename, BlockPlan.ofValue_rename]
    rfl
  · rw [Scope.lookup_rename, BlockPlan.rename_inverted]
    rfl
  · exact congrArg Action.write (Value.format_rename f cx.locale v)
  · rw [BlockPlan.ofValue_rename]
    rfl
  · rw [BlockPlan.rename_inverted]
    rfl
  · rfl
  · rfl

end Stencil
