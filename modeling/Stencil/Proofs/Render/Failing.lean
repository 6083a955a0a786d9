import Mathlib.Logic.Function.Iterate
import Stencil.Proofs.Render.Reentry

/-!
# `Stencil.Proofs.Render.Failing`: a render fails only at a template that a helper has made

Nothing that goes wrong when tokens are shown is an error: a path that leads nowhere, a helper that
is not run, a value that cannot be converted. The one exception is a text that a helper gives for a
block. It is parsed as a template, and that may fail.

`Place.HandsOver` says that a helper gives a text at a place of a render. `Task.exists_unparsed` goes
back from the error of a task to the text that was not parsed, by induction on the budget, and
`Begins.handsOver` from there to the call of the helper. Where no helper makes templates a render has
a text, unless one of its blocks goes round for ever (`Place.Endless`, `Task.settles`).
-/

set_option autoImplicit false

namespace Stencil

/-- The next token at a place is a block for a helper, which gives a text for it. -/
inductive Place.HandsOver (cx : RenderContext) : Place → Block → String → Prop where
  | intro {scope : Scope} {b : Block} {children rest : List Token} {store after : Store}
    {around : List Handle} {registry : Registry} {helper : Helper} {values : List Value}
    {text : String}
    (rule : cx.settings.ruleFor? (.block b children) = some (.helperSection registry))
    (prepare : registry.prepare (cx.helperContext scope (some b.body)) b.name b.args =
      .ok (helper, values))
    (run : helper.run (cx.helperContext scope (some b.body)) values store = (.str text, after)) :
    HandsOver cx ⟨.tokens scope (.block b children :: rest), store, around⟩ b text

/-- A text is to be shown at a place that cannot be parsed. -/
def Place.Unparsed (cx : RenderContext) (p : Place) (e : ParseError) : Prop :=
  ∃ scope text b children, p.task = .perform scope (.block (.reparse text) b children) ∧
    cx.settings.pipeline.parse text b.delimiters = .error e

/-! ### Where templates come from -/

section Origin

variable {cx : RenderContext} {scope : Scope} {token : Token} {plan : BlockPlan} {b : Block}
  {children : List Token} {text : String} {before mid : Store}

/-- A value is taken for a template if it is a text that is not empty and a helper has given it. -/
theorem BlockPlan.ofValue_eq_reparse {s : Settings} {ofHelper : Bool} {v : Value}
    (h : ofValue s ofHelper v = .reparse text) : ofHelper = true ∧ v = .str text ∧ text ≠ "" := by
  cases ofHelper with
  | false => exact absurd h (ofValue_ne_reparse s v text)
  | true =>
    -- A false value skips the block, so what is left is a true one of some kind.
    unfold ofValue at h
    split at h
    · cases h
    · rename_i htruthy
      cases v with
      | str found =>
        cases h
        exact ⟨rfl, rfl, by simpa [Value.isTruthy] using htruthy⟩
      | list values =>
        have hplan : (if s.excluded.contains .list then BlockPlan.once (.list values)
          else .each values) = .reparse text := h
        split at hplan <;> cases hplan
      | iter handle =>
        have hplan : (if s.excluded.contains .iter then BlockPlan.once (.iter handle)
          else .drain handle) = .reparse text := h
        split at hplan <;> cases hplan
      | _ => cases h

/-- A rule that deals with the children of a block deals with those of its token. -/
theorem RenderRule.eq_block_of_outcome {rule : RenderRule} {v : Value}
    (h : rule.outcome cx scope token v = .block plan b children) : token = .block b children := by
  unfold outcome at h
  split at h <;> cases h <;> rfl

/-- Only the rule for the blocks of helpers takes a value for a template. -/
theorem RenderRule.eq_helperSection_of_outcome {rule : RenderRule} {v : Value}
    (h : rule.outcome cx scope token v = .block (.reparse text) b children) :
    (∃ registry, rule = .helperSection registry) ∧ v = .str text ∧ text ≠ "" := by
  unfold outcome at h
  split at h
  · cases h
  · cases h
  · -- The value is one of the scope.
    obtain ⟨hplan, _⟩ := Action.block.inj h
    cases (BlockPlan.ofValue_eq_reparse hplan).1
  · obtain ⟨hplan, _⟩ := Action.block.inj h
    split at hplan <;> cases hplan
  · cases h
  · obtain ⟨hplan, _⟩ := Action.block.inj h
    exact ⟨⟨_, rfl⟩, (BlockPlan.ofValue_eq_reparse hplan).2⟩
  · obtain ⟨hplan, _⟩ := Action.block.inj h
    split at hplan <;> cases hplan
  · cases h
  · cases h

/-- What a token asks for is the outcome of its rule, for the value of a call or for null. -/
theorem Token.exists_outcome {action : Action} (h : token.act cx scope before = (action, mid)) :
    action = .write "" ∨ ∃ rule, cx.settings.ruleFor? token = some rule ∧
      ((rule.call? token = none ∧ action = rule.outcome cx scope token .null) ∨
        ∃ c, rule.call? token = some c ∧
          action = rule.outcome cx scope token (c.run cx scope before).1) := by
  rw [act] at h
  cases hrule : cx.settings.ruleFor? token with
  | none =>
    rw [hrule] at h
    exact .inl (Prod.mk.inj h).1.symm
  | some rule =>
    rw [hrule] at h
    have haccepts := Settings.accepts_of_ruleFor? hrule
    have hact : rule.act cx scope token before = (action, mid) := h
    cases hcall : rule.call? token with
    | none =>
      rw [RenderRule.act_of_not_calls before haccepts hcall] at hact
      exact .inr ⟨rule, rfl, .inl ⟨hcall, (Prod.mk.inj hact).1.symm⟩⟩
    | some c =>
      rw [RenderRule.act_of_calls before haccepts hcall] at hact
      exact .inr ⟨rule, rfl, .inr ⟨c, hcall, (Prod.mk.inj hact).1.symm⟩⟩

/-- A token that asks to deal with the children of a block is that block. -/
theorem Token.eq_block_of_act (h : token.act cx scope before = (.block plan b children, mid)) :
    token = .block b children := by
  rcases Token.exists_outcome h with hnothing | ⟨rule, _, ⟨_, houtcome⟩ | ⟨c, _, houtcome⟩⟩
  · cases hnothing
  · exact RenderRule.eq_block_of_outcome houtcome.symm
  · exact RenderRule.eq_block_of_outcome houtcome.symm

/-- A text as the value of a call is what a helper has given. -/
theorem RuleCall.exists_of_run {c : RuleCall} (h : (c.run cx scope before).1 = .str text) :
    ∃ helper values after,
      c.registry.prepare (cx.helperContext scope c.body) c.name c.args = .ok (helper, values) ∧
        helper.run (cx.helperContext scope c.body) values before = (.str text, after) := by
  rw [run, RenderContext.callHelper] at h
  cases hcall : c.registry.call (cx.helperContext scope c.body) c.name c.args before with
  | error refusal =>
    rw [hcall] at h
    cases h
  | ok result =>
    rw [hcall] at h
    obtain ⟨helper, values, hprepare, rfl⟩ := Registry.call_eq_ok_iff.1 hcall
    exact ⟨helper, values, _, hprepare, Prod.ext h rfl⟩

/-- A token that asks for a text to be parsed is a block for which a helper gives that text. -/
theorem Token.handsOver_of_act {rest : List Token} {around : List Handle}
    (h : token.act cx scope before = (.block (.reparse text) b children, mid)) :
    Place.HandsOver cx ⟨.tokens scope (token :: rest), before, around⟩ b text ∧ text ≠ "" := by
  obtain rfl := Token.eq_block_of_act h
  rcases Token.exists_outcome h with hnothing | ⟨rule, hrule, ⟨_, houtcome⟩ | ⟨c, hcall, houtcome⟩⟩
  · cases hnothing
  · -- The value of a call that is not made is null.
    cases (RenderRule.eq_helperSection_of_outcome houtcome.symm).2.1
  · obtain ⟨⟨registry, rfl⟩, hvalue, htext⟩ :=
      RenderRule.eq_helperSection_of_outcome houtcome.symm
    obtain rfl := Option.some.inj hcall
    obtain ⟨helper, values, after, hprepare, hrun⟩ := RuleCall.exists_of_run hvalue
    exact ⟨.intro hrule hprepare hrun, htext⟩

/-- A render comes to a text that is to be parsed from a helper that gives it. -/
theorem Begins.handsOver {p q : Place} (hbegins : Begins cx p q)
    (hq : q.task = .perform scope (.block (.reparse text) b children)) :
    p.HandsOver cx b text ∧ text ≠ "" := by
  cases hbegins with
  | first act =>
    -- Only the first part of a list of tokens is an action, and so a text to be parsed.
    cases hq
    exact Token.handsOver_of_act act
  | _ => cases hq

/-- A render of tokens in which some text is to be parsed comes to the helper that gives it. -/
theorem Reaches.exists_handsOver {start q : Place} {ts : List Token} {outer : Scope}
    (hreaches : Reaches cx start q) (hstart : start.task = .tokens outer ts)
    (hq : q.task = .perform scope (.block (.reparse text) b children)) :
    ∃ p, Reaches cx start p ∧ p.HandsOver cx b text ∧ text ≠ "" := by
  rcases Relation.ReflTransGen.cases_tail hreaches with rfl | ⟨p, hp, hbegins⟩
  · rw [hstart] at hq
    cases hq
  · exact ⟨p, hp, hbegins.handsOver hq⟩

end Origin

/-! ### Where errors come from -/

namespace Task

variable {cx : RenderContext} {before after : Store} {e : ParseError}

/-- Of two tasks one after the other the first one fails, or the second one after the first one has
ended. -/
theorem cases_error_of_both {budget : Nat} (first second : Task)
    (h : (do
      let head ← first.text cx budget
      let tail ← second.text cx budget
      pure (head ++ tail) : Direct (List Char)) before = some (.error e, after)) :
    first.text cx budget before = some (.error e, after) ∨
      ∃ shown mid, first.Ends cx before shown mid ∧
        second.text cx budget mid = some (.error e, after) := by
  rcases cases_of_bind h with ⟨e', hfirst, heq⟩ | ⟨shown, mid, hfirst, h⟩
  · obtain rfl := Except.error.inj heq
    exact .inl hfirst
  · rcases cases_of_bind h with ⟨e', hsecond, heq⟩ | ⟨tail, mid', _, h⟩
    · obtain rfl := Except.error.inj heq
      exact .inr ⟨shown, mid, ⟨budget, hfirst⟩, hsecond⟩
    · cases h

/-- A task that fails comes to a text that cannot be parsed, with the same error. -/
theorem exists_unparsed {budget : Nat} (task : Task) (around : List Handle)
    (h : task.text cx budget before = some (.error e, after)) :
    ∃ p, Reaches cx ⟨task, before, around⟩ p ∧ p.Unparsed cx e := by
  -- The budget bounds how many places lie between the task and that text.
  induction budget generalizing task before after around with
  | zero => cases task <;> cases h
  | succ budget ih =>
    have hlater : ∀ {p : Place} {task' : Task} {before' after' : Store} {around' : List Handle},
        Begins cx p ⟨task', before', around'⟩ →
        task'.text cx budget before' = some (.error e, after') →
        ∃ q, Reaches cx p q ∧ q.Unparsed cx e := by
      intro p task' before' after' around' hbegins htext
      obtain ⟨q, hreaches, hq⟩ := ih task' around' htext
      exact ⟨q, .head hbegins hreaches, hq⟩
    cases task with
    | tokens scope ts =>
      cases ts with
      | nil => cases h
      | cons token rest =>
        rcases hact : token.act cx scope before with ⟨action, mid⟩
        have hstep : (Direct.step (token.act cx scope) : Direct Action) before =
            some (.ok action, mid) := by
          rw [Direct.step, hact]
        rw [text, Direct.tokens, bind_of_ok hstep] at h
        rcases cases_error_of_both (.perform scope action) (.tokens scope rest) h
          with hfirst | ⟨shown, mid', hended, hsecond⟩
        · exact hlater (.first hact) hfirst
        · exact hlater (.rest hact hended) hsecond
    | perform scope action =>
      cases action with
      | write text => cases h
      | block plan b children =>
        cases plan with
        | skip => cases h
        | here => exact hlater .here h
        | reparse text =>
          rw [Task.text, Direct.perform] at h
          cases hparse : cx.settings.pipeline.parse text b.delimiters with
          | error e' =>
            rw [hparse] at h
            cases h
            exact ⟨_, .refl, scope, text, b, children, rfl, hparse⟩
          | ok parsed =>
            rw [hparse] at h
            exact hlater (.reparse hparse) h
        | each values => exact hlater .each h
        | drain handle =>
          -- Putting the enumerator back does not change the error.
          obtain ⟨⟨result, mid⟩, hdrain, heq⟩ := Option.map_eq_some_iff.1 h
          obtain ⟨rfl, _⟩ := Prod.mk.inj heq
          exact hlater .drain hdrain
        | once v => exact hlater .once h
    | each scope children values =>
      cases values with
      | nil => cases h
      | cons v vs =>
        rcases cases_error_of_both (.tokens (scope.push v) children) (.each scope children vs) h
          with hfirst | ⟨shown, mid, hended, hsecond⟩
        · exact hlater .item hfirst
        · exact hlater (.items hended) hsecond
    | drain scope children handle =>
      rcases hnext : before.next handle with ⟨v?, mid⟩
      have hstep : (Direct.step (·.next handle) : Direct (Option Value)) before =
          some (.ok v?, mid) := by
        rw [Direct.step, hnext]
      rw [text, Direct.drain, bind_of_ok hstep] at h
      cases v? with
      | none => cases h
      | some v =>
        rcases cases_error_of_both (.tokens (scope.push v) children) (.drain scope children handle) h
          with hfirst | ⟨shown, mid', hended, hsecond⟩
        · exact hlater (.round hnext) hfirst
        · exact hlater (.rounds hnext hended) hsecond

end Task

/-! ### Renders without templates of helpers -/

/-- A block shows its children once more, for the next value of its enumerator. -/
def GoesRound (cx : RenderContext) (scope : Scope) (children : List Token) (handle : Handle)
    (before after : Store) : Prop :=
  ∃ v mid shown, before.next handle = (some v, mid) ∧
    (Task.tokens (scope.push v) children).Ends cx mid shown after

/-- A block goes round for ever, since its enumerator always has one more value. -/
def Place.Endless (cx : RenderContext) (p : Place) : Prop :=
  ∃ scope children handle, p.task = .drain scope children handle ∧
    ∃ stores : Nat → Store, stores 0 = p.store ∧
      ∀ n, GoesRound cx scope children handle (stores n) (stores (n + 1))

/-- A block goes round for ever if from each store of some kind a round leads to another one of that
kind. -/
theorem Place.endless_of_rounds {cx : RenderContext} {scope : Scope} {children : List Token}
    {handle : Handle} {start : Store} {around : List Handle} (Kind : Store → Prop)
    (hstart : Kind start)
    (hround : ∀ store, Kind store →
      ∃ after, Kind after ∧ GoesRound cx scope children handle store after) :
    Place.Endless cx ⟨.drain scope children handle, start, around⟩ := by
  -- The rounds are strung together by choice, since each store leads to some other one.
  have hexists : ∀ s : {store // Kind store}, ∃ s' : {store // Kind store},
      GoesRound cx scope children handle s.1 s'.1 := by
    rintro ⟨store, hkind⟩
    obtain ⟨after, hafter, hgoes⟩ := hround store hkind
    exact ⟨⟨after, hafter⟩, hgoes⟩
  obtain ⟨next, hnext⟩ := Classical.skolem.1 hexists
  refine ⟨scope, children, handle, rfl, fun n => (next^[n] ⟨start, hstart⟩).1, rfl, fun n => ?_⟩
  simp only [Function.iterate_succ_apply']
  exact hnext _

/-- From a place on no text is to be parsed, and no block goes round for ever. -/
def Place.Plain (cx : RenderContext) (p : Place) : Prop :=
  ∀ q, Reaches cx p q → ¬ q.Endless cx ∧
    ∀ scope text b children, q.task ≠ .perform scope (.block (.reparse text) b children)

/-- What a plain place comes to is plain. -/
theorem Place.Plain.of_begins {cx : RenderContext} {p q : Place} (h : p.Plain cx)
    (hbegins : Begins cx p q) : q.Plain cx :=
  fun place hreaches => h place (.head hbegins hreaches)

namespace Task

/-- A task ends wherever it is plain. -/
def Settles (cx : RenderContext) (task : Task) : Prop :=
  ∀ store around, Place.Plain cx ⟨task, store, around⟩ →
    ∃ shown after, task.Ends cx store shown after

variable {cx : RenderContext} {scope : Scope} {children : List Token}

/-- A loop through a list ends, with one round for each value. -/
theorem settles_each (h : ∀ scope, (tokens scope children).Settles cx) (values : List Value) :
    (each scope children values).Settles cx := by
  induction values with
  | nil => exact fun store _ _ => ⟨[], store, ends_each_nil⟩
  | cons v vs ih =>
    intro store around hplain
    obtain ⟨shown, mid, hended⟩ := h _ store around (hplain.of_begins .item)
    obtain ⟨tail, after, hended'⟩ := ih mid around (hplain.of_begins (.items hended))
    exact ⟨shown ++ tail, after, ends_each_cons hended hended'⟩

/-- A block for an enumerator ends. If it did not then another round would follow each of its
rounds. -/
theorem settles_drain (h : ∀ scope, (tokens scope children).Settles cx) (handle : Handle) :
    (drain scope children handle).Settles cx := by
  intro start around hplain
  by_contra hgoes
  have hendless : Place.Endless cx ⟨drain scope children handle, start, around⟩ := by
    -- After a round the block is plain again, and it does not end from there either.
    refine Place.endless_of_rounds (fun store =>
      Place.Plain cx ⟨drain scope children handle, store, around⟩ ∧
        ¬ ∃ shown after, (drain scope children handle).Ends cx store shown after)
      ⟨hplain, hgoes⟩ ?_
    rintro store ⟨hplain, hgoes⟩
    rcases hnext : store.next handle with ⟨v?, mid⟩
    cases v? with
    | none => exact absurd ⟨[], mid, ends_drain_none hnext⟩ hgoes
    | some v =>
      obtain ⟨shown, after, hbody⟩ := h _ mid around (hplain.of_begins (.round hnext))
      refine ⟨after, ⟨hplain.of_begins (.rounds hnext hbody), ?_⟩, v, mid, shown, hnext, hbody⟩
      rintro ⟨tail, last, hothers⟩
      exact hgoes ⟨shown ++ tail, last, ends_drain_some hnext hbody hothers⟩
  exact (hplain _ .refl).1 hendless

/-- A block ends, however it deals with its children, if these do. -/
theorem settles_block (h : ∀ scope, (tokens scope children).Settles cx) (plan : BlockPlan)
    (b : Block) : (perform scope (.block plan b children)).Settles cx := by
  intro store around hplain
  cases plan with
  | skip => exact ⟨[], store, ends_skip⟩
  | here =>
    obtain ⟨shown, after, hended⟩ := h scope store around (hplain.of_begins .here)
    exact ⟨shown, after, ends_here hended⟩
  | reparse text => exact absurd rfl ((hplain _ .refl).2 scope text b children)
  | each values =>
    obtain ⟨shown, after, hended⟩ := settles_each h values store around (hplain.of_begins .each)
    exact ⟨shown, after, ends_perform_each hended⟩
  | drain handle =>
    obtain ⟨shown, after, hended⟩ := settles_drain h handle store _ (hplain.of_begins .drain)
    exact ⟨shown, after.reset handle, ends_perform_drain hended⟩
  | once v =>
    obtain ⟨shown, after, hended⟩ := h _ store around (hplain.of_begins .once)
    exact ⟨shown, after, ends_once hended⟩

/-- Whatever a token asks for, that ends if its children do. -/
theorem settles_cons {token : Token} {rest : List Token}
    (hchildren : ∀ b children, token = .block b children →
      ∀ scope, (tokens scope children).Settles cx)
    (hrest : (tokens scope rest).Settles cx) : (tokens scope (token :: rest)).Settles cx := by
  intro store around hplain
  rcases hact : token.act cx scope store with ⟨action, mid⟩
  have hfirst : (perform scope action).Settles cx := by
    cases action with
    | write text => exact fun store _ _ => ⟨text.toList, store, ends_write text⟩
    | block plan b children =>
      exact settles_block (hchildren b children (Token.eq_block_of_act hact)) plan b
  obtain ⟨shown, mid', hended⟩ := hfirst mid around (hplain.of_begins (.first hact))
  obtain ⟨tail, after, hended'⟩ := hrest mid' around (hplain.of_begins (.rest hact hended))
  exact ⟨shown ++ tail, after, ends_cons hact hended hended'⟩

/-- Tokens end where they are plain. The recursion is on the tokens, whose children are smaller. -/
theorem settles (cx : RenderContext) (scope : Scope) :
    ∀ ts : List Token, (tokens scope ts).Settles cx
  | [] => fun store _ _ => ⟨[], store, ends_nil⟩
  | token :: rest => by
    -- The children of a block and the other tokens are both smaller than the whole list.
    refine settles_cons (fun b children htoken scope => ?_) (settles cx scope rest)
    exact settles cx scope children
termination_by ts => sizeOf ts
decreasing_by
  · rw [htoken, List.cons.sizeOf_spec, Token.block.sizeOf_spec]
    omega
  · rw [List.cons.sizeOf_spec]
    omega

end Task

/-! ### Templates -/

/-- What goes wrong in a render is an error only when a helper gives a text for a block and that text
cannot be parsed with the delimiters that the block records. If a render fails then it has come to
such a helper, the text is not empty, and the error is that of its parse.

So a render in which the helpers of blocks give no texts, or empty ones, does not fail. It has a text,
within every budget that is large enough, unless it comes to a block for an enumerator that goes
round for ever. -/
theorem fails_only_at_handed_template {t : Template} {s : Settings} {l : Locale} {view : Value}
    {store : Store} :
    (∀ budget e after, t.renderWithin budget s l view store = some (.error e, after) →
      ∃ place b text, Reaches ⟨s, l⟩ (t.start view store) place ∧
        place.HandsOver ⟨s, l⟩ b text ∧ text ≠ "" ∧
          s.pipeline.parse text b.delimiters = .error e) ∧
    ((∀ place b text, Reaches ⟨s, l⟩ (t.start view store) place →
        place.HandsOver ⟨s, l⟩ b text → text = "") →
      (∀ budget e after, t.renderWithin budget s l view store ≠ some (.error e, after)) ∧
      ((∃ budget text after, ∀ more, budget ≤ more →
          t.renderWithin more s l view store = some (.ok text, after)) ∨
        ∃ place, Reaches ⟨s, l⟩ (t.start view store) place ∧ place.Endless ⟨s, l⟩)) := by
  have hfails : ∀ budget e after,
      t.renderWithin budget s l view store = some (.error e, after) →
        ∃ place b text, Reaches ⟨s, l⟩ (t.start view store) place ∧
          place.HandsOver ⟨s, l⟩ b text ∧ text ≠ "" ∧
            s.pipeline.parse text b.delimiters = .error e := by
    intro budget e after h
    obtain ⟨⟨result, ended⟩, hrender, heq⟩ := Option.map_eq_some_iff.1 h
    obtain ⟨hresult, rfl⟩ := Prod.mk.inj heq
    cases result with
    | ok shown => cases hresult
    | error e' =>
      obtain rfl := Except.error.inj hresult
      -- A failure leads back to a text that cannot be parsed, and that to a helper.
      obtain ⟨q, hreaches, scope, text, b, children, hq, hparse⟩ :=
        Task.exists_unparsed (.tokens (.root view) t.tokens) [] hrender
      obtain ⟨place, hplace, hhands, htext⟩ := Reaches.exists_handsOver hreaches rfl hq
      exact ⟨place, b, text, hplace, hhands, htext, hparse⟩
  refine ⟨hfails, fun hnone => ⟨?_, ?_⟩⟩
  · intro budget e after h
    obtain ⟨place, b, text, hreaches, hhands, htext, _⟩ := hfails budget e after h
    exact htext (hnone place b text hreaches hhands)
  · by_cases hendless : ∃ place, Reaches ⟨s, l⟩ (t.start view store) place ∧
        place.Endless ⟨s, l⟩
    · exact .inr hendless
    · have hplain : (t.start view store).Plain ⟨s, l⟩ := by
        intro q hreaches
        refine ⟨fun hq => hendless ⟨q, hreaches, hq⟩, fun scope text b children hq => ?_⟩
        obtain ⟨place, hplace, hhands, htext⟩ := Reaches.exists_handsOver hreaches rfl hq
        exact htext (hnone place b text hplace hhands)
      obtain ⟨shown, after, budget, hended⟩ := Task.settles ⟨s, l⟩ (.root view) t.tokens store [] hplain
      refine .inl ⟨budget, String.ofList shown, after, fun more hle => ?_⟩
      exact congrArg (Option.map _) (Task.text_of_le hended hle)

/-- An engine with a helper for blocks that gives their bodies. -/
def bodySettings : Settings :=
  (Settings.withHelpers [.sections
    ⟨[("body", ⟨0, [], fun cx _ store => (.str (cx.body.getD ""), store)⟩)]⟩]).setDelimiters ⟨"<", ">"⟩

/-- A helper that takes an integer and is true. -/
def integerHelper : Helper :=
  ⟨0, [.int], fun _ _ store => (.bool true, store)⟩

/-- An engine with that helper, for blocks. -/
def integerSettings : Settings :=
  (Settings.withHelpers [.sections ⟨[("integer", integerHelper)]⟩]).setDelimiters ⟨"<", ">"⟩

/-- A path, a call without its argument, one with a path in its place, and one with an integer. -/
def integerCalls : Template :=
  ⟨[.interpolation ⟨"x", true, ⟨0, 3⟩⟩,
    .block ⟨⟨.helper, "integer", [], ⟨3, 13⟩⟩, ⟨14, 24⟩, "a", ⟨"<", ">"⟩⟩ [.text "a"],
    .block ⟨⟨.helper, "integer", [.lookup "x"], ⟨24, 36⟩⟩, ⟨37, 47⟩, "b", ⟨"<", ">"⟩⟩ [.text "b"],
    .block ⟨⟨.helper, "integer", [.lookup "1"], ⟨47, 59⟩⟩, ⟨60, 70⟩, "c", ⟨"<", ">"⟩⟩ [.text "c"]]⟩

/-- The helper of that engine gives no text. -/
theorem not_handsOver_integerSettings {p : Place} {b : Block} {text : String} :
    ¬ p.HandsOver ⟨integerSettings, .invariant⟩ b text := by
  rintro ⟨hrule, hprepare, hrun⟩
  have hhelper := Settings.hasHelper_of_call hrule rfl (Registry.prepare_passes hprepare).1
  have hadded : (Settings.stock.add (.sections ⟨[("integer", integerHelper)]⟩)).HasHelper _ := hhelper
  rcases hadded.of_add with hstock | ⟨name, hget⟩
  · exact absurd hstock (Settings.not_hasHelper_stock _)
  · obtain rfl := Registry.eq_of_get?_singleton hget
    -- Its value is true, which is not a text.
    cases hrun

/-- A body that changes the delimiters is parsed with those behind the change, where its tag is
empty. In the other template a path leads nowhere and two of three calls fail, which shows nothing. -/
theorem fails_only_at_handed_template_of_body :
    (∃ t, compile bodySettings "<#body><=[ ]=>[/body]" = .ok t ∧
      t.renderWithin 4 bodySettings .invariant .null .empty =
        some (.error (.emptyTag 2 "<=[ ]"), .empty) ∧
      ∃ place b text, Reaches ⟨bodySettings, .invariant⟩ (t.start .null .empty) place ∧
        place.HandsOver ⟨bodySettings, .invariant⟩ b text ∧ text ≠ "" ∧
          bodySettings.pipeline.parse text b.delimiters = .error (.emptyTag 2 "<=[ ]")) ∧
    (compile integerSettings
        "<x><#integer>a</integer><#integer x>b</integer><#integer 1>c</integer>").toOption =
      some integerCalls ∧
    (∀ place b text, Reaches ⟨integerSettings, .invariant⟩ (integerCalls.start .null .empty) place →
      place.HandsOver ⟨integerSettings, .invariant⟩ b text → text = "") ∧
    (∀ budget e after, integerCalls.renderWithin budget integerSettings .invariant .null .empty ≠
      some (.error e, after)) ∧
    integerCalls.renderWithin 8 integerSettings .invariant .null .empty = some (.ok "c", .empty) := by
  constructor
  · have hparse : bodySettings.pipeline.parse "<#body><=[ ]=>[/body]" ⟨"<", ">"⟩ =
        .ok [.block ⟨⟨.helper, "body", [], ⟨0, 7⟩⟩, ⟨14, 21⟩, "<=[ ]=>", ⟨"[", "]"⟩⟩ []] :=
      Pipeline.parse_of_parseWithin (n := 8) rfl
    have hcompile : compile bodySettings "<#body><=[ ]=>[/body]" = _ :=
      congrArg (Except.map Template.mk) hparse
    -- The body is parsed with the delimiters behind the change, under which the change is an empty
    -- tag.
    have hinside : bodySettings.pipeline.parse "<=[ ]=>" ⟨"[", "]"⟩ =
        .error (.emptyTag 2 "<=[ ]") :=
      Pipeline.parse_of_fail (show _ = Step.fail "<=".toList _ from rfl)
    have hperform : (Direct.perform ⟨bodySettings, .invariant⟩ 3 (.root .null)
        (.block (.reparse "<=[ ]=>") ⟨⟨.helper, "body", [], ⟨0, 7⟩⟩, ⟨14, 21⟩, "<=[ ]=>", ⟨"[", "]"⟩⟩
          [])) .empty = some (.error (.emptyTag 2 "<=[ ]"), .empty) := by
      rw [Direct.perform, hinside]
      rfl
    have hrender : Template.renderWithin 4 ⟨[.block ⟨⟨.helper, "body", [], ⟨0, 7⟩⟩, ⟨14, 21⟩,
        "<=[ ]=>", ⟨"[", "]"⟩⟩ []]⟩ bodySettings .invariant .null .empty =
          some (.error (.emptyTag 2 "<=[ ]"), .empty) :=
      congrArg (Option.map _) (bind_of_error hperform)
    exact ⟨_, hcompile, hrender, fails_only_at_handed_template.1 _ _ _ hrender⟩
  · have hnone : ∀ place b text, Reaches ⟨integerSettings, .invariant⟩
        (integerCalls.start .null .empty) place →
        place.HandsOver ⟨integerSettings, .invariant⟩ b text → text = "" :=
      fun _ _ _ _ hhands => absurd hhands not_handsOver_integerSettings
    exact ⟨by decide +kernel, hnone, (fails_only_at_handed_template.2 hnone).1, rfl⟩

end Stencil
