import Stencil.Proofs.Render.Ahead
import Stencil.Proofs.Render.Escaping

/-!
# `Stencil.Proofs.Render.Reentry`: when a render without helpers ends

Every block goes through the values that its enumerator has left, and the render ends, if no block
stands inside another one for the same enumerator (`Task.endsWell`). If one does, the render never
ends: `Task.Clear` is what a render that ends has at every place it comes to, and a block for an
enumerator of a block around it does not have it (`not_reenters_of_ends`).

`ends_unless_reenters` is the main fact. It is about the text of a template. The streamed form ends
with it, and may also end before, when the sink is full.
-/

set_option autoImplicit false

namespace Stencil

/-! ### Renders without errors -/

namespace Watch

variable {ε σ α β : Type}

/-- A computation whose end is never an error. -/
def Succeeds (w : Watch ε σ α) : Prop :=
  ∀ state result after, w state = some (result, after) → ∃ a, result = .ok a

/-- What has used up a budget does not end, so not with an error. -/
theorem succeeds_exhausted : Succeeds (exhausted : Watch ε σ α) := by
  intro state result after h
  cases h

/-- What does nothing ends without an error. -/
theorem succeeds_pure (a : α) : Succeeds (pure a : Watch ε σ α) := by
  rintro state result after ⟨⟩
  exact ⟨a, rfl⟩

/-- Writing to a text, which takes everything, ends without an error. -/
theorem succeeds_write (text : String) : Succeeds (write .direct text) := by
  rintro state result after ⟨⟩
  exact ⟨(), rfl⟩

/-- A change of the store ends without an error. -/
theorem succeeds_step (f : Store → α × Store) : Succeeds (step f : Watch ε σ α) := by
  rintro state result after ⟨⟩
  exact ⟨_, rfl⟩

/-- Parts that never end with an error do not do so one after the other. -/
theorem succeeds_bind {w : Watch ε σ α} {k : α → Watch ε σ β} (h : Succeeds w)
    (h' : ∀ a, Succeeds (k a)) : Succeeds (w >>= k) := by
  intro state result after hrun
  rcases cases_of_bind hrun with ⟨e, hfailed, _⟩ | ⟨a, mid, _, hsecond⟩
  · obtain ⟨a, ha⟩ := h _ _ _ hfailed
    cases ha
  · exact h' a _ _ _ hsecond

/-- A block for an enumerator ends as its loop does. -/
theorem succeeds_drained {w : Watch ε σ α} (h : Succeeds w) (handle : Handle) :
    Succeeds (do note handle; thenAlways w (·.reset handle)) := by
  intro state result after hrun
  have hrun' : (thenAlways w (·.reset handle)) { state with drained := state.drained ++ [handle] } =
      some (result, after) := hrun
  obtain ⟨⟨result', ended⟩, hended, heq⟩ := Option.map_eq_some_iff.1 hrun'
  obtain ⟨rfl, rfl⟩ := Prod.mk.inj heq
  exact h _ _ _ hended

end Watch

/-! ### Tasks that end -/

namespace Task

variable {cx : RenderContext} {budget : Nat} {task : Task}

/-- A task of the language alone never fails: nothing is parsed. -/
theorem succeeds (hrules : cx.settings.rules = Settings.stockRules) (budget : Nat) :
    (∀ scope ts, Watch.Succeeds ((tokens scope ts).watch .direct cx budget)) ∧
    (∀ scope (token : Token),
      Watch.Succeeds ((perform scope (token.stockAction cx scope)).watch .direct cx budget)) ∧
    (∀ scope children vs, Watch.Succeeds ((each scope children vs).watch .direct cx budget)) ∧
    ∀ scope children handle,
      Watch.Succeeds ((drain scope children handle).watch .direct cx budget) := by
  induction budget with
  | zero =>
    refine ⟨fun _ _ => ?_, fun _ _ => ?_, fun _ _ _ => ?_, fun _ _ _ => ?_⟩
    · exact Watch.succeeds_exhausted
    · exact Watch.succeeds_exhausted
    · exact Watch.succeeds_exhausted
    · exact Watch.succeeds_exhausted
  | succ budget ih =>
    obtain ⟨ihTokens, ihPerform, ihEach, ihDrain⟩ := ih
    refine ⟨fun scope ts => ?_, fun scope token => ?_, fun scope children vs => ?_,
      fun scope children handle => ?_⟩
    · cases ts with
      | nil => exact Watch.succeeds_pure ()
      | cons token rest =>
        rw [watch, Watch.tokens_cons_of_act .direct (act_eq hrules scope token)]
        exact Watch.succeeds_bind (ihPerform scope token) fun _ => ihTokens scope rest
    -- An action of the language is a text or a block, and no block of it is for a template.
    · rcases token.stockAction_cases cx scope with ⟨text, haction⟩ | ⟨b, children, _, hblock⟩
      · rw [haction]
        exact Watch.succeeds_write text
      · rcases hblock with ⟨_, haction⟩ | ⟨_, haction | haction⟩
        · rw [haction]
          rcases BlockPlan.ofValue_cases cx.settings (scope.lookup b.name) with
            hplan | ⟨values, hplan⟩ | ⟨handle, hplan⟩ | hplan
          · rw [hplan]
            exact Watch.succeeds_pure ()
          · rw [hplan]
            exact ihEach scope children values
          · rw [hplan]
            exact Watch.succeeds_drained (ihDrain scope children handle) handle
          · rw [hplan]
            exact ihTokens _ children
        · rw [haction]
          exact Watch.succeeds_pure ()
        · rw [haction]
          exact ihTokens scope children
    · cases vs with
      | nil => exact Watch.succeeds_pure ()
      | cons v vs =>
        exact Watch.succeeds_bind (ihTokens (scope.push v) children) fun _ =>
          ihEach scope children vs
    · refine Watch.succeeds_bind (Watch.succeeds_step _) fun v? => ?_
      cases v? with
      | none => exact Watch.succeeds_pure ()
      | some v =>
        exact Watch.succeeds_bind (ihTokens (scope.push v) children) fun _ =>
          ihDrain scope children handle

/-- Enumerators that stand at one of their values still do after a task that is not a loop. -/
theorem Ends.sound {before after : Store} {shown : List Char}
    (hwinds : ∀ budget, Watch.Winds none (task.watch .direct cx budget))
    (h : task.Ends cx before shown after) (hsound : before.Sound) : after.Sound := by
  obtain ⟨budget, state, hrun, rfl⟩ := h.exists_watch
  obtain ⟨_, _, hrewinds⟩ := hwinds budget _ _ _ hrun
  exact hsound.of_rewinds hrewinds

/-- A task ends well from a store, and goes through none of some enumerators. -/
def Clear (cx : RenderContext) (around : List Handle) (store : Store) (task : Task) : Prop :=
  ∃ budget state after noted, state.store = store ∧
    task.watch .direct cx budget state = some (.ok (), after) ∧
    after.drained = state.drained ++ noted ∧ ∀ handle ∈ noted, handle ∉ around

/-- A task that ends well is clear of the enumerators of no block. -/
theorem clear_of_ends {before after : Store} {shown : List Char}
    (hrules : cx.settings.rules = Settings.stockRules) (h : task.Ends cx before shown after) :
    task.Clear cx [] before := by
  obtain ⟨budget, state, hrun, _⟩ := h.exists_watch
  obtain ⟨noted, hnoted, _⟩ := winds .direct hrules budget task _ _ _ hrun
  exact ⟨budget, _, state, noted, rfl, hrun, hnoted, fun _ _ => List.not_mem_nil⟩

/-- Of two tasks one after the other, both go through none of some enumerators if together they do
not. -/
theorem clear_both (hrules : cx.settings.rules = Settings.stockRules) (first second : Task)
    {around noted : List Handle} {state after : WatchState (List Char)}
    (hrun : (do first.watch .direct cx budget; second.watch .direct cx budget :
      Watch ParseError (List Char) Unit) state = some (.ok (), after))
    (hnoted : after.drained = state.drained ++ noted) (hclear : ∀ handle ∈ noted, handle ∉ around) :
    first.Clear cx around state.store ∧
      ∀ shown mid, first.Ends cx state.store shown mid → second.Clear cx around mid := by
  rcases cases_of_bind hrun with ⟨e, _, hne⟩ | ⟨_, mid, hfirst, hsecond⟩
  · cases hne
  -- What the two note stands one behind the other, and the second one starts where the first one
  -- ends.
  · obtain ⟨head, hhead, _⟩ := winds .direct hrules budget first _ _ _ hfirst
    obtain ⟨tail, htail, _⟩ := winds .direct hrules budget second _ _ _ hsecond
    obtain rfl : noted = head ++ tail := by
      rw [htail, hhead, List.append_assoc] at hnoted
      exact (List.append_cancel_left hnoted).symm
    constructor
    · exact ⟨budget, state, mid, head, rfl, hfirst, hhead,
        fun handle hmem => hclear handle (List.mem_append_left _ hmem)⟩
    · intro shown ended hends
      obtain ⟨shown', hends'⟩ := exists_ends_of_watch first hfirst
      obtain ⟨_, rfl⟩ := hends.unique hends'
      exact ⟨budget, mid, after, tail, rfl, hsecond, htail,
        fun handle hmem => hclear handle (List.mem_append_right _ hmem)⟩

/-- A block that ends does not go through its own enumerator inside. If it goes through none of some
enumerators, then its own one is none of them. -/
theorem Clear.drain {scope : Scope} {b : Block} {children : List Token} {handle : Handle}
    {around : List Handle} {store : Store} (hrules : cx.settings.rules = Settings.stockRules)
    (hsound : store.Sound)
    (h : (perform scope (.block (.drain handle) b children)).Clear cx around store) :
    handle ∉ around ∧ (Task.drain scope children handle).Clear cx (handle :: around) store := by
  obtain ⟨budget, state, after, noted, rfl, hrun, hnoted, hfree⟩ := h
  cases budget with
  | zero => cases hrun
  | succ budget =>
    have hrun' : (Watch.thenAlways (Watch.drain .direct cx budget scope children handle)
        (·.reset handle)) { state with drained := state.drained ++ [handle] } =
        some (.ok (), after) := hrun
    obtain ⟨⟨result, ended⟩, hended, heq⟩ := Option.map_eq_some_iff.1 hrun'
    obtain ⟨rfl, rfl⟩ := Prod.mk.inj heq
    obtain ⟨inside, hinside, _⟩ :=
      winds .direct hrules budget (.drain scope children handle) _ _ _ hended
    -- The block notes its own enumerator, and then what its loop goes through.
    obtain rfl : noted = handle :: inside := by
      have hboth : state.drained ++ noted = state.drained ++ (handle :: inside) := by
        rw [← hnoted]
        show ended.drained = _
        rw [hinside, List.append_assoc]
        rfl
      exact List.append_cancel_left hboth
    have hother : handle ∉ inside := not_mem_of_drain hrules hended hinside hsound
    refine ⟨hfree handle (List.mem_cons_self ..), budget,
      { state with drained := state.drained ++ [handle] }, ended, inside, rfl, hended, hinside, ?_⟩
    intro k hk hmem
    rcases List.mem_cons.1 hmem with rfl | haround
    · exact hother hk
    · exact hfree k (List.mem_cons_of_mem _ hk) haround

end Task

/-! ### What every place of a render that ends has -/

/-- Enumerators stand at one of their values wherever a render comes. -/
theorem Begins.sound {cx : RenderContext} {p q : Place}
    (hrules : cx.settings.rules = Settings.stockRules) (h : Begins cx p q)
    (hsound : p.store.Sound) : q.store.Sound := by
  cases h with
  -- Without helpers the token itself leaves the store alone.
  | first act =>
    rw [Task.act_eq hrules] at act
    cases act
    exact hsound
  | rest act ended =>
    rw [Task.act_eq hrules] at act
    cases act
    exact ended.sound (fun n => Task.winds .direct hrules n (.perform _ _)) hsound
  | here => exact hsound
  | reparse parse => exact hsound
  | once => exact hsound
  | each => exact hsound
  | drain => exact hsound
  | item => exact hsound
  | items ended => exact ended.sound (fun n => Task.winds .direct hrules n (.tokens _ _)) hsound
  | @round _ _ before _ _ handle _ next =>
    have hmid : (before.next handle).2.Sound := hsound.next handle
    rw [next] at hmid
    exact hmid
  | @rounds _ _ before _ _ _ handle _ _ next ended =>
    have hmid : (before.next handle).2.Sound := hsound.next handle
    rw [next] at hmid
    exact ended.sound (fun n => Task.winds .direct hrules n (.tokens _ _)) hmid

/-- A render that ends goes through none of the enumerators that blocks around a place go through,
wherever it comes. -/
theorem Begins.clear {cx : RenderContext} {p q : Place}
    (hrules : cx.settings.rules = Settings.stockRules) (h : Begins cx p q)
    (hsound : p.store.Sound) (hclear : p.task.Clear cx p.around p.store) :
    q.task.Clear cx q.around q.store := by
  obtain ⟨budget, state, after, noted, hstore, hrun, hnoted, hfree⟩ := hclear
  obtain ⟨task, store, around⟩ := p
  obtain rfl : state.store = store := hstore
  cases budget with
  | zero =>
    cases task with
    | _ => cases hrun
  | succ budget =>
    cases h with
    | @first scope token rest _ _ _ _ act =>
      rw [Task.act_eq hrules] at act
      cases act
      rw [Task.watch, Watch.tokens_cons_of_act .direct (Task.act_eq hrules scope token)] at hrun
      exact (Task.clear_both hrules (.perform scope _) (.tokens scope rest) hrun hnoted hfree).1
    | @rest scope token rest _ _ _ _ _ _ act ended =>
      rw [Task.act_eq hrules] at act
      cases act
      rw [Task.watch, Watch.tokens_cons_of_act .direct (Task.act_eq hrules scope token)] at hrun
      exact (Task.clear_both hrules (.perform scope _) (.tokens scope rest) hrun hnoted hfree).2
        _ _ ended
    | here => exact ⟨budget, state, after, noted, rfl, hrun, hnoted, hfree⟩
    | reparse parse =>
      rw [Task.watch, Watch.perform, parse] at hrun
      exact ⟨budget, state, after, noted, rfl, hrun, hnoted, hfree⟩
    | once => exact ⟨budget, state, after, noted, rfl, hrun, hnoted, hfree⟩
    | each => exact ⟨budget, state, after, noted, rfl, hrun, hnoted, hfree⟩
    | drain =>
      exact (Task.Clear.drain hrules hsound
        ⟨budget + 1, state, after, noted, rfl, hrun, hnoted, hfree⟩).2
    | @item scope children _ _ v vs =>
      exact (Task.clear_both hrules (.tokens (scope.push v) children) (.each scope children vs) hrun
        hnoted hfree).1
    | @items scope children _ _ _ v vs _ ended =>
      exact (Task.clear_both hrules (.tokens (scope.push v) children) (.each scope children vs) hrun
        hnoted hfree).2 _ _ ended
    | @round scope children _ _ _ handle v next =>
      rw [Task.watch, Watch.drain_of_some next] at hrun
      exact (Task.clear_both hrules (.tokens (scope.push v) children)
        (.drain scope children handle) hrun hnoted hfree).1
    | @rounds scope children _ _ _ _ handle v _ next ended =>
      rw [Task.watch, Watch.drain_of_some next] at hrun
      exact (Task.clear_both hrules (.tokens (scope.push v) children)
        (.drain scope children handle) hrun hnoted hfree).2 _ _ ended

/-- A render that ends comes to no block inside another one for the same enumerator. -/
theorem not_reenters_of_ends {cx : RenderContext} {task : Task} {store after : Store}
    {shown : List Char} (hrules : cx.settings.rules = Settings.stockRules) (hsound : store.Sound)
    (h : task.Ends cx store shown after) : ¬ Reenters cx ⟨task, store, []⟩ := by
  rintro ⟨place, scope, handle, b, children, hreaches, henters, hmem⟩
  -- Every place on the way is sound and clear, which is carried over from one place to the next.
  have hplace : place.store.Sound ∧ place.task.Clear cx place.around place.store := by
    clear henters hmem
    induction hreaches with
    | refl => exact ⟨hsound, Task.clear_of_ends hrules h⟩
    | tail _ hbegins ih => exact ⟨hbegins.sound hrules ih.1, hbegins.clear hrules ih.1 ih.2⟩
  obtain ⟨hplaceSound, hclear⟩ := hplace
  rw [henters] at hclear
  exact (hclear.drain hrules hplaceSound).1 hmem

/-! ### Templates -/

/-- Where the render of a template begins. -/
def Template.start (t : Template) (view : Value) (store : Store) : Place :=
  ⟨.tokens (.root view) t.tokens, store, []⟩

/-- A template that has a text has the text that its tokens end with. -/
theorem Template.ends_of_renderWithin {t : Template} {budget : Nat} {s : Settings} {l : Locale}
    {view : Value} {store after : Store} {result : Except ParseError String}
    (hrules : s.rules = Settings.stockRules)
    (h : t.renderWithin budget s l view store = some (result, after)) :
    ∃ shown, (t.start view store).task.Ends ⟨s, l⟩ store shown after := by
  obtain ⟨⟨direct, after'⟩, hdirect, heq⟩ := Option.map_eq_some_iff.1 h
  obtain ⟨rfl, rfl⟩ := Prod.mk.inj heq
  have hagrees := (Task.tokens (.root view) t.tokens).agreesDirect ⟨s, l⟩ budget ⟨store, [], []⟩
  rcases hagrees with ⟨_, hd⟩ | ⟨result, shown, state, hw, _, hd⟩
  · cases hdirect.symm.trans hd
  · obtain ⟨_, rfl⟩ := (Task.succeeds hrules budget).1 _ _ _ _ _ hw
    cases hdirect.symm.trans hd
    exact ⟨shown, budget, hd⟩

/-- Without helpers a render ends exactly if it comes to no block inside another one for the same
enumerator. Then it has a text, within every budget that is large enough, and so has its streamed
form. Each block for an enumerator goes through the values that this has left: it shows its children
once for each of them, in their order, and then it ends and puts the enumerator back. -/
theorem ends_unless_reenters {t : Template} {s : Settings} {l : Locale} {view : Value}
    {store : Store} (hrules : s.rules = Settings.stockRules) (hsound : store.Sound) :
    ((∃ budget, (t.renderWithin budget s l view store).isSome) ↔
      ¬ Reenters ⟨s, l⟩ (t.start view store)) ∧
    (¬ Reenters ⟨s, l⟩ (t.start view store) →
      (∃ budget text after, ∀ more, budget ≤ more →
        t.renderWithin more s l view store = some (.ok text, after) ∧
        ∀ room, (t.renderToWithin more s l view ⟨store, .new room false⟩).isSome) ∧
      ∀ place scope handle b children, Reaches ⟨s, l⟩ (t.start view store) place →
        place.Enters scope handle b children →
        ∃ shown after, GoesThrough ⟨s, l⟩ scope children handle
            (place.store.remaining handle) place.store shown after ∧
          place.task.Ends ⟨s, l⟩ place.store shown (after.reset handle)) := by
  have hends : ¬ Reenters ⟨s, l⟩ (t.start view store) →
      ∃ budget text after, ∀ more, budget ≤ more →
        t.renderWithin more s l view store = some (.ok text, after) := by
    intro hcalm
    have hwell : (t.start view store).task.EndsWell ⟨s, l⟩ :=
      Task.endsWell hrules (.root view) t.tokens
    obtain ⟨shown, after, ⟨budget, hended⟩, _⟩ := hwell store [] hcalm
    refine ⟨budget, String.ofList shown, after, fun more hle => ?_⟩
    exact congrArg (Option.map _) (Task.text_of_le hended hle)
  refine ⟨⟨?_, ?_⟩, fun hcalm => ⟨?_, ?_⟩⟩
  -- A render that has ended comes to no such block.
  · rintro ⟨budget, hsome⟩
    obtain ⟨⟨result, after⟩, hrender⟩ := Option.isSome_iff_exists.1 hsome
    obtain ⟨shown, hended⟩ := Template.ends_of_renderWithin hrules hrender
    exact not_reenters_of_ends hrules hsound hended
  · intro hcalm
    obtain ⟨budget, text, after, hrender⟩ := hends hcalm
    exact ⟨budget, Option.isSome_iff_exists.2 ⟨_, hrender budget (Nat.le_refl budget)⟩⟩
  · obtain ⟨budget, text, after, hrender⟩ := hends hcalm
    refine ⟨budget, text, after, fun more hle => ⟨hrender more hle, fun room => ?_⟩⟩
    obtain ⟨answer, state, hstream, _⟩ := Template.exists_renderTo_of_text (hrender more hle) room
    exact Option.isSome_iff_exists.2 ⟨_, hstream⟩
  · intro place scope handle b children hreaches henters
    exact exists_goesThrough hrules hcalm hreaches henters

/-- A block inside another one, and the same block once more behind them. -/
def nestedBlocks : Template :=
  ⟨[.block ⟨⟨.plain, "a", [], ⟨0, 6⟩⟩, ⟨29, 35⟩, "", .standard⟩
      [.interpolation ⟨".", true, ⟨6, 11⟩⟩,
        .block ⟨⟨.plain, "b", [], ⟨11, 17⟩⟩, ⟨22, 28⟩, "", .standard⟩
          [.interpolation ⟨".", true, ⟨17, 22⟩⟩]],
    .block ⟨⟨.plain, "b", [], ⟨35, 41⟩⟩, ⟨46, 52⟩, "", .standard⟩
      [.interpolation ⟨".", true, ⟨41, 46⟩⟩]]⟩

/-- Blocks for two enumerators, of which the first one has given a value already. The second one is
gone through once for each value that the first one has left, and once more. -/
theorem ends_unless_reenters_of_nestedBlocks :
    Store.Sound ⟨#[⟨[.int 1, .int 2, .int 3], [.int 2, .int 3]⟩, .atStart [.int 4, .int 5]]⟩ ∧
      ¬ Reenters ⟨.stock, .invariant⟩ (nestedBlocks.start
        (.map [("a", .iter ⟨0⟩), ("b", .iter ⟨1⟩)])
        ⟨#[⟨[.int 1, .int 2, .int 3], [.int 2, .int 3]⟩, .atStart [.int 4, .int 5]]⟩) ∧
      nestedBlocks.renderWithin 20 .stock .invariant (.map [("a", .iter ⟨0⟩), ("b", .iter ⟨1⟩)])
          ⟨#[⟨[.int 1, .int 2, .int 3], [.int 2, .int 3]⟩, .atStart [.int 4, .int 5]]⟩ =
        some (.ok "24534545",
          ⟨#[.atStart [.int 1, .int 2, .int 3], .atStart [.int 4, .int 5]]⟩) := by
  have hsound : Store.Sound
      ⟨#[⟨[.int 1, .int 2, .int 3], [.int 2, .int 3]⟩, .atStart [.int 4, .int 5]]⟩ := by
    intro h e he
    have hmem := Array.mem_of_getElem? he
    simp only [List.mem_toArray, List.mem_cons, List.not_mem_nil, or_false] at hmem
    rcases hmem with rfl | rfl
    · exact List.suffix_cons _ _
    · exact List.suffix_refl _
  exact ⟨hsound, (ends_unless_reenters rfl hsound).1.1 ⟨20, rfl⟩, rfl⟩

/-- A block with a text and a block for the same name inside. -/
def startsOver : Template :=
  ⟨[.block ⟨⟨.plain, "a", [], ⟨0, 6⟩⟩, ⟨19, 25⟩,
      "x\x7b\x7b#a\x7d\x7d\x7b\x7b/a\x7d\x7d", .standard⟩
    [.text "x", .block ⟨⟨.plain, "a", [], ⟨7, 13⟩⟩, ⟨13, 19⟩, "", .standard⟩ []]]⟩

/-- For an enumerator with one value the block inside starts the block around it over, and the render
never ends. A sink is written to until it is full. -/
theorem renderWithin_startsOver :
    compile .stock
        "\x7b\x7b#a\x7d\x7dx\x7b\x7b#a\x7d\x7d\x7b\x7b/a\x7d\x7d\x7b\x7b/a\x7d\x7d" =
      .ok startsOver ∧
    (∀ budget, startsOver.renderWithin budget .stock .invariant (.map [("a", .iter ⟨0⟩)])
      ⟨#[.atStart [.int 1]]⟩ = none) ∧
    (startsOver.renderToWithin 20 .stock .invariant (.map [("a", .iter ⟨0⟩)])
        ⟨⟨#[.atStart [.int 1]]⟩, .new (some 3) false⟩).map
        (fun (answer, state) => (answer.toOption, state.sink.bytes)) =
      some (none, [120, 120, 120]) := by
  refine ⟨?_, fun budget => ?_, by decide +kernel⟩
  · rw [compile, Pipeline.parse_of_parseWithin (n := 9) rfl]
    rfl
  · cases hrender : startsOver.renderWithin budget .stock .invariant (.map [("a", .iter ⟨0⟩)])
        ⟨#[.atStart [.int 1]]⟩ with
    | none => rfl
    -- If it ended for some budget, it would come to no block that starts over.
    | some ended =>
      obtain ⟨shown, hended⟩ := Template.ends_of_renderWithin rfl hrender
      have hsound : Store.Sound ⟨#[.atStart [.int 1]]⟩ := by
        intro h e he
        obtain rfl := List.mem_singleton.1 (Array.mem_def.1 (Array.mem_of_getElem? he))
        exact List.suffix_refl _
      -- The first round comes to the block inside.
      have hround : Reaches ⟨.stock, .invariant⟩
          (startsOver.start (.map [("a", .iter ⟨0⟩)]) ⟨#[.atStart [.int 1]]⟩)
          ⟨.tokens ((Scope.root (.map [("a", .iter ⟨0⟩)])).push (.int 1))
            [.text "x", .block ⟨⟨.plain, "a", [], ⟨7, 13⟩⟩, ⟨13, 19⟩, "", .standard⟩ []],
            ⟨#[⟨[.int 1], []⟩]⟩, [⟨0⟩]⟩ :=
        .head (.first rfl) (.head .drain (.head (.round rfl) .refl))
      have hinside := (hround.tail (.rest rfl (Task.ends_write "x"))).tail (.first rfl)
      exact absurd ⟨_, _, _, _, _, hinside, rfl, List.mem_cons_self ..⟩
        (not_reenters_of_ends rfl hsound hended)

end Stencil
