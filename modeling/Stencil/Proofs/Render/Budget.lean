import Stencil.Proofs.Render.Watch

/-!
# `Stencil.Proofs.Render.Budget`: a render that ends does so within every larger budget

The four functions of a render call each other, and a budget bounds how deep. `Task` names what one
of them is called for, so that facts about renders are about tasks, by one induction on the budget
with a case for each function.

A task that has used up a budget has no result. If it has one within some budget, it has the same
one within every larger budget (`Task.watch_of_le`). So it makes sense to say that a task ends with
a text, without a budget (`Task.Ends`). What it ends with is determined (`Task.Ends.unique`), and
put together from what its parts end with (`Task.Finishes`). Facts about all renders that end are
proved by induction on that.
-/

set_option autoImplicit false

namespace Stencil

/-- What there is to do at some point of a render. -/
inductive Task where
  | tokens (scope : Scope) (ts : List Token)
  | perform (scope : Scope) (action : Action)
  | each (scope : Scope) (children : List Token) (values : List Value)
  | drain (scope : Scope) (children : List Token) (handle : Handle)

namespace Task

/-- The text of a task. -/
def text (cx : RenderContext) (budget : Nat) : Task → Direct (List Char)
  | .tokens scope ts => Direct.tokens cx budget scope ts
  | .perform scope action => Direct.perform cx budget scope action
  | .each scope children values => Direct.each cx budget scope children values
  | .drain scope children handle => Direct.drain cx budget scope children handle

/-- A task that is watched. -/
def watch {ε σ : Type} (o : Output ε σ) (cx : RenderContext) (budget : Nat) : Task → Watch ε σ Unit
  | .tokens scope ts => Watch.tokens o cx budget scope ts
  | .perform scope action => Watch.perform o cx budget scope action
  | .each scope children values => Watch.each o cx budget scope children values
  | .drain scope children handle => Watch.drain o cx budget scope children handle

/-- The text of a task is what is seen of it when it is watched. -/
theorem agreesDirect (cx : RenderContext) (budget : Nat) (task : Task) :
    Watch.AgreesDirect (task.text cx budget) (task.watch .direct cx budget) := by
  have hall := Watch.agreesDirect_all cx budget
  cases task with
  | tokens scope ts => exact hall.1 scope ts
  | perform scope action => exact hall.2.1 scope action
  | each scope children values => exact hall.2.2.1 scope children values
  | drain scope children handle => exact hall.2.2.2 scope children handle

end Task

/-! ### Larger budgets -/

namespace Watch

variable {ε σ α β : Type}

/-- A computation has every result that another one has. -/
def Prolongs (w w' : Watch ε σ α) : Prop :=
  ∀ state ended, w state = some ended → w' state = some ended

section Prolongs

variable {w w' : Watch ε σ α}

/-- A computation has its own results. -/
theorem prolongs_refl (w : Watch ε σ α) : Prolongs w w :=
  fun _ _ h => h

/-- What has used up a budget has no results. -/
theorem prolongs_exhausted (w : Watch ε σ α) : Prolongs exhausted w := by
  intro state ended h
  cases h

/-- With more results for each part, there are more for the parts one after the other. -/
theorem prolongs_bind {k k' : α → Watch ε σ β} (h : Prolongs w w')
    (h' : ∀ a, Prolongs (k a) (k' a)) : Prolongs (w >>= k) (w' >>= k') := by
  intro state ended hended
  obtain ⟨result, after⟩ := ended
  rcases cases_of_bind hended with ⟨e, hfailed, rfl⟩ | ⟨a, mid, hfirst, hsecond⟩
  · exact bind_of_error (h _ _ hfailed)
  · rw [bind_of_ok (h _ _ hfirst)]
    exact h' a _ _ hsecond

/-- A change of the store at the end does not depend on the budget. -/
theorem prolongs_thenAlways (h : Prolongs w w') (f : Store → Store) :
    Prolongs (thenAlways w f) (thenAlways w' f) := by
  intro state ended hended
  obtain ⟨first, hfirst, rfl⟩ := Option.map_eq_some_iff.1 hended
  rw [thenAlways, h _ _ hfirst]
  rfl

end Prolongs

end Watch

namespace Task

section Watch

variable {ε σ : Type} {cx : RenderContext} {budget more : Nat}

/-- One step of the budget more changes no result. -/
theorem prolongs_succ (o : Output ε σ) (cx : RenderContext) (budget : Nat) (task : Task) :
    Watch.Prolongs (task.watch o cx budget) (task.watch o cx (budget + 1)) := by
  induction budget generalizing task with
  | zero =>
    cases task with
    | tokens scope ts => exact Watch.prolongs_exhausted _
    | perform scope action => exact Watch.prolongs_exhausted _
    | each scope children values => exact Watch.prolongs_exhausted _
    | drain scope children handle => exact Watch.prolongs_exhausted _
  | succ budget ih =>
    cases task with
    | tokens scope ts =>
      cases ts with
      | nil => exact Watch.prolongs_refl _
      | cons token rest =>
        exact Watch.prolongs_bind (Watch.prolongs_refl _) fun action =>
          Watch.prolongs_bind (ih (.perform scope action)) fun _ => ih (.tokens scope rest)
    | perform scope action =>
      cases action with
      | write text => exact Watch.prolongs_refl _
      | block plan b children =>
        cases plan with
        | skip => exact Watch.prolongs_refl _
        | here => exact ih (.tokens scope children)
        | reparse text =>
          rw [watch, watch, Watch.perform, Watch.perform]
          cases cx.settings.pipeline.parse text b.delimiters with
          | error e => exact Watch.prolongs_refl _
          | ok parsed => exact ih (.tokens scope parsed)
        | each values => exact ih (.each scope children values)
        -- The enumerator is noted before the budget matters, and put back after.
        | drain handle =>
          exact Watch.prolongs_bind (Watch.prolongs_refl _) fun _ =>
            Watch.prolongs_thenAlways (ih (.drain scope children handle)) _
        | once v => exact ih (.tokens (scope.push v) children)
    | each scope children values =>
      cases values with
      | nil => exact Watch.prolongs_refl _
      | cons v vs =>
        exact Watch.prolongs_bind (ih (.tokens (scope.push v) children)) fun _ =>
          ih (.each scope children vs)
    | drain scope children handle =>
      refine Watch.prolongs_bind (Watch.prolongs_refl _) fun v? => ?_
      cases v? with
      | none => exact Watch.prolongs_refl _
      | some v =>
        exact Watch.prolongs_bind (ih (.tokens (scope.push v) children)) fun _ =>
          ih (.drain scope children handle)

/-- A task that ends does so within every larger budget, with the same result. -/
theorem watch_of_le {o : Output ε σ} {task : Task} {state : WatchState σ}
    {ended : Except ε Unit × WatchState σ} (h : task.watch o cx budget state = some ended)
    (hle : budget ≤ more) : task.watch o cx more state = some ended := by
  induction hle with
  | refl => exact h
  | step _ ih => exact prolongs_succ o cx _ task _ _ ih

/-- Two runs that end do so alike, whatever their budgets are. -/
theorem watch_unique {o : Output ε σ} {task : Task} {state : WatchState σ}
    {ended ended' : Except ε Unit × WatchState σ} (h : task.watch o cx budget state = some ended)
    (h' : task.watch o cx more state = some ended') : ended = ended' := by
  have hlarge := watch_of_le h (Nat.le_max_left budget more)
  have hlarge' := watch_of_le h' (Nat.le_max_right budget more)
  exact Option.some.inj (hlarge.symm.trans hlarge')

/-- What holds of watched tasks holds of their texts. -/
theorem text_of_le {task : Task} {store : Store} {ended : Except ParseError (List Char) × Store}
    (h : task.text cx budget store = some ended) (hle : budget ≤ more) :
    task.text cx more store = some ended := by
  rcases task.agreesDirect cx budget ⟨store, [], []⟩ with
    ⟨_, hd⟩ | ⟨result, shown, state, hw, hout, hd⟩
  · rw [h] at hd
    cases hd
  · rcases task.agreesDirect cx more ⟨store, [], []⟩ with ⟨hw', _⟩ | ⟨_, _, _, hw', hout', hd'⟩
    · rw [watch_of_le hw hle] at hw'
      cases hw'
    · rw [watch_of_le hw hle] at hw'
      cases hw'
      obtain rfl := List.append_cancel_left (hout.symm.trans hout')
      rw [hd', ← h, hd]

end Watch

/-! ### Tasks that end -/

/-- A task ends with a text and leaves a store behind, if the budget is large enough. -/
def Ends (cx : RenderContext) (task : Task) (before : Store) (shown : List Char)
    (after : Store) : Prop :=
  ∃ budget, task.text cx budget before = some (.ok shown, after)

section Ends

variable {cx : RenderContext} {scope : Scope} {before mid after : Store} {shown tail : List Char}
  {action : Action} {token : Token} {rest children : List Token} {b : Block} {v : Value}
  {vs : List Value} {handle : Handle}

/-- A task ends with one text and one store, whatever the budgets are. -/
theorem Ends.unique {task : Task} {shown' : List Char} {after' : Store}
    (h : task.Ends cx before shown after) (h' : task.Ends cx before shown' after') :
    shown = shown' ∧ after = after' := by
  obtain ⟨budget, hended⟩ := h
  obtain ⟨more, hended'⟩ := h'
  -- Both budgets can be raised to the larger of the two.
  have hlarge := text_of_le hended (Nat.le_max_left budget more)
  have heq := hlarge.symm.trans (text_of_le hended' (Nat.le_max_right budget more))
  cases heq
  exact ⟨rfl, rfl⟩

/-- Two tasks one after the other end if both do. -/
theorem exists_ends_both {first second : Task} (h : first.Ends cx before shown mid)
    (h' : second.Ends cx mid tail after) :
    ∃ budget, (do
      let head ← first.text cx budget
      let tail ← second.text cx budget
      pure (head ++ tail) : Direct (List Char)) before = some (.ok (shown ++ tail), after) := by
  obtain ⟨budget, hended⟩ := h
  obtain ⟨more, hended'⟩ := h'
  refine ⟨max budget more, ?_⟩
  rw [bind_of_ok (text_of_le hended (Nat.le_max_left ..)),
    bind_of_ok (text_of_le hended' (Nat.le_max_right ..))]
  rfl

/-- Without tokens there is no text. -/
theorem ends_nil : (tokens scope []).Ends cx before [] before :=
  ⟨1, rfl⟩

/-- Tokens end with the text of the first one and that of the others. -/
theorem ends_cons (hact : token.act cx scope before = (action, mid)) {mid' : Store}
    (h : (perform scope action).Ends cx mid shown mid')
    (h' : (tokens scope rest).Ends cx mid' tail after) :
    (tokens scope (token :: rest)).Ends cx before (shown ++ tail) after := by
  obtain ⟨budget, hended⟩ := exists_ends_both h h'
  refine ⟨budget + 1, ?_⟩
  have hstep : (Direct.step (token.act cx scope) : Direct Action) before =
      some (.ok action, mid) := by
    rw [Direct.step, hact]
  rw [text, Direct.tokens, bind_of_ok hstep]
  exact hended

/-- A literal text ends with itself. -/
theorem ends_write (literal : String) :
    (perform scope (.write literal)).Ends cx before literal.toList before :=
  ⟨1, rfl⟩

/-- A block that is skipped ends without a text. -/
theorem ends_skip : (perform scope (.block .skip b children)).Ends cx before [] before :=
  ⟨1, rfl⟩

/-- A block that shows its children once, in its own scope, ends as these do. -/
theorem ends_here (h : (tokens scope children).Ends cx before shown after) :
    (perform scope (.block .here b children)).Ends cx before shown after := by
  obtain ⟨budget, hended⟩ := h
  exact ⟨budget + 1, hended⟩

/-- A block whose helper gives a template ends as the tokens of that do. -/
theorem ends_reparse {template : String} {parsed : List Token}
    (hparse : cx.settings.pipeline.parse template b.delimiters = .ok parsed)
    (h : (tokens scope parsed).Ends cx before shown after) :
    (perform scope (.block (.reparse template) b children)).Ends cx before shown after := by
  obtain ⟨budget, hended⟩ := h
  refine ⟨budget + 1, ?_⟩
  rw [text, Direct.perform, hparse]
  exact hended

/-- A block for a single value ends as its children do in the scope of that value. -/
theorem ends_once (h : (tokens (scope.push v) children).Ends cx before shown after) :
    (perform scope (.block (.once v) b children)).Ends cx before shown after := by
  obtain ⟨budget, hended⟩ := h
  exact ⟨budget + 1, hended⟩

/-- A block for a list ends as the loop through its values does. -/
theorem ends_perform_each (h : (each scope children vs).Ends cx before shown after) :
    (perform scope (.block (.each vs) b children)).Ends cx before shown after := by
  obtain ⟨budget, hended⟩ := h
  exact ⟨budget + 1, hended⟩

/-- A block that has gone through an enumerator puts it back. -/
theorem ends_perform_drain (h : (drain scope children handle).Ends cx before shown after) :
    (perform scope (.block (.drain handle) b children)).Ends cx before shown
      (after.reset handle) := by
  obtain ⟨budget, hended⟩ := h
  refine ⟨budget + 1, ?_⟩
  rw [text, Direct.perform, Direct.thenAlways]
  exact congrArg (Option.map _) hended

/-- Without values there is no text. -/
theorem ends_each_nil : (each scope children []).Ends cx before [] before :=
  ⟨1, rfl⟩

/-- A loop through a list ends with the text for the first value and that for the others. -/
theorem ends_each_cons (h : (tokens (scope.push v) children).Ends cx before shown mid)
    (h' : (each scope children vs).Ends cx mid tail after) :
    (each scope children (v :: vs)).Ends cx before (shown ++ tail) after := by
  obtain ⟨budget, hended⟩ := exists_ends_both h h'
  exact ⟨budget + 1, hended⟩

/-- A loop ends when its enumerator gives no value. -/
theorem ends_drain_none (hnext : before.next handle = (none, after)) :
    (drain scope children handle).Ends cx before [] after := by
  refine ⟨1, ?_⟩
  have hstep : (Direct.step (·.next handle) : Direct (Option Value)) before =
      some (.ok none, after) := by
    rw [Direct.step, hnext]
  rw [text, Direct.drain, bind_of_ok hstep]
  rfl

/-- A loop through an enumerator ends with the text for the next value and that of the loop from
there on. -/
theorem ends_drain_some (hnext : before.next handle = (some v, mid)) {mid' : Store}
    (h : (tokens (scope.push v) children).Ends cx mid shown mid')
    (h' : (drain scope children handle).Ends cx mid' tail after) :
    (drain scope children handle).Ends cx before (shown ++ tail) after := by
  obtain ⟨budget, hended⟩ := exists_ends_both h h'
  refine ⟨budget + 1, ?_⟩
  have hstep : (Direct.step (·.next handle) : Direct (Option Value)) before =
      some (.ok (some v), mid) := by
    rw [Direct.step, hnext]
  rw [text, Direct.drain, bind_of_ok hstep]
  exact hended

/-- A task that ends with a text can be watched while it does. -/
theorem Ends.exists_watch {task : Task} (h : task.Ends cx before shown after) :
    ∃ budget state, task.watch .direct cx budget ⟨before, [], []⟩ = some (.ok (), state) ∧
      state.store = after := by
  obtain ⟨budget, hended⟩ := h
  rcases task.agreesDirect cx budget ⟨before, [], []⟩ with ⟨_, hd⟩ | ⟨result, _, state, hw, _, hd⟩
  · rw [hended] at hd
    cases hd
  · rw [hended] at hd
    cases result with
    | error e => cases hd
    | ok _ =>
      cases hd
      exact ⟨budget, state, hw, rfl⟩

/-- Two watched tasks one after the other that end well both do. -/
theorem exists_mid_of_both {ε σ : Type} {o : Output ε σ} {budget : Nat} (first second : Task)
    {s t : WatchState σ}
    (h : (do first.watch o cx budget; second.watch o cx budget : Watch ε σ Unit) s =
      some (.ok (), t)) :
    ∃ mid, first.watch o cx budget s = some (.ok (), mid) ∧
      second.watch o cx budget mid = some (.ok (), t) := by
  rcases cases_of_bind h with ⟨e, _, hne⟩ | ⟨_, mid, hfirst, hsecond⟩
  · cases hne
  · exact ⟨mid, hfirst, hsecond⟩

end Ends

/-! ### Tasks that end, part by part -/

/-- A task ends with a text and leaves a store behind, by what its parts end with. -/
inductive Finishes (cx : RenderContext) : Task → Store → List Char → Store → Prop where
  | nil {scope : Scope} {store : Store} : Finishes cx (.tokens scope []) store [] store
  | cons {scope : Scope} {token : Token} {rest : List Token} {action : Action}
    {before mid mid' after : Store} {shown tail : List Char}
    (act : token.act cx scope before = (action, mid))
    (first : Finishes cx (.perform scope action) mid shown mid')
    (others : Finishes cx (.tokens scope rest) mid' tail after) :
    Finishes cx (.tokens scope (token :: rest)) before (shown ++ tail) after
  | write {scope : Scope} {store : Store} (literal : String) :
    Finishes cx (.perform scope (.write literal)) store literal.toList store
  | skip {scope : Scope} {b : Block} {children : List Token} {store : Store} :
    Finishes cx (.perform scope (.block .skip b children)) store [] store
  | here {scope : Scope} {b : Block} {children : List Token} {before after : Store}
    {shown : List Char} (inside : Finishes cx (.tokens scope children) before shown after) :
    Finishes cx (.perform scope (.block .here b children)) before shown after
  | reparse {scope : Scope} {b : Block} {children parsed : List Token} {before after : Store}
    {template : String} {shown : List Char}
    (parse : cx.settings.pipeline.parse template b.delimiters = .ok parsed)
    (inside : Finishes cx (.tokens scope parsed) before shown after) :
    Finishes cx (.perform scope (.block (.reparse template) b children)) before shown after
  | once {scope : Scope} {b : Block} {children : List Token} {v : Value} {before after : Store}
    {shown : List Char} (inside : Finishes cx (.tokens (scope.push v) children) before shown after) :
    Finishes cx (.perform scope (.block (.once v) b children)) before shown after
  | each {scope : Scope} {b : Block} {children : List Token} {values : List Value}
    {before after : Store} {shown : List Char}
    (inside : Finishes cx (.each scope children values) before shown after) :
    Finishes cx (.perform scope (.block (.each values) b children)) before shown after
  /-- The enumerator is put back at the end. -/
  | drain {scope : Scope} {b : Block} {children : List Token} {handle : Handle}
    {before after : Store} {shown : List Char}
    (inside : Finishes cx (.drain scope children handle) before shown after) :
    Finishes cx (.perform scope (.block (.drain handle) b children)) before shown
      (after.reset handle)
  | noItems {scope : Scope} {children : List Token} {store : Store} :
    Finishes cx (.each scope children []) store [] store
  | item {scope : Scope} {children : List Token} {v : Value} {vs : List Value}
    {before mid after : Store} {shown tail : List Char}
    (first : Finishes cx (.tokens (scope.push v) children) before shown mid)
    (others : Finishes cx (.each scope children vs) mid tail after) :
    Finishes cx (.each scope children (v :: vs)) before (shown ++ tail) after
  | done {scope : Scope} {children : List Token} {handle : Handle} {before after : Store}
    (next : before.next handle = (none, after)) :
    Finishes cx (.drain scope children handle) before [] after
  | round {scope : Scope} {children : List Token} {handle : Handle} {v : Value}
    {before mid mid' after : Store} {shown tail : List Char}
    (next : before.next handle = (some v, mid))
    (first : Finishes cx (.tokens (scope.push v) children) mid shown mid')
    (others : Finishes cx (.drain scope children handle) mid' tail after) :
    Finishes cx (.drain scope children handle) before (shown ++ tail) after

section Finishes

variable {cx : RenderContext} {before after : Store} {shown : List Char}

/-- A task that ends part by part ends within some budget. -/
theorem Finishes.ends {task : Task} (h : task.Finishes cx before shown after) :
    task.Ends cx before shown after := by
  induction h with
  | nil => exact ends_nil
  | cons act _ _ ihFirst ihOthers => exact ends_cons act ihFirst ihOthers
  | write literal => exact ends_write literal
  | skip => exact ends_skip
  | here _ ih => exact ends_here ih
  | reparse parse _ ih => exact ends_reparse parse ih
  | once _ ih => exact ends_once ih
  | each _ ih => exact ends_perform_each ih
  | drain _ ih => exact ends_perform_drain ih
  | noItems => exact ends_each_nil
  | item _ _ ihFirst ihOthers => exact ends_each_cons ihFirst ihOthers
  | done next => exact ends_drain_none next
  | round next _ _ ihFirst ihOthers => exact ends_drain_some next ihFirst ihOthers

/-- A task that ends well when it is watched ends part by part, and leaves the same store behind,
whatever its output is. -/
theorem exists_finishes_of_watch {ε σ : Type} {o : Output ε σ} {budget : Nat} (task : Task)
    {s t : WatchState σ} (h : task.watch o cx budget s = some (.ok (), t)) :
    ∃ shown, task.Finishes cx s.store shown t.store := by
  -- The induction follows the budget, and puts together the text of each task from those of its
  -- parts.
  induction budget generalizing task s t with
  | zero => cases task <;> cases h
  | succ budget ih =>
    cases task with
    | tokens scope ts =>
      cases ts with
      | nil =>
        cases h
        exact ⟨[], .nil⟩
      | cons token rest =>
        obtain ⟨mid, hfirst, hrest⟩ := exists_mid_of_both (.perform scope _)
          (.tokens scope rest) (s := { s with store := _ }) h
        obtain ⟨head, hhead⟩ := ih _ hfirst
        obtain ⟨tail, htail⟩ := ih _ hrest
        exact ⟨head ++ tail, .cons rfl hhead htail⟩
    | perform scope action =>
      cases action with
      | write literal =>
        obtain ⟨_, rfl⟩ := Prod.mk.inj (Option.some.inj h)
        exact ⟨literal.toList, .write literal⟩
      | block plan b children =>
        cases plan with
        | skip =>
          cases h
          exact ⟨[], .skip⟩
        | here =>
          obtain ⟨shown, hinside⟩ := ih (.tokens scope children) h
          exact ⟨shown, .here hinside⟩
        | reparse template =>
          rw [watch, Watch.perform] at h
          cases hparse : cx.settings.pipeline.parse template b.delimiters with
          | error e =>
            rw [hparse] at h
            cases h
          | ok parsed =>
            rw [hparse] at h
            obtain ⟨shown, hinside⟩ := ih (.tokens scope parsed) h
            exact ⟨shown, .reparse hparse hinside⟩
        | each values =>
          obtain ⟨shown, hinside⟩ := ih (.each scope children values) h
          exact ⟨shown, .each hinside⟩
        | drain handle =>
          have hrun : (Watch.thenAlways (Watch.drain o cx budget scope children handle)
              (·.reset handle)) { s with drained := s.drained ++ [handle] } = some (.ok (), t) := h
          obtain ⟨⟨result, ended⟩, hended, heq⟩ := Option.map_eq_some_iff.1 hrun
          obtain ⟨rfl, rfl⟩ := Prod.mk.inj heq
          obtain ⟨shown, hinside⟩ := ih (.drain scope children handle) hended
          exact ⟨shown, .drain hinside⟩
        | once v =>
          obtain ⟨shown, hinside⟩ := ih (.tokens (scope.push v) children) h
          exact ⟨shown, .once hinside⟩
    | each scope children values =>
      cases values with
      | nil =>
        cases h
        exact ⟨[], .noItems⟩
      | cons v vs =>
        obtain ⟨mid, hfirst, hrest⟩ := exists_mid_of_both (.tokens (scope.push v) children)
          (.each scope children vs) h
        obtain ⟨head, hhead⟩ := ih _ hfirst
        obtain ⟨tail, htail⟩ := ih _ hrest
        exact ⟨head ++ tail, .item hhead htail⟩
    | drain scope children handle =>
      rw [watch] at h
      rcases hnext : s.store.next handle with ⟨_ | v, store⟩
      · rw [Watch.drain_of_none hnext] at h
        cases h
        exact ⟨[], .done hnext⟩
      · rw [Watch.drain_of_some hnext] at h
        obtain ⟨mid, hfirst, hrest⟩ := exists_mid_of_both (.tokens (scope.push v) children)
          (.drain scope children handle) h
        obtain ⟨head, hhead⟩ := ih _ hfirst
        obtain ⟨tail, htail⟩ := ih _ hrest
        exact ⟨head ++ tail, .round hnext hhead htail⟩

/-- A task that ends well when it is watched ends with a text, and leaves the same store behind. -/
theorem exists_ends_of_watch {ε σ : Type} {o : Output ε σ} {budget : Nat} (task : Task)
    {s t : WatchState σ} (h : task.watch o cx budget s = some (.ok (), t)) :
    ∃ shown, task.Ends cx s.store shown t.store := by
  obtain ⟨shown, hfinishes⟩ := exists_finishes_of_watch task h
  exact ⟨shown, hfinishes.ends⟩

/-- A task that ends does so part by part. -/
theorem Ends.finishes {task : Task} (h : task.Ends cx before shown after) :
    task.Finishes cx before shown after := by
  obtain ⟨budget, state, hrun, rfl⟩ := h.exists_watch
  obtain ⟨shown', hfinishes⟩ := exists_finishes_of_watch task hrun
  -- Both end the task from the same store, so with the same text.
  obtain ⟨rfl, _⟩ := h.unique hfinishes.ends
  exact hfinishes

end Finishes

end Task

end Stencil
