import Mathlib.Logic.Relation
import Stencil.Proofs.Render.Budget
import Stencil.Proofs.Render.Stock
import Stencil.Proofs.Value.Embedding

/-!
# `Stencil.Proofs.Render.Nesting`: blocks that go through enumerators end

A block goes through the values that its enumerator has left. Its children may go through other
enumerators meanwhile, and through the same ones again and again. None of that keeps the block from
ending, unless one of its children goes through the very enumerator that the block goes through:
that child puts it back, and the block starts over.

`Place` is a point of a render, with the enumerators that the blocks around it go through, and
`Begins` says which places a render comes to. `Reenters` says that it comes to a block inside
another one for the same enumerator. `Task.endsWell` says of a render without such a block that it
ends, by recursion on the tokens, and `exists_goesThrough` that each of its blocks shows its children
once for each value that its enumerator has left.
-/

set_option autoImplicit false

namespace Stencil

/-! ### Values that are left -/

namespace Store

variable (s : Store) {h k : Handle}

/-- An enumerator gives the first of the values that it has left. -/
theorem fst_next (h : Handle) : (s.next h).1 = (s.remaining h).head? := by
  rw [next, remaining]
  cases s.find? h with
  | none => rfl
  | some e => rfl

/-- That one is not left any more. -/
theorem remaining_next (h : Handle) : (s.next h).2.remaining h = (s.remaining h).tail := by
  cases hfind : s.find? h with
  | none =>
    rw [next, hfind]
    show s.remaining h = _
    rw [remaining, hfind]
    rfl
  | some e =>
    rw [next, hfind]
    exact s.remaining_advance h

/-- A step of one enumerator leaves the values of another. -/
theorem remaining_next_of_ne (hne : k ≠ h) : (s.next h).2.remaining k = s.remaining k := by
  rw [remaining, remaining, find?_next_of_ne s hne]

/-- Putting one enumerator back leaves the values of another. -/
theorem remaining_reset_of_ne (hne : k ≠ h) : (s.reset h).remaining k = s.remaining k := by
  rw [remaining, remaining, find?_reset_of_ne s hne]

end Store

/-! ### Places -/

/-- A point of a render: what there is to do, the store that this begins with, and the enumerators
that the blocks around it go through. -/
structure Place where
  task : Task
  store : Store
  around : List Handle

/-- Something that a place begins with, or comes to after an earlier part of it has ended. -/
inductive Begins (cx : RenderContext) : Place → Place → Prop where
  | first {scope : Scope} {token : Token} {rest : List Token} {before mid : Store}
    {around : List Handle} {action : Action} (act : token.act cx scope before = (action, mid)) :
    Begins cx ⟨.tokens scope (token :: rest), before, around⟩ ⟨.perform scope action, mid, around⟩
  | rest {scope : Scope} {token : Token} {rest : List Token} {before mid after : Store}
    {around : List Handle} {action : Action} {shown : List Char}
    (act : token.act cx scope before = (action, mid))
    (ended : (Task.perform scope action).Ends cx mid shown after) :
    Begins cx ⟨.tokens scope (token :: rest), before, around⟩ ⟨.tokens scope rest, after, around⟩
  | here {scope : Scope} {b : Block} {children : List Token} {store : Store}
    {around : List Handle} :
    Begins cx ⟨.perform scope (.block .here b children), store, around⟩
      ⟨.tokens scope children, store, around⟩
  | reparse {scope : Scope} {b : Block} {children parsed : List Token} {store : Store}
    {around : List Handle} {template : String}
    (parse : cx.settings.pipeline.parse template b.delimiters = .ok parsed) :
    Begins cx ⟨.perform scope (.block (.reparse template) b children), store, around⟩
      ⟨.tokens scope parsed, store, around⟩
  | once {scope : Scope} {b : Block} {children : List Token} {store : Store}
    {around : List Handle} {v : Value} :
    Begins cx ⟨.perform scope (.block (.once v) b children), store, around⟩
      ⟨.tokens (scope.push v) children, store, around⟩
  | each {scope : Scope} {b : Block} {children : List Token} {store : Store}
    {around : List Handle} {values : List Value} :
    Begins cx ⟨.perform scope (.block (.each values) b children), store, around⟩
      ⟨.each scope children values, store, around⟩
  /-- From here on there is one enumerator more that a block goes through. -/
  | drain {scope : Scope} {b : Block} {children : List Token} {store : Store}
    {around : List Handle} {handle : Handle} :
    Begins cx ⟨.perform scope (.block (.drain handle) b children), store, around⟩
      ⟨.drain scope children handle, store, handle :: around⟩
  | item {scope : Scope} {children : List Token} {store : Store} {around : List Handle}
    {v : Value} {vs : List Value} :
    Begins cx ⟨.each scope children (v :: vs), store, around⟩
      ⟨.tokens (scope.push v) children, store, around⟩
  | items {scope : Scope} {children : List Token} {before after : Store} {around : List Handle}
    {v : Value} {vs : List Value} {shown : List Char}
    (ended : (Task.tokens (scope.push v) children).Ends cx before shown after) :
    Begins cx ⟨.each scope children (v :: vs), before, around⟩
      ⟨.each scope children vs, after, around⟩
  | round {scope : Scope} {children : List Token} {before mid : Store} {around : List Handle}
    {handle : Handle} {v : Value} (next : before.next handle = (some v, mid)) :
    Begins cx ⟨.drain scope children handle, before, around⟩
      ⟨.tokens (scope.push v) children, mid, around⟩
  | rounds {scope : Scope} {children : List Token} {before mid after : Store}
    {around : List Handle} {handle : Handle} {v : Value} {shown : List Char}
    (next : before.next handle = (some v, mid))
    (ended : (Task.tokens (scope.push v) children).Ends cx mid shown after) :
    Begins cx ⟨.drain scope children handle, before, around⟩
      ⟨.drain scope children handle, after, around⟩

/-- A place that a render comes to from another one. -/
def Reaches (cx : RenderContext) : Place → Place → Prop :=
  Relation.ReflTransGen (Begins cx)

/-- A place where a block for an enumerator stands. -/
def Place.Enters (p : Place) (scope : Scope) (handle : Handle) (b : Block)
    (children : List Token) : Prop :=
  p.task = .perform scope (.block (.drain handle) b children)

/-- A render comes to a block for an enumerator that a block around it goes through. -/
def Reenters (cx : RenderContext) (start : Place) : Prop :=
  ∃ place scope handle b children, Reaches cx start place ∧
    place.Enters scope handle b children ∧ handle ∈ place.around

/-- A block shows its children once for each of some values, which its enumerator gives one after
the other, and then the enumerator has none left. -/
inductive GoesThrough (cx : RenderContext) (scope : Scope) (children : List Token)
    (handle : Handle) : List Value → Store → List Char → Store → Prop where
  | done {before after : Store} (next : before.next handle = (none, after)) :
    GoesThrough cx scope children handle [] before [] after
  | round {v : Value} {vs : List Value} {before mid mid' after : Store} {shown tail : List Char}
    (next : before.next handle = (some v, mid))
    (body : (Task.tokens (scope.push v) children).Ends cx mid shown mid')
    (others : GoesThrough cx scope children handle vs mid' tail after) :
    GoesThrough cx scope children handle (v :: vs) before (shown ++ tail) after

/-- A block that goes through some values ends. -/
theorem GoesThrough.ends {cx : RenderContext} {scope : Scope} {children : List Token}
    {handle : Handle} {values : List Value} {before after : Store} {shown : List Char}
    (h : GoesThrough cx scope children handle values before shown after) :
    (Task.drain scope children handle).Ends cx before shown after := by
  induction h with
  | done next => exact Task.ends_drain_none next
  | round next body _ ih => exact Task.ends_drain_some next body ih

/-- A render that comes to no such block does not do so from a place it begins with either. -/
theorem not_reenters_of_begins {cx : RenderContext} {p q : Place} (h : ¬ Reenters cx p)
    (hbegins : Begins cx p q) : ¬ Reenters cx q := by
  rintro ⟨place, scope, handle, b, children, hreaches, henters, hmem⟩
  exact h ⟨place, scope, handle, b, children, .head hbegins hreaches, henters, hmem⟩

/-- The same holds of every place that it comes to. -/
theorem not_reenters_of_reaches {cx : RenderContext} {p q : Place} (h : ¬ Reenters cx p)
    (hreaches : Reaches cx p q) : ¬ Reenters cx q := by
  induction hreaches with
  | refl => exact h
  | tail _ hbegins ih => exact not_reenters_of_begins ih hbegins

/-- In a render without such a block, the enumerator of a block is none of those around it. -/
theorem not_mem_around {cx : RenderContext} {p : Place} (h : ¬ Reenters cx p) {scope : Scope}
    {handle : Handle} {b : Block} {children : List Token}
    (henters : p.Enters scope handle b children) : handle ∉ p.around :=
  fun hmem => h ⟨p, scope, handle, b, children, .refl, henters, hmem⟩

/-! ### Renders that end -/

/-- A task ends wherever no block inside it is for the enumerator of a block around that. Then the
enumerators that the blocks around the task go through have as many values left as before. -/
def Task.EndsWell (cx : RenderContext) (task : Task) : Prop :=
  ∀ store around, ¬ Reenters cx ⟨task, store, around⟩ →
    ∃ shown after, task.Ends cx store shown after ∧
      ∀ handle ∈ around, after.remaining handle = store.remaining handle

namespace Task

variable {cx : RenderContext} {scope : Scope} {children : List Token} {b : Block}

/-- A literal text ends and leaves the store. -/
theorem endsWell_write (literal : String) : (perform scope (.write literal)).EndsWell cx :=
  fun store _ _ => ⟨literal.toList, store, ends_write literal, fun _ _ => rfl⟩

/-- A block that is skipped ends and leaves the store. -/
theorem endsWell_skip : (perform scope (.block .skip b children)).EndsWell cx :=
  fun store _ _ => ⟨[], store, ends_skip, fun _ _ => rfl⟩

/-- A block that shows its children in its own scope ends well if these do. -/
theorem endsWell_here (h : (tokens scope children).EndsWell cx) :
    (perform scope (.block .here b children)).EndsWell cx := by
  intro store around hcalm
  obtain ⟨shown, after, hends, hkept⟩ := h store around (not_reenters_of_begins hcalm .here)
  exact ⟨shown, after, ends_here hends, hkept⟩

/-- A block for a single value ends well if its children do. -/
theorem endsWell_once {v : Value} (h : (tokens (scope.push v) children).EndsWell cx) :
    (perform scope (.block (.once v) b children)).EndsWell cx := by
  intro store around hcalm
  obtain ⟨shown, after, hends, hkept⟩ := h store around (not_reenters_of_begins hcalm .once)
  exact ⟨shown, after, ends_once hends, hkept⟩

/-- A loop through a list ends well if its children do for every value. -/
theorem endsWell_each (h : ∀ v, (tokens (scope.push v) children).EndsWell cx)
    (values : List Value) : (each scope children values).EndsWell cx := by
  induction values with
  | nil => exact fun store _ _ => ⟨[], store, ends_each_nil, fun _ _ => rfl⟩
  | cons v vs ih =>
    -- Both parts keep what is left of the enumerators around the loop.
    intro store around hcalm
    obtain ⟨shown, mid, hends, hkept⟩ := h v store around (not_reenters_of_begins hcalm .item)
    obtain ⟨tail, after, hends', hkept'⟩ :=
      ih mid around (not_reenters_of_begins hcalm (.items hends))
    exact ⟨shown ++ tail, after, ends_each_cons hends hends',
      fun handle hmem => (hkept' handle hmem).trans (hkept handle hmem)⟩

/-- A block for a list ends well if its children do for every value. -/
theorem endsWell_perform_each (h : ∀ v, (tokens (scope.push v) children).EndsWell cx)
    (values : List Value) : (perform scope (.block (.each values) b children)).EndsWell cx := by
  intro store around hcalm
  obtain ⟨shown, after, hends, hkept⟩ :=
    endsWell_each h values store around (not_reenters_of_begins hcalm .each)
  exact ⟨shown, after, ends_perform_each hends, hkept⟩

/-- A block for an enumerator goes through the values that this has left, since its children keep
it where it is. -/
theorem exists_goesThrough_drain {handle : Handle} {around : List Handle}
    (h : ∀ v, (tokens (scope.push v) children).EndsWell cx) (hmem : handle ∈ around) {store : Store}
    {values : List Value} (hvalues : store.remaining handle = values)
    (hcalm : ¬ Reenters cx ⟨drain scope children handle, store, around⟩) :
    ∃ shown after, GoesThrough cx scope children handle values store shown after ∧
      ∀ other ∈ around, other ≠ handle → after.remaining other = store.remaining other := by
  induction values generalizing store with
  | nil =>
    have hnext : store.next handle = (none, (store.next handle).2) :=
      Prod.ext (by rw [store.fst_next, hvalues]; rfl) rfl
    exact ⟨[], _, .done hnext, fun other _ hne => store.remaining_next_of_ne hne⟩
  | cons v vs ih =>
    have hnext : store.next handle = (some v, (store.next handle).2) :=
      Prod.ext (by rw [store.fst_next, hvalues]; rfl) rfl
    obtain ⟨shown, mid, hbody, hkept⟩ :=
      h v _ around (not_reenters_of_begins hcalm (.round hnext))
    -- After the round there is one value less left.
    have hleft : mid.remaining handle = vs := by
      rw [hkept handle hmem, store.remaining_next, hvalues]
      rfl
    obtain ⟨tail, after, hothers, hkept'⟩ :=
      ih hleft (not_reenters_of_begins hcalm (.rounds hnext hbody))
    refine ⟨shown ++ tail, after, .round hnext hbody hothers, fun other hother hne => ?_⟩
    rw [hkept' other hother hne, hkept other hother, store.remaining_next_of_ne hne]

/-- A block for an enumerator ends well if its children do for every value. -/
theorem endsWell_perform_drain (h : ∀ v, (tokens (scope.push v) children).EndsWell cx)
    (handle : Handle) : (perform scope (.block (.drain handle) b children)).EndsWell cx := by
  intro store around hcalm
  obtain ⟨shown, after, hrounds, hkept⟩ := exists_goesThrough_drain h (List.mem_cons_self ..) rfl
    (not_reenters_of_begins hcalm .drain)
  refine ⟨shown, _, ends_perform_drain hrounds.ends, fun other hother => ?_⟩
  -- The enumerator that is put back is none of those around the block.
  have hne : other ≠ handle := by
    rintro rfl
    exact not_mem_around hcalm rfl hother
  rw [after.remaining_reset_of_ne hne, hkept other (List.mem_cons_of_mem _ hother) hne]

/-- Tokens end well if what the first one asks for does, and the others do. -/
theorem endsWell_cons {token : Token} {rest : List Token}
    (hact : ∃ action, (∀ store, token.act cx scope store = (action, store)) ∧
      (perform scope action).EndsWell cx)
    (hrest : (tokens scope rest).EndsWell cx) :
    (tokens scope (token :: rest)).EndsWell cx := by
  obtain ⟨action, hact, hfirst⟩ := hact
  intro store around hcalm
  obtain ⟨shown, mid, hends, hkept⟩ :=
    hfirst store around (not_reenters_of_begins hcalm (.first (hact store)))
  obtain ⟨tail, after, hends', hkept'⟩ :=
    hrest mid around (not_reenters_of_begins hcalm (.rest (hact store) hends))
  exact ⟨shown ++ tail, after, ends_cons (hact store) hends hends',
    fun handle hmem => (hkept' handle hmem).trans (hkept handle hmem)⟩

/-- What a token of the language asks for ends, if its children do. -/
theorem endsWell_stockAction (token : Token)
    (h : ∀ b children, token = .block b children → ∀ scope, (tokens scope children).EndsWell cx) :
    (perform scope (token.stockAction cx scope)).EndsWell cx := by
  rcases token.stockAction_cases cx scope with ⟨text, haction⟩ | ⟨b, children, rfl, hblock⟩
  · rw [haction]
    exact endsWell_write text
  · have hchildren := h b children rfl
    rcases hblock with ⟨_, haction⟩ | ⟨_, haction | haction⟩
    -- How the block deals with its children depends on the value of its name.
    · rw [haction]
      rcases BlockPlan.ofValue_cases cx.settings (scope.lookup b.name) with
        hplan | ⟨values, hplan⟩ | ⟨handle, hplan⟩ | hplan
      · rw [hplan]
        exact endsWell_skip
      · rw [hplan]
        exact endsWell_perform_each (fun v => hchildren _) values
      · rw [hplan]
        exact endsWell_perform_drain (fun v => hchildren _) handle
      · rw [hplan]
        exact endsWell_once (hchildren _)
    · rw [haction]
      exact endsWell_skip
    · rw [haction]
      exact endsWell_here (hchildren _)

/-- Tokens end without helpers. The recursion is on the tokens, whose children are smaller. -/
theorem endsWell (hrules : cx.settings.rules = Settings.stockRules) (scope : Scope) :
    ∀ ts : List Token, (tokens scope ts).EndsWell cx
  | [] => fun store _ _ => ⟨[], store, ends_nil, fun _ _ => rfl⟩
  | token :: rest => by
    have hact : ∀ store, token.act cx scope store = (token.stockAction cx scope, store) :=
      Token.act_of_stock (hrules.trans (List.append_nil _).symm) scope (.inr rfl)
    refine endsWell_cons ⟨_, hact, endsWell_stockAction token fun b children htoken scope => ?_⟩
      (endsWell hrules scope rest)
    exact endsWell hrules scope children
termination_by ts => sizeOf ts
decreasing_by
  · rw [htoken, List.cons.sizeOf_spec, Token.block.sizeOf_spec]
    omega
  · rw [List.cons.sizeOf_spec]
    omega

end Task

/-- In a render without helpers and without a block inside another one for the same enumerator, every
block goes through the values that its enumerator has left. -/
theorem exists_goesThrough {cx : RenderContext} {start place : Place} {scope : Scope}
    {handle : Handle} {b : Block} {children : List Token}
    (hrules : cx.settings.rules = Settings.stockRules) (h : ¬ Reenters cx start)
    (hreaches : Reaches cx start place) (henters : place.Enters scope handle b children) :
    ∃ shown after,
      GoesThrough cx scope children handle (place.store.remaining handle) place.store shown after ∧
        place.task.Ends cx place.store shown (after.reset handle) := by
  obtain ⟨task, store, around⟩ := place
  obtain rfl : task = _ := henters
  have hcalm := not_reenters_of_begins (not_reenters_of_reaches h hreaches) .drain
  obtain ⟨shown, after, hrounds, _⟩ := Task.exists_goesThrough_drain
    (fun v => Task.endsWell hrules (scope.push v) children) (List.mem_cons_self ..) rfl hcalm
  exact ⟨shown, after, hrounds, Task.ends_perform_drain hrounds.ends⟩

end Stencil
