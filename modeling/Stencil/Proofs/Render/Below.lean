import Stencil.Proofs.Render.Asking
import Stencil.Proofs.Render.Untouched

/-!
# `Stencil.Proofs.Render.Below`: renders that know only the first enumerators

Handles are no numbers to a template: a block goes through an enumerator only if the scope or
another enumerator names it, or a helper gives it. So a render whose scope names the first `n`
enumerators of a store never touches the others, if its helpers do not reach further
(`neverTouches_of_below`). In particular a block never touches an enumerator that was made after all
that its scope names.
-/

set_option autoImplicit false

namespace Stencil

variable {n : Nat} {cx : RenderContext} {scope : Scope}

/-- What there is to do names only the first `n` enumerators of a store. -/
def Task.Within (n : Nat) : Task → Prop
  | .tokens scope _ => scope.Within n
  | .perform scope action => scope.Within n ∧ action.Within n
  | .each scope _ values => scope.Within n ∧ ∀ v ∈ values, v.Within n
  | .drain scope _ handle => scope.Within n ∧ handle.index < n

/-- Only the first `n` enumerators are named at a place of a render, and by those. -/
structure Place.Below (n : Nat) (p : Place) : Prop where
  task : p.task.Within n
  store : p.store.ClosedBelow n

/-- What a token asks for names no other enumerators than its scope and the value of the call. -/
theorem Token.within_outcome (hscope : scope.Within n) (token : Token) {v : Value}
    (hv : v.Within n) : (token.outcome cx scope v).Within n := by
  unfold outcome
  split
  · exact RenderRule.within_outcome hscope hv _ token
  · trivial

/-- What a token asks for names no other enumerators than its scope, and nor do the first
enumerators afterwards. -/
theorem Token.within_of_act (h : ∀ helper, cx.settings.HasHelper helper → helper.StaysBelow n)
    (hscope : scope.Within n) {store mid : Store} (hstore : store.ClosedBelow n) {token : Token}
    {action : Action} (hact : token.act cx scope store = (action, mid)) :
    action.Within n ∧ mid.ClosedBelow n := by
  rcases token.act_cases cx scope with hnone | ⟨helper, hcx, values, hcalls, hcall⟩
  · obtain ⟨rfl, rfl⟩ := Prod.mk.inj ((hnone store).symm.trans hact)
    refine ⟨token.within_outcome hscope ?_, hstore⟩
    intro handle hmem
    cases hmem
  · obtain ⟨rfl, rfl⟩ := Prod.mk.inj ((hcall store).symm.trans hact)
    obtain ⟨hvalue, hafter, _⟩ :=
      h helper hcalls.hasHelper hcx values store (hcalls.within hscope).1 (hcalls.within hscope).2
        hstore
    exact ⟨token.within_outcome hscope hvalue, hafter⟩

/-! ### Tasks -/

section Tasks

variable (h : ∀ helper, cx.settings.HasHelper helper → helper.StaysBelow n)

include h

/-- A task that names only the first enumerators leaves a store in which these name no others. -/
theorem Task.Ends.closedBelow {task : Task} {before after : Store} {shown : List Char}
    (hends : task.Ends cx before shown after) (htask : task.Within n)
    (hbefore : before.ClosedBelow n) : after.ClosedBelow n := by
  -- The parts of a task name no more than the task, and each of them leaves such a store.
  have hparts := hends.finishes
  clear hends
  induction hparts with
  | nil => exact hbefore
  | cons act _ _ ihFirst ihOthers =>
    obtain ⟨haction, hmid⟩ := Token.within_of_act h htask hbefore act
    exact ihOthers htask (ihFirst ⟨htask, haction⟩ hmid)
  | write literal => exact hbefore
  | skip => exact hbefore
  | here _ ih => exact ih htask.1 hbefore
  | reparse _ _ ih => exact ih htask.1 hbefore
  | once _ ih => exact ih (htask.1.push htask.2) hbefore
  | each _ ih => exact ih htask hbefore
  | drain _ ih =>
    -- A reset changes what is left of an enumerator, but not the values that it names.
    exact (ih htask hbefore).reset _
  | noItems => exact hbefore
  | item _ _ ihFirst ihOthers =>
    obtain ⟨hv, hvs⟩ := List.forall_mem_cons.1 htask.2
    exact ihOthers ⟨htask.1, hvs⟩ (ihFirst (htask.1.push hv) hbefore)
  | done next => exact hbefore.of_next next
  | round next _ _ ihFirst ihOthers =>
    have hv := hbefore.within_next htask.2 (congrArg Prod.fst next)
    exact ihOthers htask (ihFirst (htask.1.push hv) (hbefore.of_next next))

/-- Wherever a render comes from a place that names only the first enumerators, only those are
named. -/
theorem Begins.below {p q : Place} (hbegins : Begins cx p q) (hp : p.Below n) : q.Below n := by
  obtain ⟨htask, hstore⟩ := hp
  cases hbegins with
  | first act =>
    obtain ⟨haction, hmid⟩ := Token.within_of_act h htask hstore act
    exact ⟨⟨htask, haction⟩, hmid⟩
  | rest act ended =>
    obtain ⟨haction, hmid⟩ := Token.within_of_act h htask hstore act
    exact ⟨htask, ended.closedBelow h ⟨htask, haction⟩ hmid⟩
  | here => exact ⟨htask.1, hstore⟩
  | reparse parse => exact ⟨htask.1, hstore⟩
  | once => exact ⟨htask.1.push htask.2, hstore⟩
  | each => exact ⟨htask, hstore⟩
  | drain => exact ⟨htask, hstore⟩
  | item => exact ⟨htask.1.push (htask.2 _ (List.mem_cons_self ..)), hstore⟩
  | items ended =>
    obtain ⟨hv, hvs⟩ := List.forall_mem_cons.1 htask.2
    exact ⟨⟨htask.1, hvs⟩, ended.closedBelow h (htask.1.push hv) hstore⟩
  | round next =>
    have hv := hstore.within_next htask.2 (congrArg Prod.fst next)
    exact ⟨htask.1.push hv, hstore.of_next next⟩
  | rounds next ended =>
    have hv := hstore.within_next htask.2 (congrArg Prod.fst next)
    exact ⟨htask, ended.closedBelow h (htask.1.push hv) (hstore.of_next next)⟩

/-- A render that knows only the first `n` enumerators of a store never touches the others. -/
theorem neverTouches_of_below {start : Place} (hstart : start.Below n) {handle : Handle}
    (hle : n ≤ handle.index) : NeverTouches cx handle start := by
  intro place hreaches
  -- The place names only the first enumerators, by induction on the way to it.
  have hplace : place.Below n := by
    induction hreaches with
    | refl => exact hstart
    | tail _ hbegins ih => exact hbegins.below h ih
  obtain ⟨htask, hstore⟩ := hplace
  constructor
  · intro scope children htask'
    rw [htask'] at htask
    have hlt : handle.index < n := htask.2
    omega
  · intro scope token rest htask' helper hcx values hcalls
    rw [htask'] at htask
    have hwithin := hcalls.within htask
    exact (h helper hcalls.hasHelper hcx values _ hwithin.1 hwithin.2 hstore).2.2 handle hle

end Tasks

end Stencil
