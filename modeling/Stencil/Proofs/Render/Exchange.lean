import Stencil.Helper.Formula
import Stencil.Proofs.Render.Below
import Stencil.Proofs.Render.Looping
import Stencil.Proofs.Render.Repeating

/-!
# `Stencil.Proofs.Render.Exchange`: lists and enumerators exchanged

A helper for a block can give a new enumerator at each call in place of a list, and no template
shows the difference. The two engines run side by side, one with lists and one with enumerators,
which has more of them in its store. An `Inclusion` relates the two stores.

What a token asks for is the same in both engines under other handles, or it is a list in the one
and a new enumerator over it in the other (`Token.leads_act`). `Watch.Mimics` relates what the engines
do. That they go through a list and through an enumerator alike is one of the claims of
`Watch.MimicsWithin`, which are proved together by induction on the budget.

`enumerators_render_like_lists` is the result, for single blocks and for whole templates.
-/

set_option autoImplicit false

namespace Stencil

open Inclusion

variable {n m : Nat}

/-! ### Renders side by side -/

namespace Watch

variable {ε σ : Type} {f f' : Handle → Handle} {s t s' t' : WatchState σ}

/-- The store of the first state is inside that of the second one, which has at least `m`
enumerators. They have the same output. -/
structure Paired (n m : Nat) (f : Handle → Handle) (s t : WatchState σ) : Prop where
  valid : Valid n ⟨s.store, t.store, f⟩
  room : m ≤ t.store.enumerators.size
  out : s.out = t.out

/-- From two states the computations do the same, and end in states that are paired again. The first
`m` enumerators that only the second state has are left alone. -/
def Mimics (n m : Nat) (f : Handle → Handle) (s t : WatchState σ) (w w' : Watch ε σ Unit) : Prop :=
  (w s = none ∧ w' t = none) ∨
    ∃ (result : Except ε Unit) (s' t' : WatchState σ) (f' : Handle → Handle),
      w s = some (result, s') ∧ w' t = some (result, t') ∧ Paired n m f' s' t' ∧
        Grows m ⟨s.store, t.store, f⟩ ⟨s'.store, t'.store, f'⟩

section Mimics

variable {w w' : Watch ε σ Unit}

/-- What has used up a budget ends in neither state. -/
theorem mimics_exhausted : Mimics n m f s t (exhausted : Watch ε σ Unit) exhausted :=
  .inl ⟨rfl, rfl⟩

/-- Computations that leave the stores as they are. -/
theorem mimics_of_kept (hp : Paired n m f s t) {result : Except ε Unit} {out : σ}
    (hw : w s = some (result, { s with out := out }))
    (hw' : w' t = some (result, { t with out := out })) : Mimics n m f s t w w' :=
  .inr ⟨result, { s with out := out }, { t with out := out }, f, hw, hw',
    ⟨hp.valid, hp.room, rfl⟩, hp.valid.grows_refl⟩

/-- Doing nothing keeps the states paired. -/
theorem mimics_pure (hp : Paired n m f s t) :
    Mimics n m f s t (pure () : Watch ε σ Unit) (pure ()) := by
  refine mimics_of_kept hp rfl ?_
  rw [hp.out]
  rfl

/-- A failure keeps the states paired. -/
theorem mimics_throw (hp : Paired n m f s t) (e : ε) :
    Mimics n m f s t (throw e : Watch ε σ Unit) (throw e) := by
  refine mimics_of_kept hp rfl ?_
  rw [hp.out]
  rfl

/-- The same text is written to the same output. -/
theorem mimics_write (hp : Paired n m f s t) (o : Output ε σ) (text : String) :
    Mimics n m f s t (write o text) (write o text) := by
  refine mimics_of_kept hp rfl ?_
  rw [write, hp.out]

/-- The same output is flushed. -/
theorem mimics_flush (hp : Paired n m f s t) (o : Output ε σ) :
    Mimics n m f s t (flush o) (flush o) := by
  refine mimics_of_kept hp rfl ?_
  rw [flush, hp.out]

/-- Computations that get to later states and go on from there. -/
theorem mimics_of_later {v v' : Watch ε σ Unit} (hroom : m ≤ t.store.enumerators.size)
    (hgrows : Grows m ⟨s.store, t.store, f⟩ ⟨s'.store, t'.store, f'⟩) (hw : w s = v s')
    (hw' : w' t = v' t') (h : Mimics n m f' s' t' v v') : Mimics n m f s t w w' := by
  rcases h with ⟨hv, hv'⟩ | ⟨result, s'', t'', f'', hv, hv', hp, hgrows'⟩
  · exact .inl ⟨hw.trans hv, hw'.trans hv'⟩
  · exact .inr ⟨result, s'', t'', f'', hw.trans hv, hw'.trans hv', hp,
      hgrows.trans hgrows' hroom⟩

/-- Computations one after the other. The first one may leave more enumerators alone. -/
theorem mimics_bind {l : Nat} {v v' : Watch ε σ Unit} (hle : m ≤ l)
    (hroom : l ≤ t.store.enumerators.size) (h : Mimics n l f s t w w')
    (h' : ∀ (f' : Handle → Handle) (s' t' : WatchState σ), Paired n m f' s' t' →
      Grows l ⟨s.store, t.store, f⟩ ⟨s'.store, t'.store, f'⟩ → Mimics n m f' s' t' v v') :
    Mimics n m f s t (do w; v) (do w'; v') := by
  rcases h with ⟨hw, hw'⟩ | ⟨result, s', t', f', hw, hw', hp, hgrows⟩
  · exact .inl ⟨bind_of_none hw, bind_of_none hw'⟩
  · have hpaired : Paired n m f' s' t' := { hp with room := Nat.le_trans hle hp.room }
    cases result with
    | error e =>
      exact .inr ⟨.error e, s', t', f', bind_of_error hw, bind_of_error hw', hpaired,
        hgrows.mono hle⟩
    | ok _ =>
      exact mimics_of_later (Nat.le_trans hle hroom) (hgrows.mono hle) (bind_of_ok hw)
        (bind_of_ok hw') (h' f' s' t' hpaired hgrows)

/-- Computations after changes of the stores. -/
theorem mimics_step {α : Type} {related : Inclusion → α → α → Prop} {g g' : Store → α × Store}
    {d d' : α → Watch ε σ Unit} (hp : Paired n m f s t)
    (h : Leads n m ⟨s.store, t.store, f⟩ related (g s.store) (g' t.store))
    (h' : ∀ (a a' : α) (f' : Handle → Handle) (s' t' : WatchState σ), Paired n m f' s' t' →
      Grows m ⟨s.store, t.store, f⟩ ⟨s'.store, t'.store, f'⟩ →
      related ⟨s'.store, t'.store, f'⟩ a a' → Mimics n m f' s' t' (d a) (d' a')) :
    Mimics n m f s t (step g >>= d) (step g' >>= d') := by
  obtain ⟨f', hvalid, hgrows, hrelated⟩ := h
  have hp' : Paired n m f' { s with store := (g s.store).2 } { t with store := (g' t.store).2 } :=
    ⟨hvalid, Nat.le_trans hp.room hgrows.leOuter, hp.out⟩
  have hlater := h' _ _ f' _ _ hp' hgrows hrelated
  refine mimics_of_later hp.room hgrows ?_ ?_ hlater
  · rfl
  · rfl

/-- A block that goes through an enumerator that both states have. -/
theorem mimics_drained {handle : Handle}
    (hlt : handle.index < s.store.enumerators.size)
    (h : ∀ noted noted', Mimics n m f { s with drained := noted } { t with drained := noted' } w w')
    (hroom : m ≤ t.store.enumerators.size) :
    Mimics n m f s t (do note handle; thenAlways w (·.reset handle))
      (do note (f handle); thenAlways w' (·.reset (f handle))) := by
  rcases h (s.drained ++ [handle]) (t.drained ++ [f handle]) with
    ⟨hw, hw'⟩ | ⟨result, s', t', f', hw, hw', hp, hgrows⟩
  · exact .inl ⟨congrArg (Option.map _) hw, congrArg (Option.map _) hw'⟩
  · -- It has the same handle as before, so the same enumerator is reset in both.
    have hsame : f' handle = f handle := hgrows.same handle hlt
    refine .inr ⟨result, _, _, f', congrArg (Option.map _) hw, congrArg (Option.map _) hw', ?_, ?_⟩
    · rw [← hsame]
      refine ⟨hp.valid.reset handle, ?_, hp.out⟩
      rw [Store.size_reset]
      exact hp.room
    · rw [← hsame]
      exact hgrows.trans (hp.valid.grows_reset handle) hroom

/-- A block that goes through an enumerator that only the second state has. -/
theorem mimics_drained_outer {handle : Handle} {vs : List Value}
    (hstands : Stands m ⟨s.store, t.store, f⟩ vs handle)
    (h : ∀ noted, Mimics n m f s { t with drained := noted } w w')
    (hroom : m ≤ t.store.enumerators.size) :
    Mimics n m f s t w (do note handle; thenAlways w' (·.reset handle)) := by
  rcases h (t.drained ++ [handle]) with ⟨hw, hw'⟩ | ⟨result, s', t', f', hw, hw', hp, hgrows⟩
  · exact .inl ⟨hw, congrArg (Option.map _) hw'⟩
  · -- It has got no counterpart meanwhile, so the first store does not miss the reset.
    refine .inr ⟨result, s', _, f', hw, congrArg (Option.map _) hw', ?_, ?_⟩
    · refine ⟨hp.valid.update_extra (hgrows.extra_of_lt hstands.lt hstands.extra) _, ?_, hp.out⟩
      rw [Store.size_reset]
      exact hp.room
    · exact hgrows.trans (hp.valid.grows_update_extra hstands.le _) hroom

end Mimics

/-- The states after a step of an enumerator that only the second one has. -/
theorem Paired.advance_outer {vs : List Value} {handle : Handle} (hp : Paired n m f s t)
    (hstands : Stands m ⟨s.store, t.store, f⟩ vs handle) :
    Paired n (handle.index + 1) f s
        { t with store := t.store.update handle Enumerator.advance } ∧
      Grows m ⟨s.store, t.store, f⟩ ⟨s.store, t.store.update handle Enumerator.advance, f⟩ := by
  refine ⟨⟨hp.valid.update_extra hstands.extra _, ?_, hp.out⟩,
    hp.valid.grows_update_extra hstands.le _⟩
  rw [Store.size_update]
  exact hstands.lt

/-- Within a budget, the second engine does what the first one does. -/
structure MimicsWithin (o : Output ε σ) (cx cx' : RenderContext) (n fuel : Nat) : Prop where
  tokens : ∀ {m : Nat} {f : Handle → Handle} {s t : WatchState σ} {scope : Scope},
    Paired n m f s t → scope.Within s.store.enumerators.size → ∀ ts : List Token,
      Mimics n m f s t (Watch.tokens o cx fuel scope ts) (Watch.tokens o cx' fuel (scope.rename f) ts)
  perform : ∀ {m : Nat} {f : Handle → Handle} {s t : WatchState σ} {scope : Scope},
    Paired n m f s t → scope.Within s.store.enumerators.size → ∀ {action action' : Action},
      Asks m ⟨s.store, t.store, f⟩ action action' →
        Mimics n m f s t (Watch.perform o cx fuel scope action)
          (Watch.perform o cx' fuel (scope.rename f) action')
  each : ∀ {m : Nat} {f : Handle → Handle} {s t : WatchState σ} {scope : Scope},
    Paired n m f s t → scope.Within s.store.enumerators.size → ∀ (children : List Token)
      {vs : List Value}, (∀ v ∈ vs, v.Within s.store.enumerators.size) →
        Mimics n m f s t (Watch.each o cx fuel scope children vs)
          (Watch.each o cx' fuel (scope.rename f) children (vs.map (Value.rename f)))
  drain : ∀ {m : Nat} {f : Handle → Handle} {s t : WatchState σ} {scope : Scope},
    Paired n m f s t → scope.Within s.store.enumerators.size → ∀ (children : List Token)
      {handle : Handle}, handle.index < s.store.enumerators.size →
        Mimics n m f s t (Watch.drain o cx fuel scope children handle)
          (Watch.drain o cx' fuel (scope.rename f) children (f handle))
  /-- A list in the first engine, and what is left of an enumerator over it in the second one. -/
  exchange : ∀ {m : Nat} {f : Handle → Handle} {s t : WatchState σ} {scope : Scope},
    Paired n m f s t → scope.Within s.store.enumerators.size → ∀ (children : List Token)
      {vs : List Value} {handle : Handle}, Stands m ⟨s.store, t.store, f⟩ vs handle →
        Mimics n m f s t (Watch.each o cx fuel scope children vs)
          (Watch.drain o cx' fuel (scope.rename f) children handle)

section Budget

variable {o : Output ε σ} {cx cx' : RenderContext} {fuel : Nat} {scope : Scope}

/-- Without a budget, neither engine does anything. -/
theorem mimicsWithin_zero : MimicsWithin o cx cx' n 0 where
  tokens _ _ _ := mimics_exhausted
  perform _ _ _ _ _ := mimics_exhausted
  each _ _ _ _ _ := mimics_exhausted
  drain _ _ _ _ _ := mimics_exhausted
  exchange _ _ _ _ _ _ := mimics_exhausted

namespace MimicsWithin

variable (ih : MimicsWithin o cx cx' n fuel)

include ih

/-- The first token is shown, and then the others in the same scope. -/
theorem tokens_succ (h : cx.Varies cx') (hlist : ValueKind.list ∉ cx.settings.excluded)
    (hiter : ValueKind.iter ∉ cx.settings.excluded)
    (hlocal : ∀ helper, cx.settings.HasHelper helper → helper.Local n)
    (hp : Paired n m f s t) (hscope : scope.Within s.store.enumerators.size) (ts : List Token) :
    Mimics n m f s t (Watch.tokens o cx (fuel + 1) scope ts)
      (Watch.tokens o cx' (fuel + 1) (scope.rename f) ts) := by
  cases ts with
  | nil => exact mimics_pure hp
  | cons token rest =>
    rw [Watch.tokens, Watch.tokens]
    refine mimics_step hp (token.leads_act h hlist hiter hlocal hp.valid hp.room hscope) ?_
    intro action action' f' s' t' hp' hgrows hasks
    -- Handles may be new, but those in the scope are not.
    have hscope' := hscope.mono hgrows.le
    have hperform := ih.perform hp' hscope' hasks
    rw [hgrows.scope_rename_eq hscope] at hperform
    refine mimics_bind (Nat.le_refl m) hp'.room hperform ?_
    intro f'' s'' t'' hp'' hgrows'
    have hrest := ih.tokens hp'' (hscope'.mono hgrows'.le) rest
    rw [hgrows'.scope_rename_eq hscope', hgrows.scope_rename_eq hscope] at hrest
    exact hrest

/-- The children are shown for the first value, and then for the others. -/
theorem each_succ (hp : Paired n m f s t) (hscope : scope.Within s.store.enumerators.size)
    (children : List Token) {vs : List Value}
    (hvs : ∀ v ∈ vs, v.Within s.store.enumerators.size) :
    Mimics n m f s t (Watch.each o cx (fuel + 1) scope children vs)
      (Watch.each o cx' (fuel + 1) (scope.rename f) children (vs.map (Value.rename f))) := by
  cases vs with
  | nil => exact mimics_pure hp
  | cons v vs =>
    obtain ⟨hv, hvs⟩ := List.forall_mem_cons.1 hvs
    rw [List.map_cons, Watch.each, Watch.each]
    refine mimics_bind (Nat.le_refl m) hp.room (ih.tokens hp (hscope.push hv) children) ?_
    intro f' s' t' hp' hgrows
    have hrest := ih.each hp' (hscope.mono hgrows.le) children
      fun w hw => (hvs w hw).mono hgrows.le
    rw [hgrows.scope_rename_eq hscope, hgrows.map_rename_eq hvs] at hrest
    exact hrest

/-- An enumerator that both states have gives the same values in both. -/
theorem drain_succ (hp : Paired n m f s t) (hscope : scope.Within s.store.enumerators.size)
    (children : List Token) {handle : Handle} (hlt : handle.index < s.store.enumerators.size) :
    Mimics n m f s t (Watch.drain o cx (fuel + 1) scope children handle)
      (Watch.drain o cx' (fuel + 1) (scope.rename f) children (f handle)) := by
  rw [Watch.drain, Watch.drain]
  refine mimics_step hp (hp.valid.leads_next handle) ?_
  intro v? v?' f' s' t' hp' hgrows hnext
  cases hnext with
  | none => exact mimics_pure hp'
  | @some v v' hv =>
    have hscope' := hscope.mono hgrows.le
    have hlt' := Nat.lt_of_lt_of_le hlt hgrows.le
    have hchildren := ih.tokens hp' (hscope'.push hv.within) children
    obtain rfl : v' = v.rename f' := hv.eq
    have hpushed : (scope.push v).rename f' = (scope.rename f).push (v.rename f') :=
      congrArg (Scope.push · (v.rename f')) (hgrows.scope_rename_eq hscope)
    rw [hpushed] at hchildren
    refine mimics_bind (Nat.le_refl m) hp'.room hchildren ?_
    intro f'' s'' t'' hp'' hgrows'
    have hrest := ih.drain hp'' (hscope'.mono hgrows'.le) children
      (Nat.lt_of_lt_of_le hlt' hgrows'.le)
    -- The children may have made enumerators, but this one has kept its handle.
    have hhandle : f'' handle = f handle := (hgrows'.same handle hlt').trans (hgrows.same handle hlt)
    rw [hgrows'.scope_rename_eq hscope', hgrows.scope_rename_eq hscope, hhandle] at hrest
    exact hrest

/-- The items of a list are the values that the enumerator gives. The children leave that alone,
since it is not in the first store. -/
theorem exchange_succ (hp : Paired n m f s t) (hscope : scope.Within s.store.enumerators.size)
    (children : List Token) {vs : List Value} {handle : Handle}
    (hstands : Stands m ⟨s.store, t.store, f⟩ vs handle) :
    Mimics n m f s t (Watch.each o cx (fuel + 1) scope children vs)
      (Watch.drain o cx' (fuel + 1) (scope.rename f) children handle) := by
  -- The second engine makes a step first, which the first one does not see.
  obtain ⟨hp', hgrows⟩ := hp.advance_outer hstands
  have hle : m ≤ handle.index + 1 := Nat.le_succ_of_le hstands.le
  cases vs with
  | nil =>
    refine mimics_of_later hp.room hgrows ?_ ?_
      (mimics_pure { hp' with room := Nat.le_trans hle hp'.room })
    · rfl
    · exact drain_of_none hstands.next_nil
  | cons v vs =>
    obtain ⟨hnext, hbehind⟩ := hstands.next_cons
    obtain ⟨hv, hvs⟩ := List.forall_mem_cons.1 hstands.within
    have hchildren := ih.tokens hp' (hscope.push hv) children
    have hrounds : Mimics n m f s { t with store := t.store.update handle Enumerator.advance }
        (do Watch.tokens o cx fuel (scope.push v) children; Watch.each o cx fuel scope children vs)
        (do
          Watch.tokens o cx' fuel ((scope.push v).rename f) children
          Watch.drain o cx' fuel (scope.rename f) children handle) := by
      -- The children leave all enumerators alone that are extra, up to this one.
      refine mimics_bind hle hp'.room hchildren ?_
      intro f' s' t' hp'' hgrows'
      have hrest := ih.exchange hp'' (hscope.mono hgrows'.le) children
        (hbehind.of_grows hgrows' (Nat.lt_succ_self _))
      rw [hgrows'.scope_rename_eq hscope] at hrest
      exact hrest
    refine mimics_of_later hp.room hgrows ?_ ?_ hrounds
    · rfl
    · exact drain_of_some hnext

/-- Blocks deal with their children alike, also those that go through an enumerator for a list. -/
theorem perform_succ (h : cx.Varies cx') (hp : Paired n m f s t)
    (hscope : scope.Within s.store.enumerators.size) {action action' : Action}
    (hasks : Asks m ⟨s.store, t.store, f⟩ action action') :
    Mimics n m f s t (Watch.perform o cx (fuel + 1) scope action)
      (Watch.perform o cx' (fuel + 1) (scope.rename f) action') := by
  cases hasks with
  | items hstands b children =>
    -- Only here do the engines differ.
    refine mimics_drained_outer hstands (fun noted => ?_) hp.room
    have hnoted : Paired n m f s { t with drained := noted } := ⟨hp.valid, hp.room, hp.out⟩
    exact ih.exchange hnoted hscope children hstands
  | same heq hwithin =>
    subst heq
    cases action with
    | write text => exact mimics_write hp o text
    | block plan b children =>
      cases plan with
      | skip => exact mimics_pure hp
      | here => exact ih.tokens hp hscope children
      | reparse text =>
        rw [Watch.perform, Action.rename, BlockPlan.rename, Watch.perform, h.settings.pipeline]
        cases cx.settings.pipeline.parse text b.delimiters with
        | error e => exact mimics_throw hp (o.unparsed e)
        | ok parsed => exact ih.tokens hp hscope parsed
      | each values => exact ih.each hp hscope children hwithin
      | drain handle =>
        refine mimics_drained hwithin (fun noted noted' => ?_) hp.room
        have hnoted : Paired n m f { s with drained := noted } { t with drained := noted' } :=
          ⟨hp.valid, hp.room, hp.out⟩
        exact ih.drain hnoted hscope children hwithin
      | once v => exact ih.tokens hp (hscope.push hwithin) children

end MimicsWithin

/-- Within every budget, an engine with helpers that give enumerators does what the engine does that
has lists in their place. -/
theorem mimicsWithin (o : Output ε σ) (h : cx.Varies cx')
    (hlist : ValueKind.list ∉ cx.settings.excluded)
    (hiter : ValueKind.iter ∉ cx.settings.excluded)
    (hlocal : ∀ helper, cx.settings.HasHelper helper → helper.Local n) (fuel : Nat) :
    MimicsWithin o cx cx' n fuel := by
  induction fuel with
  | zero => exact mimicsWithin_zero
  | succ fuel ih =>
    exact {
      tokens := fun hp hscope ts => ih.tokens_succ h hlist hiter hlocal hp hscope ts
      perform := fun hp hscope _ _ hasks => ih.perform_succ h hp hscope hasks
      each := fun hp hscope children _ hvs => ih.each_succ hp hscope children hvs
      drain := fun hp hscope children _ hlt => ih.drain_succ hp hscope children hlt
      exchange := fun hp hscope children _ _ hstands =>
        ih.exchange_succ hp hscope children hstands }

end Budget

end Watch

/-! ### Whole templates -/

section Templates

variable {s s' : Settings} {view : Value} {store : Store}

/-- A store is inside itself. -/
theorem Inclusion.valid_self (hclosed : store.Closed) :
    Valid store.enumerators.size ⟨store, store, id⟩ where
  embeds :=
    { injective := Function.injective_id
      behind := fun _ => rfl
      find? := fun h => by
        rw [funext Enumerator.rename_id]
        exact Option.map_id'.symm }
  closed := hclosed
  le := Nat.le_refl _
  fixed _ _ := rfl

/-- A watched render has the same result and output in both engines. -/
theorem watchWithin_varies {ε σ : Type} (o : Output ε σ) (h : s.Varies s')
    (hlist : ValueKind.list ∉ s.excluded) (hiter : ValueKind.iter ∉ s.excluded)
    (hclosed : store.Closed) (hview : view.Within store.enumerators.size)
    (hlocal : ∀ helper, s.HasHelper helper → helper.Local store.enumerators.size)
    (budget : Nat) (template : String) (l : Locale) (out : σ) :
    (watchWithin o budget s template l view store out).map (fun (result, state) =>
        (result, state.out)) =
      (watchWithin o budget s' template l view store out).map fun (result, state) =>
        (result, state.out) := by
  -- Both engines recognize the same tags.
  have hcompile : compile s' template = compile s template := by
    rw [compile, compile, h.pipeline, h.delimiters]
  rw [watchWithin, watchWithin, hcompile]
  cases compile s template with
  | error e => rfl
  | ok t =>
    have hcx : (⟨s, l⟩ : RenderContext).Varies ⟨s', l⟩ := ⟨h, rfl⟩
    -- The renders start from one store, so no enumerator is extra yet.
    have hp : Watch.Paired store.enumerators.size 0 id (⟨store, out, []⟩ : WatchState σ)
      ⟨store, out, []⟩ := ⟨valid_self hclosed, Nat.zero_le _, rfl⟩
    have htokens := (Watch.mimicsWithin o hcx hlist hiter hlocal budget).tokens hp
      (Scope.within_root hview) t.tokens
    rw [Scope.rename_id] at htokens
    have hflushed := Watch.mimics_bind (Nat.le_refl 0) hp.room htokens
      fun f' s' t' hp' _ => Watch.mimics_flush hp' o
    rcases hflushed with ⟨hrun, hrun'⟩ | ⟨result, s', t', f', hrun, hrun', hp', -⟩
    · simp only [hrun, hrun']
    · simp only [hrun, hrun', Option.map_some, hp'.out]

/-- Templates show an enumerator like the list of its values.

Let blocks go through lists and enumerators. A block that goes through an enumerator at its first
value does what a block for the list of its values does, as text and to a sink, if showing its
children never touches that enumerator: no block inside goes through it, and no helper that is called
steps it or puts it back. Both blocks have the same result and leave the same output and the same
store, and in that the enumerator at its first value.

So a helper for blocks can give a new enumerator at each call in place of a list that is not empty,
and no template shows the difference: within every budget there is the same text, the same error or
none, and the same output to every sink. The two engines may differ in any number of such helpers.
Their helpers are to reach no other enumerators than they are given, make, or know from the store
that the render starts with. -/
theorem enumerators_render_like_lists :
    (∀ (cx : RenderContext) (scope : Scope) (b : Block) (children : List Token) (vs : List Value)
      (handle : Handle), ValueKind.list ∉ cx.settings.excluded →
        ValueKind.iter ∉ cx.settings.excluded →
      (∀ ofHelper, BlockPlan.ofValue cx.settings ofHelper (.iter handle) = .drain handle ∧
        (vs ≠ [] → BlockPlan.ofValue cx.settings ofHelper (.list vs) = .each vs)) ∧
      (∀ (fuel : Nat) (store : Store), store.find? handle = some (.atStart vs) →
        NeverTouches cx handle ⟨.each scope children vs, store, []⟩ →
        (Direct.perform cx (fuel + 1) scope (.block (.drain handle) b children)).runOn store =
            (Direct.perform cx (fuel + 1) scope (.block (.each vs) b children)).runOn store ∧
          ∀ result after,
            (Direct.perform cx (fuel + 1) scope (.block (.drain handle) b children)).runOn store =
              some (result, after) → after.find? handle = some (.atStart vs)) ∧
      (∀ (fuel : Nat) (state : StreamState), state.store.find? handle = some (.atStart vs) →
        NeverTouches cx handle ⟨.each scope children vs, state.store, []⟩ →
        (Stream.perform cx (fuel + 1) scope (.block (.drain handle) b children)).runOn state =
            (Stream.perform cx (fuel + 1) scope (.block (.each vs) b children)).runOn state ∧
          ∀ result after,
            (Stream.perform cx (fuel + 1) scope (.block (.drain handle) b children)).runOn state =
              some (result, after) → after.store.find? handle = some (.atStart vs))) ∧
    (∀ (s : Settings) (additions additions' : List Addition),
      List.Forall₂ Addition.Varies additions additions' →
        (additions.foldl Settings.add s).Varies (additions'.foldl Settings.add s)) ∧
    (∀ s s' : Settings, s.Varies s' → ValueKind.list ∉ s.excluded → ValueKind.iter ∉ s.excluded →
      ∀ (store : Store) (view : Value), store.Closed → view.Within store.enumerators.size →
        (∀ helper, s.HasHelper helper → helper.Local store.enumerators.size) →
        ∀ (budget : Nat) (template : String) (l : Locale),
          (renderWithin budget s' template l view store).map Prod.fst =
              (renderWithin budget s template l view store).map Prod.fst ∧
            ∀ sink : Sink,
              (renderToWithin budget s' template l view ⟨store, sink⟩).map
                  (fun (result, after) => (result, after.sink)) =
                (renderToWithin budget s template l view ⟨store, sink⟩).map
                  fun (result, after) => (result, after.sink)) := by
  refine ⟨?_, ?_, ?_⟩
  · intro cx scope b children vs handle hlist hiter
    refine ⟨fun ofHelper => ⟨BlockPlan.ofValue_iter hiter ofHelper handle,
      BlockPlan.ofValue_list hlist ofHelper⟩, ?_, ?_⟩
    · intro fuel store hstart hnever
      exact Direct.perform_drain_eq b hstart hnever
    · intro fuel state hstart hnever
      exact Stream.perform_drain_eq b hstart hnever
  · intro s additions additions' hadditions
    exact s.varies_refl.foldl_add hadditions
  · intro s s' h hlist hiter store view hclosed hview hlocal budget template l
    constructor
    · -- The text is the output, if the render has not failed.
      have hwatched := watchWithin_varies .direct h hlist hiter hclosed hview hlocal budget template
        l []
      have htext := congrArg (Option.map fun ended : Except ParseError Unit × List Char =>
        ended.1.map fun _ => String.ofList ended.2) hwatched
      rw [Option.map_map, Option.map_map] at htext
      rw [renderWithin_eq, renderWithin_eq, Option.map_map, Option.map_map]
      exact htext.symm
    · intro sink
      have hwatched := watchWithin_varies .stream h hlist hiter hclosed hview hlocal budget template
        l sink
      rw [renderToWithin_eq, renderToWithin_eq, Option.map_map, Option.map_map]
      exact hwatched.symm

end Templates

/-- A helper that gives the next value of the first enumerator. -/
def steppingHelper : Helper :=
  .ofFormula 1 [] (.next ⟨0⟩)

/-- The helper that steps the first enumerator knows no other one. -/
theorem staysBelow_steppingHelper : steppingHelper.StaysBelow 1 := by
  intro cx values store _ _ hstore
  have hrun : ∀ s : Store, steppingHelper.run cx values s =
      ((s.next ⟨0⟩).1.getD .null, (s.next ⟨0⟩).2) := fun _ => rfl
  rw [hrun]
  refine ⟨?_, hstore.next ⟨0⟩, fun handle hle => ?_⟩
  · cases hnext : (store.next ⟨0⟩).1 with
    | none =>
      intro handle hmem
      cases hmem
    -- What the enumerator gives is one of its values, which name no others either.
    | some v => exact hstore.within_next Nat.one_pos hnext
  · refine ⟨[.next ⟨0⟩ (store.next ⟨0⟩).1], (store.next ⟨0⟩).1.getD .null, (store.next ⟨0⟩).2,
      .next rfl .nil, ?_, ?_⟩
    · intro s t haccessed
      cases haccessed with
      | next step rest =>
        cases rest
        rw [hrun, step]
    · intro access hmem
      obtain rfl := List.mem_singleton.1 hmem
      rintro rfl
      exact absurd hle (by decide)

/-- An engine with that helper and a ready-made one for tags. -/
def steppingSettings : Settings :=
  (Settings.withHelpers [.inline ⟨[("step", steppingHelper)]⟩,
    .inline ⟨[("upper", upperHelper)]⟩]).setDelimiters ⟨"<", ">"⟩

/-- No helper of that engine knows more than the first enumerator. -/
theorem staysBelow_of_hasHelper {helper : Helper} (h : steppingSettings.HasHelper helper) :
    helper.StaysBelow 1 := by
  have hadded : ((Settings.stock.add (.inline ⟨[("step", steppingHelper)]⟩)).add
      (.inline ⟨[("upper", upperHelper)]⟩)).HasHelper helper := h
  rcases hadded.of_add with hbefore | ⟨name, hget⟩
  · rcases hbefore.of_add with hstock | ⟨name, hget⟩
    · exact absurd hstock (Settings.not_hasHelper_stock helper)
    · obtain rfl := Registry.eq_of_get?_singleton hget
      exact staysBelow_steppingHelper
  · obtain rfl := Registry.eq_of_get?_singleton hget
    exact ((ReadyMade.reach_of_find? find?_upper).2 1).2.2

/-- A block for the first enumerator, a call of the helper that steps this, and one of the other
helper: `<#s><.></s><step><upper .>`. -/
def steppingBody : List Token :=
  [.block ⟨⟨.plain, "s", [], ⟨0, 4⟩⟩, ⟨7, 11⟩, "<.>", ⟨"<", ">"⟩⟩ [.interpolation ⟨".", true, ⟨4, 7⟩⟩],
    .call ⟨"step", [], ⟨11, 17⟩, ⟨12, 16⟩⟩,
    .call ⟨"upper", [.lookup "."], ⟨17, 26⟩, ⟨18, 25⟩⟩]

/-- A store with two enumerators. -/
def pairsStore : Store :=
  ⟨#[.atStart [.str "x", .str "y"], .atStart [.str "a", .str "b"]]⟩

/-- With the first one in scope, that body never touches the second one. -/
theorem neverTouches_steppingBody :
    NeverTouches ⟨steppingSettings, .invariant⟩ ⟨1⟩
      ⟨.each (.root pairView) steppingBody [.str "a", .str "b"], pairsStore, []⟩ := by
  refine neverTouches_of_below (fun _ => staysBelow_of_hasHelper) (n := 1) ?_ (Nat.le_refl 1)
  have hscope : (Scope.root pairView).Within 1 := Scope.within_root within_pairView
  refine ⟨⟨hscope, fun v hv => ?_⟩, fun handle e hlt hfind v hv => ?_⟩
  · rcases List.mem_pair.1 hv with rfl | rfl <;> intro handle hmem <;> cases hmem
  · obtain rfl : handle = ⟨0⟩ := congrArg Handle.mk (Nat.lt_one_iff.1 hlt)
    obtain rfl := Option.some.inj hfind
    have hmem : v ∈ [Value.str "x", .str "y", .str "x", .str "y"] := hv
    simp only [List.mem_cons, List.not_mem_nil, or_false] at hmem
    rcases hmem with rfl | rfl | rfl | rfl <;> intro g hg <;> cases hg

/-- A helper that gives a list of integers. -/
def rangeHelper : Helper :=
  .ofFunction 0 fun _ (start count : Int64) => ReadyMade.range start (min count ReadyMade.rangeLimit)

/-- The ready-made helper of that name is the one above. -/
theorem find?_range : ReadyMade.find? "Range" 0 = some rangeHelper := rfl

/-- An engine with ready-made helpers, one for tags and one for blocks. -/
def rangeSettings (range : Helper) : Settings :=
  (Settings.withHelpers [.inline ⟨[("upper", upperHelper)]⟩,
    .sections ⟨[("range", range)]⟩]).setDelimiters ⟨"<", ">"⟩

/-- No helper of that engine reaches an enumerator that it is not given. -/
theorem local_of_hasHelper {n : Nat} {helper : Helper}
    (h : (rangeSettings rangeHelper).HasHelper helper) : helper.Local n := by
  have hadded : ((Settings.stock.add (.inline ⟨[("upper", upperHelper)]⟩)).add
      (.sections ⟨[("range", rangeHelper)]⟩)).HasHelper helper := h
  rcases hadded.of_add with hbefore | ⟨name, hget⟩
  · rcases hbefore.of_add with hstock | ⟨name, hget⟩
    · exact absurd hstock (Settings.not_hasHelper_stock helper)
    · obtain rfl := Registry.eq_of_get?_singleton hget
      exact ((ReadyMade.reach_of_find? find?_upper).2 n).2.1
  · obtain rfl := Registry.eq_of_get?_singleton hget
    exact ((ReadyMade.reach_of_find? find?_range).2 n).2.1

/-- A block for an enumerator, and in it one for the helper that gives a list. -/
theorem compile_rangeSettings :
    compile (rangeSettings rangeHelper) "<#s><#range 1 2><.></range><upper .></s>" =
    .ok ⟨[.block ⟨⟨.plain, "s", [], ⟨0, 4⟩⟩, ⟨36, 40⟩, "<#range 1 2><.></range><upper .>",
        ⟨"<", ">"⟩⟩
      [.block ⟨⟨.helper, "range", [.lookup "1", .lookup "2"], ⟨4, 16⟩⟩, ⟨19, 27⟩, "<.>",
          ⟨"<", ">"⟩⟩ [.interpolation ⟨".", true, ⟨16, 19⟩⟩],
        .call ⟨"upper", [.lookup "."], ⟨27, 36⟩, ⟨28, 35⟩⟩]]⟩ :=
  congrArg (Except.map Template.mk) (Pipeline.parse_of_parseWithin (n := 9) (by decide +kernel))

/-- A block for an enumerator with one for another enumerator inside and a helper that steps that, as
text and to a sink that is full before the second value. And a template in which a block for an
enumerator has one for a ready-made helper inside, which gives enumerators in place of lists. -/
theorem enumerators_render_like_lists_of_nested_blocks :
    (∃ after, (Direct.perform ⟨steppingSettings, .invariant⟩ 20 (.root pairView)
        (.block (.drain ⟨1⟩) default steppingBody)).runOn pairsStore =
          some (.ok "xyxAyxB".toList, after) ∧
        after.find? ⟨1⟩ = some (.atStart [.str "a", .str "b"])) ∧
    (∃ after, (Stream.perform ⟨steppingSettings, .invariant⟩ 20 (.root pairView)
        (.block (.drain ⟨1⟩) default steppingBody)).runOn ⟨pairsStore, .new (some 3) false⟩ =
          some (.error (.sink .full), after) ∧
        after.store.find? ⟨1⟩ = some (.atStart [.str "a", .str "b"])) ∧
    ∃ ended, renderWithin 20 (rangeSettings rangeHelper.enumerating)
      "<#s><#range 1 2><.></range><upper .></s>" .invariant pairView pairStore =
        some (.ok "12A12B", ended) := by
  obtain ⟨hblocks, hadded, htemplates⟩ := enumerators_render_like_lists
  obtain ⟨-, hdirect, hstream⟩ := hblocks ⟨steppingSettings, .invariant⟩ (.root pairView) default
    steppingBody [.str "a", .str "b"] ⟨1⟩ (by decide) (by decide)
  refine ⟨?_, ?_, ?_⟩
  · obtain ⟨heq, hstart⟩ := hdirect 19 pairsStore rfl neverTouches_steppingBody
    -- For a list the text comes out by evaluation, and the theorem carries it over.
    obtain ⟨after, hlist⟩ : ∃ after, (Direct.perform ⟨steppingSettings, .invariant⟩ 20
        (.root pairView) (.block (.each [.str "a", .str "b"]) default steppingBody)).runOn
          pairsStore = some (.ok "xyxAyxB".toList, after) :=
      exists_of_map_toOption (by decide +kernel)
    have hrun := heq.trans hlist
    exact ⟨after, hrun, hstart _ _ hrun⟩
  · obtain ⟨heq, hstart⟩ := hstream 19 ⟨pairsStore, .new (some 3) false⟩ rfl
      neverTouches_steppingBody
    have hlist : ((Stream.perform ⟨steppingSettings, .invariant⟩ 20 (.root pairView)
        (.block (.each [.str "a", .str "b"]) default steppingBody)).runOn
          ⟨pairsStore, .new (some 3) false⟩).map Prod.fst = some (.error (.sink .full)) := by
      decide +kernel
    rw [← heq] at hlist
    obtain ⟨⟨_, after⟩, hrun, rfl⟩ := Option.map_eq_some_iff.1 hlist
    exact ⟨after, hrun, hstart _ _ hrun⟩
  -- The engines differ in one helper, which gives its list or an enumerator over it.
  · have hvaries : (rangeSettings rangeHelper).Varies (rangeSettings rangeHelper.enumerating) :=
      hadded (Settings.stock.setDelimiters ⟨"<", ">"⟩)
        [.inline ⟨[("upper", upperHelper)]⟩, .sections ⟨[("range", rangeHelper)]⟩]
        [.inline ⟨[("upper", upperHelper)]⟩, .sections ⟨[("range", rangeHelper.enumerating)]⟩]
        (.cons (.inline _) (.cons (.sections (.cons ⟨rfl, .inr rfl⟩ .nil)) .nil))
    obtain ⟨_, hlisted⟩ : ∃ ended, renderWithin 20 (rangeSettings rangeHelper)
        "<#s><#range 1 2><.></range><upper .></s>" .invariant pairView pairStore =
          some (.ok "12A12B", ended) := by
      rw [renderWithin, compile_rangeSettings]
      exact exists_of_map_toOption (by decide +kernel)
    have hsame := (htemplates (rangeSettings rangeHelper) (rangeSettings rangeHelper.enumerating)
      hvaries (by decide) (by decide) pairStore pairView closed_pairStore within_pairView
      (fun _ => local_of_hasHelper) 20 "<#s><#range 1 2><.></range><upper .></s>" .invariant).1
    rw [hlisted] at hsame
    obtain ⟨⟨_, ended⟩, hrender, rfl⟩ := Option.map_eq_some_iff.1 hsame
    exact ⟨ended, hrender⟩

end Stencil
