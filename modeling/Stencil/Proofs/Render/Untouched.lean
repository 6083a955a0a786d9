import Stencil.Proofs.Helper.Accesses
import Stencil.Proofs.Render.Calls
import Stencil.Proofs.Render.Nesting

/-!
# `Stencil.Proofs.Render.Untouched`: renders that leave one enumerator alone

A render steps and puts back enumerators in two ways: a block goes through one, or a helper that is
called does something with one. `NeverTouches` says of an enumerator that neither happens to it
wherever the render comes.

Such a render does not see how far the enumerator has come. `Task.agrees_apart` is the induction on
the budget: from two states that differ only by how far the one enumerator has come, a task does the
same, and ends in two such states.
-/

set_option autoImplicit false

namespace Stencil

/-! ### Places -/

/-- The next thing at a place is not to step an enumerator or to put it back: no block is going
through it, and the helper that is called for the next token, if there is one, avoids it. -/
structure Place.Spares (cx : RenderContext) (handle : Handle) (p : Place) : Prop where
  block : ∀ scope children, p.task ≠ .drain scope children handle
  helper : ∀ scope token rest, p.task = .tokens scope (token :: rest) →
    ∀ helper hcx values, token.Calls cx scope helper hcx values →
      helper.Avoids handle hcx values p.store

/-- A render neither steps nor puts back an enumerator, wherever it comes. -/
def NeverTouches (cx : RenderContext) (handle : Handle) (start : Place) : Prop :=
  ∀ place, Reaches cx start place → place.Spares cx handle

section NeverTouches

variable {cx : RenderContext} {handle : Handle} {p q : Place}

/-- What holds of a render holds of its parts. -/
theorem NeverTouches.of_begins (h : NeverTouches cx handle p) (hbegins : Begins cx p q) :
    NeverTouches cx handle q :=
  fun place hreaches => h place (.head hbegins hreaches)

/-- A render that never touches an enumerator does not do so at once. -/
theorem NeverTouches.spares (h : NeverTouches cx handle p) : p.Spares cx handle :=
  h p .refl

end NeverTouches

/-- At a place that spares an enumerator the next token asks for the same wherever that stands, and
leaves it there. -/
theorem Place.Spares.act_place {cx : RenderContext} {handle : Handle} {scope : Scope} {token : Token}
    {others : List Token} {store : Store} {around : List Handle} {e : Enumerator}
    (h : Place.Spares cx handle ⟨.tokens scope (token :: others), store, around⟩)
    (hfind : store.find? handle = some e) (rest : List Value) :
    ∃ action mid, token.act cx scope store = (action, mid) ∧
      token.act cx scope (store.place handle rest) = (action, mid.place handle rest) ∧
      mid.find? handle = some e := by
  rcases token.act_cases cx scope with hact | ⟨helper, hcx, values, hcalls, hact⟩
  · exact ⟨_, store, hact store, hact _, hfind⟩
  · have havoids := h.helper scope token others rfl helper hcx values hcalls
    obtain ⟨hmoved, hkept⟩ := havoids.run_place hfind rest
    refine ⟨_, _, hact store, ?_, hkept⟩
    rw [hact, hmoved]

/-! ### Two states -/

section States

variable {ε σ α β : Type}

/-- Two states of a watched render with one enumerator at its first value in the first one, and at
some other place in the second one. What is noted may differ. -/
structure WatchState.Apart (handle : Handle) (values rest : List Value) (s t : WatchState σ) :
    Prop where
  start : s.store.find? handle = some (.atStart values)
  store : t.store = s.store.place handle rest
  out : t.out = s.out

namespace Watch

/-- Two runs have the same result, or none, and end in states that are related. -/
def Agrees (related : WatchState σ → WatchState σ → Prop)
    (run run' : Option (Except ε α × WatchState σ)) : Prop :=
  Option.Rel (fun ended ended' => ended'.1 = ended.1 ∧ related ended.2 ended'.2) run run'

variable {related related' : WatchState σ → WatchState σ → Prop} {s t : WatchState σ}

/-- A change of the store from the store on that there is. -/
theorem step_eq {f : Store → α × Store} {a : α} {store : Store} {state : WatchState σ}
    (h : f state.store = (a, store)) :
    (step f : Watch ε σ α) state = some (.ok a, { state with store }) := by
  rw [step, h]

/-- Doing nothing keeps two states related. -/
theorem agrees_pure (h : related s t) (a : α) :
    Agrees related ((pure a : Watch ε σ α) s) ((pure a : Watch ε σ α) t) :=
  .some ⟨rfl, h⟩

/-- A failure keeps two states related. -/
theorem agrees_throw (h : related s t) (e : ε) :
    Agrees related ((throw e : Watch ε σ α) s) ((throw e : Watch ε σ α) t) :=
  .some ⟨rfl, h⟩

/-- What is taken from the ends of two runs is the same, if it is the same for related states. -/
theorem Agrees.map_eq {γ : Type} {run run' : Option (Except ε α × WatchState σ)}
    (h : Agrees related run run') {view : Except ε α × WatchState σ → γ}
    (hview : ∀ result s t, related s t → view (result, t) = view (result, s)) :
    run'.map view = run.map view := by
  cases h with
  | none => rfl
  | @some ended ended' hended =>
    obtain ⟨result, s⟩ := ended
    obtain ⟨result', t⟩ := ended'
    obtain ⟨rfl, hrelated⟩ := hended
    exact congrArg some (hview _ s t hrelated)

/-- The second run ends in a state that is related to one of the first run. -/
theorem Agrees.exists_related {run run' : Option (Except ε α × WatchState σ)}
    (h : Agrees related run run') {result : Except ε α} {t : WatchState σ}
    (hrun : run' = some (result, t)) : ∃ s, related s t := by
  subst hrun
  cases h with
  | some hended => exact ⟨_, hended.2⟩

/-- Computations one after the other. The second ones start where the first ones end. -/
theorem agrees_bind {w w' : Watch ε σ α} {k k' : α → Watch ε σ β}
    (h : Agrees related (w s) (w' t)) (hmono : ∀ s t, related s t → related' s t)
    (h' : ∀ a mid mid', w s = some (.ok a, mid) → related mid mid' →
      Agrees related' (k a mid) (k' a mid')) :
    Agrees related' ((w >>= k) s) ((w' >>= k') t) := by
  -- The first runs end alike or not at all, and in the other cases there is nothing to show.
  cases hw : w s with
  | none =>
    cases hw' : w' t with
    | none =>
      rw [bind_of_none hw, bind_of_none hw']
      exact .none
    | some ended =>
      rw [hw, hw'] at h
      cases h
  | some ended =>
    cases hw' : w' t with
    | none =>
      rw [hw, hw'] at h
      cases h
    | some ended' =>
      obtain ⟨result, mid⟩ := ended
      obtain ⟨result', mid'⟩ := ended'
      rw [hw, hw'] at h
      obtain ⟨rfl, hmid⟩ : result' = result ∧ related mid mid' := by
        cases h with
        | some h => exact h
      cases result' with
      | error e =>
        rw [bind_of_error hw, bind_of_error hw']
        exact .some ⟨rfl, hmono _ _ hmid⟩
      | ok a =>
        rw [bind_of_ok hw, bind_of_ok hw']
        exact h' a mid mid' hw hmid

variable {handle : Handle} {values rest : List Value}

/-- The same text goes to the same output. -/
theorem agrees_write (h : s.Apart handle values rest t) (o : Output ε σ) (text : String) :
    Agrees (WatchState.Apart handle values rest) (write o text s) (write o text t) := by
  refine .some ⟨?_, h.start, h.store, ?_⟩
  · rw [h.out]
  · rw [h.out]

/-- A block that goes through another enumerator. -/
theorem agrees_drained {w w' : Watch ε σ Unit} {other : Handle} (hne : other ≠ handle)
    (h : ∀ noted noted', Agrees (WatchState.Apart handle values rest)
      (w { s with drained := noted }) (w' { t with drained := noted' })) :
    Agrees (WatchState.Apart handle values rest)
      ((do note other; thenAlways w (·.reset other) : Watch ε σ Unit) s)
      ((do note other; thenAlways w' (·.reset other) : Watch ε σ Unit) t) := by
  have hbody := h (s.drained ++ [other]) (t.drained ++ [other])
  show Agrees _ ((w { s with drained := s.drained ++ [other] }).map _)
    ((w' { t with drained := t.drained ++ [other] }).map _)
  generalize w { s with drained := s.drained ++ [other] } = run at hbody ⊢
  generalize w' { t with drained := t.drained ++ [other] } = run' at hbody ⊢
  cases hbody with
  | none => exact .none
  | @some ended ended' hended =>
    obtain ⟨hresult, hapart⟩ := hended
    refine .some ⟨hresult, ?_, ?_, hapart.out⟩
    · rw [Store.find?_reset_of_ne _ (Ne.symm hne)]
      exact hapart.start
    · show ended'.2.store.reset other = _
      rw [hapart.store, Store.reset_place_of_ne _ _ hne]

end Watch

end States

/-! ### Tasks -/

namespace Task

variable {ε σ : Type} {cx : RenderContext} {handle : Handle} {values rest : List Value}
  {s t : WatchState σ}

/-- A task that never touches an enumerator does the same wherever that stands, and leaves it
there. -/
theorem agrees_apart (o : Output ε σ) (budget : Nat) (task : Task) {around : List Handle}
    (hapart : s.Apart handle values rest t)
    (hnever : NeverTouches cx handle ⟨task, s.store, around⟩) :
    Watch.Agrees (WatchState.Apart handle values rest) (task.watch o cx budget s)
      (task.watch o cx budget t) := by
  induction budget generalizing task s t around with
  | zero =>
    cases task with
    | _ => exact .none
  | succ budget ih =>
    cases task with
    | tokens scope ts =>
      cases ts with
      | nil => exact Watch.agrees_pure hapart ()
      | cons token others =>
        obtain ⟨action, mid, hact, hact', hkept⟩ := hnever.spares.act_place hapart.start rest
        have hmid : WatchState.Apart handle values rest { s with store := mid }
            { t with store := mid.place handle rest } := ⟨hkept, rfl, hapart.out⟩
        rw [watch, Watch.tokens, bind_of_ok (Watch.step_eq hact),
          bind_of_ok (Watch.step_eq (hapart.store ▸ hact'))]
        refine Watch.agrees_bind (ih (.perform scope action) hmid (hnever.of_begins (.first hact)))
          (fun _ _ h => h) fun _ after after' hrun hafter => ?_
        -- The second part is one that the render comes to, since the first one has ended.
        obtain ⟨shown, hends⟩ := exists_ends_of_watch (.perform scope action) hrun
        exact ih (.tokens scope others) hafter (hnever.of_begins (.rest hact hends))
    | perform scope action =>
      cases action with
      | write text => exact Watch.agrees_write hapart o text
      | block plan b children =>
        cases plan with
        | skip => exact Watch.agrees_pure hapart ()
        | here => exact ih (.tokens scope children) hapart (hnever.of_begins .here)
        | reparse text =>
          rw [watch, Watch.perform]
          cases hparse : cx.settings.pipeline.parse text b.delimiters with
          | error e => exact Watch.agrees_throw hapart (o.unparsed e)
          | ok parsed =>
            exact ih (.tokens scope parsed) hapart (hnever.of_begins (.reparse hparse))
        | each vs => exact ih (.each scope children vs) hapart (hnever.of_begins .each)
        | drain other =>
          have hinside := hnever.of_begins .drain
          -- The block inside is for another enumerator, since the next thing at its loop is to step
          -- that.
          have hne : other ≠ handle := by
            rintro rfl
            exact hinside.spares.block scope children rfl
          refine Watch.agrees_drained hne fun noted noted' => ?_
          exact ih (.drain scope children other) ⟨hapart.start, hapart.store, hapart.out⟩ hinside
        | once v =>
          exact ih (.tokens (scope.push v) children) hapart (hnever.of_begins .once)
    | each scope children vs =>
      cases vs with
      | nil => exact Watch.agrees_pure hapart ()
      | cons v vs =>
        refine Watch.agrees_bind (ih (.tokens (scope.push v) children) hapart
          (hnever.of_begins .item)) (fun _ _ h => h) fun _ mid mid' hrun hmid => ?_
        obtain ⟨shown, hends⟩ :=
          exists_ends_of_watch (.tokens (scope.push v) children) hrun
        exact ih (.each scope children vs) hmid (hnever.of_begins (.items hends))
    | drain scope children other =>
      have hne : other ≠ handle := by
        rintro rfl
        exact hnever.spares.block scope children rfl
      rcases hnext : s.store.next other with ⟨v?, mid⟩
      -- The other enumerator gives the same value in both states.
      have hnext' : t.store.next other = (v?, mid.place handle rest) := by
        rw [hapart.store, Store.next_place_of_ne _ _ hne, hnext]
      have hkept : mid.find? handle = some (.atStart values) := by
        rw [← hapart.start, ← s.store.find?_next_of_ne (Ne.symm hne), hnext]
      have hmid : WatchState.Apart handle values rest { s with store := mid }
          { t with store := mid.place handle rest } := ⟨hkept, rfl, hapart.out⟩
      cases v? with
      | none =>
        rw [watch, Watch.drain_of_none hnext, Watch.drain_of_none hnext']
        exact Watch.agrees_pure hmid ()
      | some v =>
        rw [watch, Watch.drain_of_some hnext, Watch.drain_of_some hnext']
        refine Watch.agrees_bind (ih (.tokens (scope.push v) children) hmid
          (hnever.of_begins (.round hnext))) (fun _ _ h => h) fun _ after after' hrun hafter => ?_
        obtain ⟨shown, hends⟩ :=
          exists_ends_of_watch (.tokens (scope.push v) children) hrun
        exact ih (.drain scope children other) hafter (hnever.of_begins (.rounds hnext hends))

end Task

end Stencil
