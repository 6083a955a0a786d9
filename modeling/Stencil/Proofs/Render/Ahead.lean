import Stencil.Proofs.Render.Nesting
import Stencil.Proofs.Render.Rewinding

/-!
# `Stencil.Proofs.Render.Ahead`: renders after enumerators have come further

An enumerator that has come further has fewer values left, but they are still the last ones of the
same values. `Store.Ahead` says this of all enumerators of a store. A render without helpers that
ends still ends from such a store, and goes through no other enumerators then (`Task.eases`).

So a block that starts its own enumerator over never ends. After the round that did, its enumerators
have at least as many values left as before, whatever they were left at. If the rest of the loop
ended, then so would the whole loop from where it began, with fewer steps, and would not have done
what it did (`Task.not_mem_of_drain`).
-/

set_option autoImplicit false

namespace Stencil

/-! ### Enumerators that have come further -/

namespace Store

/-- Every enumerator stands at one of its values, or behind the last one. -/
def Sound (s : Store) : Prop :=
  ∀ h e, s.find? h = some e → e.remaining <:+ e.values

/-- In the first store no enumerator has more values left than in the second one, where it has the
same values. -/
def Ahead (a b : Store) : Prop :=
  ∀ h e, a.find? h = some e → ∃ e', b.find? h = some e' ∧ e'.values = e.values ∧
    e.remaining <:+ e'.remaining ∧ e'.remaining <:+ e'.values

variable {a b s : Store} {h : Handle}

/-- Enumerators that have come further have no other values left. -/
theorem Ahead.remaining (hab : a.Ahead b) (h : Handle) : a.remaining h <:+ b.remaining h := by
  cases ha : a.find? h with
  | none =>
    rw [Store.remaining, ha]
    exact List.nil_suffix
  | some e =>
    obtain ⟨e', he', _, hle, _⟩ := hab h e ha
    rw [Store.remaining, Store.remaining, ha, he']
    exact hle

/-- Where an enumerator is after it has given a value. -/
theorem find?_next_self (s : Store) (h : Handle) :
    (s.next h).2.find? h = (s.find? h).map Enumerator.advance := by
  rw [next]
  cases hfind : s.find? h with
  | none => exact hfind
  | some e =>
    show (s.update h Enumerator.advance).find? h = _
    rw [find?_update_self, hfind]

/-- A step moves an enumerator to its next value, or leaves it behind the last one. -/
theorem Sound.next (hs : s.Sound) (h : Handle) : (s.next h).2.Sound := by
  intro k e he
  by_cases hk : k = h
  · subst hk
    rw [find?_next_self] at he
    obtain ⟨e', he', rfl⟩ := Option.map_eq_some_iff.1 he
    exact (List.tail_suffix _).trans (hs k e' he')
  · rw [find?_next_of_ne s hk] at he
    exact hs k e he

/-- An enumerator that is put back stands at its first value, and the others stay or are new. -/
theorem Sound.of_rewinds {drained : List Handle} (hs : s.Sound)
    (hrewinds : Rewinds none s drained a) : a.Sound := by
  intro k e he
  cases hfind : s.find? k with
  | none =>
    -- A new enumerator stands at its first value.
    rw [hrewinds.made k e hfind he (by simp)]
    exact List.suffix_refl _
  | some e' =>
    obtain ⟨e'', he'', _, hplace⟩ := hrewinds.kept k e' hfind
    obtain rfl := Option.some.inj (he''.symm.trans he)
    rw [hplace (by simp)]
    split
    · exact List.suffix_refl _
    · exact hs k e' hfind

/-- The same step in both stores. -/
theorem Ahead.next (hab : a.Ahead b) (h : Handle) : (a.next h).2.Ahead (b.next h).2 := by
  intro k e he
  by_cases hk : k = h
  · subst hk
    rw [find?_next_self] at he
    obtain ⟨e₁, he₁, rfl⟩ := Option.map_eq_some_iff.1 he
    obtain ⟨e', he', hvalues, hle, hin⟩ := hab k e₁ he₁
    refine ⟨e'.advance, ?_, hvalues, ?_, (List.tail_suffix _).trans hin⟩
    · rw [find?_next_self, he']
      rfl
    · -- Either it has no more values left either, or the first one is not needed.
      show e₁.remaining.tail <:+ e'.remaining.tail
      cases hleft : e'.remaining with
      | nil =>
        rw [hleft, List.suffix_nil] at hle
        simp [hle]
      | cons v vs =>
        rw [hleft] at hle
        rcases List.suffix_cons_iff.1 hle with heq | htail
        · simp [heq]
        · exact (List.tail_suffix _).trans htail
  · rw [find?_next_of_ne a hk] at he
    rw [find?_next_of_ne b hk]
    exact hab k e he

/-- A step in the second store alone, where the enumerator has more values left. -/
theorem Ahead.next_right (hab : a.Ahead b) (hne : a.remaining h ≠ b.remaining h) :
    a.Ahead (b.next h).2 := by
  intro k e he
  obtain ⟨e', he', hvalues, hle, hin⟩ := hab k e he
  by_cases hk : k = h
  · subst hk
    rw [Store.remaining, Store.remaining, he, he'] at hne
    refine ⟨e'.advance, ?_, hvalues, ?_, (List.tail_suffix _).trans hin⟩
    · rw [find?_next_self, he']
      rfl
    · show e.remaining <:+ e'.remaining.tail
      cases hleft : e'.remaining with
      | nil =>
        rw [hleft] at hle
        exact hle
      | cons v vs =>
        -- The value that the second store passes is not one that the first has left.
        rw [hleft] at hle
        exact (List.suffix_cons_iff.1 hle).resolve_left fun heq => hne (heq.trans hleft.symm)
  · exact ⟨e', by rw [find?_next_of_ne b hk, he'], hvalues, hle, hin⟩

/-- Enumerators that are put back have all their values left. -/
theorem Ahead.of_rewinds {drained : List Handle} (hab : a.Ahead b)
    (hrewinds : Rewinds none b drained s) : a.Ahead s := by
  intro k e he
  obtain ⟨e', he', hvalues, hle, hin⟩ := hab k e he
  obtain ⟨e'', he'', hvalues', hplace⟩ := hrewinds.kept k e' he'
  refine ⟨e'', he'', hvalues'.trans hvalues, ?_⟩
  rw [hplace (by simp)]
  split
  · exact ⟨hle.trans hin, List.suffix_refl _⟩
  · exact ⟨hle, hin⟩

/-- The same enumerator put back in both stores is at its first value in both. -/
theorem Ahead.reset (hab : a.Ahead b) (h : Handle) : (a.reset h).Ahead (b.reset h) := by
  intro k e he
  by_cases hk : k = h
  · subst hk
    rw [Store.reset, find?_update_self] at he
    obtain ⟨e₁, he₁, rfl⟩ := Option.map_eq_some_iff.1 he
    obtain ⟨e', he', hvalues, _, _⟩ := hab k e₁ he₁
    refine ⟨e'.rewind, ?_, hvalues, ?_, List.suffix_refl _⟩
    · rw [Store.reset, find?_update_self, he']
      rfl
    · show e₁.values <:+ e'.values
      exact hvalues ▸ List.suffix_refl _
  · rw [find?_reset_of_ne a hk] at he
    rw [find?_reset_of_ne b hk]
    exact hab k e he

/-- A round that puts back the enumerator of its own block leaves no enumerator further than it was
before the round. -/
theorem Sound.ahead_of_round {drained : List Handle} (hs : s.Sound) (hmem : h ∈ drained)
    (hrewinds : Rewinds none (s.next h).2 drained a) : s.Ahead a := by
  intro k e he
  by_cases hk : k = h
  · subst hk
    -- The step and the reset cancel out: the enumerator is back where it was, or further back.
    have hnext : (s.next k).2.find? k = some e.advance := by
      rw [find?_next_self, he]
      rfl
    obtain ⟨e', he', hvalues, hplace⟩ := hrewinds.kept k _ hnext
    refine ⟨e', he', hvalues, ?_⟩
    rw [hplace (by simp), if_pos hmem]
    exact ⟨hs k e he, List.suffix_refl _⟩
  · have hnext : (s.next h).2.find? k = some e := by rw [find?_next_of_ne s hk, he]
    obtain ⟨e', he', hvalues, hplace⟩ := hrewinds.kept k e hnext
    refine ⟨e', he', hvalues, ?_⟩
    rw [hplace (by simp)]
    split
    · exact ⟨hs k e he, List.suffix_refl _⟩
    · exact ⟨List.suffix_refl _, hs k e he⟩

end Store

/-! ### Watched renders from stores that have come further -/

namespace Watch

variable {ε σ α β : Type}

/-- A computation that ends well from a store does so from every store whose enumerators have come
further, and goes through no other enumerators there. -/
def Eases (w : Watch ε σ α) : Prop :=
  ∀ a b result b', a.store.Ahead b.store → w b = some (.ok result, b') →
    ∃ a' first second, w a = some (.ok result, a') ∧ a'.store.Ahead b'.store ∧
      a'.drained = a.drained ++ first ∧ b'.drained = b.drained ++ second ∧ first ⊆ second

/-- What has used up a budget does not end at all. -/
theorem eases_exhausted : Eases (exhausted : Watch ε σ α) := by
  intro a b result b' _ h
  cases h

/-- What does nothing ends well everywhere. -/
theorem eases_pure (x : α) : Eases (pure x : Watch ε σ α) := by
  rintro a b result b' hahead ⟨⟩
  exact ⟨a, [], [], rfl, hahead, (List.append_nil _).symm, (List.append_nil _).symm,
    List.Subset.refl _⟩

/-- What fails does not end well. -/
theorem eases_throw (e : ε) : Eases (throw e : Watch ε σ α) := by
  rintro a b result b' _ ⟨⟩

/-- Writing a text does not look at the store. -/
theorem eases_write (text : String) : Eases (write .direct text) := by
  rintro a b result b' hahead ⟨⟩
  exact ⟨_, [], [], rfl, hahead, (List.append_nil _).symm, (List.append_nil _).symm,
    List.Subset.refl _⟩

/-- Of two parts, the second one starts from stores that are ahead because the first one ended so.
-/
theorem eases_bind {w : Watch ε σ α} {k : α → Watch ε σ β} (h : Eases w)
    (h' : ∀ x, Eases (k x)) : Eases (w >>= k) := by
  intro a b result b' hahead hb
  rcases cases_of_bind hb with ⟨e, _, hne⟩ | ⟨x, mid, hfirst, hsecond⟩
  · cases hne
  · obtain ⟨mid', first, second, hrun, hahead', hnoted, hnoted', hsubset⟩ := h _ _ _ _ hahead hfirst
    obtain ⟨a', third, fourth, hrun', hahead'', hnoted₂, hnoted₂', hsubset'⟩ :=
      h' x _ _ _ _ hahead' hsecond
    refine ⟨a', first ++ third, second ++ fourth, ?_, hahead'', ?_, ?_, ?_⟩
    · rw [bind_of_ok hrun, hrun']
    · rw [hnoted₂, hnoted, List.append_assoc]
    · rw [hnoted₂', hnoted', List.append_assoc]
    · exact List.append_subset.2 ⟨List.subset_append_of_subset_left _ hsubset,
        List.subset_append_of_subset_right _ hsubset'⟩

/-- A block for an enumerator notes it in both runs, and puts it back in both. -/
theorem eases_drained {w : Watch ε σ α} (h : Eases w) (handle : Handle) :
    Eases (do note handle; thenAlways w (·.reset handle)) := by
  intro a b result b' hahead hb
  have hrun : (thenAlways w (·.reset handle)) { b with drained := b.drained ++ [handle] } =
      some (.ok result, b') := hb
  obtain ⟨⟨result', ended⟩, hended, heq⟩ := Option.map_eq_some_iff.1 hrun
  obtain ⟨rfl, rfl⟩ := Prod.mk.inj heq
  obtain ⟨a', first, second, hw, hahead', hnoted, hnoted', hsubset⟩ :=
    h { a with drained := a.drained ++ [handle] } { b with drained := b.drained ++ [handle] } _ _
      hahead hended
  refine ⟨{ a' with store := a'.store.reset handle }, handle :: first, handle :: second, ?_,
    hahead'.reset handle, ?_, ?_, List.cons_subset_cons handle hsubset⟩
  · show (thenAlways w (·.reset handle)) { a with drained := a.drained ++ [handle] } = _
    rw [thenAlways, hw]
    rfl
  · show a'.drained = _
    rw [hnoted, List.append_assoc]
    rfl
  · show ended.drained = _
    rw [hnoted', List.append_assoc]
    rfl

end Watch

/-! ### Tasks without helpers -/

/-- An engine with the stock rules has no helpers. -/
theorem Settings.not_hasHelper_of_rules {s : Settings} (hrules : s.rules = Settings.stockRules)
    (h : Helper) : ¬ s.HasHelper h := by
  rintro ⟨rule, hrule, registry, name, hregistry, hget⟩
  rw [hrules] at hrule
  exact Settings.not_hasHelper_stock h ⟨rule, hrule, registry, name, hregistry, hget⟩

namespace Task

variable {cx : RenderContext} {scope : Scope} {children : List Token} {handle : Handle}
  {budget : Nat} {ε σ : Type}

/-- Under the stock rules a token leaves the store as it is. -/
theorem act_eq (hrules : cx.settings.rules = Settings.stockRules) (scope : Scope) (token : Token)
    (store : Store) : token.act cx scope store = (token.stockAction cx scope, store) :=
  Token.act_of_stock (hrules.trans (List.append_nil _).symm) scope (.inr rfl) store

/-- The enumerator of a loop, which may be anywhere when the loop ends. -/
def loose? : Task → Option Handle
  | .drain _ _ handle => some handle
  | _ => none

/-- What a task does to the store. -/
theorem winds (o : Output ε σ) (hrules : cx.settings.rules = Settings.stockRules) (budget : Nat)
    (task : Task) : Watch.Winds task.loose? (task.watch o cx budget) := by
  have hall := Watch.winds_all o (fun helper hhelper =>
    absurd hhelper (Settings.not_hasHelper_of_rules hrules helper)) budget
  cases task with
  | tokens scope ts => exact hall.1 scope ts
  | perform scope action => exact hall.2.1 scope action
  | each scope children values => exact hall.2.2.1 scope children values
  | drain scope children handle => exact hall.2.2.2 scope children handle

/-- A task that ends well does so from every store whose enumerators have come further. The induction
is on the budget. -/
theorem eases (hrules : cx.settings.rules = Settings.stockRules) (budget : Nat) (task : Task) :
    Watch.Eases (task.watch .direct cx budget) := by
  induction budget generalizing task with
  | zero =>
    cases task with
    | tokens scope ts => exact Watch.eases_exhausted
    | perform scope action => exact Watch.eases_exhausted
    | each scope children values => exact Watch.eases_exhausted
    | drain scope children handle => exact Watch.eases_exhausted
  | succ budget ih =>
    cases task with
    | tokens scope ts =>
      cases ts with
      | nil => exact Watch.eases_pure ()
      | cons token rest =>
        rw [watch, Watch.tokens_cons_of_act .direct (act_eq hrules scope token)]
        exact Watch.eases_bind (ih (.perform scope _)) fun _ => ih (.tokens scope rest)
    | perform scope action =>
      cases action with
      | write text => exact Watch.eases_write text
      | block plan b children =>
        cases plan with
        | skip => exact Watch.eases_pure ()
        | here => exact ih (.tokens scope children)
        | reparse text =>
          rw [watch, Watch.perform]
          cases cx.settings.pipeline.parse text b.delimiters with
          | error e => exact Watch.eases_throw _
          | ok parsed => exact ih (.tokens scope parsed)
        | each values => exact ih (.each scope children values)
        | drain handle => exact Watch.eases_drained (ih (.drain scope children handle)) handle
        | once v => exact ih (.tokens (scope.push v) children)
    | each scope children values =>
      cases values with
      | nil => exact Watch.eases_pure ()
      | cons v vs =>
        exact Watch.eases_bind (ih (.tokens (scope.push v) children)) fun _ =>
          ih (.each scope children vs)
    | drain scope children handle =>
      intro a b result b' hahead hb
      have hle := hahead.remaining handle
      cases hleft : b.store.remaining handle with
      | nil =>
        -- The enumerator has no values left in either store.
        rw [hleft, List.suffix_nil] at hle
        have hnext : ∀ s : Store, s.remaining handle = [] →
            s.next handle = (none, (s.next handle).2) :=
          fun s hs => Prod.ext (by rw [s.fst_next, hs]; rfl) rfl
        rw [watch, Watch.drain_of_none (hnext _ hleft)] at hb
        cases hb
        refine ⟨_, [], [], Watch.drain_of_none (hnext _ hle), hahead.next handle, ?_, ?_,
          List.Subset.refl _⟩
        · exact (List.append_nil _).symm
        · exact (List.append_nil _).symm
      | cons v vs =>
        have hnext : ∀ s : Store, s.remaining handle = v :: vs →
            s.next handle = (some v, (s.next handle).2) :=
          fun s hs => Prod.ext (by rw [s.fst_next, hs]; rfl) rfl
        rw [watch, Watch.drain_of_some (hnext _ hleft)] at hb
        by_cases hsame : a.store.remaining handle = v :: vs
        · -- Both loops go on with the same value.
          rw [watch, Watch.drain_of_some (hnext _ hsame)]
          exact Watch.eases_bind (ih (.tokens (scope.push v) children))
            (fun _ => ih (.drain scope children handle))
            { a with store := (a.store.next handle).2 }
            { b with store := (b.store.next handle).2 } _ _ (hahead.next handle) hb
        · -- The first loop has come further than the second one, which has a round more.
          rcases cases_of_bind hb with ⟨e, _, hne⟩ | ⟨_, mid, hround, hrest⟩
          · cases hne
          · obtain ⟨noted, hnoted, hrewinds⟩ :=
              winds .direct hrules budget (.tokens (scope.push v) children) _ _ _ hround
            have hahead' : a.store.Ahead mid.store :=
              (hahead.next_right (hleft ▸ hsame)).of_rewinds hrewinds
            obtain ⟨a', first, second, hrun, hahead'', hfirst, hsecond, hsubset⟩ :=
              ih (.drain scope children handle) a mid _ _ hahead' hrest
            refine ⟨a', first, noted ++ second, prolongs_succ .direct cx budget _ _ _ hrun,
              hahead'', hfirst, ?_, List.subset_append_of_subset_right _ hsubset⟩
            rw [hsecond, hnoted, List.append_assoc]

/-- A loop that ends does not go through its own enumerator inside. Otherwise the store after the
round that does would be one from which the whole loop ends earlier. -/
theorem not_mem_of_drain (hrules : cx.settings.rules = Settings.stockRules)
    {state after : WatchState (List Char)} {noted : List Handle}
    (h : (drain scope children handle).watch .direct cx budget state = some (.ok (), after))
    (hnoted : after.drained = state.drained ++ noted) (hsound : state.store.Sound) :
    handle ∉ noted := by
  induction budget generalizing state noted with
  | zero => cases h
  | succ budget ih =>
    intro hmem
    cases hnext : state.store.next handle with
    | mk v? store =>
      cases v? with
      | none =>
        rw [watch, Watch.drain_of_none hnext] at h
        cases h
        obtain rfl := List.self_eq_append_right.1 hnoted
        cases hmem
      | some v =>
        obtain rfl : (state.store.next handle).2 = store := by rw [hnext]
        have hwhole := h
        rw [watch, Watch.drain_of_some hnext] at h
        rcases cases_of_bind h with ⟨e, _, hne⟩ | ⟨_, mid, hround, hrest⟩
        · cases hne
        · obtain ⟨first, hfirst, hrewinds⟩ :=
            winds .direct hrules budget (.tokens (scope.push v) children) _ _ _ hround
          obtain ⟨second, hsecond, _⟩ :=
            winds .direct hrules budget (.drain scope children handle) _ _ _ hrest
          -- By induction, the rounds behind this one do not go through the enumerator.
          have hothers : handle ∉ second :=
            ih hrest hsecond ((hsound.next handle).of_rewinds hrewinds)
          obtain rfl : noted = first ++ second := by
            rw [hsecond, hfirst, List.append_assoc] at hnoted
            exact (List.append_cancel_left hnoted).symm
          have hround : handle ∈ first := (List.mem_append.1 hmem).resolve_right hothers
          -- From the store at the beginning the loop would end as it does after the round.
          obtain ⟨ended, third, fourth, hrun, _, hthird, hfourth, hsubset⟩ :=
            eases hrules budget (.drain scope children handle) state mid _ _
              (hsound.ahead_of_round hround hrewinds) hrest
          have hsame := watch_unique hrun hwhole
          cases hsame
          obtain rfl : third = first ++ second := List.append_cancel_left (hthird.symm.trans hnoted)
          obtain rfl : second = fourth := List.append_cancel_left (hsecond.symm.trans hfourth)
          exact hothers (hsubset hmem)

end Task

end Stencil
