import Mathlib.Data.List.Forall2
import Stencil.Proofs.Additions
import Stencil.Proofs.Value.Inclusion

/-!
# `Stencil.Proofs.Helper.Enumerating`: helpers that give enumerators for lists

A helper whose value is a list can be replaced by one that gives an enumerator over its items
instead, a new one at each call (`Helper.enumerating`). Engines that differ by such replacements in
helpers for blocks are related by `Settings.Varies`. Adding helpers keeps them related
(`Settings.Varies.foldl_add`), and they parse templates alike, since parsing asks only for the names
of helpers and for the numbers of their arguments (`Site.call_congr`).

Handles are no numbers to a helper: it can only step the enumerators that its context, its arguments
or the helper itself name, and those that it has made. `Helper.Local` says so.
-/

set_option autoImplicit false

namespace Stencil

/-- A new enumerator over the items in place of a list that is not empty. -/
def enumerated : Value × Store → Value × Store
  | (.list (v :: vs), store) =>
    let (handle, store) := store.fresh (v :: vs)
    (.iter handle, store)
  | result => result

/-- The helper that gives a new enumerator at each call where the helper gives a list that is not
empty. -/
def Helper.enumerating (h : Helper) : Helper :=
  { h with run := fun cx values store => enumerated (h.run cx values store) }

/-- The helper, or the one that gives enumerators in its place. -/
def Helper.Varies (h h' : Helper) : Prop :=
  h' = h ∨ h' = h.enumerating

/-- Both declare the same types for their arguments. -/
theorem Helper.Varies.params_eq {h h' : Helper} (hvaries : h.Varies h') : h'.params = h.params := by
  rcases hvaries with rfl | rfl
  · rfl
  · rfl

/-- Both take the same number of arguments. -/
theorem Helper.Varies.arity_eq {h h' : Helper} (hvaries : h.Varies h') : h'.arity = h.arity :=
  congrArg List.length hvaries.params_eq

/-! ### Engines -/

/-- The second registry has the helpers of the first one, some of which give enumerators. -/
def Registry.Varies (r r' : Registry) : Prop :=
  List.Forall₂ (fun entry entry' => entry'.1 = entry.1 ∧ entry.2.Varies entry'.2) r.entries
    r'.entries

/-- A rule for the same tokens, which may call helpers that give enumerators. -/
inductive RenderRule.Varies : RenderRule → RenderRule → Prop
  | same (rule : RenderRule) : Varies rule rule
  | helperSection {r r' : Registry} (h : r.Varies r') :
    Varies (.helperSection r) (.helperSection r')
  | invertedHelperSection {r r' : Registry} (h : r.Varies r') :
    Varies (.invertedHelperSection r) (.invertedHelperSection r')

/-- The second engine is the first one, but for helpers for blocks, some of which give
enumerators. -/
structure Settings.Varies (s s' : Settings) : Prop where
  pipeline : s'.pipeline = s.pipeline
  rules : List.Forall₂ RenderRule.Varies s.rules s'.rules
  excluded : s'.excluded = s.excluded
  delimiters : s'.delimiters = s.delimiters

/-- The same addition, but for helpers for blocks, some of which give enumerators. -/
inductive Addition.Varies : Addition → Addition → Prop
  | inline (r : Registry) : Varies (.inline r) (.inline r)
  | sections {r r' : Registry} (h : r.Varies r') : Varies (.sections r) (.sections r')

namespace Registry

variable {r r' : Registry}

/-- Both have a helper of a name, or neither has. -/
theorem Varies.get? (h : r.Varies r') (name : String) :
    (r.get? name = none ∧ r'.get? name = none) ∨
      ∃ helper helper', r.get? name = some helper ∧ r'.get? name = some helper' ∧
        helper.Varies helper' := by
  rw [Registry.get?, Registry.get?]
  obtain ⟨entries⟩ := r
  obtain ⟨entries'⟩ := r'
  have hall : List.Forall₂ (fun entry entry' => entry'.1 = entry.1 ∧ entry.2.Varies entry'.2)
    entries entries' := h
  induction hall with
  | nil => exact .inl ⟨rfl, rfl⟩
  | @cons entry entry' rest rest' hentry hrest ih =>
    obtain ⟨key, helper⟩ := entry
    obtain ⟨key', helper'⟩ := entry'
    obtain ⟨rfl, hhelper⟩ := hentry
    -- Entries are looked up in order, and the keys are the same on both sides.
    rw [valueAt?, valueAt?]
    split
    · exact .inr ⟨helper, helper', rfl, rfl, hhelper⟩
    · exact ih hrest

/-- Whether a helper is run does not depend on what it does. -/
theorem Varies.prepare (h : r.Varies r') (cx : HelperContext) (name : String)
    (args : List Argument) :
    (∃ e, r.prepare cx name args = .error e ∧ r'.prepare cx name args = .error e) ∨
      ∃ helper helper' values, r.prepare cx name args = .ok (helper, values) ∧
        r'.prepare cx name args = .ok (helper', values) ∧ helper.Varies helper' := by
  rw [Registry.prepare, Registry.prepare]
  rcases h.get? name with ⟨hnone, hnone'⟩ | ⟨helper, helper', hsome, hsome', hvaries⟩
  -- The call is refused by both for a name that neither has or for a wrong number of arguments.
  · rw [hnone, hnone']
    exact .inl ⟨_, rfl, rfl⟩
  · rw [hsome, hsome']
    simp only [hvaries.arity_eq, hvaries.params_eq]
    by_cases harity : helper.arity = args.length
    · rw [if_pos harity, if_pos harity]
      cases resolveArguments cx name args helper.params with
      | error e => exact .inl ⟨e, rfl, rfl⟩
      | ok values => exact .inr ⟨helper, helper', values, rfl, rfl, hvaries⟩
    · rw [if_neg harity, if_neg harity]
      exact .inl ⟨_, rfl, rfl⟩

/-- Both have helpers of the same names. -/
theorem Varies.contains_eq (h : r.Varies r') (name : String) :
    r'.contains name = r.contains name := by
  rw [contains, contains]
  rcases h.get? name with ⟨hnone, hnone'⟩ | ⟨_, _, hsome, hsome', _⟩
  · rw [hnone, hnone']
  · rw [hsome, hsome']
    rfl

end Registry

/-- A tag is recognized by the name of a helper and the number of its arguments. -/
theorem Site.call_congr {r r' : Registry} (h : r.Varies r') (site : Site) (start : Cursor) :
    site.call r' start = site.call r start := by
  rw [call, call]
  simp only
  -- Of a helper, only the number of its arguments is asked for.
  rcases h.get? (String.ofList (start.skipBlank.name site.closing).1) with
    ⟨hnone, hnone'⟩ | ⟨helper, helper', hsome, hsome', hvaries⟩
  · rw [hnone, hnone']
  · simp only [hsome, hsome', hvaries.arity_eq]

/-- The two kinds of tags for a helper's block are recognized alike. -/
theorem Recognizer.helperBlock_congr {r r' : Registry} (h : r.Varies r') (name : String)
    (mark : List Char) (kind : BlockKind) :
    helperBlock name mark kind r' = helperBlock name mark kind r := by
  simp only [helperBlock, Site.call_congr h]

/-- A rule is for a block by the name that the block has. -/
theorem RenderRule.Varies.accepts_eq {rule rule' : RenderRule} (h : rule.Varies rule')
    (token : Token) : rule'.accepts token = rule.accepts token := by
  cases h with
  | same => rfl
  | helperSection h =>
    cases token with
    | block b children => simp only [accepts, h.contains_eq]
    | _ => rfl
  | invertedHelperSection h =>
    cases token with
    | block b children => simp only [accepts, h.contains_eq]
    | _ => rfl

namespace Settings

variable {s s' : Settings}

/-- An engine is one of its own variants. -/
theorem varies_refl (s : Settings) : s.Varies s :=
  ⟨rfl, List.forall₂_same.2 fun rule _ => .same rule, rfl, rfl⟩

/-- The same addition is made to both, in the same place of the pipeline and of the rules. -/
theorem Varies.add (h : s.Varies s') {a a' : Addition} (ha : a.Varies a') :
    (s.add a).Varies (s'.add a') := by
  cases ha with
  | inline r =>
    refine ⟨?_, List.rel_append h.rules (.cons (.same _) .nil), h.excluded, h.delimiters⟩
    exact congrArg (·.insertBefore "interpolation" (.helper r)) h.pipeline
  | sections hr =>
    refine ⟨?_, ?_, h.excluded, h.delimiters⟩
    · show (s'.pipeline.insertBefore _ (.helperBlock _ _ _ _)).insertBefore _
        (.helperBlock _ _ _ _) = _
      rw [h.pipeline, Recognizer.helperBlock_congr hr, Recognizer.helperBlock_congr hr]
      rfl
    · exact List.rel_append (List.rel_append h.rules (.cons (.helperSection hr) .nil))
        (.cons (.invertedHelperSection hr) .nil)

/-- Engines to which the same helpers are added, but for some that give enumerators. -/
theorem Varies.foldl_add (h : s.Varies s') {additions additions' : List Addition}
    (ha : List.Forall₂ Addition.Varies additions additions') :
    (additions.foldl Settings.add s).Varies (additions'.foldl Settings.add s') := by
  induction ha generalizing s s' with
  | nil => exact h
  | cons hfirst hrest ih => exact ih (h.add hfirst)

/-- A token is shown by rules in the same place. -/
theorem Varies.ruleFor? (h : s.Varies s') (token : Token) :
    (s.ruleFor? token = none ∧ s'.ruleFor? token = none) ∨
      ∃ rule rule', s.ruleFor? token = some rule ∧ s'.ruleFor? token = some rule' ∧
        rule.Varies rule' := by
  rw [Settings.ruleFor?, Settings.ruleFor?]
  have hrules := h.rules
  -- Rules are searched one by one on both sides.
  generalize s.rules = rules at hrules ⊢
  generalize s'.rules = rules' at hrules ⊢
  induction hrules with
  | nil => exact .inl ⟨rfl, rfl⟩
  | @cons rule rule' rest rest' hrule hrest ih =>
    rw [List.find?_cons, List.find?_cons, hrule.accepts_eq token]
    split
    · exact .inr ⟨rule, rule', rfl, rfl, hrule⟩
    · exact ih

end Settings

/-! ### What helpers can reach -/

/-- A helper that is called in a store and in a larger one, with a scope and arguments that are the
same in both, does the same in both. It leaves the enumerators alone that only the larger one has. It
may know the first `n` enumerators by itself. -/
def Helper.Local (n : Nat) (h : Helper) : Prop :=
  ∀ (i : Inclusion) (cx : HelperContext) (values : List Value), i.Valid n →
    cx.scope.Within i.inner.enumerators.size →
    (∀ v ∈ values, v.Within i.inner.enumerators.size) →
    i.Leads n i.outer.enumerators.size Inclusion.Matches (h.run cx values i.inner)
      (h.run (cx.rename i.handle) (values.map (Value.rename i.handle)) i.outer)

/-- The values of a helper for a block and of one that gives enumerators in its place. -/
inductive Inclusion.Gives (m : Nat) (i : Inclusion) : Value → Value → Prop
  | same {v v' : Value} (h : i.Matches v v') : Gives m i v v'
  | items {vs : List Value} {handle : Handle} (hne : vs ≠ []) (h : i.Stands m vs handle) :
    Gives m i (.list vs) (.iter handle)

section Local

variable {n m : Nat} {i : Inclusion} {x x' : Value × Store}

/-- A list stays as it is in the inner store, and is enumerated in the outer one. -/
theorem Inclusion.Leads.enumerated_outer (h : i.Leads n m Matches x x')
    (hroom : m ≤ i.outer.enumerators.size) : i.Leads n m (Gives m) x (enumerated x') := by
  obtain ⟨v, inner⟩ := x
  obtain ⟨v', outer⟩ := x'
  obtain ⟨f, hvalid, hgrows, hmatches⟩ := h
  obtain rfl : v' = v.rename f := hmatches.eq
  have hwithin : v.Within inner.enumerators.size := hmatches.within
  have hsame : i.Leads n m (Gives m) (v, inner) (v.rename f, outer) :=
    ⟨f, hvalid, hgrows, .same ⟨rfl, hwithin⟩⟩
  cases v with
  | list items =>
    cases items with
    | nil => exact hsame
    | cons v vs =>
      have hitems : ∀ w ∈ v :: vs, w.Within inner.enumerators.size := Value.within_list.1 hwithin
      have hroom' : m ≤ outer.enumerators.size := Nat.le_trans hroom hgrows.leOuter
      rw [Value.rename_list]
      -- The new enumerator is put in between the others of the outer store.
      refine ⟨_, hvalid.insert ((v :: vs).map (Value.rename f)),
        hgrows.trans (hvalid.grows_insert hroom' _) hroom, ?_⟩
      exact .items (List.cons_ne_nil v vs) (hvalid.stands_insert hroom' hitems)
  | _ => exact hsame

/-- A helper that does not touch the store is local if it gives renamed values for renamed ones. -/
theorem Helper.local_of_run_eq {h : Helper} {value : HelperContext → List Value → Value}
    (hrun : ∀ cx values store, h.run cx values store = (value cx values, store))
    (hrename : ∀ f cx values,
      value (cx.rename f) (values.map (Value.rename f)) = (value cx values).rename f) :
    h.Local n := by
  intro i cx values hi hscope hvalues
  rw [hrun, hrun]
  exact ⟨i.handle, hi, hi.grows_refl, hrename _ _ _,
    HelperContext.within_of_rename hrename hscope hvalues⟩

end Local

end Stencil
