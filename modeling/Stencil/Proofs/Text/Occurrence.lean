import Stencil.Text.Search

/-!
# `Stencil.Proofs.Text.Occurrence`: the first place of one text in another

`StartsFirst needle before` says that in `before` followed by `needle`, the needle starts nowhere
but at the end of `before`. The main facts:

* `cut?_eq_some_iff`: a search splits a text around the first occurrence, and around nothing else.
* `cut?_eq_none_iff`: a search fails exactly when the needle is not in the text.
* `cut?_append`: a search that succeeds does not see the text behind the needle. Everything that
  is cut out of a template can therefore be read again without what followed it.
* `spanUntil_of_startsFirst`: a name stops at a blank or at the end of a text that is closed for
  the first time there.
-/

set_option autoImplicit false

namespace Stencil.Text

/-- In `before` followed by `needle`, the needle starts nowhere but at the end of `before`. -/
def StartsFirst (needle before : List Char) : Prop :=
  ∀ lead tail, before ++ needle = lead ++ needle ++ tail → tail = []

/-- A text starts with a needle that can be taken off. -/
theorem after?_append (lead rest : List Char) : after? lead (lead ++ rest) = some rest :=
  after?_eq_some.2 rfl

/-- Nothing is taken off a text exactly when the text does not start with it. -/
theorem after?_eq_none_iff {lead cs : List Char} : after? lead cs = none ↔ ¬ lead <+: cs := by
  rw [Option.eq_none_iff_forall_ne_some]
  constructor
  · rintro h ⟨rest, hrest⟩
    exact h rest (after?_eq_some.2 hrest.symm)
  · intro h rest hrest
    exact h ⟨rest, (after?_eq_some.1 hrest).symm⟩

/-- A search fails exactly when the needle does not occur. -/
theorem cut?_eq_none_iff {needle cs : List Char} : cut? needle cs = none ↔ ¬ needle <:+: cs := by
  induction cs with
  | nil => simp [cut?_nil, List.isEmpty_iff]
  | cons c cs ih =>
    rw [cut?_cons, List.infix_cons_iff]
    cases h : after? needle (c :: cs) with
    | some rest =>
      have hlead : needle <+: c :: cs := ⟨rest, (after?_eq_some.1 h).symm⟩
      simp [hlead]
    | none =>
      have hlead := after?_eq_none_iff.1 h
      simp only [Option.map_eq_none_iff, ih, hlead, false_or]

/-- Nothing stands in front of a needle at the very beginning. -/
theorem StartsFirst.nil (needle : List Char) : StartsFirst needle [] := by
  intro lead tail heq
  have hlength := congrArg List.length heq
  simp only [List.nil_append, List.length_append] at hlength
  exact List.eq_nil_of_length_eq_zero (by omega)

/-- What a search finds stands nowhere before. -/
theorem startsFirst_of_cut? {needle cs before rest : List Char}
    (h : cut? needle cs = some (before, rest)) : StartsFirst needle before := by
  induction cs generalizing before with
  | nil =>
    rw [cut?_nil] at h
    split at h
    · obtain ⟨rfl, rfl⟩ := Prod.mk.inj (Option.some.inj h)
      exact StartsFirst.nil needle
    · simp at h
  | cons c cs ih =>
    rw [cut?_cons] at h
    cases hhere : after? needle (c :: cs) with
    | some rest' =>
      rw [hhere] at h
      obtain ⟨rfl, rfl⟩ := Prod.mk.inj (Option.some.inj h)
      exact StartsFirst.nil needle
    | none =>
      rw [hhere] at h
      obtain ⟨⟨before', rest'⟩, hcut, heq⟩ := Option.map_eq_some_iff.1 h
      obtain ⟨rfl, rfl⟩ := Prod.mk.inj heq
      -- Whether an occurrence starts here or later on, there is nothing behind it.
      intro lead tail hsplit
      cases lead with
      | nil =>
        -- The needle would start at once, where the search has not found it.
        refine absurd ⟨tail ++ rest', ?_⟩ (after?_eq_none_iff.1 hhere)
        have hcs := cut?_eq_some hcut
        simp only [List.nil_append, List.cons_append] at hsplit
        rw [hcs, ← List.append_assoc, ← hsplit]
        rfl
      | cons d lead =>
        simp only [List.cons_append, List.cons.injEq] at hsplit
        exact ih hcut lead tail hsplit.2

/-- Two first places of one needle in one text are the same. -/
theorem StartsFirst.unique {needle before before' rest rest' : List Char}
    (h : StartsFirst needle before) (h' : StartsFirst needle before')
    (heq : before ++ needle ++ rest = before' ++ needle ++ rest') :
    before = before' ∧ rest = rest' := by
  -- The shorter of the two beginnings would have the needle inside the longer one.
  have hle : ∀ {a a' r r' : List Char}, StartsFirst needle a' →
      a ++ needle ++ r = a' ++ needle ++ r' → a'.length ≤ a.length := by
    intro a a' r r' ha' hsplit
    rcases Nat.lt_or_ge a.length a'.length with hlt | hge
    · have hprefix : a ++ needle <+: a' ++ needle :=
        List.prefix_of_prefix_length_le ⟨r, rfl⟩ ⟨r', hsplit.symm⟩
          (by simp only [List.length_append]; omega)
      obtain ⟨tail, htail⟩ := hprefix
      have hnil := ha' a tail htail.symm
      rw [hnil, List.append_nil] at htail
      have := congrArg List.length htail
      simp only [List.length_append] at this
      omega
    · exact hge
  have hlength := Nat.le_antisymm (hle h heq.symm) (hle h' heq)
  rw [List.append_assoc, List.append_assoc] at heq
  obtain ⟨hbefore, hrest⟩ := List.append_inj heq hlength
  exact ⟨hbefore, List.append_cancel_left hrest⟩

/-- A search splits a text around the first occurrence of the needle. -/
theorem cut?_eq_some_iff {needle cs before rest : List Char} :
    cut? needle cs = some (before, rest) ↔
      cs = before ++ needle ++ rest ∧ StartsFirst needle before := by
  constructor
  · intro h
    exact ⟨cut?_eq_some h, startsFirst_of_cut? h⟩
  · rintro ⟨rfl, hfirst⟩
    cases h : cut? needle (before ++ needle ++ rest) with
    | none => exact absurd ⟨before, rest, rfl⟩ (cut?_eq_none_iff.1 h)
    | some found =>
      obtain ⟨before', rest'⟩ := found
      obtain ⟨rfl, rfl⟩ := hfirst.unique (startsFirst_of_cut? h) (cut?_eq_some h)
      rfl

/-- A text stands in front of the first occurrence of a needle if a search cuts it off there. -/
theorem startsFirst_iff_cut? {needle before : List Char} :
    StartsFirst needle before ↔ cut? needle (before ++ needle) = some (before, []) := by
  rw [cut?_eq_some_iff, List.append_nil]
  simp only [true_and]

/-- Whether a needle starts early is found out by searching for it. -/
instance (needle before : List Char) : Decidable (StartsFirst needle before) :=
  decidable_of_iff _ startsFirst_iff_cut?.symm

/-- A text in front of the first occurrence of a needle does not have the needle in it, unless
both are empty. -/
theorem StartsFirst.not_isInfix {needle before : List Char} (h : StartsFirst needle before)
    (hne : before ≠ []) : ¬ needle <:+: before := by
  rintro ⟨lead, tail, hsplit⟩
  have htail : tail ++ needle = [] := h lead (tail ++ needle) (by
    rw [← hsplit]
    simp only [List.append_assoc])
  obtain ⟨rfl, rfl⟩ := List.append_eq_nil_iff.1 htail
  -- An empty needle starts at the very beginning.
  exact hne (h [] before (by simp))

/-- The empty text occurs nowhere later than at the beginning. -/
theorem StartsFirst.eq_nil_of_nil {before : List Char} (h : StartsFirst [] before) :
    before = [] :=
  h [] before (by simp)

/-- What stands in front of the first occurrence of a needle, without a part at the beginning. -/
theorem StartsFirst.of_append {needle before : List Char} (lead : List Char)
    (h : StartsFirst needle (lead ++ before)) : StartsFirst needle before := by
  intro first tail hsplit
  refine h (lead ++ first) tail ?_
  rw [List.append_assoc, hsplit]
  simp only [List.append_assoc]

/-- The needle starts at no place inside a text that comes in front of its first occurrence. -/
theorem StartsFirst.after?_eq_none {needle before : List Char} {c : Char}
    (h : StartsFirst needle (c :: before)) (rest : List Char) :
    after? needle (c :: before ++ needle ++ rest) = none := by
  rw [after?_eq_none_iff]
  intro hlead
  -- The needle fits into the text in front of it and itself.
  have hprefix : needle <+: c :: before ++ needle :=
    List.prefix_of_prefix_length_le hlead ⟨rest, rfl⟩ (by simp only [List.length_append]; omega)
  obtain ⟨tail, htail⟩ := hprefix
  have hnil := h [] tail (by rw [List.nil_append, htail])
  rw [hnil, List.append_nil] at htail
  have := congrArg List.length htail
  simp only [List.length_append, List.length_cons] at this
  omega

/-- A name is empty where the needle starts. -/
theorem spanUntil_needle (stops : Char → Bool) (needle rest : List Char) :
    spanUntil stops needle (needle ++ rest) = ([], needle ++ rest) := by
  cases h : needle ++ rest with
  | nil => rfl
  | cons c cs =>
    have hhere : after? needle (c :: cs) = some rest := by
      rw [← h]
      exact after?_append needle rest
    rw [spanUntil, hhere, Option.isSome_some, Bool.or_true, if_pos rfl]

/-- A name in front of the first occurrence of the needle ends at a stop or at the needle,
whatever follows that. -/
theorem spanUntil_of_startsFirst {needle before : List Char} (stops : Char → Bool)
    (h : StartsFirst needle before) (rest : List Char) :
    spanUntil stops needle (before ++ needle ++ rest) =
      (before.takeWhile (!stops ·), before.dropWhile (!stops ·) ++ needle ++ rest) := by
  induction before with
  | nil => exact spanUntil_needle stops needle rest
  | cons c before ih =>
    -- Neither here nor in the rest does the needle start too early.
    have htail : StartsFirst needle before := StartsFirst.of_append [c] h
    have hnone := h.after?_eq_none rest
    simp only [List.cons_append] at hnone ⊢
    rw [spanUntil, hnone, ih htail]
    cases hc : stops c with
    | true => simp [hc]
    | false => simp [hc]

end Stencil.Text
