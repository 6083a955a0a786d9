import Stencil.Proofs.Value.Embedding

/-!
# `Stencil.Proofs.Value.Shifting`: stores with more enumerators in between

When some enumerators are made first, the ones that are made later get higher handles.
`Store.Shifted` relates a store to one that has `k` more enumerators behind the first `n`. What is
done to an enumerator in the one and to its counterpart in the other keeps them related.

A helper that is a function of its context and its arguments does in both what it does in either,
but for the handles (`Helper.Uniform`).
-/

set_option autoImplicit false

namespace Stencil

/-! ### Shifted handles -/

/-- The handle of an enumerator when `k` others are made after the first `n`. -/
def Handle.shift (n k : Nat) (h : Handle) : Handle :=
  if h.index < n then h else ⟨h.index + k⟩

variable {n k : Nat}

/-- The first handles stay as they are. -/
theorem Handle.shift_of_lt {h : Handle} (hlt : h.index < n) : h.shift n k = h :=
  if_pos hlt

/-- All others move behind the new enumerators. -/
theorem Handle.shift_of_le {h : Handle} (hle : n ≤ h.index) : h.shift n k = ⟨h.index + k⟩ :=
  if_neg (by omega)

/-- The index of a shifted handle. -/
theorem Handle.index_shift (h : Handle) :
    (h.shift n k).index = if h.index < n then h.index else h.index + k := by
  rw [shift]
  split <;> rfl

/-- No two handles are shifted to the same one. -/
theorem Handle.shift_injective (n k : Nat) : Function.Injective (Handle.shift n k) := by
  intro g h heq
  have hindex := congrArg Handle.index heq
  rw [index_shift, index_shift] at hindex
  refine congrArg Handle.mk (?_ : g.index = h.index)
  -- Among the first ones nothing moves, behind them all move alike, and these stay behind them.
  split at hindex <;> split at hindex <;> omega

namespace Store

/-- The second store has the enumerators of the first one and `k` others behind the first `n`. -/
structure Shifted (n k : Nat) (a b : Store) : Prop where
  le : n ≤ a.enumerators.size
  size : b.enumerators.size = a.enumerators.size + k
  find? : ∀ h : Handle, b.find? (h.shift n k) = (a.find? h).map (Enumerator.rename (·.shift n k))

variable {a b : Store}

/-- A shifted store has the other one in it, under shifted handles. -/
theorem Shifted.embeds (hs : Shifted n k a b) : a.Embeds (·.shift n k) b where
  injective := Handle.shift_injective n k
  behind i := by
    -- The next enumerator is behind the first `n`, since there are as many already.
    have hle : n ≤ (⟨a.enumerators.size + i⟩ : Handle).index := Nat.le_add_right_of_le hs.le
    rw [Handle.shift_of_le hle, hs.size, Nat.add_right_comm]
  find? := hs.find?

/-- A store that has the other one in it under shifted handles has `k` more enumerators. -/
theorem Embeds.shifted (hs : a.Embeds (·.shift n k) b) (hle : n ≤ a.enumerators.size) :
    Shifted n k a b where
  le := hle
  size := by
    have hlast : (⟨a.enumerators.size⟩ : Handle).shift n k = ⟨b.enumerators.size⟩ := hs.behind 0
    have hat : n ≤ (⟨a.enumerators.size⟩ : Handle).index := hle
    rw [Handle.shift_of_le hat] at hlast
    exact (congrArg Handle.index hlast).symm
  find? := hs.find?

namespace Shifted

/-- A step gives the same value in both stores, but for the handles. -/
theorem next (hs : Shifted n k a b) (h : Handle) :
    (b.next (h.shift n k)).1 = (a.next h).1.map (Value.rename (·.shift n k)) ∧
      Shifted n k (a.next h).2 (b.next (h.shift n k)).2 := by
  obtain ⟨hvalue, hstores⟩ := hs.embeds.next h
  exact ⟨hvalue, hstores.shifted (by rw [size_next]; exact hs.le)⟩

/-- An enumerator and its counterpart are put back together. -/
theorem reset (hs : Shifted n k a b) (h : Handle) :
    Shifted n k (a.reset h) (b.reset (h.shift n k)) :=
  (hs.embeds.reset h).shifted (by rw [size_reset]; exact hs.le)

/-- A new enumerator in both stores. -/
theorem fresh (hs : Shifted n k a b) (values : List Value) :
    (b.fresh (values.map (Value.rename (·.shift n k)))).1 = (a.fresh values).1.shift n k ∧
      Shifted n k (a.fresh values).2 (b.fresh (values.map (Value.rename (·.shift n k)))).2 := by
  obtain ⟨hhandle, hstores⟩ := hs.embeds.fresh values
  have hle : n ≤ (a.fresh values).2.enumerators.size := by
    simp only [Store.fresh, Array.size_push]
    exact Nat.le_succ_of_le hs.le
  exact ⟨hhandle, hstores.shifted hle⟩

end Shifted

end Store

/-! ### Helpers that are functions -/

/-- A helper is a function of its context and its arguments: under other handles it gives the same
value under other handles. It knows no more than the first `n` handles by itself. -/
def Helper.Uniform (n : Nat) (h : Helper) : Prop :=
  ∀ (k : Nat) (cx : HelperContext) (values : List Value) (a b : Store), a.Shifted n k b →
    (h.run (cx.rename (·.shift n k)) (values.map (Value.rename (·.shift n k))) b).1 =
      (h.run cx values a).1.rename (·.shift n k) ∧
    (h.run cx values a).2.Shifted n k
      (h.run (cx.rename (·.shift n k)) (values.map (Value.rename (·.shift n k))) b).2

end Stencil
