import Stencil.Decimal.Binary

/-!
# `Stencil.Decimal.Nearest`: the double nearest to a quotient

Every finite double is a whole number of units of `2 ^ (-1074)`, the smallest positive double. A
number is given here as a quotient that counts these units. Doubles keep 53 binary digits, so
that the larger ones lie `2 ^ p` units apart; `spacing` finds this `p`, and `nearestBits` rounds
to a multiple of `2 ^ p`, a half to the even one. The bits of the result hold the multiple and, 52
places higher, the number `p`: when rounding reaches the next power of two, the carry is just
what turns `p` into its successor.

`nearestBits_of_ofFloat` says that a double is nearest to its own value.
-/

set_option autoImplicit false

namespace Stencil.Decimal

/-- The bits of the positive infinity. Those of a double that is finite and not negative are
fewer. -/
def infinityBits : Nat := 2047 * 2 ^ 52

/-- The number `p` for which the doubles around `num / den` units lie `2 ^ p` units apart. -/
def spacing (num den : Nat) : Nat :=
  -- The quotient has as many binary digits as the sizes suggest, or one less.
  let p := num.log2 - (den.log2 + 52)
  if 0 < p ∧ num < den * 2 ^ (p + 52) then p - 1 else p

/-- The bits of the double nearest to `num / den` units, the one with an even mantissa of two.
What lies beyond all doubles gives the infinity. -/
def nearestBits (num den : Nat) : Nat :=
  let p := spacing num den
  min (roundDiv .even num (den * 2 ^ p) + p * 2 ^ 52) infinityBits

/-! ### The spacing -/

/-- A quotient has 53 binary digits at most down to its spacing, and no fewer unless doubles are
nowhere closer. -/
theorem spacing_bounds {num den : Nat} (hnum : 0 < num) (hden : 0 < den) :
    num < den * 2 ^ (spacing num den + 53) ∧
      (spacing num den = 0 ∨ den * 2 ^ (spacing num den + 52) ≤ num) := by
  have hnumLe : 2 ^ num.log2 ≤ num := Nat.log2_self_le (by omega)
  have hnumLt : num < 2 ^ (num.log2 + 1) := Nat.lt_log2_self
  have hdenLe : 2 ^ den.log2 ≤ den := Nat.log2_self_le (by omega)
  have hdenLt : den < 2 ^ (den.log2 + 1) := Nat.lt_log2_self
  simp only [spacing]
  generalize hp : num.log2 - (den.log2 + 52) = p
  split
  · rename_i hless
    refine ⟨by rw [show p - 1 + 53 = p + 52 by omega]; exact hless.2, .inr ?_⟩
    -- One place lower the divisor is still not larger than the power of two below `num`.
    calc den * 2 ^ (p - 1 + 52)
        ≤ 2 ^ (den.log2 + 1) * 2 ^ (p - 1 + 52) := Nat.mul_le_mul_right _ (Nat.le_of_lt hdenLt)
      _ = 2 ^ num.log2 := by rw [← Nat.pow_add]; congr 1; omega
      _ ≤ num := hnumLe
  · rename_i hmore
    refine ⟨?_, ?_⟩
    · calc num < 2 ^ (num.log2 + 1) := hnumLt
        _ ≤ 2 ^ (den.log2 + (p + 53)) := Nat.pow_le_pow_right (by decide) (by omega)
        _ = 2 ^ den.log2 * 2 ^ (p + 53) := Nat.pow_add ..
        _ ≤ den * 2 ^ (p + 53) := Nat.mul_le_mul_right _ hdenLe
    · by_cases hzero : p = 0
      · exact .inl hzero
      · exact .inr (Nat.le_of_not_lt fun h => hmore ⟨by omega, h⟩)

/-- These bounds hold of no smaller number in place of the spacing. -/
theorem spacing_le {num den p : Nat} (h : num < den * 2 ^ (p + 53)) (hnum : 0 < num)
    (hden : 0 < den) : spacing num den ≤ p := by
  rcases (spacing_bounds hnum hden).2 with hzero | hge
  · omega
  · have hpow : 2 ^ (spacing num den + 52) < 2 ^ (p + 53) :=
      Nat.lt_of_mul_lt_mul_left (Nat.lt_of_le_of_lt hge h)
    have := (Nat.pow_lt_pow_iff_right (by decide)).1 hpow
    omega

/-- These bounds hold of no larger number in place of the spacing. -/
theorem le_spacing {num den p : Nat} (h : p = 0 ∨ den * 2 ^ (p + 52) ≤ num) (hnum : 0 < num)
    (hden : 0 < den) : p ≤ spacing num den := by
  rcases h with hzero | hge
  · omega
  · have hpow : 2 ^ (p + 52) < 2 ^ (spacing num den + 53) :=
      Nat.lt_of_mul_lt_mul_left (Nat.lt_of_le_of_lt hge (spacing_bounds hnum hden).1)
    have := (Nat.pow_lt_pow_iff_right (by decide)).1 hpow
    omega

/-! ### Exact values -/

/-- A mantissa of 53 digits, or a shorter one at the smallest spacing, has its own spacing. -/
theorem spacing_exact {m p den : Nat} (hden : 0 < den) (hpos : 0 < m) (hlt : m < 2 ^ 53)
    (hfull : 2 ^ 52 ≤ m ∨ p = 0) : spacing (m * 2 ^ p * den) den = p := by
  have hnum : 0 < m * 2 ^ p * den := Nat.mul_pos (Nat.mul_pos hpos (Nat.two_pow_pos p)) hden
  have hshift (k : Nat) : den * 2 ^ (p + k) = 2 ^ k * 2 ^ p * den := by
    rw [Nat.pow_add, Nat.mul_comm (2 ^ p), Nat.mul_comm den]
  refine Nat.le_antisymm (spacing_le ?_ hnum hden) (le_spacing ?_ hnum hden)
  · rw [hshift]
    exact Nat.mul_lt_mul_of_pos_right (Nat.mul_lt_mul_of_pos_right hlt (Nat.two_pow_pos p)) hden
  · refine hfull.symm.imp_right fun hle => ?_
    rw [hshift]
    exact Nat.mul_le_mul_right _ (Nat.mul_le_mul_right _ hle)

/-- What a double can hold is not rounded. -/
theorem nearestBits_exact {m p den : Nat} (hden : 0 < den) (hlt : m < 2 ^ 53)
    (hfull : 2 ^ 52 ≤ m ∨ p = 0) (hp : p ≤ 2045) :
    nearestBits (m * 2 ^ p * den) den = m + p * 2 ^ 52 := by
  have hfits : m + p * 2 ^ 52 ≤ infinityBits := by
    simp only [infinityBits]
    omega
  have hround : roundDiv .even (m * 2 ^ p * den) (den * 2 ^ p) = m := by
    rw [Nat.mul_assoc, Nat.mul_comm (2 ^ p)]
    exact roundDiv_exact _ _ (Nat.mul_pos hden (Nat.two_pow_pos p))
  have hspacing : spacing (m * 2 ^ p * den) den = p := by
    rcases Nat.eq_zero_or_pos m with rfl | hpos
    · -- Zero has no digits at all.
      have hzero : p = 0 := hfull.resolve_left (by decide)
      simp [spacing, hzero]
    · exact spacing_exact hden hpos hlt hfull
  rw [nearestBits, hspacing, hround, Nat.min_eq_left hfits]

/-- A double is nearest to its own value; the top bit, its sign, is left out. -/
theorem nearestBits_of_ofFloat {x : Float} {negative : Bool} {m den : Nat} {exponent : Int}
    (h : Binary.ofFloat x = .finite negative m exponent) (hden : 0 < den) :
    nearestBits (m * 2 ^ (exponent + 1074).toNat * den) den = x.toBits.toNat % 2 ^ 63 := by
  simp only [Binary.ofFloat] at h
  split at h
  · split at h <;> simp at h
  · split at h
    · -- The smallest spacing: the exponent bits are zero.
      obtain ⟨-, rfl, rfl⟩ := Binary.finite.inj h
      rw [show ((-1074 : Int) + 1074).toNat = 0 by decide,
        nearestBits_exact hden (by omega) (.inr rfl) (by omega)]
      omega
    · -- The leading one that the bits leave out counts as a one of the exponent bits.
      obtain ⟨-, rfl, rfl⟩ := Binary.finite.inj h
      rw [nearestBits_exact hden (by omega) (.inl (by omega)) (by omega)]
      omega

end Stencil.Decimal
