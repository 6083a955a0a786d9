import Stencil.Decimal.Shortest
import Stencil.Proofs.Decimal.Bits

/-!
# `Stencil.Proofs.Decimal.ReadBack`: the shortest digits read back

The numeral that `shortest` finds for a finite double reads back as that double. A numeral that was
tried and found to do so does, with or without the zeros at its end. If none was found, the numeral
is the one that is equal to the double: a numeral that counts the units of a double
(`Numeral.Counts`) is nearest to it, since `magnitudeBits` takes neither of its shortcuts
(`Numeral.magnitudeBits_of_counts`). `toFloat_shortest` is the main fact.
-/

set_option autoImplicit false

namespace Stencil.Decimal

variable {x : Float} {negative : Bool} {mantissa : Nat} {exponent : Int}

/-! ### Parts of a finite double -/

/-- The parts of a finite double are small, and its bits are made up of them. -/
theorem bounds_of_ofFloat (h : Binary.ofFloat x = .finite negative mantissa exponent) :
    mantissa < 2 ^ 53 ∧ -1074 ≤ exponent ∧ exponent ≤ 971 ∧
      x.toBits.toNat / 2 ^ 52 % 2 ^ 11 ≠ 2047 ∧
      x.toBits.toNat = (if negative then 2 ^ 63 else 0) + x.toBits.toNat % 2 ^ 63 := by
  have hbits : x.toBits.toNat < 2 ^ 64 := x.toBits.toNat_lt
  simp only [Binary.ofFloat] at h
  split at h
  -- Neither an infinity nor a NaN has parts. Other doubles are normal or not.
  · split at h <;> simp at h
  · split at h
    all_goals
      obtain ⟨rfl, rfl, rfl⟩ := Binary.finite.inj h
      refine ⟨by omega, by omega, by omega, by assumption, ?_⟩
      simp only [decide_eq_true_eq]
      split <;> omega

/-- Every finite double is a multiple of the smallest positive one. -/
theorem units_lt (h : Binary.ofFloat x = .finite negative mantissa exponent) :
    mantissa * 2 ^ (exponent + 1074).toNat < 2 ^ (53 + 2045) := by
  obtain ⟨hmantissa, -, hexponent, -⟩ := bounds_of_ofFloat h
  have hpower : (exponent + 1074).toNat ≤ 2045 := by omega
  generalize 2045 = largest at hpower
  rw [Nat.pow_add]
  exact Nat.lt_of_lt_of_le (Nat.mul_lt_mul_of_pos_right hmantissa (Nat.two_pow_pos _))
    (Nat.mul_le_mul_left _ (Nat.pow_le_pow_right (by decide) hpower))

/-- Bits of a double that are a sign and the rest. -/
theorem ofBits_eq (h : Binary.ofFloat x = .finite negative mantissa exponent) :
    Float.ofBits (UInt64.ofNat ((if negative then 2 ^ 63 else 0) + x.toBits.toNat % 2 ^ 63)) = x := by
  obtain ⟨-, -, -, hfinite, hbits⟩ := bounds_of_ofFloat h
  rw [← hbits, UInt64.ofNat_toNat]
  exact eq_of_toBits (toBits_ofBits hfinite)

/-! ### Numerals that are equal to a double -/

namespace Numeral

/-- A numeral is, apart from its sign, a multiple of the smallest positive double. -/
def Counts (n : Numeral) (units : Nat) : Prop :=
  n.digits * 10 ^ n.exponent.toNat * 2 ^ 1074 = units * 10 ^ (-n.exponent).toNat

variable {n : Numeral} {units : Nat}

/-- A zero at the end of the digits and one more power of ten are the same number. -/
theorem Counts.dropZero (h : n.Counts units) (hzero : n.digits % 10 = 0) :
    Counts ⟨n.negative, n.digits / 10, n.exponent + 1⟩ units := by
  obtain ⟨sign, digits, power⟩ := n
  obtain ⟨tenth, rfl⟩ := Nat.dvd_of_mod_eq_zero hzero
  simp only [Counts] at h ⊢
  -- The large power is left alone, so that nothing computes it.
  generalize 2 ^ 1074 = one at h ⊢
  rw [Nat.mul_div_cancel_left _ (by decide)]
  rcases Int.lt_or_le power 0 with hneg | hpos
  · -- There is a zero less in the divisor.
    have hzeros : (-power).toNat = (-(power + 1)).toNat + 1 := by omega
    rw [show power.toNat = 0 by omega, hzeros, Nat.pow_succ] at h
    rw [show (power + 1).toNat = 0 by omega]
    apply Nat.eq_of_mul_eq_mul_left (show 0 < 10 by decide)
    calc 10 * (tenth * 10 ^ 0 * one) = 10 * tenth * 10 ^ 0 * one := by
          simp only [Nat.mul_assoc]
      _ = units * (10 ^ (-(power + 1)).toNat * 10) := h
      _ = 10 * (units * 10 ^ (-(power + 1)).toNat) := by
          rw [← Nat.mul_assoc, Nat.mul_comm 10]
  · -- The zero is in the power.
    have hzeros : (power + 1).toNat = power.toNat + 1 := by omega
    rw [show (-power).toNat = 0 by omega] at h
    rw [hzeros, show (-(power + 1)).toNat = 0 by omega, ← h, Nat.pow_succ,
      Nat.mul_comm (10 ^ power.toNat) 10, ← Nat.mul_assoc tenth, Nat.mul_comm tenth]

/-- The same for all zeros at the end that are dropped. -/
theorem Counts.dropZeros (h : n.Counts units) (fuel : Nat) : (n.dropZeros fuel).Counts units := by
  induction fuel generalizing n with
  | zero => exact h
  | succ fuel ih =>
    rw [Numeral.dropZeros]
    split
    · rename_i hzero
      exact ih (h.dropZero hzero.2)
    · exact h

/-- Zeros are dropped without regard to the sign. -/
theorem negative_dropZeros (n : Numeral) (fuel : Nat) :
    (n.dropZeros fuel).negative = n.negative := by
  induction fuel generalizing n with
  | zero => rfl
  | succ fuel ih =>
    rw [Numeral.dropZeros]
    split
    · exact ih _
    · rfl

/-- Ten lies between the third and the fourth power of two, and so do the numbers of digits of a
number to the two bases. -/
theorem pow_log2_bounds {d : Nat} (hd : d ≠ 0) :
    10 ^ (d.log2 / 4) ≤ d ∧ d < 10 ^ (d.log2 / 3 + 1) := by
  constructor
  · calc 10 ^ (d.log2 / 4) ≤ 16 ^ (d.log2 / 4) := Nat.pow_le_pow_left (by decide) _
      _ = 2 ^ (4 * (d.log2 / 4)) := (Nat.pow_mul 2 4 _).symm
      _ ≤ 2 ^ d.log2 := Nat.pow_le_pow_right (by decide) (by omega)
      _ ≤ d := Nat.log2_self_le hd
  · calc d < 2 ^ (d.log2 + 1) := Nat.lt_log2_self
      _ ≤ 2 ^ (3 * (d.log2 / 3 + 1)) := Nat.pow_le_pow_right (by decide) (by omega)
      _ = 8 ^ (d.log2 / 3 + 1) := Nat.pow_mul 2 3 _
      _ ≤ 10 ^ (d.log2 / 3 + 1) := Nat.pow_le_pow_left (by decide) _

/-- A quotient is at least a power of ten, if its digits say so. -/
theorem pow_mul_le_of_counts {d a c k size one : Nat} (h : d * 10 ^ a * one = units * 10 ^ c)
    (hd : 10 ^ size ≤ d) (hk : k + c ≤ size + a) : 10 ^ k * one ≤ units := by
  apply Nat.le_of_mul_le_mul_right (c := 10 ^ c) ?_ (Nat.pow_pos (by decide))
  calc 10 ^ k * one * 10 ^ c = 10 ^ (k + c) * one := by rw [Nat.pow_add, Nat.mul_right_comm]
    _ ≤ 10 ^ (size + a) * one := Nat.mul_le_mul_right _ (Nat.pow_le_pow_right (by decide) hk)
    _ ≤ d * 10 ^ a * one := by
      rw [Nat.pow_add]
      exact Nat.mul_le_mul_right _ (Nat.mul_le_mul_right _ hd)
    _ = units * 10 ^ c := h

/-- A quotient is smaller than the inverse of a power of ten, if its digits say so. -/
theorem pow_le_of_counts {d a c k size one : Nat} (h : d * 10 ^ a * one = units * 10 ^ c)
    (hd : d < 10 ^ size) (hk : k + (size + a) ≤ c) (hunits : 0 < units) : 10 ^ k ≤ one := by
  apply Nat.le_of_mul_le_mul_right (c := 10 ^ (size + a)) ?_ (Nat.pow_pos (by decide))
  calc 10 ^ k * 10 ^ (size + a) = 10 ^ (k + (size + a)) := (Nat.pow_add ..).symm
    _ ≤ 10 ^ c := Nat.pow_le_pow_right (by decide) hk
    _ ≤ units * 10 ^ c := Nat.le_mul_of_pos_left _ hunits
    _ = d * 10 ^ a * one := h.symm
    _ ≤ 10 ^ size * 10 ^ a * one :=
      Nat.mul_le_mul_right _ (Nat.mul_le_mul_right _ (Nat.le_of_lt hd))
    _ = one * 10 ^ (size + a) := by rw [← Nat.pow_add, Nat.mul_comm]

/-- A numeral that is equal to a double is not beyond all doubles. -/
theorem Counts.lt_largestPower (h : n.Counts units) (hdigits : n.digits ≠ 0)
    (hunits : units < 2 ^ (53 + 2045)) :
    ¬ largestPower ≤ (n.digits.log2 : Int) / 4 + n.exponent := by
  intro hle
  simp only [largestPower] at hle
  have hpowers : 310 + (-n.exponent).toNat ≤ n.digits.log2 / 4 + n.exponent.toNat := by omega
  have hlarge := pow_mul_le_of_counts h (pow_log2_bounds hdigits).1 hpowers
  have hbeyond : 2 ^ (53 + 2045) ≤ 10 ^ 310 * 2 ^ 1074 := by decide +kernel
  exact Nat.lt_irrefl _ (Nat.lt_of_le_of_lt (Nat.le_trans hbeyond hlarge) hunits)

/-- A numeral that is equal to a double other than zero is not rounded to zero. -/
theorem Counts.smallestPower_lt (h : n.Counts units) (hdigits : n.digits ≠ 0)
    (hunits : 0 < units) :
    ¬ (n.digits.log2 : Int) / 3 + 1 + n.exponent ≤ smallestPower := by
  intro hle
  simp only [smallestPower] at hle
  have hpowers : 330 + (n.digits.log2 / 3 + 1 + n.exponent.toNat) ≤ (-n.exponent).toNat := by omega
  have hsmall := pow_le_of_counts h (pow_log2_bounds hdigits).2 hpowers hunits
  have hbelow : 2 ^ 1074 < 10 ^ 330 := by decide +kernel
  exact Nat.lt_irrefl _ (Nat.lt_of_lt_of_le hbelow hsmall)

/-- A numeral that is equal to a double is nearest to that. -/
theorem magnitudeBits_of_counts (h : Binary.ofFloat x = .finite negative mantissa exponent)
    (hmantissa : mantissa ≠ 0) (hn : n.Counts (mantissa * 2 ^ (exponent + 1074).toNat)) :
    n.magnitudeBits = x.toBits.toNat % 2 ^ 63 := by
  -- Neither the digits nor the units are zero.
  have hunits : 0 < mantissa * 2 ^ (exponent + 1074).toNat :=
    Nat.mul_pos (Nat.pos_of_ne_zero hmantissa) (Nat.two_pow_pos _)
  have hdigits : n.digits ≠ 0 := by
    intro hzero
    rw [Counts, hzero] at hn
    generalize 2 ^ 1074 = one at hn
    rw [Nat.zero_mul, Nat.zero_mul] at hn
    exact absurd hn.symm (Nat.ne_of_gt (Nat.mul_pos hunits (Nat.pow_pos (by decide))))
  rw [magnitudeBits, if_neg hdigits,
    if_neg (hn.lt_largestPower hdigits (units_lt h)), if_neg (hn.smallestPower_lt hdigits hunits)]
  -- What is rounded is then the quotient whose rounding is known.
  rw [Counts] at hn
  split
  · rename_i hneg
    rw [← nearestBits_of_ofFloat h (Nat.pow_pos (show 0 < 10 by decide)),
      show n.exponent.natAbs = (-n.exponent).toNat by omega, ← hn,
      show n.exponent.toNat = 0 by omega, Nat.pow_zero, Nat.mul_one]
  · rename_i hpos
    rw [← nearestBits_of_ofFloat h (show 0 < 1 by decide),
      show n.exponent.natAbs = n.exponent.toNat by omega, hn,
      show (-n.exponent).toNat = 0 by omega]

/-- A numeral that is equal to a double, with its sign, reads back as that. -/
theorem toFloat_of_counts (h : Binary.ofFloat x = .finite negative mantissa exponent)
    (hmantissa : mantissa ≠ 0) (hn : n.Counts (mantissa * 2 ^ (exponent + 1074).toNat))
    (hnegative : n.negative = negative) : n.toFloat = x := by
  rw [toFloat, nearest, normalize, negative_dropZeros, hnegative,
    magnitudeBits_of_counts h hmantissa (hn.dropZeros n.digits), ofBits_eq h]

/-- The zeros at the end of a numeral make no difference. -/
theorem dropZeros_dropZeros {f : Nat} (hf : n.digits ≤ f) (g : Nat) :
    (n.dropZeros f).dropZeros g = n.dropZeros f := by
  induction f generalizing n with
  | zero =>
    have hzero : n.digits = 0 := Nat.le_zero.1 hf
    cases g with
    | zero => rfl
    | succ g => simp [dropZeros, hzero]
  | succ f ih =>
    rw [dropZeros]
    split
    · exact ih (show n.digits / 10 ≤ f by omega)
    · rename_i hlast
      cases g with
      | zero => rfl
      | succ g => rw [dropZeros, if_neg hlast]

/-- A numeral stands for the same double when the zeros at its end are dropped. -/
theorem toFloat_normalize (n : Numeral) : n.normalize.toFloat = n.toFloat := by
  rw [toFloat, toFloat, normalize, normalize, dropZeros_dropZeros (Nat.le_refl n.digits)]

end Numeral

/-! ### The numeral of a double -/

/-- The numeral that is made when no shorter one is found is equal to the double. -/
theorem counts_exactNumeral (negative : Bool) (mantissa : Nat) {exponent : Int}
    (h : -1074 ≤ exponent) :
    (exactNumeral negative mantissa exponent).Counts
      (mantissa * 2 ^ (exponent + 1074).toNat) := by
  -- The power of two of a unit, kept as a name so that nothing computes it.
  obtain ⟨power, hpower⟩ : ∃ power, power = 1074 := ⟨_, rfl⟩
  rw [exactNumeral]
  split
  · rename_i hneg
    rw [Numeral.Counts, ← hpower]
    simp only
    rw [show power = (exponent + 1074).toNat + (-exponent).toNat by omega,
      show exponent.toNat = 0 by omega, show exponent.natAbs = (-exponent).toNat by omega,
      Nat.pow_zero, Nat.mul_one, Nat.pow_add]
    -- A half is five tenths.
    calc mantissa * 5 ^ (-exponent).toNat *
          (2 ^ (exponent + 1074).toNat * 2 ^ (-exponent).toNat)
        = mantissa * 2 ^ (exponent + 1074).toNat *
            (5 ^ (-exponent).toNat * 2 ^ (-exponent).toNat) := Nat.mul_mul_mul_comm ..
      _ = mantissa * 2 ^ (exponent + 1074).toNat * 10 ^ (-exponent).toNat := by
          rw [← Nat.mul_pow]
  · rename_i hpos
    rw [Numeral.Counts, ← hpower]
    simp only
    rw [show exponent.natAbs = exponent.toNat by omega,
      show (exponent + 1074).toNat = exponent.toNat + power by omega, Nat.pow_add]
    simp [Nat.mul_assoc]

/-- That numeral has the sign of the double. -/
theorem negative_exactNumeral (negative : Bool) (mantissa : Nat) (exponent : Int) :
    (exactNumeral negative mantissa exponent).negative = negative := by
  rw [exactNumeral]
  split
  · rfl
  · rfl

/-- The shortest digits of a finite double read back. -/
theorem toFloat_shortest (h : Binary.ofFloat x = .finite negative mantissa exponent) (tie : Tie) :
    (shortest tie x negative mantissa exponent).toFloat = x := by
  rw [shortest]
  split
  · -- A zero has no digits but a sign.
    rename_i hzero
    subst hzero
    have hbits : x.toBits.toNat % 2 ^ 63 = 0 := by
      rw [← nearestBits_of_ofFloat h (show 0 < 1 by decide), Nat.zero_mul]
      exact nearestBits_exact (m := 0) (p := 0) (by decide) (by decide) (.inr rfl) (by decide)
    have hx := ofBits_eq h
    rw [hbits] at hx
    exact hx
  · rename_i hmantissa
    simp only
    split
    -- A numeral that was found was read back before it was taken.
    · rename_i n hfound
      obtain ⟨i, hcandidate⟩ := exists_of_firstSome? hfound
      have hreads := Numeral.choose?_readsAs hcandidate
      rw [Numeral.toFloat_normalize]
      exact eq_of_toBits (by simpa [Numeral.readsAs] using hreads)
    · exact Numeral.toFloat_of_counts h hmantissa
        (counts_exactNumeral negative mantissa (bounds_of_ofFloat h).2.1)
        (negative_exactNumeral negative mantissa exponent)

end Stencil.Decimal
