import Stencil.Decimal.Binary

/-!
# `Stencil.Proofs.Decimal.Bits`: doubles and their bits

A double is determined by its bits (`eq_of_toBits`). Bits whose exponent is not the largest one are
those of a double (`toBits_ofBits`), and these doubles are the finite ones: `Binary.ofFloat` takes
each of them apart into a mantissa and an exponent (`exists_ofFloat_of_isFinite`).
-/

set_option autoImplicit false

namespace Stencil.Decimal

open Float.Model (Format UnpackedFloat)
open Float.Model.UnpackedFloat

/-! ### Parts of the bits -/

section Parts

variable (b : BitVec Format.binary64.numBits)

/-- The exponent is eleven bits from the one that counts `2 ^ 52` on. -/
theorem toNat_unpackExponent : (unpackExponent b).toNat = b.toNat / 2 ^ 52 % 2 ^ 11 := by
  simp [unpackExponent, Nat.shiftRight_eq_div_pow]

/-- The mantissa is the lowest fifty-two bits. -/
theorem toNat_unpackMantissa : (unpackMantissa b).toNat = b.toNat % 2 ^ 52 := by
  simp [unpackMantissa]

/-- The sign is the highest bit. -/
theorem toNat_unpackSign : (unpackSign b).toNat = b.toNat / 2 ^ 63 := by
  have hlt : b.toNat < 2 ^ 64 := b.isLt
  have hmod : (unpackSign b).toNat = b.toNat / 2 ^ 63 % 2 := by
    show (b.extractLsb 63 63).toNat = _
    simp [Nat.shiftRight_eq_div_pow]
  -- Nothing stands above the highest bit.
  omega

/-- Each of the two signs is one bit. -/
theorem toBitVec_ofBitVec (s : BitVec 1) : (Sign.ofBitVec s).toBitVec = s := by
  have hlt : s.toNat < 2 := s.isLt
  rcases Nat.lt_or_ge s.toNat 1 with hzero | hone
  · obtain rfl : s = 0#1 := BitVec.eq_of_toNat_eq (by show s.toNat = 0; omega)
    rfl
  · obtain rfl : s = 1#1 := BitVec.eq_of_toNat_eq (by show s.toNat = 1; omega)
    rfl

/-- Bits are put together from their parts. -/
theorem packComponents_unpack :
    packComponents Format.binary64 (Sign.ofBitVec (unpackSign b)) (unpackExponent b)
      (unpackMantissa b) = b := by
  apply BitVec.eq_of_toNat_eq
  have hlt : b.toNat < 2 ^ 64 := b.isLt
  rw [packComponents, toBitVec_ofBitVec, BitVec.toNat_append, BitVec.toNat_append,
    ← Nat.shiftLeft_add_eq_or_of_lt (unpackMantissa b).isLt,
    ← Nat.shiftLeft_add_eq_or_of_lt (unpackExponent b).isLt, Nat.shiftLeft_eq, Nat.shiftLeft_eq,
    toNat_unpackExponent, toNat_unpackMantissa, toNat_unpackSign]
  -- In numbers, each part counts by the place where it stands.
  show (b.toNat / 2 ^ 63 * 2 ^ 11 + b.toNat / 2 ^ 52 % 2 ^ 11) * 2 ^ 52 + b.toNat % 2 ^ 52 =
    b.toNat
  omega

end Parts

/-! ### Finite doubles -/

section Finite

variable {m : BitVec Format.binary64.mantissaBitsWithoutImplicit}

/-- How the bits of a finite double are put together. -/
theorem pack_finite (s : Sign) (n : Nat) (e : Int) (hpos : 0 < n) :
    pack Format.binary64 (.finite s n e hpos) =
      if 2 ^ 11 ≤ (e + (1023 : Nat) + (52 : Nat)).toNat + 1 then packedInfinity Format.binary64 s
      else if n.log2 + 1 = 53 then
        packComponents Format.binary64 s (BitVec.ofNat _ (e + (1023 : Nat) + (52 : Nat)).toNat)
          (BitVec.ofNat _ n)
      else packComponents Format.binary64 s 0 (BitVec.ofNat _ n) :=
  rfl

/-- The leading one that the bits leave out. -/
theorem toNat_leadingOne (m : BitVec Format.binary64.mantissaBitsWithoutImplicit) :
    (1#1 ++ m).toNat = 2 ^ 52 + m.toNat := by
  rw [BitVec.toNat_append, ← Nat.shiftLeft_add_eq_or_of_lt m.isLt]
  rfl

/-- A mantissa with its leading one is packed without it, next to its exponent. -/
theorem pack_normal (s : Sign) {e : BitVec Format.binary64.exponentBits} (he : e.toNat ≠ 2047)
    (hpos : 0 < (1#1 ++ m).toNat) :
    pack Format.binary64 (.finite s (1#1 ++ m).toNat (e.toNat - 1075) hpos) =
      packComponents Format.binary64 s e m := by
  have hlt : e.toNat < 2 ^ 11 := e.isLt
  have hm : m.toNat < 2 ^ 52 := m.isLt
  have hbiased : ((e.toNat : Int) - 1075 + (1023 : Nat) + (52 : Nat)).toNat = e.toNat := by omega
  have hlog : (1#1 ++ m).toNat.log2 + 1 = 53 := by
    have hlog : (2 ^ 52 + m.toNat).log2 = 52 :=
      (Nat.log2_eq_iff (by omega)).2 ⟨by omega, by omega⟩
    rw [toNat_leadingOne, hlog]
  -- Only the lower digits of the mantissa are kept.
  have hmantissa : BitVec.ofNat Format.binary64.mantissaBitsWithoutImplicit (1#1 ++ m).toNat = m := by
    apply BitVec.eq_of_toNat_eq
    rw [toNat_leadingOne, BitVec.toNat_ofNat]
    show (2 ^ 52 + m.toNat) % 2 ^ 52 = m.toNat
    omega
  rw [pack_finite, hbiased, if_neg (by omega), if_pos hlog, hmantissa, BitVec.ofNat_toNat]
  rfl

/-- A mantissa that is too small for a leading one is packed with the exponent zero. -/
theorem pack_subnormal (s : Sign) (hpos : 0 < m.toNat) :
    pack Format.binary64 (.finite s m.toNat (-1074) hpos) =
      packComponents Format.binary64 s 0 m := by
  have hlog : ¬ m.toNat.log2 + 1 = 53 := by
    have hlt : m.toNat.log2 < 52 := (Nat.log2_lt (by omega)).2 m.isLt
    omega
  rw [pack_finite, if_neg (by decide), if_neg hlog, BitVec.ofNat_toNat]
  rfl

variable {b : BitVec Format.binary64.numBits}

/-- The exponent of an infinity or a NaN has only ones. -/
theorem unpackExponent_eq_ones :
    unpackExponent b = -1#_ ↔ b.toNat / 2 ^ 52 % 2 ^ 11 = 2047 := by
  rw [← toNat_unpackExponent b]
  constructor
  · intro heq
    rw [heq]
    rfl
  · intro heq
    exact BitVec.eq_of_toNat_eq heq

/-- Nothing is lost when the bits of a finite double are taken apart. -/
theorem pack_unpack (h : b.toNat / 2 ^ 52 % 2 ^ 11 ≠ 2047) :
    pack Format.binary64 (unpack Format.binary64 b) = b := by
  -- The four kinds of bits, by the exponent and the mantissa.
  refine Eq.trans ?_ (packComponents_unpack b)
  have hones : ¬ unpackExponent b = -1#_ := mt unpackExponent_eq_ones.1 h
  by_cases hleast : unpackExponent b = 0#_
  · by_cases hzero : unpackMantissa b = 0#_
    · have hunpack : unpack Format.binary64 b = .zero (Sign.ofBitVec (unpackSign b)) :=
        (if_neg hones).trans ((if_pos hleast).trans (dif_pos hzero))
      rw [hunpack, hleast, hzero]
      rfl
    · have hpos : 0 < (unpackMantissa b).toNat :=
        Nat.pos_of_ne_zero fun heq => hzero (BitVec.eq_of_toNat_eq heq)
      have hunpack : unpack Format.binary64 b =
          .finite (Sign.ofBitVec (unpackSign b)) (unpackMantissa b).toNat
            ((unpackExponent b).toNat - (1023 + 52) + 1) hpos :=
        (if_neg hones).trans ((if_pos hleast).trans (dif_neg hzero))
      rw [hunpack, hleast]
      exact pack_subnormal _ _
  · have hpos : 0 < (1#1 ++ unpackMantissa b).toNat := by
      rw [toNat_leadingOne]
      omega
    have hunpack : unpack Format.binary64 b =
        .finite (Sign.ofBitVec (unpackSign b)) (1#1 ++ unpackMantissa b).toNat
          ((unpackExponent b).toNat - (1023 + 52)) hpos :=
      (if_neg hones).trans (if_neg hleast)
    rw [hunpack]
    exact pack_normal _ (by rwa [toNat_unpackExponent]) hpos

/-- Bits with the largest exponent are those of an infinity or of no number. -/
theorem not_isFinite_unpack (h : b.toNat / 2 ^ 52 % 2 ^ 11 = 2047) :
    (unpack Format.binary64 b).isFinite = false := by
  have hones : unpackExponent b = -1#_ := unpackExponent_eq_ones.2 h
  by_cases hzero : unpackMantissa b = 0#_
  · have hunpack : unpack Format.binary64 b = .infinity (Sign.ofBitVec (unpackSign b)) :=
      (if_pos hones).trans (if_pos hzero)
    rw [hunpack]
    rfl
  · have hunpack : unpack Format.binary64 b = .notANumber :=
      (if_pos hones).trans (if_neg hzero)
    rw [hunpack]
    rfl

end Finite

/-- A double is determined by its bits. -/
theorem eq_of_toBits {x y : Float} (h : x.toBits = y.toBits) : x = y := by
  obtain ⟨⟨b, hb⟩⟩ := x
  obtain ⟨⟨c, hc⟩⟩ := y
  obtain rfl : b = c := h
  rfl

/-- Bits whose exponent is not the largest one are the bits of a double. -/
theorem toBits_ofBits {b : UInt64} (h : b.toNat / 2 ^ 52 % 2 ^ 11 ≠ 2047) :
    (Float.ofBits b).toBits = b := by
  show UInt64.ofBitVec (pack Format.binary64 (unpack Format.binary64 b.toBitVec)) = b
  rw [pack_unpack h]

/-- A finite double has a mantissa and an exponent. -/
theorem exists_ofFloat_of_isFinite {x : Float} (h : x.isFinite = true) :
    ∃ negative mantissa exponent, Binary.ofFloat x = .finite negative mantissa exponent := by
  have hexponent : x.toBits.toNat / 2 ^ 52 % 2 ^ 11 ≠ 2047 := by
    intro heq
    have hnot : x.isFinite = false := not_isFinite_unpack heq
    rw [h] at hnot
    cases hnot
  -- A number is normal or not, and has its parts either way.
  simp only [Binary.ofFloat]
  rw [if_neg hexponent]
  split
  · exact ⟨_, _, _, rfl⟩
  · exact ⟨_, _, _, rfl⟩

end Stencil.Decimal
