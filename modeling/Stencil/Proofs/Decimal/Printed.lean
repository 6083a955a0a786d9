import Stencil.Decimal.Layout
import Stencil.Proofs.Decimal.ReadBack

/-!
# `Stencil.Proofs.Decimal.Printed`: printed numerals are read again

Numbers shown to a reader have no exponent: they are a sign, digits and perhaps a point with further
digits behind it (`spelled`). Such a text is read as the numeral that it spells
(`Numeral.read?_spelled`). A numeral is printed like this, with zeros in front or at the end where
its power of ten asks for them, so that the numeral that is read stands for the same double
(`Numeral.exists_spelled`).
-/

set_option autoImplicit false

namespace Stencil.Decimal

/-! ### The values of digits -/

/-- The value of digits, as the library computes it. -/
theorem digitsValue_eq_ofDigitChars (cs : List Char) :
    digitsValue cs = Nat.ofDigitChars 10 cs 0 := by
  rw [digitsValue, Nat.ofDigitChars_eq_foldl]
  simp only [Nat.mul_comm _ 10]
  rfl

/-- The digits of a number have its value. -/
theorem digitsValue_digitsOf (n : Nat) : digitsValue (digitsOf n) = n := by
  rw [digitsValue_eq_ofDigitChars, digitsOf, Nat.ofDigitChars_ten_toDigits]

/-- The digits of a number are digits. -/
theorem isDigit_of_mem_digitsOf {n : Nat} {c : Char} (h : c ∈ digitsOf n) : c.isDigit = true :=
  Nat.isDigit_of_mem_toDigits (by decide) (by decide) h

/-- Zeros in front of digits change nothing. -/
theorem digitsValue_zeros_append (k : Nat) (cs : List Char) :
    digitsValue (List.replicate k '0' ++ cs) = digitsValue cs := by
  rw [digitsValue_eq_ofDigitChars, digitsValue_eq_ofDigitChars, Nat.ofDigitChars_append,
    Nat.ofDigitChars_replicate_zero, Nat.mul_zero]

/-- Zeros behind digits multiply by a power of ten. -/
theorem digitsValue_append_zeros (cs : List Char) (k : Nat) :
    digitsValue (cs ++ List.replicate k '0') = digitsValue cs * 10 ^ k := by
  rw [digitsValue_eq_ofDigitChars, digitsValue_eq_ofDigitChars, Nat.ofDigitChars_append,
    Nat.ofDigitChars_replicate_zero, Nat.mul_comm]

/-- Any number of zeros at the end of the digits makes no difference to the double. -/
theorem Numeral.toFloat_shift_pow (negative : Bool) (digits : Nat) (exponent : Int) (k : Nat) :
    Numeral.toFloat ⟨negative, digits * 10 ^ k, exponent⟩ =
      Numeral.toFloat ⟨negative, digits, exponent + k⟩ := by
  induction k generalizing exponent with
  | zero => simp
  | succ k ih =>
    rw [Nat.pow_succ, ← Nat.mul_assoc, Numeral.toFloat_shift, ih]
    congr 2
    omega

/-! ### Spelled numerals -/

/-- A sign, digits, and a point with digits behind it if there are any. -/
def spelled (negative : Bool) (whole fraction : List Char) (point : Char) : List Char :=
  (if negative then ['-'] else []) ++ whole ++
    if fraction.isEmpty then [] else point :: fraction

section Spelled

variable {negative : Bool} {whole fraction : List Char}

/-- The characters of a spelled numeral. -/
theorem mem_spelled (hwhole : ∀ c ∈ whole, c.isDigit = true)
    (hfraction : ∀ c ∈ fraction, c.isDigit = true) {point c : Char}
    (h : c ∈ spelled negative whole fraction point) : c.isDigit = true ∨ c = '-' ∨ c = point := by
  rw [spelled, List.mem_append, List.mem_append] at h
  rcases h with (hsign | hdigit) | hbehind
  · cases negative with
    | true => exact .inr (.inl (List.mem_singleton.1 hsign))
    | false => cases hsign
  · exact .inl (hwhole c hdigit)
  · cases hempty : fraction.isEmpty with
    | true => simp [hempty] at hbehind
    | false =>
      simp only [hempty, Bool.false_eq_true, if_false, List.mem_cons] at hbehind
      rcases hbehind with rfl | hdigit
      · exact .inr (.inr rfl)
      · exact .inl (hfraction c hdigit)

/-- Another character for the point of a spelled numeral. -/
theorem map_spelled (hwhole : ∀ c ∈ whole, c.isDigit = true)
    (hfraction : ∀ c ∈ fraction, c.isDigit = true) {f : Char → Char}
    (hdigit : ∀ c, c.isDigit = true → f c = c) (hminus : f '-' = '-') (point : Char) :
    (spelled negative whole fraction point).map f = spelled negative whole fraction (f point) := by
  -- A text of digits has nothing to be replaced.
  have hkept : ∀ cs : List Char, (∀ c ∈ cs, c.isDigit = true) → cs.map f = cs := by
    intro cs hcs
    exact (List.map_congr_left fun c hc => hdigit c (hcs c hc)).trans (List.map_id' cs)
  rw [spelled, spelled, List.map_append, List.map_append, hkept whole hwhole]
  congr 1
  · cases negative with
    | true => simp [hminus]
    | false => rfl
  · split
    · rfl
    · rw [List.map_cons, hkept fraction hfraction]

/-- Digits have no sign in front of them. -/
theorem splitSign_of_digits (hne : whole ≠ []) (hwhole : ∀ c ∈ whole, c.isDigit = true)
    (rest : List Char) : splitSign (whole ++ rest) = (false, whole ++ rest) := by
  obtain ⟨c, cs, rfl⟩ := List.exists_cons_of_ne_nil hne
  have hdigit : c.isDigit = true := hwhole c (List.mem_cons_self ..)
  rw [List.cons_append, splitSign]
  -- A sign in front would be the first digit.
  · intro _ heq
    rw [(List.cons.inj heq).1] at hdigit
    exact absurd hdigit (by decide)
  · intro _ heq
    rw [(List.cons.inj heq).1] at hdigit
    exact absurd hdigit (by decide)

/-- Digits reach up to what is no digit. -/
theorem span_digits (hwhole : ∀ c ∈ whole, c.isDigit = true) (rest : List Char)
    (hrest : ∀ c ∈ rest.head?, c.isDigit = false) :
    (whole ++ rest).takeWhile Char.isDigit = whole ∧
      (whole ++ rest).dropWhile Char.isDigit = rest := by
  rw [List.takeWhile_append_of_pos hwhole, List.dropWhile_append_of_pos hwhole]
  cases rest with
  | nil => simp
  | cons c cs =>
    have hc : c.isDigit = false := hrest c rfl
    simp [hc]

/-- What is in front of a spelled numeral is its sign, if it has one. -/
theorem splitSign_spelled (hne : whole ≠ []) (hwhole : ∀ c ∈ whole, c.isDigit = true)
    (point : Char) :
    splitSign (spelled negative whole fraction point) =
      (negative, whole ++ if fraction.isEmpty then [] else point :: fraction) := by
  rw [spelled]
  cases negative with
  | true => rfl
  | false => exact splitSign_of_digits hne hwhole _

/-- A spelled numeral is read as what it spells. -/
theorem Numeral.read?_spelled (hne : whole ≠ []) (hwhole : ∀ c ∈ whole, c.isDigit = true)
    (hfraction : ∀ c ∈ fraction, c.isDigit = true) :
    Numeral.read? (spelled negative whole fraction '.') =
      some ⟨negative, digitsValue (whole ++ fraction), -fraction.length⟩ := by
  have hempty : whole.isEmpty = false := by simpa using hne
  rw [Numeral.read?, splitSign_spelled hne hwhole]
  simp only
  cases fraction with
  | nil =>
    obtain ⟨htake, hdrop⟩ := span_digits hwhole [] (by simp)
    simp only [List.isEmpty_nil, if_true]
    rw [htake, hdrop]
    simp [hempty, readExponent?]
  | cons d ds =>
    -- The point is no digit, and all behind it are digits.
    obtain ⟨htake, hdrop⟩ := span_digits hwhole ('.' :: d :: ds) (by simp)
    obtain ⟨htake', hdrop'⟩ := span_digits hfraction [] (by simp)
    rw [List.append_nil] at htake' hdrop'
    simp only [List.isEmpty_cons, if_false, Bool.false_eq_true]
    rw [htake, hdrop]
    simp only
    rw [htake', hdrop']
    simp [hempty, readExponent?]

end Spelled

/-! ### Printed numerals -/

/-- Digits with a power of ten that is not negative are whole numbers. -/
theorem positional_of_nonneg {exponent : Int} (digits : List Char) (h : 0 ≤ exponent) :
    positional digits exponent false =
      digits ++ List.replicate exponent.natAbs '0' := by
  rw [positional, if_pos h]
  simp

/-- Zeros among digits are digits. -/
theorem isDigit_of_mem_replicate {k : Nat} {c : Char} (h : c ∈ List.replicate k '0') :
    c.isDigit = true := by
  rw [List.eq_of_mem_replicate h]
  rfl

/-- Digits with a negative power of ten have a point, and at least a zero in front of it. -/
theorem exists_positional_of_neg {exponent : Int} (digits : Nat) (h : exponent < 0) :
    ∃ whole fraction, positional (digitsOf digits) exponent false = whole ++ '.' :: fraction ∧
      whole ≠ [] ∧ (∀ c ∈ whole ++ fraction, c.isDigit = true) ∧
      digitsValue (whole ++ fraction) = digits ∧ -(fraction.length : Int) = exponent := by
  generalize hplaces : exponent.natAbs = places
  -- Zeros are put in front until there is a digit before the point.
  let padded := List.replicate (places + 1 - (digitsOf digits).length) '0' ++ digitsOf digits
  have hlength : places + 1 ≤ padded.length := by
    simp only [padded, List.length_append, List.length_replicate]
    omega
  -- Cut at the point and joined again, the digits are the same.
  have hjoined : padded.take (padded.length - places) ++ padded.drop (padded.length - places) =
      padded := List.take_append_drop ..
  refine ⟨padded.take (padded.length - places), padded.drop (padded.length - places),
    ?_, ?_, ?_, ?_, ?_⟩
  · rw [positional, if_neg (by omega), hplaces]
  · rw [← List.length_pos_iff, List.length_take]
    omega
  · intro c hc
    rw [hjoined] at hc
    rcases List.mem_append.1 hc with hzero | hdigit
    · exact isDigit_of_mem_replicate hzero
    · exact isDigit_of_mem_digitsOf hdigit
  · rw [hjoined, digitsValue_zeros_append, digitsValue_digitsOf]
  · rw [List.length_drop]
    omega

/-- A numeral without an exponent is spelled by digits that stand for the same double. -/
theorem Numeral.exists_spelled (n : Numeral) :
    ∃ whole fraction, Layout.plain.printNumeral n = spelled n.negative whole fraction '.' ∧
      whole ≠ [] ∧ (∀ c ∈ whole, c.isDigit = true) ∧ (∀ c ∈ fraction, c.isDigit = true) ∧
      Numeral.toFloat ⟨n.negative, digitsValue (whole ++ fraction), -fraction.length⟩ =
        n.toFloat := by
  obtain ⟨negative, digits, exponent⟩ := n
  have hprint : Layout.plain.printNumeral ⟨negative, digits, exponent⟩ =
      (if negative then ['-'] else []) ++ positional (digitsOf digits) exponent false := by
    cases negative with
    | true => simp [Layout.printNumeral, Layout.plain]
    | false => simp [Layout.printNumeral, Layout.plain]
  rw [hprint]
  rcases Int.lt_or_le exponent 0 with hneg | hpos
  -- The point stands between or in front of the digits.
  · obtain ⟨whole, fraction, hpositional, hne, hdigits, hvalue, hlength⟩ :=
      exists_positional_of_neg digits hneg
    have hnonempty : fraction.isEmpty = false := by
      rw [List.isEmpty_eq_false_iff, ← List.length_pos_iff]
      omega
    refine ⟨whole, fraction, ?_, hne, fun c hc => hdigits c (List.mem_append_left _ hc),
      fun c hc => hdigits c (List.mem_append_right _ hc), ?_⟩
    · simp [hpositional, spelled, hnonempty]
    · rw [hvalue, hlength]
  · -- Zeros at the end, and no point.
    refine ⟨digitsOf digits ++ List.replicate exponent.natAbs '0', [], ?_, ?_, ?_, by simp, ?_⟩
    · rw [positional_of_nonneg _ hpos, spelled]
      simp
    · simp [digitsOf, Nat.toDigits_ne_nil]
    · intro c hc
      rcases List.mem_append.1 hc with hdigit | hzero
      · exact isDigit_of_mem_digitsOf hdigit
      · exact isDigit_of_mem_replicate hzero
    · rw [List.append_nil, digitsValue_append_zeros, digitsValue_digitsOf,
        Numeral.toFloat_shift_pow]
      congr 2
      simp
      omega

end Stencil.Decimal
