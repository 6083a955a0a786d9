import Stencil.Helper.Coercion
import Stencil.Proofs.Decimal.Printed
import Stencil.Proofs.Text.Words

/-!
# `Stencil.Proofs.Helper.TextAndBack`: numbers and truth values survive as texts

A helper that takes a text is given the text of a number or a truth value, and one that takes a
number or a truth value reads it from a text. Reading gives back just the value that was written, in
every locale whose separators can be told from digits, from the minus sign and from each other
(`Locale.Distinct`).

Writing puts the decimal separator for the point of a spelled numeral. `Locale.normalizeNumber?`
undoes this: it comes to no group separator, since none is written, and to no foreign point or
comma. `convert_text_and_back` is the main fact.
-/

set_option autoImplicit false

namespace Stencil

open Text Decimal

/-! ### Trimmed texts -/

/-- No digit is a blank. -/
theorem Text.isBlank_of_isDigit {c : Char} (h : c.isDigit = true) : isBlank c = false := by
  simp only [Char.isDigit, Bool.and_eq_true, decide_eq_true_eq] at h
  have hlow : 48 ≤ c.toNat := h.1
  have hhigh : c.toNat ≤ 57 := h.2
  simp [isBlank]
  omega

/-- A text with no blank on either side is trimmed. -/
theorem Text.trim_of_ends {cs init rest : List Char} {c d : Char} (hstart : cs = c :: rest)
    (hc : isBlank c = false) (hend : cs = init ++ [d]) (hd : isBlank d = false) :
    trim cs = cs := by
  refine trim_eq_self_iff.2 ⟨?_, ?_⟩
  · rw [hstart]
    simp [trimStart, hc]
  · rw [hend]
    simp [trimEnd, hd]

/-- A spelled numeral starts with a sign or a digit and ends with a digit. -/
theorem trim_spelled {negative : Bool} {whole fraction : List Char} (point : Char)
    (hne : whole ≠ []) (hwhole : ∀ c ∈ whole, c.isDigit = true)
    (hfraction : ∀ c ∈ fraction, c.isDigit = true) :
    trim (spelled negative whole fraction point) = spelled negative whole fraction point := by
  have hstart : ∃ c rest, spelled negative whole fraction point = c :: rest ∧ isBlank c = false := by
    -- In front stands the sign or, without one, a digit.
    obtain ⟨c, cs, rfl⟩ := List.exists_cons_of_ne_nil hne
    cases negative with
    | true => exact ⟨'-', _, rfl, by decide⟩
    | false => exact ⟨c, _, rfl, isBlank_of_isDigit (hwhole c (List.mem_cons_self ..))⟩
  have hend : ∃ init d, spelled negative whole fraction point = init ++ [d] ∧
      isBlank d = false := by
    -- The last digit is one behind the point or, without a point, one of the whole part.
    rcases List.eq_nil_or_concat fraction with rfl | ⟨ds, d, rfl⟩
    · obtain ⟨ds, d, rfl⟩ := (List.eq_nil_or_concat whole).resolve_left hne
      exact ⟨(if negative then ['-'] else []) ++ ds, d, by simp [spelled],
        isBlank_of_isDigit (hwhole d (by simp))⟩
    · exact ⟨(if negative then ['-'] else []) ++ whole ++ point :: ds, d, by simp [spelled],
        isBlank_of_isDigit (hfraction d (by simp))⟩
  obtain ⟨c, rest, hstart, hc⟩ := hstart
  obtain ⟨init, d, hend, hd⟩ := hend
  exact trim_of_ends hstart hc hend hd

/-! ### Doubles -/

namespace Locale

/-- A character that cannot be part of the digits of a number. -/
def Separates (c : Char) : Prop :=
  c.isDigit = false ∧ c ≠ '-'

/-- Whether a character separates is seen from the character. -/
instance (c : Char) : Decidable (Separates c) :=
  inferInstanceAs (Decidable (c.isDigit = false ∧ c ≠ '-'))

/-- Separators that can be told from digits, from the minus sign and from each other. -/
structure Distinct (l : Locale) : Prop where
  ne : l.decimal ≠ l.group
  decimal : Separates l.decimal
  group : Separates l.group

/-- The locales that can be found by their tags are like this. -/
theorem distinct_of_mem_known {l : Locale} (h : l ∈ known) : l.Distinct := by
  simp only [known, List.mem_cons, List.not_mem_nil, or_false] at h
  rcases h with rfl | rfl | rfl | rfl | rfl | rfl
  all_goals exact ⟨by decide, by decide, by decide⟩

variable {l : Locale}

/-- Digits and signs are read as they are. -/
theorem normalizeNumber?_append (hl : l.Distinct) {cs : List Char}
    (hcs : ∀ c ∈ cs, c.isDigit = true ∨ c = '-') (rest : List Char) :
    l.normalizeNumber? (cs ++ rest) = (l.normalizeNumber? rest).map (cs ++ ·) := by
  induction cs with
  | nil => simp
  | cons c cs ih =>
    -- What separates is neither a digit nor a sign, and so none of these characters.
    have hplain : ∀ d, Separates d → c ≠ d := by
      rintro d ⟨hdigit, hminus⟩ rfl
      rcases hcs c (List.mem_cons_self ..) with h | h
      · rw [h] at hdigit
        cases hdigit
      · exact hminus h
    have hforeign : ¬ (decide (c = '.') || decide (c = ',')) = true := by
      simp [hplain '.' (by decide), hplain ',' (by decide)]
    rw [List.cons_append, normalizeNumber?, if_neg (hplain _ hl.group),
      if_neg (hplain _ hl.decimal), if_neg hforeign,
      ih fun d hd => hcs d (List.mem_cons_of_mem _ hd), Option.map_map]
    rfl

/-- The decimal separator is read as a point. -/
theorem normalizeNumber?_spelled (hl : l.Distinct) {negative : Bool} {whole fraction : List Char}
    (hwhole : ∀ c ∈ whole, c.isDigit = true) (hfraction : ∀ c ∈ fraction, c.isDigit = true) :
    l.normalizeNumber? (spelled negative whole fraction l.decimal) =
      some (spelled negative whole fraction '.') := by
  -- The separator is the first character that is not read as it is.
  have hfront : ∀ c ∈ (if negative then ['-'] else []) ++ whole, c.isDigit = true ∨ c = '-' := by
    intro c hc
    rcases List.mem_append.1 hc with hsign | hdigit
    · cases negative with
      | true => exact .inr (List.mem_singleton.1 hsign)
      | false => cases hsign
    · exact .inl (hwhole c hdigit)
  rw [spelled, normalizeNumber?_append hl hfront, spelled]
  cases hfractionEmpty : fraction.isEmpty with
  | true => rfl
  | false =>
    have hdigits := normalizeNumber?_append hl (fun c hc => .inl (hfraction c hc)) []
    rw [List.append_nil] at hdigits
    simp only [Bool.false_eq_true, if_false]
    rw [normalizeNumber?, if_neg hl.ne, if_pos rfl, hdigits, normalizeNumber?]
    simp

/-- A finite double is written with the decimal separator of the locale. -/
theorem exists_formatFloat (l : Locale) {x : Float} (h : x.isFinite = true) :
    ∃ negative whole fraction,
      (l.formatFloat x).toList = spelled negative whole fraction l.decimal ∧
      whole ≠ [] ∧ (∀ c ∈ whole, c.isDigit = true) ∧ (∀ c ∈ fraction, c.isDigit = true) ∧
      Numeral.toFloat ⟨negative, digitsValue (whole ++ fraction), -fraction.length⟩ = x := by
  obtain ⟨negative, mantissa, exponent, hparts⟩ := exists_ofFloat_of_isFinite h
  obtain ⟨whole, fraction, hprint, hne, hwhole, hfraction, hvalue⟩ :=
    (shortest Layout.plain.tie x negative mantissa exponent).exists_spelled
  refine ⟨_, whole, fraction, ?_, hne, hwhole, hfraction,
    hvalue.trans (toFloat_shortest hparts Layout.plain.tie)⟩
  -- The only point to be replaced is the one between the digits.
  have hdigit : ∀ c : Char, c.isDigit = true → (if c = '.' then l.decimal else c) = c := by
    intro c hc
    exact if_neg fun heq => absurd (heq ▸ hc) (by decide)
  rw [formatFloat, Layout.print, hparts]
  simp only
  rw [String.toList_map, String.toList_ofList, hprint,
    map_spelled hwhole hfraction hdigit (if_neg (by decide))]
  rfl

/-- A finite double is read as it was written. -/
theorem parseFloat?_formatFloat (hl : l.Distinct) {x : Float} (h : x.isFinite = true) :
    l.parseFloat? (l.formatFloat x) = some x := by
  obtain ⟨negative, whole, fraction, htext, hne, hwhole, hfraction, hvalue⟩ :=
    l.exists_formatFloat h
  have hchars : (spelled negative whole fraction '.').all isNumberChar = true := by
    refine List.all_eq_true.2 fun c hc => ?_
    rcases mem_spelled hwhole hfraction hc with hdigit | rfl | rfl
    · simp [isNumberChar, hdigit]
    · decide
    · decide
  rw [parseFloat?, htext, trim_spelled _ hne hwhole hfraction,
    normalizeNumber?_spelled hl hwhole hfraction]
  show (do
    guard ((spelled negative whole fraction '.').all isNumberChar)
    let n ← Numeral.read? (spelled negative whole fraction '.')
    guard n.toFloat.isFinite
    some n.toFloat) = some x
  rw [hchars, Numeral.read?_spelled hne hwhole hfraction]
  show (do
    guard (Numeral.toFloat _).isFinite
    some (Numeral.toFloat _)) = some x
  rw [hvalue, h]
  rfl

end Locale

/-! ### Integers -/

/-- A whole number is written as its digits, with a minus sign if it is negative. -/
theorem toList_toString_int (n : Int) :
    (toString n).toList = spelled (decide (n < 0)) (digitsOf n.natAbs) [] '.' := by
  cases n with
  | ofNat m =>
    show (Nat.repr m).toList = _
    simp [spelled, digitsOf]
  | negSucc m =>
    show ("-" ++ Nat.repr (m + 1)).toList = _
    rw [String.toList_append, Nat.toList_repr]
    simp [spelled, digitsOf]

/-- Digits with or without a sign are read as the whole number that they spell. -/
theorem readInteger?_spelled {negative : Bool} {whole : List Char} (hne : whole ≠ [])
    (hwhole : ∀ c ∈ whole, c.isDigit = true) (point : Char) :
    readInteger? (spelled negative whole [] point) =
      some (if negative then -(digitsValue whole : Int) else digitsValue whole) := by
  have hempty : whole.isEmpty = false := by simpa using hne
  have hall : whole.all Char.isDigit = true := List.all_eq_true.2 hwhole
  rw [readInteger?, splitSign_spelled hne hwhole]
  simp [hempty, hall]

/-- An integer of 64 bits is read as it was written. -/
theorem Locale.parseInt?_toString (l : Locale) (n : Int64) :
    l.parseInt? (toString n.toInt) = some n := by
  have hne : digitsOf n.toInt.natAbs ≠ [] := Nat.toDigits_ne_nil
  have hdigits : ∀ c ∈ digitsOf n.toInt.natAbs, c.isDigit = true :=
    fun c hc => isDigit_of_mem_digitsOf hc
  have hread : readInteger? (trim (toString n.toInt).toList) = some n.toInt := by
    rw [toList_toString_int, trim_spelled '.' hne hdigits (by simp),
      readInteger?_spelled hne hdigits, digitsValue_digitsOf]
    congr 1
    simp only [decide_eq_true_eq]
    split <;> omega
  -- A number that was one of 64 bits is in the range of those.
  have hrange : ¬ (n.toInt < Int64.minValue.toInt ∨ Int64.maxValue.toInt < n.toInt) := by
    have hlow : -2 ^ 63 ≤ n.toInt := n.le_toInt
    have hhigh : n.toInt < 2 ^ 63 := n.toInt_lt
    have hmin : Int64.minValue.toInt = -2 ^ 63 := by decide
    have hmax : Int64.maxValue.toInt = 2 ^ 63 - 1 := by decide
    omega
  rw [parseInt?, hread]
  show (if _ then none else some (Int64.ofInt n.toInt)) = some n
  rw [if_neg hrange, Int64.ofInt_toInt]

/-! ### Values -/

/-- The type of a truth value, of an integer or of a finite double. -/
def Value.scalarType? : Value → Option ParamType
  | .bool _ => some .bool
  | .int _ => some .int
  | .float x => if x.isFinite then some .float else none
  | _ => none

/-- Truth values, integers and finite doubles can be converted to texts, in every locale with
distinct separators. The text is converted back to the very same value. -/
theorem convert_text_and_back {l : Locale} (hl : l.Distinct) {v : Value} {t : ParamType}
    (ht : v.scalarType? = some t) (raw : String) :
    ∃ text, v.convert? l .str raw = some (.str text) ∧
      ∀ raw, (Value.str text).convert? l t raw = some v := by
  cases v with
  | bool b =>
    obtain rfl : ParamType.bool = t := Option.some.inj ht
    refine ⟨(Value.bool b).format l, rfl, fun _ => ?_⟩
    show (readBool? (if b then "true" else "false")).map Value.bool = some (.bool b)
    cases b with
    | true => rfl
    | false => rfl
  | int n =>
    obtain rfl : ParamType.int = t := Option.some.inj ht
    refine ⟨(Value.int n).format l, rfl, fun _ => ?_⟩
    show (l.parseInt? (toString n.toInt)).map Value.int = some (.int n)
    rw [l.parseInt?_toString]
    rfl
  | float x =>
    rw [Value.scalarType?] at ht
    split at ht
    · rename_i hfinite
      obtain rfl : ParamType.float = t := Option.some.inj ht
      refine ⟨(Value.float x).format l, rfl, fun _ => ?_⟩
      show (l.parseFloat? (l.formatFloat x)).map Value.float = some (.float x)
      rw [Locale.parseFloat?_formatFloat hl hfinite]
      rfl
    · cases ht
  | _ => cases ht

/-- A double with a fraction, in a locale with a space for the decimal separator and a comma for
groups. -/
theorem convert_text_and_back_of_space :
    Locale.Distinct ⟨"", ' ', ','⟩ ∧
      (Value.float (.ofBits 0xBFF8000000000000)).scalarType? = some .float ∧
      ∃ text, (Value.float (.ofBits 0xBFF8000000000000)).convert? ⟨"", ' ', ','⟩ .str "x" =
          some (.str text) ∧
        ∀ raw, (Value.str text).convert? ⟨"", ' ', ','⟩ .float raw =
          some (.float (.ofBits 0xBFF8000000000000)) := by
  have hl : Locale.Distinct ⟨"", ' ', ','⟩ := ⟨by decide, by decide, by decide⟩
  have ht : (Value.float (.ofBits 0xBFF8000000000000)).scalarType? = some .float := by decide
  exact ⟨hl, ht, convert_text_and_back hl ht "x"⟩

end Stencil
