import AuthProvValidator.Base.Text

/-!
# Decimal texts

* `DecimalUpTo max t` : `t` is a text of decimal digits, in any spelling, whose value is at most `max`;
* `LeadingZero t` : the spelling starts with a zero that `std::to_string` does not print;
* `stoi_of_digits` : `std::stoi` reads a text of digits as its value, or throws where that is no `int`;
* `eq_to_string_iff` : the text that `std::to_string` prints is the one without leading zeros.
-/

namespace Str

def decValue (t : Str) : Nat := Nat.ofDigitChars 10 t 0

/-- At least one character, and only decimal digits. -/
structure IsDecimal (t : Str) : Prop where
  ne_nil : t ≠ []
  digits : ∀ c ∈ t, isDecDigit c = true

/-- A decimal number in any spelling, up to a bound. -/
structure DecimalUpTo (max : Nat) (t : Str) : Prop extends IsDecimal t where
  le : decValue t ≤ max

/-- More digits than one, the first a zero. -/
def LeadingZero (t : Str) : Prop := 1 < t.length ∧ t.head? = some '0'

instance (t : Str) : Decidable (LeadingZero t) := inferInstanceAs (Decidable (_ ∧ _))

section Values
variable {t : Str} {c : Char}

theorem decValue_append_singleton (t : Str) (c : Char) :
    decValue (t ++ [c]) = 10 * decValue t + (c.toNat - '0'.toNat) := by
  rw [decValue, Nat.ofDigitChars_append, Nat.ofDigitChars_cons, Nat.ofDigitChars_nil, decValue]

theorem decValue_singleton (c : Char) : decValue [c] = c.toNat - 48 := by
  show Nat.ofDigitChars 10 [c] 0 = _
  rw [Nat.ofDigitChars_cons, Nat.ofDigitChars_nil, Nat.mul_zero, Nat.zero_add, show '0'.toNat = 48 from rfl]

theorem char_range_iff {lo hi : Char} :
    (decide (lo ≤ c) && decide (c ≤ hi)) = true ↔ lo.toNat ≤ c.toNat ∧ c.toNat ≤ hi.toNat := by
  simp only [Bool.and_eq_true, decide_eq_true_eq, Char.le_def, UInt32.le_iff_toNat_le]
  exact Iff.rfl

theorem isDecDigit_iff : isDecDigit c = true ↔ 48 ≤ c.toNat ∧ c.toNat ≤ 57 := char_range_iff

theorem isDecDigit_toDigits {n : Nat} : ∀ c ∈ Nat.toDigits 10 n, isDecDigit c = true := by
  intro c hc
  have hdigit := Nat.isDigit_of_mem_toDigits (by decide) (by decide) hc
  simp only [isDecDigit, Char.isDigit, Bool.and_eq_true, decide_eq_true_eq, Char.le_def] at hdigit ⊢
  exact hdigit

theorem digitChar_of_isDecDigit (hc : isDecDigit c = true) : Nat.digitChar (c.toNat - '0'.toNat) = c := by
  obtain ⟨hlo, hhi⟩ := isDecDigit_iff.mp hc
  have h48 : '0'.toNat = 48 := rfl
  apply Char.toNat_inj.mp
  rw [Nat.toNat_digitChar_of_lt_ten (by omega)]
  omega

theorem isDecimal_toDigits (n : Nat) : IsDecimal (Nat.toDigits 10 n) := ⟨Nat.toDigits_ne_nil, isDecDigit_toDigits⟩

theorem decValue_toDigits (n : Nat) : decValue (Nat.toDigits 10 n) = n := Nat.ofDigitChars_ten_toDigits

theorem head?_toDigits (n : Nat) (h : 10 ≤ n) :
    (Nat.toDigits 10 n).head? = (Nat.toDigits 10 (n / 10)).head? := by
  rw [Nat.toDigits_of_base_le (by decide) h, List.head?_append_of_ne_nil _ Nat.toDigits_ne_nil]

theorem head?_toDigits_ne_zero (n : Nat) (h : 0 < n) : (Nat.toDigits 10 n).head? ≠ some '0' := by
  induction n using Nat.strongRecOn with
  | ind n ih =>
    by_cases hlt : n < 10
    · rw [Nat.toDigits_of_lt_base hlt]
      have hchar : ∀ d < 10, 0 < d → [Nat.digitChar d].head? ≠ some '0' := by decide
      exact hchar n hlt h
    · rw [head?_toDigits n (by omega)]
      exact ih (n / 10) (by omega) (by omega)

theorem not_leadingZero_toDigits (n : Nat) : ¬ LeadingZero (Nat.toDigits 10 n) := by
  intro h
  obtain ⟨hlen, hhead⟩ := h
  by_cases hn : n = 0
  · rw [hn, Nat.toDigits_zero] at hlen
    exact absurd hlen (by decide)
  · exact head?_toDigits_ne_zero n (by omega) hhead

/-- A text without leading zeros is the digits of its value. -/
theorem toDigits_decValue (h : IsDecimal t) (hzero : ¬ LeadingZero t) : Nat.toDigits 10 (decValue t) = t := by
  induction t using List.reverseRecOn with
  | nil => exact absurd rfl h.ne_nil
  | append_singleton t c ih =>
    have hc := h.digits c (by simp)
    obtain ⟨hlo, hhi⟩ := isDecDigit_iff.mp hc
    have h48 : '0'.toNat = 48 := rfl
    rw [decValue_append_singleton]
    by_cases hnil : t = []
    · subst hnil
      have hval : decValue [] = 0 := rfl
      rw [hval, Nat.mul_zero, Nat.zero_add, Nat.toDigits_of_lt_base (by omega), digitChar_of_isDecDigit hc]
      rfl
    · -- the front of the text has no leading zeros either, and its value is not zero
      have hpos := List.length_pos_iff.mpr hnil
      have hhead : t.head? ≠ some '0' := by
        intro h0
        apply hzero
        exact ⟨by simp only [List.length_append, List.length_singleton]; omega,
          by rw [List.head?_append_of_ne_nil _ hnil]; exact h0⟩
      have hfront := ih ⟨hnil, fun d hd => h.digits d (List.mem_append_left _ hd)⟩ fun h0 => hhead h0.2
      have hvalue : decValue t ≠ 0 := by
        intro h0
        rw [h0, Nat.toDigits_zero] at hfront
        rw [← hfront] at hhead
        exact hhead rfl
      rw [Nat.toDigits_of_base_le (by decide) (by omega),
        show (10 * decValue t + (c.toNat - '0'.toNat)) / 10 = decValue t by omega,
        show (10 * decValue t + (c.toNat - '0'.toNat)) % 10 = c.toNat - '0'.toNat by omega, hfront,
        digitChar_of_isDecDigit hc]

end Values

/-! ## `std::stoi` and `std::to_string` -/

section Conversions
variable {t : Str}

theorem isSpace_of_isDecDigit {c : Char} (hc : isDecDigit c = true) : isSpace c = false :=
  isSpace_of_isHexDigit (by simp [isHexDigit, hc])

theorem splitSign_of_digits (h : ∀ c ∈ t, isDecDigit c = true) : splitSign t = (false, t) := by
  unfold splitSign
  split
  · exact absurd (h '-' (by simp)) (by decide)
  · exact absurd (h '+' (by simp)) (by decide)
  · rfl

theorem stoi_of_digits (h : IsDecimal t) :
    stoi t = if decValue t ≤ 2147483647 then some (decValue t : Int) else none := by
  have hspace : t.dropWhile isSpace = t := by
    cases t with
    | nil => rfl
    | cons c u => simp [isSpace_of_isDecDigit (h.digits c (by simp))]
  have htake : t.takeWhile isDecDigit = t := List.takeWhile_eq_self_iff.mpr h.digits
  have hempty : t.isEmpty = false := by simpa using h.ne_nil
  rw [stoi, hspace, splitSign_of_digits h.digits]
  simp only [htake, hempty, Bool.false_eq_true, if_false]
  rw [← decValue]
  by_cases hle : decValue t ≤ 2147483647
  · rw [if_pos hle, if_pos (by omega)]
  · rw [if_neg hle, if_neg (by omega)]

/-- The text of a number that is not negative is its digits. -/
theorem to_string_ofNat (n : Nat) : to_string n = Nat.toDigits 10 n := by
  rw [to_string, if_neg (by omega), Int.natAbs_natCast]

theorem nonneg_of_digits_to_string {n : Int} (h : ∀ c ∈ to_string n, isDecDigit c = true) : 0 ≤ n := by
  by_contra hn
  rw [to_string, if_pos (by omega)] at h
  exact absurd (h '-' (by simp)) (by decide)

/-- A text of digits is what `std::to_string` prints of a number exactly when it denotes it without leading zeros. -/
theorem eq_to_string_iff {n : Int} (h : IsDecimal t) : t = to_string n ↔ n = decValue t ∧ ¬ LeadingZero t := by
  constructor
  · intro heq
    have hn : 0 ≤ n := by
      apply nonneg_of_digits_to_string
      rw [← heq]
      exact h.digits
    obtain ⟨m, rfl⟩ := Int.eq_ofNat_of_zero_le hn
    rw [to_string_ofNat] at heq
    rw [heq, decValue_toDigits]
    exact ⟨rfl, not_leadingZero_toDigits m⟩
  · intro heq
    obtain ⟨rfl, hzero⟩ := heq
    rw [to_string_ofNat, toDigits_decValue h hzero]

theorem decimalUpTo_to_string {max : Nat} {n : Int} : DecimalUpTo max (to_string n) ↔ 0 ≤ n ∧ n ≤ max := by
  constructor
  · intro h
    have hn := nonneg_of_digits_to_string h.digits
    obtain ⟨m, rfl⟩ := Int.eq_ofNat_of_zero_le hn
    have hle := h.le
    rw [to_string_ofNat, decValue_toDigits] at hle
    exact ⟨hn, by omega⟩
  · intro h
    obtain ⟨m, rfl⟩ := Int.eq_ofNat_of_zero_le h.1
    rw [to_string_ofNat]
    exact ⟨isDecimal_toDigits m, by rw [decValue_toDigits]; omega⟩

/-- The text of a number is the digits of a number up to a bound exactly when the number is one. -/
theorem exists_toDigits_to_string {max : Nat} {n : Int} :
    (∃ m ≤ max, to_string n = Nat.toDigits 10 m) ↔ 0 ≤ n ∧ n ≤ max := by
  constructor
  · intro h
    obtain ⟨m, hm, htext⟩ := h
    apply decimalUpTo_to_string.mp
    rw [htext]
    exact ⟨isDecimal_toDigits m, by rw [decValue_toDigits]; exact hm⟩
  · intro h
    obtain ⟨m, rfl⟩ := Int.eq_ofNat_of_zero_le h.1
    exact ⟨m, by omega, to_string_ofNat m⟩

end Conversions

end Str
