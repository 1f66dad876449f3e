import AuthProvValidator.Properties.LegacyAgreement

/-!
# Hexadecimal texts and numbers

The legacy check reads the management field of a change as a number, the mutations print `AMFVALUE` as a text.

* `fromHexStringToUnsignedInt_hexDigits` : hexadecimal digits are read as their value;
* `legacyCheck_managementField_iff` : the four digits that the legacy check accepts are those that `AMFVALUE` is printed
  as, in either case;
* `hexConversions_inverse` : the two conversions are inverse to each other.
-/

namespace AuthProvValidator
open Recorder

section Conversions
variable {s t p : Str} {amfValue : Int}

theorem fromHexStringToUnsignedInt_hexDigits (hdigits : ∀ c ∈ s, Str.isHexDigit c = true) (hne : s ≠ [])
    (hlt : Str.hexValue s < 2 ^ 32) : fromHexStringToUnsignedInt s = .ok (Str.hexValue s) := by
  rw [fromHexStringToUnsignedInt, Str.extractHex_hexDigits hne hdigits hlt]

theorem fromHexStringToUnsignedInt_hexText {n : Nat} (w : Nat) (hn : n < 2 ^ 32) :
    fromHexStringToUnsignedInt (fromUnsignedIntToHexString n w) = .ok n := by
  have hvalue : Str.hexValue (fromUnsignedIntToHexString n w) = n := Str.hexValue_hexText w n
  have hdigits : ∀ c ∈ fromUnsignedIntToHexString n w, Str.isHexDigit c = true := Str.isHexDigit_hexText
  rw [fromHexStringToUnsignedInt_hexDigits hdigits Str.hexText_ne_nil (by rw [hvalue]; exact hn), hvalue]

theorem fromHexStringToUnsignedInt_fourDigits (h : HexDigits 4 s) :
    fromHexStringToUnsignedInt s = .ok (Str.hexValue s) := by
  have hlt := h.hexValue_lt
  exact fromHexStringToUnsignedInt_hexDigits h.digits (h.ne_nil (by decide)) (by omega)

theorem HexDigits.hexText_hexValue (h : HexDigits 4 s) :
    fromUnsignedIntToHexString (Str.hexValue s) 4 = s.map Char.toUpper := by
  have htext := Str.hexText_hexValue h.digits (h.ne_nil (by decide))
  rw [h.length_eq] at htext
  exact htext

/-- The legacy check accepts the four digits that `AMFVALUE` is printed as, in either case, and no other ones. -/
theorem legacyCheck_managementField_iff (ht : HexDigits 4 t) :
    Silent (checkAuthenticationManagementFieldWithLegacy (some t) (some amfValue) p) true ↔
      t.map Char.toUpper = fromUnsignedIntToHexString (toUnsigned amfValue) 4 := by
  have hread := fromHexStringToUnsignedInt_fourDigits ht
  rw [silent_checkAuthenticationManagementFieldWithLegacy, ← ht.hexText_hexValue]
  constructor
  · intro hagree
    obtain ⟨value, hvalue, hequal⟩ := hagree t rfl
    obtain rfl := Except.ok.inj (hread.symm.trans hvalue)
    rw [hequal amfValue rfl]
  · intro htext text htext'
    obtain rfl := Option.some.inj htext'
    refine ⟨_, hread, fun n hn => ?_⟩
    obtain rfl := Option.some.inj hn
    -- the printed texts denote the two numbers
    have hvalue := congrArg Str.hexValue htext
    unfold fromUnsignedIntToHexString at hvalue
    rwa [Str.hexValue_hexText, Str.hexValue_hexText] at hvalue

end Conversions

/-- **The conversions are inverse to each other**: a number is printed with at least the width and read again, four
digits are read and printed in upper case, and what is filled in for an `AMFVALUE` of 16 bits is the text of four
digits that the legacy check accepts. -/
theorem hexConversions_inverse :
    (∀ n w, n < 2 ^ 32 → w < 2 ^ 31 →
      fromHexStringToUnsignedInt (fromUnsignedIntToHexString n w) = .ok n ∧
        (fromUnsignedIntToHexString n w).length = max w (Nat.toDigits 16 n).length) ∧
    (∀ s, HexDigits 4 s → ∃ value, fromHexStringToUnsignedInt s = .ok value ∧
      fromUnsignedIntToHexString value 4 = s.map Char.toUpper) ∧
    ∀ (d : AuthSubscriptionStaticData) (l : AuthSubscriptionLegacy) (amfValue : Int) (p : Str),
      d.authenticationManagementField = none → l.amfValue = some amfValue → 0 ≤ amfValue → amfValue ≤ 65535 →
      ∃ filled, (fillOptionalAuthSubscriptionStaticAttributes d l).authenticationManagementField = some filled ∧
        HexDigits 4 filled ∧ Silent (checkAuthenticationManagementFieldWithLegacy (some filled) l.amfValue p) true ∧
        ∀ t, HexDigits 4 t →
          (Silent (checkAuthenticationManagementFieldWithLegacy (some t) l.amfValue p) true ↔
            t.map Char.toUpper = filled) := by
  refine ⟨fun n w hn _ => ?_, fun s hs => ?_, fun d l amfValue p hd hl hmin hmax => ?_⟩
  · exact ⟨fromHexStringToUnsignedInt_hexText w hn, Str.length_hexText w n⟩
  · exact ⟨_, fromHexStringToUnsignedInt_fourDigits hs, hs.hexText_hexValue⟩
  · have hlt : toUnsigned amfValue < 16 ^ 4 := by
      unfold toUnsigned
      omega
    have hfilled : HexDigits 4 (fromUnsignedIntToHexString (toUnsigned amfValue) 4) :=
      ⟨Str.isHexDigit_hexText, (Str.length_hexText_eq_iff (by decide)).mpr hlt⟩
    rw [hl]
    refine ⟨fromUnsignedIntToHexString (toUnsigned amfValue) 4, ?_, hfilled, ?_, fun t ht => ?_⟩
    · show fillOptionalAttribute d.authenticationManagementField (l.amfValue.map _) = _
      rw [hd, hl]
      rfl
    · -- the printed text is in upper case already
      have hupper := hfilled.hexText_hexValue
      apply (legacyCheck_managementField_iff hfilled).mpr
      unfold fromUnsignedIntToHexString at hupper ⊢
      rw [Str.hexValue_hexText] at hupper
      exact hupper.symm
    · exact legacyCheck_managementField_iff ht

theorem hexConversions_inverse_example :
    fromUnsignedIntToHexString 21 4 = "0015".toList ∧
      (fromHexStringToUnsignedInt (fromUnsignedIntToHexString 21 4) = .ok 21 ∧
        (fromUnsignedIntToHexString 21 4).length = max 4 (Nat.toDigits 16 21).length) ∧
      (∃ value, fromHexStringToUnsignedInt "b9B9" = .ok value ∧
        fromUnsignedIntToHexString value 4 = ("b9B9".toList).map Char.toUpper) ∧
      ∃ filled,
        (fillOptionalAuthSubscriptionStaticAttributes {} { amfValue := some 47545 }).authenticationManagementField =
          some filled ∧ HexDigits 4 filled ∧
        Silent (checkAuthenticationManagementFieldWithLegacy (some filled) (some 47545) []) true ∧
        ∀ t, HexDigits 4 t →
          (Silent (checkAuthenticationManagementFieldWithLegacy (some t) (some 47545) []) true ↔
            t.map Char.toUpper = filled) := by
  obtain ⟨hnumber, htext, hfill⟩ := hexConversions_inverse
  refine ⟨by decide, hnumber 21 4 (by decide) (by decide), htext _ ⟨List.all_eq_true.mp (by decide), by decide⟩, ?_⟩
  exact hfill {} { amfValue := some 47545 } 47545 [] rfl rfl (by decide) (by decide)

end AuthProvValidator
