import AuthProvValidator.Entities.Formats
import AuthProvValidator.Properties.DynamicData

/-!
# The sequence number scheme and the spelling of `SEQHE`

The reserved value of `SEQHE` is recognized by its text, any other one is read as a number.

* `legacyDynamicData_hexDigits` : the dynamic data next to a `SEQHE` of twelve hexadecimal digits;
* `computeMutations_seqHe_spelling` : two spellings of a number make the same dynamic data exactly when the number is
  not the reserved one, or is spelled in upper case both times.
-/

namespace AuthProvValidator
open Recorder

/-- The value that all 48 bits of a `SEQHE` denote. -/
def SEQHE_ALL_ONES : Nat := 2 ^ 48 - 1

/-- The mutations of `c` are defined and have these dynamic data. -/
def AnsweredWith (R : RelatedResources) (c : Change) (dynData : AuthSubscriptionDynamicData) : Prop :=
  ∃ c', computeMutations R c = .ok c' ∧ c'.authSubscription.authSubscriptionDynamicData = some dynData

/-- The mutations of `c` have the same scheme and the same sequence number with either resources, and the all-ones value
is time based. -/
def SameSequence (R₁ R₂ : RelatedResources) (c : Change) (value : Nat) : Prop :=
  ∃ dynData₁ dynData₂, AnsweredWith R₁ c dynData₁ ∧ AnsweredWith R₂ c dynData₂ ∧
    dynData₁.sqnScheme = dynData₂.sqnScheme ∧ dynData₁.sqn = dynData₂.sqn ∧
    (value = SEQHE_ALL_ONES → dynData₁.sqnScheme = some "TIME_BASED")

/-- The dynamic data for a `SEQHE` of twelve hexadecimal digits. -/
def dynamicDataOfSeqHe (seqHe : Str) : AuthSubscriptionDynamicData :=
  if seqHe = SEQHE_INVALID_VALUE then { sqnScheme := some "TIME_BASED" }
  else { sqnScheme := some "NON_TIME_BASED", sqn := some (Str.hexText 12 (Str.hexValue seqHe * 32 % 2 ^ 48)) }

section Spelling
variable {R R₁ R₂ : RelatedResources} {c : Change} {l : AuthSubscriptionLegacy} {seqHe s₁ s₂ x i : Str}

theorem computeSqnFromSeqHe_hexDigits (h : HexDigits 12 seqHe) :
    computeSqnFromSeqHe seqHe = .ok (Str.hexText 12 (Str.hexValue seqHe * 32 % 2 ^ 48)) := by
  have hlt : Str.hexValue seqHe < 2 ^ 64 := by
    have hbound := h.hexValue_lt
    omega
  rw [computeSqnFromSeqHe, fromHexStringToBitset, Str.extractHex_hexDigits (h.ne_nil (by decide)) h.digits hlt,
    ok_bind, pure_eq_ok, fromBitsetToHexString, toNat_shiftLeft_five]
  rfl

theorem legacyDynamicData_hexDigits (h : HexDigits 12 seqHe) :
    legacyDynamicData { l with seqHe := some seqHe } = .ok (dynamicDataOfSeqHe seqHe) := by
  unfold legacyDynamicData dynamicDataOfSeqHe
  dsimp only
  by_cases hinv : seqHe = SEQHE_INVALID_VALUE
  · rw [if_pos (beq_iff_eq.mpr hinv), if_pos hinv]
    rfl
  · rw [if_neg (by simpa using hinv), if_neg hinv, computeSqnFromSeqHe_hexDigits h]
    rfl

theorem hexValue_sentinel : Str.hexValue SEQHE_INVALID_VALUE = SEQHE_ALL_ONES := by decide

theorem sqnScheme_eq_timeBased_iff :
    (dynamicDataOfSeqHe seqHe).sqnScheme = some "TIME_BASED" ↔ seqHe = SEQHE_INVALID_VALUE := by
  unfold dynamicDataOfSeqHe
  by_cases hinv : seqHe = SEQHE_INVALID_VALUE
  · rw [if_pos hinv]
    exact iff_of_true rfl hinv
  · rw [if_neg hinv]
    exact iff_of_false (fun hscheme => absurd (Option.some.inj hscheme) (by decide)) hinv

/-- Any other value is read as a number, whatever its spelling is. -/
theorem dynamicDataOfSeqHe_of_ne (hne : Str.hexValue seqHe ≠ SEQHE_ALL_ONES) : dynamicDataOfSeqHe seqHe =
    { sqnScheme := some "NON_TIME_BASED", sqn := some (Str.hexText 12 (Str.hexValue seqHe * 32 % 2 ^ 48)) } := by
  apply if_neg
  intro hinv
  rw [hinv] at hne
  exact hne hexValue_sentinel

theorem answeredWith_iff {dynData : AuthSubscriptionDynamicData} (hc : c.operation = JSON_OPERATION_CREATE)
    (hi : IsImsi i) (hpath : c.resourcePath.cStr = staticDataPath x i)
    (hl : R[LEGACY_BASE_PATH ++ i]? = some (.authSubscriptionLegacy { l with seqHe := some seqHe }))
    (h : HexDigits 12 seqHe) : AnsweredWith R c dynData ↔ dynData = dynamicDataOfSeqHe seqHe := by
  have hs : checkAuthSubscriptionStaticDataUri c.resourcePath = true := (staticData_imsi_iff.mpr ⟨x, i, hi, hpath⟩).1
  rw [← getLegacyPath_of_cStr_eq hi hpath] at hl
  have hmut := computeMutations_create_legacy hs hc hl
  rw [legacyDynamicData_hexDigits h] at hmut
  constructor
  · intro hanswered
    obtain ⟨c', hc', hdyn⟩ := hanswered
    obtain rfl := Except.ok.inj (hmut.symm.trans hc')
    exact (Option.some.inj hdyn).symm
  · intro hdyn
    rw [hdyn]
    exact ⟨_, hmut, rfl⟩

end Spelling

/-- **The scheme depends on the spelling of the all-ones value only**: two spellings of one number make the same
sequence number and scheme exactly when the number is not the all-ones value, or both are the sentinel. -/
theorem computeMutations_seqHe_spelling (R₁ R₂ : RelatedResources) (c : Change) (x i : Str) (l : AuthSubscriptionLegacy)
    (s₁ s₂ : Str) (hc : c.operation = JSON_OPERATION_CREATE) (hi : IsImsi i)
    (hpath : c.resourcePath.cStr = staticDataPath x i)
    (hl₁ : R₁[LEGACY_BASE_PATH ++ i]? = some (.authSubscriptionLegacy { l with seqHe := some s₁ }))
    (hl₂ : R₂[LEGACY_BASE_PATH ++ i]? = some (.authSubscriptionLegacy { l with seqHe := some s₂ }))
    (h₁ : HexDigits 12 s₁) (h₂ : HexDigits 12 s₂) (hvalue : Str.hexValue s₁ = Str.hexValue s₂) :
    SameSequence R₁ R₂ c (Str.hexValue s₁) ↔
      (Str.hexValue s₁ = SEQHE_ALL_ONES → s₁ = "FFFFFFFFFFFF" ∧ s₂ = "FFFFFFFFFFFF") := by
  have hsame : SameSequence R₁ R₂ c (Str.hexValue s₁) ↔
      (dynamicDataOfSeqHe s₁).sqnScheme = (dynamicDataOfSeqHe s₂).sqnScheme ∧
        (dynamicDataOfSeqHe s₁).sqn = (dynamicDataOfSeqHe s₂).sqn ∧
        (Str.hexValue s₁ = SEQHE_ALL_ONES → (dynamicDataOfSeqHe s₁).sqnScheme = some "TIME_BASED") := by
    unfold SameSequence
    simp only [answeredWith_iff hc hi hpath hl₁ h₁, answeredWith_iff hc hi hpath hl₂ h₂,
      exists_and_left, exists_eq_left]
  rw [hsame, sqnScheme_eq_timeBased_iff]
  show _ ↔ (_ → s₁ = SEQHE_INVALID_VALUE ∧ s₂ = SEQHE_INVALID_VALUE)
  constructor
  · intro hequal hones
    have hinv₁ : s₁ = SEQHE_INVALID_VALUE := hequal.2.2 hones
    have htime : (dynamicDataOfSeqHe s₁).sqnScheme = some "TIME_BASED" := sqnScheme_eq_timeBased_iff.mpr hinv₁
    rw [hequal.1] at htime
    exact ⟨hinv₁, sqnScheme_eq_timeBased_iff.mp htime⟩
  · intro hboth
    have hdata : dynamicDataOfSeqHe s₁ = dynamicDataOfSeqHe s₂ := by
      by_cases hones : Str.hexValue s₁ = SEQHE_ALL_ONES
      · rw [(hboth hones).1, (hboth hones).2]
      · have hones₂ : Str.hexValue s₂ ≠ SEQHE_ALL_ONES := by
          rw [← hvalue]
          exact hones
        rw [dynamicDataOfSeqHe_of_ne hones, dynamicDataOfSeqHe_of_ne hones₂, hvalue]
    rw [hdata]
    exact ⟨rfl, rfl, fun hones => (hboth hones).1⟩

def creationNextToSeqHe (seqHe : Str) : ValidationData where
  changes := [{
    operation := JSON_OPERATION_CREATE
    resourcePath := staticDataPath "a" "12345"
    authSubscription := { authSubscriptionStaticData := some { authenticationMethod := JSON_5G_AKA } } }]
  relatedResources := (∅ : RelatedResources).insert (LEGACY_BASE_PATH ++ "12345")
    (.authSubscriptionLegacy { akaType := some 1, seqHe := some seqHe })

/-- The all-ones value in lower case is not recognized. -/
theorem creationNextToSeqHe_lowerCase :
    ¬ ∀ (R₁ R₂ : RelatedResources) (c : Change) (x i : Str) (l : AuthSubscriptionLegacy) (s₁ s₂ : Str),
      c.operation = JSON_OPERATION_CREATE → IsImsi i → c.resourcePath.cStr = staticDataPath x i →
      (∃ o, applyValidationRules { changes := [c], relatedResources := R₁ } = .ok o ∧ o.verdict.validation = true) →
      (∃ o, applyValidationRules { changes := [c], relatedResources := R₂ } = .ok o ∧ o.verdict.validation = true) →
      R₁[LEGACY_BASE_PATH ++ i]? = some (.authSubscriptionLegacy { l with seqHe := some s₁ }) →
      R₂[LEGACY_BASE_PATH ++ i]? = some (.authSubscriptionLegacy { l with seqHe := some s₂ }) →
      HexDigits 12 s₁ → HexDigits 12 s₂ → Str.hexValue s₁ = Str.hexValue s₂ →
      SameSequence R₁ R₂ c (Str.hexValue s₁) := by
  intro h
  have himsi : IsImsi "12345" := by decide
  have hupper : HexDigits 12 "FFFFFFFFFFFF" := ⟨List.all_eq_true.mp (by decide), by decide⟩
  have hlower : HexDigits 12 "ffffffffffff" := ⟨List.all_eq_true.mp (by decide), by decide⟩
  have hpath : (staticDataPath "a" "12345").cStr = staticDataPath "a" "12345" := by decide
  have hstored : ∀ seqHe, (creationNextToSeqHe seqHe).relatedResources[LEGACY_BASE_PATH ++ "12345"]? =
      some (.authSubscriptionLegacy { akaType := some 1, seqHe := some seqHe }) := by
    intro seqHe
    exact Std.ExtTreeMap.getElem?_insert_self
  have hsame := h _ _ _ "a" "12345" { akaType := some 1 } _ _ rfl himsi hpath
    (exists_outcome (creationNextToSeqHe "FFFFFFFFFFFF") (fun o => o.verdict.validation) (by decide))
    (exists_outcome (creationNextToSeqHe "ffffffffffff") (fun o => o.verdict.validation) (by decide))
    (hstored _) (hstored _) hupper hlower (by decide)
  obtain ⟨dynData₁, dynData₂, hd₁, hd₂, hscheme, -⟩ := hsame
  have heq₁ := (answeredWith_iff (l := { akaType := some 1 }) rfl himsi hpath (hstored _) hupper).mp hd₁
  have heq₂ := (answeredWith_iff (l := { akaType := some 1 }) rfl himsi hpath (hstored _) hlower).mp hd₂
  rw [heq₁, heq₂] at hscheme
  exact absurd hscheme (by decide)

theorem computeMutations_seqHe_spelling_example :
    ∃ c, (creationNextToSeqHe "ABCDEFabcdef").changes = [c] ∧
      SameSequence (creationNextToSeqHe "ABCDEFabcdef").relatedResources
        (creationNextToSeqHe "abcdefABCDEF").relatedResources c (Str.hexValue "ABCDEFabcdef") := by
  refine ⟨_, rfl, ?_⟩
  apply (computeMutations_seqHe_spelling _ _ _ "a" "12345" { akaType := some 1 } "ABCDEFabcdef" "abcdefABCDEF" rfl
    ⟨List.all_eq_true.mp (by decide), by decide, by decide⟩ (by decide) Std.ExtTreeMap.getElem?_insert_self
    Std.ExtTreeMap.getElem?_insert_self ⟨List.all_eq_true.mp (by decide), by decide⟩
    ⟨List.all_eq_true.mp (by decide), by decide⟩ (by decide)).mpr
  intro hones
  exact absurd hones (by decide)

end AuthProvValidator
