import AuthProvValidator.Entities.NextToLegacy

/-!
# The dynamic data of an answered creation

* `SqnOf seqHe sqn` : twelve digits that denote `seqHe`, shifted left by five bits within 48;
* `computeSqnFromSeqHe_spec` : every text that is not white space only has such a sequence number;
* `applyValidationRules_dynamicData` : what every answered creation has as its dynamic data (`DynamicDataOf`).
-/

namespace AuthProvValidator
open Recorder

/-- A digit as `std::uppercase` prints it: `[0-9A-F]`. -/
def isUpperHexDigit (c : Char) : Bool := Str.isDecDigit c || ('A' ≤ c && c ≤ 'F')

/-- The sequence number of a `SEQHE`: twelve digits and, where `SEQHE` is a hexadecimal number of 64 bits, its value
times 32 within 48 bits. -/
structure SqnOf (seqHe sqn : Str) : Prop where
  length_eq : sqn.length = 12
  digits : ∀ c ∈ sqn, isUpperHexDigit c = true
  value : (∀ c ∈ seqHe, Str.isHexDigit c = true) → 1 ≤ seqHe.length → seqHe.length ≤ 16 →
    Str.hexValue sqn = Str.hexValue seqHe * 32 % 2 ^ 48

structure LegacyDynamicData (l : AuthSubscriptionLegacy) (dynData : AuthSubscriptionDynamicData) : Prop where
  timeBased : l.seqHe = none ∨ l.seqHe = some "FFFFFFFFFFFF" →
    dynData.sqnScheme = some "TIME_BASED" ∧ dynData.sqn = none
  nonTimeBased : ∀ seqHe, l.seqHe = some seqHe → seqHe ≠ "FFFFFFFFFFFF" →
    dynData.sqnScheme = some "NON_TIME_BASED" ∧ ∃ sqn, dynData.sqn = some sqn ∧ SqnOf seqHe sqn

structure DynamicDataOf (R : RelatedResources) (i : Str) (dynData : AuthSubscriptionDynamicData) : Prop where
  lastIndexesList : dynData.lastIndexesList = none
  fresh : R[LEGACY_BASE_PATH ++ i]? = none →
    dynData.sqnScheme = some "NON_TIME_BASED" ∧ dynData.sqn = some (List.replicate 12 '0')
  legacy : ∀ r, R[LEGACY_BASE_PATH ++ i]? = some r → ∃ l, r = .authSubscriptionLegacy l ∧ LegacyDynamicData l dynData

/-! ## The sequence number -/

section Sqn
variable {seqHe sqn : Str} {bits : BitVec SEQHE_BITS_LENGTH}

/-- The digits of 48 bits fill the width they are printed with at most, so that no fewer than zero have to be added. -/
theorem length_toDigits_bits (bits : BitVec SEQHE_BITS_LENGTH) :
    (Nat.toDigits 16 bits.toNat).length ≤ SEQHE_BITS_LENGTH / BITS_PER_CHAR := by
  have hwidth : SEQHE_BITS_LENGTH / BITS_PER_CHAR = 12 := rfl
  have hlt : bits.toNat < 16 ^ 12 := bits.isLt
  rw [hwidth, Nat.length_toDigits_le_iff (by decide) (by decide)]
  exact hlt

theorem length_fromBitsetToHexString : (fromBitsetToHexString bits).length = 12 :=
  (Str.length_hexText_eq_iff (by decide)).mpr bits.isLt

theorem isUpperHexDigit_fromBitsetToHexString : ∀ c ∈ fromBitsetToHexString bits, isUpperHexDigit c = true :=
  Str.forall_hexText (by decide)

theorem toNat_shiftLeft_five (n : Nat) : (BitVec.ofNat SEQHE_BITS_LENGTH n <<< 5).toNat = n * 32 % 2 ^ 48 := by
  rw [BitVec.toNat_shiftLeft, BitVec.toNat_ofNat, Nat.shiftLeft_eq]
  show n % 2 ^ 48 * 32 % 2 ^ 48 = n * 32 % 2 ^ 48
  omega

/-- **The sequence number of a text that is not white space only.** -/
theorem computeSqnFromSeqHe_spec (h : ∃ c ∈ seqHe, Str.isSpace c = false) :
    ∃ sqn, computeSqnFromSeqHe seqHe = .ok sqn ∧ SqnOf seqHe sqn := by
  obtain ⟨tempValue, hvalue⟩ := Option.isSome_iff_exists.mp (Str.extractHex_isSome_iff.mpr h)
  refine ⟨fromBitsetToHexString (BitVec.ofNat SEQHE_BITS_LENGTH tempValue <<< 5), ?_, ?_⟩
  · rw [computeSqnFromSeqHe, fromHexStringToBitset, hvalue, ok_bind, pure_eq_ok]
  · refine ⟨length_fromBitsetToHexString, isUpperHexDigit_fromBitsetToHexString, fun hdigits hmin hmax => ?_⟩
    have hlt : Str.hexValue seqHe < 2 ^ 64 := by
      have hpow : 16 ^ seqHe.length ≤ 16 ^ 16 := Nat.pow_le_pow_right (by decide) hmax
      have hbound := Str.hexValue_lt hdigits
      omega
    have hextract := Str.extractHex_hexDigits (List.length_pos_iff.mp hmin) hdigits hlt
    rw [hvalue, Option.some.injEq] at hextract
    rw [fromBitsetToHexString, Str.hexValue_hexText, toNat_shiftLeft_five, hextract]

example : computeSqnFromSeqHe "1032547698BA" = .ok "064A8ED31740".toList := by decide

theorem sqnOf_of_computeSqnFromSeqHe (h : computeSqnFromSeqHe seqHe = .ok sqn) : SqnOf seqHe sqn := by
  have hspace : ∃ c ∈ seqHe, Str.isSpace c = false := by
    rw [← @Str.extractHex_isSome_iff 64]
    cases hextract : Str.extractHex 64 seqHe with
    | some tempValue => rfl
    | none =>
      rw [computeSqnFromSeqHe, fromHexStringToBitset, hextract, error_bind] at h
      cases h
  obtain ⟨sqn', hsqn', hof⟩ := computeSqnFromSeqHe_spec hspace
  obtain rfl := Except.ok.inj (h.symm.trans hsqn')
  exact hof

end Sqn

/-! ## The answers -/

section Answers
variable {R : RelatedResources} {c c' : Change} {l : AuthSubscriptionLegacy} {dynData : AuthSubscriptionDynamicData}
  {x i : Str}

theorem legacyDynamicData_of_ok (h : legacyDynamicData l = .ok dynData) :
    dynData.lastIndexesList = none ∧ LegacyDynamicData l dynData := by
  unfold legacyDynamicData at h
  cases hseq : l.seqHe with
  | none =>
    rw [hseq] at h
    obtain rfl := Except.ok.inj h
    refine ⟨rfl, fun _ => ⟨rfl, rfl⟩, fun seqHe hsome => ?_⟩
    rw [hseq] at hsome
    cases hsome
  | some seqHe =>
    simp only [hseq] at h
    by_cases hinv : seqHe = SEQHE_INVALID_VALUE
    · rw [if_pos (beq_iff_eq.mpr hinv)] at h
      obtain rfl := Except.ok.inj h
      refine ⟨rfl, fun _ => ⟨rfl, rfl⟩, fun seqHe' hsome hne => ?_⟩
      rw [hseq] at hsome
      exact absurd ((Option.some.inj hsome).symm.trans hinv) hne
    · rw [if_neg (by simpa using hinv)] at h
      obtain ⟨sqn, hsqn, h⟩ := bind_eq_ok.mp h
      obtain rfl := Except.ok.inj h
      refine ⟨rfl, fun hnone => ?_, fun seqHe' hsome _ => ⟨rfl, sqn, rfl, ?_⟩⟩
      · rw [hseq] at hnone
        rcases hnone with hnone | hnone
        · cases hnone
        · exact absurd (Option.some.inj hnone) hinv
      · rw [hseq] at hsome
        rw [← Option.some.inj hsome]
        exact sqnOf_of_computeSqnFromSeqHe hsqn

/-- **The dynamic data of a creation.** -/
theorem dynamicData_of_mutations (hc : c.operation = JSON_OPERATION_CREATE) (hi : IsImsi i)
    (hpath : c.resourcePath.cStr = staticDataPath x i) (hmut : computeMutations R c = .ok c') :
    ∃ dynData, c'.authSubscription.authSubscriptionDynamicData = some dynData ∧ DynamicDataOf R i dynData := by
  have hs : checkAuthSubscriptionStaticDataUri c.resourcePath = true := (staticData_imsi_iff.mpr ⟨x, i, hi, hpath⟩).1
  have hlookup : getLegacyPathFromResourcePath c.resourcePath = LEGACY_BASE_PATH ++ i :=
    getLegacyPath_of_cStr_eq hi hpath
  cases computeMutations_mutation hmut with
  | legacy _ _ hl hd =>
    rw [hlookup] at hl
    obtain ⟨hindexes, hdata⟩ := legacyDynamicData_of_ok hd
    refine ⟨_, rfl, hindexes, fun hnone => ?_, fun r hr => ?_⟩
    · rw [hl] at hnone
      cases hnone
    · rw [hl] at hr
      exact ⟨_, (Option.some.inj hr).symm, hdata⟩
  | fresh _ _ hl =>
    rw [hlookup] at hl
    refine ⟨_, rfl, rfl, fun _ => ⟨rfl, rfl⟩, fun r hr => ?_⟩
    rw [hl] at hr
    cases hr
  | reset hu => exact absurd hc (update_ne_create hu)
  | kept hnot => exact absurd hs (hnot hc)

end Answers

/-- **The dynamic data of every creation that a run answers; the sequence number is defined for every text that is not
white space only, and its digits never exceed the width they are printed with.** -/
theorem applyValidationRules_dynamicData (data : ValidationData) (o : Outcome) (h : applyValidationRules data = .ok o) :
    (∃ added, o.response.changes = data.response.changes ++ added ∧ ∀ c' ∈ added,
      c'.operation = JSON_OPERATION_CREATE → ∀ x i, IsImsi i → c'.resourcePath.cStr = staticDataPath x i →
        ∃ dynData, c'.authSubscription.authSubscriptionDynamicData = some dynData ∧
          DynamicDataOf data.relatedResources i dynData) ∧
      (∀ seqHe, (∃ c ∈ seqHe, Str.isSpace c = false) → ∃ sqn, computeSqnFromSeqHe seqHe = .ok sqn) ∧
      ∀ bits : BitVec SEQHE_BITS_LENGTH,
        (Nat.toDigits 16 bits.toNat).length ≤ SEQHE_BITS_LENGTH / BITS_PER_CHAR := by
  refine ⟨?_, fun seqHe hspace => ?_, length_toDigits_bits⟩
  · obtain ⟨⟨run, E⟩, hloop, hret⟩ := bind_eq_ok.mp h
    obtain rfl := Except.ok.inj hret
    obtain ⟨added, hadded, haccepted⟩ := accepted_of_added hloop
    refine ⟨added, hadded, fun c' hmem hop x i hi hpath => ?_⟩
    obtain ⟨pre, c, post, -, hacc⟩ := haccepted c' hmem (Or.inl hop)
    obtain ⟨hop', hpath', -⟩ := computeMutations_frame hacc.mutations
    exact dynamicData_of_mutations (hop'.symm.trans hop) hi (by rw [← hpath']; exact hpath) hacc.mutations
  · obtain ⟨sqn, hsqn, -⟩ := computeSqnFromSeqHe_spec hspace
    exact ⟨sqn, hsqn⟩

def creationWithSeqHe : ValidationData where
  changes := [{
    operation := JSON_OPERATION_CREATE
    resourcePath := staticDataPath "a" "12345"
    authSubscription := { authSubscriptionStaticData := some { authenticationMethod := JSON_5G_AKA } } }]
  relatedResources := (∅ : RelatedResources).insert (LEGACY_BASE_PATH ++ "12345")
    (.authSubscriptionLegacy { akaType := some 1, seqHe := some "1032547698BA" })

/-- The creation is answered with the sequence number of its `SEQHE`. -/
theorem applyValidationRules_dynamicData_example :
    ∃ (o : Outcome) (c' : Change) (dynData : AuthSubscriptionDynamicData),
      applyValidationRules creationWithSeqHe = .ok o ∧ o.response.changes = [c'] ∧
      c'.operation = JSON_OPERATION_CREATE ∧
      c'.authSubscription.authSubscriptionDynamicData = some dynData ∧ dynData.sqn = some "064A8ED31740".toList ∧
      DynamicDataOf creationWithSeqHe.relatedResources "12345" dynData := by
  obtain ⟨o, hrun, hadded⟩ := exists_outcome creationWithSeqHe
    (fun o => o.response.changes.map fun c =>
      (c.operation, c.resourcePath, c.authSubscription.authSubscriptionDynamicData.bind (·.sqn)))
    (a := [(JSON_OPERATION_CREATE, staticDataPath "a" "12345", some "064A8ED31740".toList)]) (by decide)
  obtain ⟨c', hchanges, hc'⟩ := List.map_eq_singleton_iff.mp hadded
  obtain ⟨hop, hpath, hsqn⟩ : c'.operation = _ ∧ c'.resourcePath = _ ∧ _ := by simpa using hc'
  obtain ⟨⟨added, hall, hdynamic⟩, -⟩ := applyValidationRules_dynamicData creationWithSeqHe o hrun
  have hmem : c' ∈ added := by
    have hsame : o.response.changes = added := hall
    rw [← hsame, hchanges]
    exact List.mem_singleton_self c'
  have hcStr : c'.resourcePath.cStr = staticDataPath "a" "12345" := by
    rw [hpath]
    decide
  obtain ⟨dynData, hdyn, hof⟩ := hdynamic c' hmem hop "a" "12345" (by decide) hcStr
  rw [hdyn] at hsqn
  exact ⟨o, c', dynData, hrun, hchanges, hop, hdyn, hsqn, hof⟩

end AuthProvValidator
