import AuthProvValidator.Properties.LegacyAgreement
import AuthProvValidator.Properties.UpdateRule

/-!
# Creations with the values of a legacy subscription

The common rules accept any spelling of a number, `KIND`, `A4IND` and `FSETIND` are compared with it as the text that
`std::to_string` prints.

* `SameValues d l` : what is defined on both sides denotes the same value;
* `SpelledAsPrinted d l` : the three decimal attributes that are compared are spelled without leading zeros;
* `applyValidationRules_sameValues` : a creation with the same values passes the legacy check and is accepted exactly
  when they are, and the sequence number of the legacy subscription is not blank.
-/

namespace AuthProvValidator
open Recorder

/-- A text in decimal digits, in any spelling, for a number. -/
def DenotesDecimal (text : Str) (n : Int) : Prop := Str.IsDecimal text ∧ (Str.decValue text : Int) = n

/-- Where both attributes are defined they are related. -/
def BothDefined {α β : Type} (attr : Option α) (attrLegacy : Option β) (related : α → β → Prop) : Prop :=
  ∀ a l, attr = some a → attrLegacy = some l → related a l

structure SameValues (d : AuthSubscriptionStaticData) (l : AuthSubscriptionLegacy) : Prop where
  encPermanentKey : BothDefined d.encPermanentKey l.eki (· = ·)
  a4KeyInd : BothDefined d.a4KeyInd l.kind DenotesDecimal
  a4Ind : BothDefined d.a4Ind l.a4Ind DenotesDecimal
  algorithmId : BothDefined d.algorithmId l.fSetInd DenotesDecimal
  authenticationManagementField : BothDefined d.authenticationManagementField l.amfValue (HexText DenotesInt)
  encOpcKey : BothDefined d.encOpcKey l.eopc (· = ·)
  akaAlgorithmInd : BothDefined d.akaAlgorithmInd l.akaAlgInd DenotesDecimal

/-- No leading zeros in the decimal attributes that are compared as texts. -/
structure SpelledAsPrinted (d : AuthSubscriptionStaticData) (l : AuthSubscriptionLegacy) : Prop where
  a4KeyInd : BothDefined d.a4KeyInd l.kind fun text _ => ¬ Str.LeadingZero text
  a4Ind : BothDefined d.a4Ind l.a4Ind fun text _ => ¬ Str.LeadingZero text
  algorithmId : BothDefined d.algorithmId l.fSetInd fun text _ => ¬ Str.LeadingZero text

/-- The sequence number, if there is a valid one, has a character that is no white space. -/
def SeqHeNotBlank (l : AuthSubscriptionLegacy) : Prop :=
  ∀ seqHe, l.seqHe = some seqHe → seqHe ≠ SEQHE_INVALID_VALUE → ∃ c ∈ seqHe, Str.isSpace c = false

section Comparison
variable {d : AuthSubscriptionStaticData} {l : AuthSubscriptionLegacy} {attr : Option Str}

/-- The comparison of the texts adds that the number is spelled as it is printed. -/
theorem agree_to_string_iff {attrLegacy : Option Int} (h : BothDefined attr attrLegacy DenotesDecimal) :
    Agree attr (attrLegacy.map Str.to_string) ↔ BothDefined attr attrLegacy fun text _ => ¬ Str.LeadingZero text := by
  unfold Agree BothDefined
  constructor
  · intro hagree text n htext hn
    obtain ⟨hdecimal, -⟩ := h text n htext hn
    exact ((Str.eq_to_string_iff hdecimal).mp (hagree text _ htext (by rw [hn, Option.map_some]))).2
  · intro hzero text printed htext hprinted
    obtain ⟨n, hn, rfl⟩ := Option.map_eq_some_iff.mp hprinted
    obtain ⟨hdecimal, hvalue⟩ := h text n htext hn
    exact (Str.eq_to_string_iff hdecimal).mpr ⟨hvalue.symm, hzero text n htext hn⟩

theorem akaAlgorithmInd_printed (hpattern : ∀ t, attr = some t → checkPatternOnData akaAlgorithmIndRegex t = true)
    {attrLegacy : Option Int} (h : BothDefined attr attrLegacy DenotesDecimal) :
    BothDefined attr attrLegacy fun text _ => ¬ Str.LeadingZero text := by
  intro text n htext hn
  obtain ⟨hdecimal, -⟩ := h text n htext hn
  have hnul : '\x00' ∉ text := fun hin => absurd (hdecimal.digits _ hin) (by decide)
  obtain ⟨m, -, hdigits⟩ := checkPattern_akaAlgorithmInd_iff.mp (hpattern text htext)
  rw [Str.cStr_eq_self hnul] at hdigits
  rw [hdigits]
  exact Str.not_leadingZero_toDigits m

theorem agreeUnsigned_of_denotes {attrLegacy : Option Int}
    (hpattern : ∀ t, attr = some t → checkPatternOnData authenticationManagementFieldRegex t = true)
    (h : BothDefined attr attrLegacy (HexText DenotesInt)) : AgreeUnsigned attr attrLegacy := by
  intro text htext
  refine ⟨_, fromHexStringToUnsignedInt_amf (hpattern text htext), fun n hn => ?_⟩
  obtain ⟨hdigits, hlen⟩ := authenticationManagementField_iff.mp (hpattern text htext)
  have hlt := HexDigits.hexValue_lt ⟨hdigits, hlen⟩
  have hvalue : (Str.hexValue text.cStr : Int) = n := (h text n htext hn).value
  unfold toUnsigned
  omega

/-- **With the same values the comparison only looks at the spelling.** -/
theorem agreesWithLegacy_iff (h : SameValues d l)
    (hamf : ∀ t, d.authenticationManagementField = some t →
      checkPatternOnData authenticationManagementFieldRegex t = true)
    (haka : ∀ t, d.akaAlgorithmInd = some t → checkPatternOnData akaAlgorithmIndRegex t = true) :
    AgreesWithLegacy d l ↔ SpelledAsPrinted d l := by
  constructor
  · intro hagrees
    exact ⟨(agree_to_string_iff h.a4KeyInd).mp hagrees.a4KeyInd, (agree_to_string_iff h.a4Ind).mp hagrees.a4Ind,
      (agree_to_string_iff h.algorithmId).mp hagrees.algorithmId⟩
  · intro hspelled
    exact ⟨h.encPermanentKey, (agree_to_string_iff h.a4KeyInd).mpr hspelled.a4KeyInd,
      (agree_to_string_iff h.a4Ind).mpr hspelled.a4Ind, (agree_to_string_iff h.algorithmId).mpr hspelled.algorithmId,
      agreeUnsigned_of_denotes hamf h.authenticationManagementField, h.encOpcKey,
      (agree_to_string_iff h.akaAlgorithmInd).mpr (akaAlgorithmInd_printed haka h.akaAlgorithmInd)⟩

end Comparison

/-- A creation of static data that passes the common rules, with the values of the legacy subscription `l` for its
IMSI. -/
structure CreationWithValues (R : RelatedResources) (c : Change) (l : AuthSubscriptionLegacy) : Prop where
  operation : c.operation = JSON_OPERATION_CREATE
  stored : ∃ x i, IsImsi i ∧ c.resourcePath.cStr = staticDataPath x i ∧
    R[LEGACY_BASE_PATH ++ i]? = some (.authSubscriptionLegacy l)
  akaType : l.akaType = some 1
  common : ∃ resp, (checkForCommonAuthSubscriptionRules R c).run [] = .ok (resp, [])
  same : ∀ d, c.authSubscription.authSubscriptionStaticData = some d → SameValues d l

/-- The request with `c` last is valid, and `c` is answered under its operation and path, after `before`. -/
def AnsweredAfter (R : RelatedResources) (pre : List Change) (c : Change) (before : List Change) : Prop :=
  ∃ o c', applyValidationRules { changes := pre ++ [c], relatedResources := R } = .ok o ∧
    o.verdict = ⟨true, HTTP_OK⟩ ∧ o.response = ⟨before ++ [c'], []⟩ ∧
    c'.operation = c.operation ∧ c'.resourcePath = c.resourcePath

section Runs
variable {R : RelatedResources} {c : Change} {l : AuthSubscriptionLegacy} {pre : List Change} {o₁ : Outcome}

theorem CreationWithValues.lookup (h : CreationWithValues R c l) :
    pathClass c.resourcePath = .imsi ∧ checkAuthSubscriptionStaticDataUri c.resourcePath = true ∧
      R[getLegacyPathFromResourcePath c.resourcePath]? = some (.authSubscriptionLegacy l) :=
  legacy_lookup h.stored

theorem CreationWithValues.legacyRules_iff (h : CreationWithValues R c l) :
    LegacyRules R c ↔ ∀ d, c.authSubscription.authSubscriptionStaticData = some d → SpelledAsPrinted d l := by
  obtain ⟨-, -, hr⟩ := h.lookup
  have hcommon := checkForCommonAuthSubscriptionRules_iff.mp h.common
  have hagrees : ∀ d, c.authSubscription.authSubscriptionStaticData = some d →
      (AgreesWithLegacy d l ↔ SpelledAsPrinted d l) := by
    intro d hd
    have hrules := hcommon.static d hd
    refine agreesWithLegacy_iff (h.same d hd) (fun t ht => ?_) fun t ht => (hrules.akaAlgorithmInd t ht).1
    have hrule := hrules.authenticationManagementField
    rw [ht] at hrule
    exact hrule.1
  constructor
  · intro hrules d hd
    obtain ⟨l', hl', -, hall⟩ := hrules _ hr
    obtain rfl := Resource.authSubscriptionLegacy.inj hl'
    exact (hagrees d hd).mp (hall d hd)
  · intro hspelled r hr'
    obtain rfl := Option.some.inj (hr.symm.trans hr')
    exact ⟨l, rfl, h.akaType, fun d hd => (hagrees d hd).mpr (hspelled d hd)⟩

theorem CreationWithValues.conforms_iff (h : CreationWithValues R c l) : Conforms R c ↔ LegacyRules R c := by
  obtain ⟨hclass, -, -⟩ := h.lookup
  have hfirst : FirstRules R c := by
    simp only [FirstRules, hclass, if_pos h.operation]
    exact checkForCommonAuthSubscriptionRules_iff.mp h.common
  have hfurther : FurtherRules R c ↔ LegacyRules R c := by
    simp only [FurtherRules, hclass, if_pos h.operation]
  rw [Conforms, and_iff_right hfirst, hfurther]

theorem seqHeNotBlank_iff : SeqHeNotBlank l ↔ SeqHeReadable l := by
  unfold SeqHeNotBlank SeqHeReadable
  refine forall₃_congr fun seqHe _ _ => ?_
  rw [← Str.extractHex_isSome_iff, Option.isSome_iff_ne_none]

theorem CreationWithValues.mutations_iff (h : CreationWithValues R c l) :
    (∃ c', computeMutations R c = .ok c' ∧ c'.operation = c.operation ∧ c'.resourcePath = c.resourcePath) ↔
      SeqHeNotBlank l := by
  obtain ⟨-, hs, hr⟩ := h.lookup
  rw [seqHeNotBlank_iff, ← legacyDynamicData_ok_iff, computeMutations_create_legacy hs h.operation hr]
  cases legacyDynamicData l with
  | error e => exact iff_of_false (fun hex => by cases hex.choose_spec.1) fun hex => by cases hex.choose_spec
  | ok dynData => exact iff_of_true ⟨_, rfl, rfl, rfl⟩ ⟨dynData, rfl⟩

end Runs

/-- **A creation with the same values passes the legacy check and is accepted exactly when its numbers are spelled as
they are printed and the sequence number of the legacy subscription is not blank.** -/
theorem applyValidationRules_sameValues (R : RelatedResources) (pre : List Change) (c : Change) (o₁ : Outcome)
    (l : AuthSubscriptionLegacy) (h : applyValidationRules { changes := pre, relatedResources := R } = .ok o₁)
    (hpre : o₁.response.errors = []) (hc : CreationWithValues R c l) :
    ((checkForLegacyAuthSubscriptionRules R c).run [] = .ok (true, []) ∧ AnsweredAfter R pre c o₁.response.changes) ↔
      (∀ d, c.authSubscription.authSubscriptionStaticData = some d → SpelledAsPrinted d l) ∧ SeqHeNotBlank l := by
  have hsilent : (checkForLegacyAuthSubscriptionRules R c).run [] = .ok (true, []) ↔ LegacyRules R c :=
    silent_checkForLegacyAuthSubscriptionRules
  have hanswered : AnsweredAfter R pre c o₁.response.changes ↔ LegacyRules R c ∧ SeqHeNotBlank l := by
    rw [← hc.conforms_iff, ← hc.mutations_iff]
    exact answeredAfter_iff h hpre hc.lookup.1
  rw [hsilent, hanswered, and_self_left, hc.legacyRules_iff]

/-- A creation with a key indicator, next to a legacy subscription whose `KIND` is 5. -/
def creationOfKeyInd (a4KeyInd : Str) : Change where
  operation := JSON_OPERATION_CREATE
  resourcePath := staticDataPath "a" "12345"
  authSubscription := { authSubscriptionStaticData := some {
    authenticationMethod := JSON_5G_AKA
    a4KeyInd := some a4KeyInd } }

def legacyKindFive : AuthSubscriptionLegacy := { akaType := some 1, kind := some 5 }

def kindFiveResources : RelatedResources :=
  (∅ : RelatedResources).insert (LEGACY_BASE_PATH ++ "12345") (.authSubscriptionLegacy legacyKindFive)

theorem creationWithValues_keyInd {a4KeyInd : Str} (hfive : DenotesDecimal a4KeyInd 5)
    (hcommon : ((checkForCommonAuthSubscriptionRules kindFiveResources (creationOfKeyInd a4KeyInd)).run []).toOption.map
      (fun r => r.2.length) = some 0) :
    CreationWithValues kindFiveResources (creationOfKeyInd a4KeyInd) legacyKindFive where
  operation := rfl
  stored := by
    have himsi : IsImsi "12345" := by decide
    have hpath : (staticDataPath "a" "12345").cStr = staticDataPath "a" "12345" := by decide
    exact ⟨"a", "12345", himsi, hpath, Std.ExtTreeMap.getElem?_insert_self⟩
  akaType := rfl
  common := by
    obtain ⟨⟨resp, errors⟩, hrun, hlength⟩ := exists_of_toOption _ hcommon
    obtain rfl := List.length_eq_zero_iff.mp hlength
    exact ⟨resp, hrun⟩
  same := fun d hd => by
    obtain rfl := Option.some.inj hd
    refine ⟨nofun, fun text n htext hn => ?_, nofun, nofun, nofun, nofun, nofun⟩
    obtain rfl := Option.some.inj htext
    obtain rfl := Option.some.inj hn
    exact hfive

/-- A zero in front is taken for another value. -/
theorem creationOfKeyInd_refused :
    ¬ ∀ (R : RelatedResources) (pre : List Change) (c : Change) (o₁ : Outcome) (l : AuthSubscriptionLegacy),
      applyValidationRules { changes := pre, relatedResources := R } = .ok o₁ → o₁.response.errors = [] →
      CreationWithValues R c l →
      (checkForLegacyAuthSubscriptionRules R c).run [] = .ok (true, []) ∧
        AnsweredAfter R pre c o₁.response.changes := by
  intro h
  have hfive : DenotesDecimal "05" 5 := ⟨⟨by decide, List.all_eq_true.mp (by decide)⟩, by decide⟩
  have hsilent := (h kindFiveResources [] (creationOfKeyInd "05") ⟨⟨true, HTTP_OK⟩, ⟨[], []⟩⟩ legacyKindFive rfl rfl
    (creationWithValues_keyInd hfive (by decide))).1
  obtain ⟨r, hrun, hlength⟩ := exists_of_toOption
    (x := (checkForLegacyAuthSubscriptionRules kindFiveResources (creationOfKeyInd "05")).run [])
    (fun r => r.2.length) (b := 1) (by decide)
  obtain rfl := Except.ok.inj (hsilent.symm.trans hrun)
  exact absurd hlength (by decide)

theorem applyValidationRules_sameValues_example :
    ((checkForLegacyAuthSubscriptionRules kindFiveResources (creationOfKeyInd "5")).run [] = .ok (true, []) ∧
        AnsweredAfter kindFiveResources [] (creationOfKeyInd "5") []) ↔
      (∀ d, (creationOfKeyInd "5").authSubscription.authSubscriptionStaticData = some d →
        SpelledAsPrinted d legacyKindFive) ∧ SeqHeNotBlank legacyKindFive := by
  have hfive : DenotesDecimal "5" 5 := ⟨⟨by decide, List.all_eq_true.mp (by decide)⟩, by decide⟩
  exact applyValidationRules_sameValues kindFiveResources [] (creationOfKeyInd "5") ⟨⟨true, HTTP_OK⟩, ⟨[], []⟩⟩
    legacyKindFive rfl rfl (creationWithValues_keyInd hfive (by decide))

end AuthProvValidator
