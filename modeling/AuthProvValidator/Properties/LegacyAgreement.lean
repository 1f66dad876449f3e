import AuthProvValidator.Entities.Formats
import AuthProvValidator.Entities.NextToLegacy

/-!
# Creations next to a 4G legacy subscription

An accepted creation is answered with the attributes of the legacy subscription where it left them out, and its own must
agree with them; only `a4KeyV` is taken from `VNUMBER` without being compared with it.

* `LegacyAgreement` : static data that agrees with a legacy subscription in all eight attributes. `AMFVALUE` is an `int`
  that the code reads as an `unsigned int`, so there are two ways to say that a hexadecimal text denotes it:
  `DenotesUnsigned` and `DenotesInt`;
* `applyValidationRules_legacyAgreement` : the answered creations agree exactly when the accepted ones agree in
  `a4KeyV`, and for `DenotesInt` when `AMFVALUE` is not negative either.
-/

namespace AuthProvValidator
open Recorder Regex Regex.Expr

/-- A number as the `unsigned int` that an `int` converts to. -/
def DenotesUnsigned (value : Nat) (amfValue : Int) : Prop := value = toUnsigned amfValue

def DenotesInt (value : Nat) (amfValue : Int) : Prop := (value : Int) = amfValue

/-- A text of hexadecimal digits whose value denotes the number. -/
structure HexText (denotes : Nat → Int → Prop) (text : Str) (amfValue : Int) : Prop where
  ne_nil : Str.cStr text ≠ []
  digits : ∀ c ∈ Str.cStr text, Str.isHexDigit c = true
  value : denotes (Str.hexValue (Str.cStr text)) amfValue

/-- Where the legacy subscription defines an attribute, the static data defines it and denotes the same value. -/
structure LegacyAgreement (denotes : Nat → Int → Prop) (d : AuthSubscriptionStaticData) (l : AuthSubscriptionLegacy) :
    Prop where
  encPermanentKey : ∀ eki, l.eki = some eki → d.encPermanentKey = some eki
  a4KeyInd : ∀ kind, l.kind = some kind → d.a4KeyInd = some (Str.to_string kind)
  a4Ind : ∀ a4Ind, l.a4Ind = some a4Ind → d.a4Ind = some (Str.to_string a4Ind)
  algorithmId : ∀ fSetInd, l.fSetInd = some fSetInd → d.algorithmId = some (Str.to_string fSetInd)
  authenticationManagementField : ∀ amfValue, l.amfValue = some amfValue →
    ∃ text, d.authenticationManagementField = some text ∧ HexText denotes text amfValue
  encOpcKey : ∀ eopc, l.eopc = some eopc → d.encOpcKey = some eopc
  a4KeyV : ∀ vNumber, l.vNumber = some vNumber → d.a4KeyV = some (Str.to_string vNumber)
  akaAlgorithmInd : ∀ akaAlgInd, l.akaAlgInd = some akaAlgInd → d.akaAlgorithmInd = some (Str.to_string akaAlgInd)

section Fill
variable {d : AuthSubscriptionStaticData} {l : AuthSubscriptionLegacy} {attr : Option Str}

theorem fillOptionalAttribute_eq_iff {attrLegacy : Option Str} :
    (∀ v, attrLegacy = some v → fillOptionalAttribute attr attrLegacy = some v) ↔ Agree attr attrLegacy := by
  unfold fillOptionalAttribute Agree
  cases attr with
  | none => simp
  | some a =>
    simp only [Option.some_or, Option.some.injEq]
    exact ⟨fun h b v hb hv => hb ▸ h v hv, fun h v hv => h a v rfl hv⟩

theorem fillOptionalAttributeInt_eq_iff {attrLegacy : Option Int} :
    (∀ n, attrLegacy = some n → fillOptionalAttributeInt attr attrLegacy = some (Str.to_string n)) ↔
      Agree attr (attrLegacy.map Str.to_string) := by
  rw [← fillOptionalAttribute_eq_iff]
  cases attrLegacy with
  | none => simp
  | some n => simp [fillOptionalAttributeInt]

theorem fromHexStringToUnsignedInt_amf {text : Str}
    (h : checkPatternOnData authenticationManagementFieldRegex text = true) :
    fromHexStringToUnsignedInt text = .ok (Str.hexValue (Str.cStr text)) := by
  obtain ⟨hdigits, hlen⟩ := authenticationManagementField_iff.mp h
  have hformat : HexDigits 4 (Str.cStr text) := ⟨hdigits, hlen⟩
  have hlt : Str.hexValue (Str.cStr text) < 2 ^ 32 := by
    have hbound := hformat.hexValue_lt
    omega
  rw [fromHexStringToUnsignedInt, Str.extractHex_cStr (hformat.ne_nil (by decide)) hdigits hlt]

/-- The text that is filled in for `AMFVALUE` denotes it as an `unsigned int`. -/
theorem hexText_fromUnsignedInt (amfValue : Int) :
    HexText DenotesUnsigned (fromUnsignedIntToHexString (toUnsigned amfValue) 4) amfValue := by
  have hdigits : ∀ c ∈ Str.hexText 4 (toUnsigned amfValue), Str.isHexDigit c = true := Str.isHexDigit_hexText
  have hc : Str.cStr (fromUnsignedIntToHexString (toUnsigned amfValue) 4) = Str.hexText 4 (toUnsigned amfValue) :=
    Str.cStr_of_isHexDigit hdigits
  refine ⟨?_, ?_, ?_⟩
  · rw [hc]
    exact Str.hexText_ne_nil
  · rw [hc]
    exact hdigits
  · unfold DenotesUnsigned
    rw [hc, Str.hexValue_hexText]

theorem fill_authenticationManagementField {text : Option Str}
    (hpattern : ∀ t, text = some t → checkPatternOnData authenticationManagementFieldRegex t = true)
    (hagree : AgreeUnsigned text l.amfValue) (amfValue : Int) (hl : l.amfValue = some amfValue) :
    ∃ t, fillOptionalAttribute text
        (l.amfValue.map fun amfValue => fromUnsignedIntToHexString (toUnsigned amfValue) 4) = some t ∧
      HexText DenotesUnsigned t amfValue := by
  cases text with
  | none =>
    rw [hl]
    exact ⟨_, rfl, hexText_fromUnsignedInt amfValue⟩
  | some t =>
    have ht := hpattern t rfl
    obtain ⟨hdigits, hlen⟩ := authenticationManagementField_iff.mp ht
    obtain ⟨value, hvalue, hagrees⟩ := hagree t rfl
    rw [fromHexStringToUnsignedInt_amf ht] at hvalue
    obtain rfl := Except.ok.inj hvalue
    exact ⟨t, rfl, ⟨HexDigits.ne_nil ⟨hdigits, hlen⟩ (by decide), hdigits, hagrees amfValue hl⟩⟩

theorem HexText.denotesInt_iff {text : Str} {amfValue : Int} (h : HexText DenotesUnsigned text amfValue) :
    HexText DenotesInt text amfValue ↔ 0 ≤ amfValue ∧ amfValue < 2 ^ 32 := by
  have hvalue : Str.hexValue (Str.cStr text) = toUnsigned amfValue := h.value
  have hint : ((toUnsigned amfValue : Nat) : Int) = amfValue ↔ 0 ≤ amfValue ∧ amfValue < 2 ^ 32 := by
    unfold toUnsigned
    omega
  rw [← hint, ← hvalue]
  exact ⟨fun hi => hi.value, fun hi => ⟨h.ne_nil, h.digits, hi⟩⟩

/-- The two ways to agree differ in `AMFVALUE` only. -/
theorem LegacyAgreement.of_denotes {denotes denotes' : Nat → Int → Prop} (h : LegacyAgreement denotes d l)
    (hamf : ∀ amfValue, l.amfValue = some amfValue →
      ∃ text, d.authenticationManagementField = some text ∧ HexText denotes' text amfValue) :
    LegacyAgreement denotes' d l :=
  ⟨h.encPermanentKey, h.a4KeyInd, h.a4Ind, h.algorithmId, hamf, h.encOpcKey, h.a4KeyV, h.akaAlgorithmInd⟩

/-- **Static data that passes the comparison agrees once it is filled, if its `a4KeyV` agrees with `VNUMBER`.** -/
theorem legacyAgreement_fill_iff (hagrees : AgreesWithLegacy d l)
    (hpattern : ∀ t, d.authenticationManagementField = some t →
      checkPatternOnData authenticationManagementFieldRegex t = true) :
    LegacyAgreement DenotesUnsigned (fillOptionalAuthSubscriptionStaticAttributes d l) l ↔
      Agree d.a4KeyV (l.vNumber.map Str.to_string) := by
  constructor
  · intro h
    exact fillOptionalAttributeInt_eq_iff.mp h.a4KeyV
  · intro h
    exact ⟨fillOptionalAttribute_eq_iff.mpr hagrees.encPermanentKey,
      fillOptionalAttributeInt_eq_iff.mpr hagrees.a4KeyInd, fillOptionalAttributeInt_eq_iff.mpr hagrees.a4Ind,
      fillOptionalAttributeInt_eq_iff.mpr hagrees.algorithmId,
      fill_authenticationManagementField hpattern hagrees.authenticationManagementField,
      fillOptionalAttribute_eq_iff.mpr hagrees.encOpcKey, fillOptionalAttributeInt_eq_iff.mpr h,
      fillOptionalAttributeInt_eq_iff.mpr hagrees.akaAlgorithmInd⟩

/-- With `AMFVALUE` as an `int` it must not be negative either. -/
theorem legacyAgreement_fill_int_iff (hagrees : AgreesWithLegacy d l)
    (hpattern : ∀ t, d.authenticationManagementField = some t →
      checkPatternOnData authenticationManagementFieldRegex t = true) :
    LegacyAgreement DenotesInt (fillOptionalAuthSubscriptionStaticAttributes d l) l ↔
      Agree d.a4KeyV (l.vNumber.map Str.to_string) ∧ ∀ n, l.amfValue = some n → 0 ≤ n ∧ n < 2 ^ 32 := by
  have hfill := fill_authenticationManagementField hpattern hagrees.authenticationManagementField
  constructor
  · intro h
    refine ⟨fillOptionalAttributeInt_eq_iff.mp h.a4KeyV, fun n hn => ?_⟩
    obtain ⟨t, ht, hunsigned⟩ := hfill n hn
    obtain ⟨t', ht', hint⟩ := h.authenticationManagementField n hn
    obtain rfl := Option.some.inj (ht.symm.trans ht')
    exact hunsigned.denotesInt_iff.mp hint
  · intro h
    refine ((legacyAgreement_fill_iff hagrees hpattern).mpr h.1).of_denotes fun n hn => ?_
    obtain ⟨t, ht, hunsigned⟩ := hfill n hn
    exact ⟨t, ht, hunsigned.denotesInt_iff.mpr (h.2 n hn)⟩

end Fill

/-- The answer agrees with the legacy subscription next to it, if there is one, which has the allowed `AKATYPE`. -/
def AnsweredAsLegacy (denotes : Nat → Int → Prop) (R : RelatedResources) (c' : Change) : Prop :=
  ∀ d l, NextToLegacy R c' d l → l.akaType = some AKATYPE_ALLOWED_VALUE ∧ LegacyAgreement denotes d l

/-- The creations that are accepted next to a legacy subscription satisfy `P`. -/
def AcceptedNextToLegacy (R : RelatedResources) (changes : List Change)
    (P : AuthSubscriptionStaticData → AuthSubscriptionLegacy → Prop) : Prop :=
  ∀ pre c post d l, changes = pre ++ c :: post → (∀ b ∈ pre, Conforms R b) → Conforms R c → NextToLegacy R c d l → P d l

theorem answeredAsLegacy_iff {R : RelatedResources} {changes : List Change} {run : Run} {E : List Error}
    {denotes : Nat → Int → Prop} (h : (validateChanges R ⟨true, HTTP_OK, []⟩ changes).run [] = .ok (run, E)) :
    (∀ c' ∈ run.changes, AnsweredAsLegacy denotes R c') ↔
      AcceptedNextToLegacy R changes fun d l =>
        LegacyAgreement denotes (fillOptionalAuthSubscriptionStaticAttributes d l) l := by
  constructor
  · intro hall pre c post d l hsplit hpre hc hnext
    rw [hsplit] at h
    obtain ⟨c', hacc, hmem⟩ := mem_of_accepted h hpre hc hnext.lookup.1
    exact (hall c' hmem _ l (hnext.mutations hacc.mutations)).2
  · intro hall c' hmem d' l hnext'
    obtain ⟨pre, c, post, hsplit, hacc⟩ := accepted_of_mem h hmem (Or.inl hnext'.operation)
    obtain ⟨d, hnext, rfl⟩ := hnext'.of_mutations hacc.mutations
    exact ⟨(hnext.conforms hacc.conforms).1, hall pre c post d l hsplit hacc.before hacc.conforms hnext⟩

/-- **The answered creations agree with the legacy subscriptions exactly when the accepted ones agree in `a4KeyV`.** -/
theorem applyValidationRules_legacyAgreement (data : ValidationData) (o : Outcome) (hempty : data.response = {})
    (h : applyValidationRules data = .ok o) :
    ((∀ c' ∈ o.response.changes, AnsweredAsLegacy DenotesUnsigned data.relatedResources c') ↔
        AcceptedNextToLegacy data.relatedResources data.changes fun d l =>
          Agree d.a4KeyV (l.vNumber.map Str.to_string)) ∧
      ((∀ c' ∈ o.response.changes, AnsweredAsLegacy DenotesInt data.relatedResources c') ↔
        AcceptedNextToLegacy data.relatedResources data.changes fun d l =>
          Agree d.a4KeyV (l.vNumber.map Str.to_string) ∧ ∀ n, l.amfValue = some n → 0 ≤ n ∧ n < 2 ^ 32) := by
  obtain ⟨⟨run, E⟩, hrun, hret⟩ := bind_eq_ok.mp h
  obtain rfl := Except.ok.inj hret
  rw [hempty] at hrun
  have hcongr : ∀ {P Q : AuthSubscriptionStaticData → AuthSubscriptionLegacy → Prop},
      (∀ d l, AgreesWithLegacy d l → (∀ t, d.authenticationManagementField = some t →
        checkPatternOnData authenticationManagementFieldRegex t = true) → (P d l ↔ Q d l)) →
      (AcceptedNextToLegacy data.relatedResources data.changes P ↔
        AcceptedNextToLegacy data.relatedResources data.changes Q) := by
    intro P Q hPQ
    refine forall₅_congr fun pre c post d l => forall₄_congr fun _ _ hc hnext => ?_
    obtain ⟨-, hagrees, hpattern⟩ := hnext.conforms hc
    exact hPQ d l hagrees hpattern
  exact ⟨(answeredAsLegacy_iff hrun).trans (hcongr fun d l => legacyAgreement_fill_iff),
    (answeredAsLegacy_iff hrun).trans (hcongr fun d l => legacyAgreement_fill_int_iff)⟩

def legacyVersionFive : AuthSubscriptionLegacy := { akaType := some 1, vNumber := some 5 }

def staticDataOfA : Str := staticDataPath "a" "12345"

/-- A creation next to it with key version 7. -/
def creationVersionSeven : ValidationData where
  changes := [{
    operation := JSON_OPERATION_CREATE
    resourcePath := staticDataOfA
    authSubscription := { authSubscriptionStaticData := some {
      authenticationMethod := JSON_5G_AKA
      a4KeyV := some (Str.to_string 7) } } }]
  relatedResources :=
    (∅ : RelatedResources).insert (LEGACY_BASE_PATH ++ "12345") (.authSubscriptionLegacy legacyVersionFive)

theorem creationVersionSeven_stored :
    creationVersionSeven.relatedResources[LEGACY_BASE_PATH ++ "12345"]? =
      some (.authSubscriptionLegacy legacyVersionFive) := Std.ExtTreeMap.getElem?_insert_self

theorem creationVersionSeven_accepted :
    ¬ ∀ (data : ValidationData) (o : Outcome), data.response = {} → applyValidationRules data = .ok o →
      ∀ c' ∈ o.response.changes, AnsweredAsLegacy DenotesUnsigned data.relatedResources c' := by
  intro h
  obtain ⟨o, hrun, ho⟩ := exists_outcome creationVersionSeven (fun o => o.response.changes.map fun c' =>
    (c'.operation, c'.resourcePath, c'.authSubscription.authSubscriptionStaticData.map (·.a4KeyV)))
    (a := [(JSON_OPERATION_CREATE, staticDataOfA, some (some (Str.to_string 7)))]) (by decide)
  obtain ⟨c', hmem, hc'⟩ := exists_mem_of_map_eq_singleton ho
  simp only [Prod.mk.injEq, Option.map_eq_some_iff] at hc'
  obtain ⟨hop, hpath, d, hstatic, hversion⟩ := hc'
  have himsi : IsImsi "12345" := by decide
  have hcStr : c'.resourcePath.cStr = staticDataPath "a" "12345" := by
    rw [hpath]
    decide
  have hnext : NextToLegacy creationVersionSeven.relatedResources c' d legacyVersionFive :=
    ⟨hop, ⟨"a", "12345", himsi, hcStr, creationVersionSeven_stored⟩, hstatic⟩
  have hagrees := (h creationVersionSeven o rfl hrun c' hmem d legacyVersionFive hnext).2
  have hfive := hagrees.a4KeyV 5 rfl
  rw [hversion] at hfive
  exact absurd (Option.some.inj hfive) (by decide)

theorem applyValidationRules_legacyAgreement_example :
    ∃ o, applyValidationRules creationVersionSeven = .ok o ∧
      ((∀ c' ∈ o.response.changes, AnsweredAsLegacy DenotesUnsigned creationVersionSeven.relatedResources c') ↔
        AcceptedNextToLegacy creationVersionSeven.relatedResources creationVersionSeven.changes fun d l =>
          Agree d.a4KeyV (l.vNumber.map Str.to_string)) := by
  obtain ⟨o, hrun, -⟩ := exists_outcome creationVersionSeven (fun o => o.response.errors.length) (a := 0)
    (by decide)
  exact ⟨o, hrun, (applyValidationRules_legacyAgreement creationVersionSeven o rfl hrun).1⟩

end AuthProvValidator
