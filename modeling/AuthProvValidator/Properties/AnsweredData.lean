import AuthProvValidator.Entities.NextToLegacy
import AuthProvValidator.Ports.StaticData

/-!
# The static data of the answers

The rules are made before the mutations, so what an answer takes from a 4G legacy subscription is never measured by
them, and the attributes that the presence of such a subscription waives are only filled in where it defines them.

* `applyValidationRules_formatted` : the answered static data obey the formats of the common rules exactly when what is
  filled in does (`FillFormatted`);
* `applyValidationRules_complete` : they have all mandatory attributes exactly when those that were waived are filled in
  (`Supplied`).
-/

namespace AuthProvValidator
open Recorder

/-- The answers to a request that is read without an error have a property exactly when the accepted changes meet the
condition for it. -/
theorem forall_answered_parsed_iff {decode : Str → Str} {doc : Option Json} {data : ValidationData} {o : Outcome}
    {Q P : Change → Prop} (h : getValidationData decode doc = .ok data) (herrors : data.response.errors = [])
    (hrun : applyValidationRules data = .ok o)
    (hQP : ∀ pre c c', c.FromParser → Accepted data.relatedResources pre c c' →
      CommonRules data.relatedResources c → (Q c' ↔ P c)) :
    (∀ c' ∈ o.response.changes, c'.operation = JSON_OPERATION_CREATE ∨ c'.operation = JSON_OPERATION_UPDATE → Q c') ↔
      EveryAccepted data.relatedResources data.changes P := by
  obtain ⟨⟨run, E⟩, hloop, hret⟩ := bind_eq_ok.mp hrun
  obtain rfl := Except.ok.inj hret
  rw [(parsed_of_getValidationData h herrors).empty] at hloop
  have hparser := fromParser_of_getValidationData h herrors
  exact forall_answered_iff hloop fun pre c c' hmem hacc hop =>
    hQP pre c c' (hparser c hmem) hacc (hacc.conforms.common hacc.imsi hop)

/-- The document of a creation with these static data, next to a legacy subscription with these members. -/
def creationDocument (static legacy : List (Str × Json)) : Json := .obj [
  (JSON_CHANGES, .arr [.obj [
    (JSON_OPERATION, .str JSON_OPERATION_CREATE),
    (JSON_RESOURCE_PATH, .str (staticDataPath "a" "12345")),
    (JSON_DATA, .obj static)]]),
  (JSON_RELATED_RESOURCES, .obj [(LEGACY_BASE_PATH ++ "12345", .obj legacy)])]

/-! ## Formats -/

/-- What is filled in has the formats of the common rules. A legacy `EOPC` needs a MILLENAGE algorithm, whether that is
the one of the change or is filled in as well. -/
structure FillFormatted (d : AuthSubscriptionStaticData) (l : AuthSubscriptionLegacy) : Prop where
  encPermanentKey : d.encPermanentKey = none → ∀ eki, l.eki = some eki → HexDigits 32 eki
  authenticationManagementField : d.authenticationManagementField = none →
    ∀ amfValue, l.amfValue = some amfValue → toUnsigned amfValue < 16 ^ 4
  algorithmId : d.algorithmId = none → ∀ fSetInd, l.fSetInd = some fSetInd → 0 ≤ fSetInd ∧ fSetInd ≤ 15
  a4KeyInd : d.a4KeyInd = none → ∀ kind, l.kind = some kind → 0 ≤ kind ∧ kind ≤ 511
  a4Ind : d.a4Ind = none → ∀ a4Ind, l.a4Ind = some a4Ind → 0 ≤ a4Ind ∧ a4Ind ≤ 2
  encOpcKey : d.encOpcKey = none → ∀ eopc, l.eopc = some eopc → (∀ c ∈ eopc, Str.isHexDigit c = true) ∧
    ((∃ algorithm, d.algorithmId = some algorithm ∧ Str.decValue algorithm ≠ 1) ∨
      d.algorithmId = none ∧ ∃ fSetInd, l.fSetInd = some fSetInd ∧ fSetInd ≠ 1)
  a4KeyV : d.a4KeyV = none → ∀ vNumber, l.vNumber = some vNumber → 0 ≤ vNumber ∧ vNumber ≤ 31
  akaAlgorithmInd : d.akaAlgorithmInd = none → ∀ akaAlgInd, l.akaAlgInd = some akaAlgInd → 0 ≤ akaAlgInd ∧ akaAlgInd ≤ 2

section Formats
variable {d : AuthSubscriptionStaticData} {l : AuthSubscriptionLegacy} {attr : Option Str} {format : Str → Prop}

/-- An attribute with a format keeps it when it is filled exactly when what is filled in has it. -/
theorem forall_fillOptionalAttribute_iff {attrLegacy : Option Str} (h : ∀ t, attr = some t → format t) :
    (∀ t, fillOptionalAttribute attr attrLegacy = some t → format t) ↔
      (attr = none → ∀ t, attrLegacy = some t → format t) := by
  unfold fillOptionalAttribute
  cases attr with
  | none => simp
  | some a =>
    refine iff_of_true (fun t ht => ?_) nofun
    exact h t ht

theorem forall_fillOptionalAttributeInt_iff {attrLegacy : Option Int} {range : Int → Prop}
    (h : ∀ t, attr = some t → format t) (hrange : ∀ n, format (Str.to_string n) ↔ range n) :
    (∀ t, fillOptionalAttributeInt attr attrLegacy = some t → format t) ↔
      (attr = none → ∀ n, attrLegacy = some n → range n) := by
  rw [fillOptionalAttributeInt, forall_fillOptionalAttribute_iff h]
  simp only [Option.map_eq_some_iff, forall_exists_index, and_imp, forall_apply_eq_imp_iff₂, hrange]

theorem hexDigits_amfValue_iff {amfValue : Int} :
    HexDigits 4 (fromUnsignedIntToHexString (toUnsigned amfValue) 4) ↔ toUnsigned amfValue < 16 ^ 4 := by
  rw [fromUnsignedIntToHexString, ← Str.length_hexText_eq_iff (by decide)]
  exact ⟨fun h => h.length_eq, fun h => ⟨Str.isHexDigit_hexText, h⟩⟩

/-- The algorithm of the answer is MILLENAGE when the one of the change is or, without one, `FSETIND` is. -/
theorem millenage_fill_iff (hfill : d.algorithmId = none → ∀ n, l.fSetInd = some n → 0 ≤ n ∧ n ≤ 15) :
    (∃ algorithm, fillOptionalAttributeInt d.algorithmId l.fSetInd = some algorithm ∧ Str.decValue algorithm ≠ 1) ↔
      (∃ algorithm, d.algorithmId = some algorithm ∧ Str.decValue algorithm ≠ 1) ∨
        d.algorithmId = none ∧ ∃ n, l.fSetInd = some n ∧ n ≠ 1 := by
  unfold fillOptionalAttributeInt fillOptionalAttribute
  cases halg : d.algorithmId with
  | some algorithm => simp
  | none =>
    cases hset : l.fSetInd with
    | none => simp
    | some n =>
      have hn := (hfill halg n hset).1
      obtain ⟨m, rfl⟩ := Int.eq_ofNat_of_zero_le hn
      have hvalue : Str.decValue (Str.to_string m) = m := by rw [Str.to_string_ofNat, Str.decValue_toDigits]
      simp only [Option.none_or, Option.map_some, Option.some.injEq, exists_eq_left', hvalue, reduceCtorEq, false_and,
        exists_false, true_and, false_or]
      omega

theorem encOpcKey_fill_iff (hd : Formatted d)
    (hfill : d.algorithmId = none → ∀ n, l.fSetInd = some n → 0 ≤ n ∧ n ≤ 15) :
    (∀ t, fillOptionalAttribute d.encOpcKey l.eopc = some t → (∀ c ∈ t, Str.isHexDigit c = true) ∧
        ∃ algorithm, fillOptionalAttributeInt d.algorithmId l.fSetInd = some algorithm ∧ Str.decValue algorithm ≠ 1) ↔
      (d.encOpcKey = none → ∀ eopc, l.eopc = some eopc → (∀ c ∈ eopc, Str.isHexDigit c = true) ∧
        ((∃ algorithm, d.algorithmId = some algorithm ∧ Str.decValue algorithm ≠ 1) ∨
          d.algorithmId = none ∧ ∃ n, l.fSetInd = some n ∧ n ≠ 1)) := by
  simp only [millenage_fill_iff hfill]
  apply forall_fillOptionalAttribute_iff
  intro t ht
  obtain ⟨hdigits, hmillenage⟩ := hd.encOpcKey t ht
  exact ⟨hdigits, Or.inl hmillenage⟩

/-- **Static data in their formats stay in them when they are filled exactly when what is filled in has them.** -/
theorem formatted_fill_iff (hd : Formatted d) :
    Formatted (fillOptionalAuthSubscriptionStaticAttributes d l) ↔ FillFormatted d l := by
  have hamf : (∀ t, fillOptionalAttribute d.authenticationManagementField
        (l.amfValue.map fun n => fromUnsignedIntToHexString (toUnsigned n) 4) = some t → HexDigits 4 t) ↔
      (d.authenticationManagementField = none → ∀ n, l.amfValue = some n → toUnsigned n < 16 ^ 4) := by
    rw [forall_fillOptionalAttribute_iff hd.authenticationManagementField]
    simp only [Option.map_eq_some_iff, forall_exists_index, and_imp, forall_apply_eq_imp_iff₂, hexDigits_amfValue_iff]
  have hdecimal : ∀ max n, Str.DecimalUpTo max (Str.to_string n) ↔ 0 ≤ n ∧ n ≤ max := fun max n =>
    Str.decimalUpTo_to_string
  have hdigits : ∀ max n, (∃ m ≤ max, Str.to_string n = Nat.toDigits 10 m) ↔ 0 ≤ n ∧ n ≤ max := fun max n =>
    Str.exists_toDigits_to_string
  constructor
  · intro h
    have halg := (forall_fillOptionalAttributeInt_iff hd.algorithmId (hdecimal 15)).mp h.algorithmId
    exact ⟨(forall_fillOptionalAttribute_iff hd.encPermanentKey).mp h.encPermanentKey,
      hamf.mp h.authenticationManagementField, halg,
      (forall_fillOptionalAttributeInt_iff hd.a4KeyInd (hdecimal 511)).mp h.a4KeyInd,
      (forall_fillOptionalAttributeInt_iff hd.a4Ind (hdecimal 2)).mp h.a4Ind,
      (encOpcKey_fill_iff hd halg).mp h.encOpcKey,
      (forall_fillOptionalAttributeInt_iff hd.a4KeyV (hdigits 31)).mp h.a4KeyV,
      (forall_fillOptionalAttributeInt_iff hd.akaAlgorithmInd (hdigits 2)).mp h.akaAlgorithmInd⟩
  · intro h
    exact ⟨(forall_fillOptionalAttribute_iff hd.encPermanentKey).mpr h.encPermanentKey,
      hamf.mpr h.authenticationManagementField,
      (forall_fillOptionalAttributeInt_iff hd.algorithmId (hdecimal 15)).mpr h.algorithmId,
      (forall_fillOptionalAttributeInt_iff hd.a4KeyInd (hdecimal 511)).mpr h.a4KeyInd,
      (forall_fillOptionalAttributeInt_iff hd.a4Ind (hdecimal 2)).mpr h.a4Ind,
      (encOpcKey_fill_iff hd h.algorithmId).mpr h.encOpcKey,
      (forall_fillOptionalAttributeInt_iff hd.a4KeyV (hdigits 31)).mpr h.a4KeyV,
      (forall_fillOptionalAttributeInt_iff hd.akaAlgorithmInd (hdigits 2)).mpr h.akaAlgorithmInd⟩

end Formats

theorem CommonRules.formatted {R : RelatedResources} {c : Change} {d : AuthSubscriptionStaticData}
    (h : CommonRules R c) (hparser : c.FromParser) (hd : c.authSubscription.authSubscriptionStaticData = some d) :
    Formatted d :=
  ((staticDataRules_iff (hparser d hd).readable).mp (h.static d hd)).2.1

/-- **After a parse without errors the answered static data have the formats of the common rules exactly when what was
filled in from legacy subscriptions has them.** -/
theorem applyValidationRules_formatted (decode : Str → Str) (doc : Option Json) (data : ValidationData) (o : Outcome)
    (h : getValidationData decode doc = .ok data) (herrors : data.response.errors = [])
    (hrun : applyValidationRules data = .ok o) :
    (∀ c' ∈ o.response.changes, c'.operation = JSON_OPERATION_CREATE ∨ c'.operation = JSON_OPERATION_UPDATE →
        ∀ d', c'.authSubscription.authSubscriptionStaticData = some d' → Formatted d') ↔
      EveryAccepted data.relatedResources data.changes fun c =>
        ∀ d l, NextToLegacy data.relatedResources c d l → FillFormatted d l := by
  refine forall_answered_parsed_iff h herrors hrun fun pre c c' hparser hacc hcommon => ?_
  rw [forall_static_of_mutations_iff hacc.imsi hacc.mutations]
  constructor
  · intro hall d l hnext
    have hformatted := hcommon.formatted hparser hnext.static
    exact (formatted_fill_iff hformatted).mp ((hall d hnext.static).1 l hnext)
  · intro hall d hd
    have hformatted := hcommon.formatted hparser hd
    exact ⟨fun l hnext => (formatted_fill_iff hformatted).mpr (hall d l hnext), fun _ => hformatted⟩

/-- A creation that leaves everything to a legacy subscription with key index 600. -/
def creationKindSixHundred : Json :=
  creationDocument [(JSON_AUTHENTICATION_METHOD, .str JSON_5G_AKA)] [(JSON_AKA_TYPE, .int 1), (JSON_KIND, .int 600)]

theorem creationKindSixHundred_answered :
    ∃ data o, getValidationData id (some creationKindSixHundred) = .ok data ∧ data.response.errors = [] ∧
      applyValidationRules data = .ok o ∧ (o.response.changes.map fun c' =>
        (c'.operation, c'.authSubscription.authSubscriptionStaticData.map (·.a4KeyInd))) =
          [(JSON_OPERATION_CREATE, some (some (Str.to_string 600)))] := exists_answered _ _ (by decide)

theorem creationKindSixHundred_accepted :
    ¬ ∀ (decode : Str → Str) (doc : Option Json) (data : ValidationData) (o : Outcome),
      getValidationData decode doc = .ok data → data.response.errors = [] → applyValidationRules data = .ok o →
      ∀ c' ∈ o.response.changes, c'.operation = JSON_OPERATION_CREATE ∨ c'.operation = JSON_OPERATION_UPDATE →
        ∀ d', c'.authSubscription.authSubscriptionStaticData = some d' → Formatted d' := by
  intro h
  obtain ⟨data, o, hdata, herrors, hrun, ho⟩ := creationKindSixHundred_answered
  obtain ⟨c', hmem, hc'⟩ := exists_mem_of_map_eq_singleton ho
  simp only [Prod.mk.injEq, Option.map_eq_some_iff] at hc'
  obtain ⟨hop, d', hd', hkind⟩ := hc'
  have hformatted := h id _ data o hdata herrors hrun c' hmem (Or.inl hop) d' hd'
  have hle := (hformatted.a4KeyInd _ hkind).le
  exact absurd hle (by decide)

theorem applyValidationRules_formatted_example :
    ∃ data o, getValidationData id (some creationKindSixHundred) = .ok data ∧ applyValidationRules data = .ok o ∧
      ((∀ c' ∈ o.response.changes, c'.operation = JSON_OPERATION_CREATE ∨ c'.operation = JSON_OPERATION_UPDATE →
          ∀ d', c'.authSubscription.authSubscriptionStaticData = some d' → Formatted d') ↔
        EveryAccepted data.relatedResources data.changes fun c =>
          ∀ d l, NextToLegacy data.relatedResources c d l → FillFormatted d l) := by
  obtain ⟨data, o, hdata, herrors, hrun, -⟩ := creationKindSixHundred_answered
  exact ⟨data, o, hdata, hrun,
    applyValidationRules_formatted id (some creationKindSixHundred) data o hdata herrors hrun⟩

/-! ## Mandatory attributes -/

/-- Every mandatory attribute is in the change or in the legacy subscription. -/
structure MandatorySupplied (d : AuthSubscriptionStaticData) (l : AuthSubscriptionLegacy) : Prop where
  encPermanentKey : d.encPermanentKey.isSome = true ∨ l.eki.isSome = true
  authenticationManagementField : d.authenticationManagementField.isSome = true ∨ l.amfValue.isSome = true
  algorithmId : d.algorithmId.isSome = true ∨ l.fSetInd.isSome = true
  a4KeyInd : d.a4KeyInd.isSome = true ∨ l.kind.isSome = true
  a4Ind : d.a4Ind.isSome = true ∨ l.a4Ind.isSome = true

/-- Where something is stored under the legacy path of the change, which waives the mandatory attributes, they are all
there, or the change is a creation next to a legacy subscription that has the missing ones. -/
def Supplied (R : RelatedResources) (c : Change) : Prop :=
  R.contains (getLegacyPathFromResourcePath c.resourcePath) = true →
    ∀ d, c.authSubscription.authSubscriptionStaticData = some d →
      (∀ attr ∈ d.mandatory, attr.isSome = true) ∨ ∃ l, NextToLegacy R c d l ∧ MandatorySupplied d l

section Mandatory
variable {R : RelatedResources} {c : Change} {d : AuthSubscriptionStaticData} {l : AuthSubscriptionLegacy}

theorem mandatory_fill_iff :
    (∀ attr ∈ (fillOptionalAuthSubscriptionStaticAttributes d l).mandatory, attr.isSome = true) ↔
      MandatorySupplied d l := by
  simp only [AuthSubscriptionStaticData.mandatory, List.forall_mem_cons, List.not_mem_nil, false_implies, implies_true,
    and_true, fillOptionalAuthSubscriptionStaticAttributes, fillOptionalAttributeInt, fillOptionalAttribute,
    Option.isSome_or, Option.isSome_map, Bool.or_eq_true]
  exact ⟨fun h => ⟨h.1, h.2.1, h.2.2.1, h.2.2.2.1, h.2.2.2.2⟩,
    fun h => ⟨h.encPermanentKey, h.authenticationManagementField, h.algorithmId, h.a4KeyInd, h.a4Ind⟩⟩

theorem mandatorySupplied_of_mandatory (h : ∀ attr ∈ d.mandatory, attr.isSome = true) : MandatorySupplied d l := by
  simp only [AuthSubscriptionStaticData.mandatory, List.forall_mem_cons, List.not_mem_nil, false_implies, implies_true,
    and_true] at h
  exact ⟨Or.inl h.1, Or.inl h.2.1, Or.inl h.2.2.1, Or.inl h.2.2.2.1, Or.inl h.2.2.2.2⟩

theorem CommonRules.mandatory (h : CommonRules R c) (hparser : c.FromParser)
    (hd : c.authSubscription.authSubscriptionStaticData = some d)
    (hnone : ¬ R.contains (getLegacyPathFromResourcePath c.resourcePath) = true) :
    ∀ attr ∈ d.mandatory, attr.isSome = true := by
  have hrules := h.static d hd
  have hrequired : isRequired R c.resourcePath d = true := by
    rw [isRequired, hrules.authenticationMethod, Bool.eq_false_iff.mpr hnone]
    rfl
  exact ((staticDataRules_iff (hparser d hd).readable).mp hrules).2.2.1 hrequired

theorem NextToLegacy.contains (h : NextToLegacy R c d l) :
    R.contains (getLegacyPathFromResourcePath c.resourcePath) = true := by
  rw [Std.ExtTreeMap.contains_eq_isSome_getElem?, h.lookup.2.2]
  rfl

end Mandatory

/-- **After a parse without errors the answered static data have all mandatory attributes exactly when those that a
legacy path waived are supplied.** -/
theorem applyValidationRules_complete (decode : Str → Str) (doc : Option Json) (data : ValidationData) (o : Outcome)
    (h : getValidationData decode doc = .ok data) (herrors : data.response.errors = [])
    (hrun : applyValidationRules data = .ok o) :
    (∀ c' ∈ o.response.changes, c'.operation = JSON_OPERATION_CREATE ∨ c'.operation = JSON_OPERATION_UPDATE →
        ∀ d', c'.authSubscription.authSubscriptionStaticData = some d' → ∀ attr ∈ d'.mandatory, attr.isSome = true) ↔
      EveryAccepted data.relatedResources data.changes (Supplied data.relatedResources) := by
  refine forall_answered_parsed_iff h herrors hrun fun pre c c' hparser hacc hcommon => ?_
  rw [forall_static_of_mutations_iff hacc.imsi hacc.mutations]
  constructor
  · intro hall hstored d hd
    obtain ⟨hfilled, hkept⟩ := hall d hd
    by_cases hnext : ∃ l, NextToLegacy data.relatedResources c d l
    · obtain ⟨l, hnext⟩ := hnext
      exact Or.inr ⟨l, hnext, mandatory_fill_iff.mp (hfilled l hnext)⟩
    · exact Or.inl (hkept (not_exists.mp hnext))
  · intro hsupplied d hd
    constructor
    · intro l hnext
      apply mandatory_fill_iff.mpr
      rcases hsupplied hnext.contains d hd with hall | ⟨l₂, hnext₂, hall⟩
      · exact mandatorySupplied_of_mandatory hall
      · obtain ⟨-, rfl⟩ := hnext.unique hnext₂
        exact hall
    · intro hnone
      by_cases hstored : data.relatedResources.contains (getLegacyPathFromResourcePath c.resourcePath) = true
      · rcases hsupplied hstored d hd with hall | ⟨l, hnext, -⟩
        · exact hall
        · exact absurd hnext (hnone l)
      · exact hcommon.mandatory hparser hd hstored

def creationOfNothing : Json :=
  creationDocument [(JSON_AUTHENTICATION_METHOD, .str JSON_5G_AKA)] [(JSON_AKA_TYPE, .int 1)]

theorem creationOfNothing_answered :
    ∃ data o, getValidationData id (some creationOfNothing) = .ok data ∧ data.response.errors = [] ∧
      applyValidationRules data = .ok o ∧ (o.response.changes.map fun c' =>
        (c'.operation, c'.authSubscription.authSubscriptionStaticData.map (·.encPermanentKey))) =
          [(JSON_OPERATION_CREATE, some none)] := exists_answered _ _ (by decide)

theorem creationOfNothing_accepted :
    ¬ ∀ (decode : Str → Str) (doc : Option Json) (data : ValidationData) (o : Outcome),
      getValidationData decode doc = .ok data → data.response.errors = [] → applyValidationRules data = .ok o →
      ∀ c' ∈ o.response.changes, c'.operation = JSON_OPERATION_CREATE ∨ c'.operation = JSON_OPERATION_UPDATE →
        ∀ d', c'.authSubscription.authSubscriptionStaticData = some d' →
          ∀ attr ∈ d'.mandatory, attr.isSome = true := by
  intro h
  obtain ⟨data, o, hdata, herrors, hrun, ho⟩ := creationOfNothing_answered
  obtain ⟨c', hmem, hc'⟩ := exists_mem_of_map_eq_singleton ho
  simp only [Prod.mk.injEq, Option.map_eq_some_iff] at hc'
  obtain ⟨hop, d', hd', hkey⟩ := hc'
  have hsome := h id _ data o hdata herrors hrun c' hmem (Or.inl hop) d' hd' d'.encPermanentKey List.mem_cons_self
  rw [hkey] at hsome
  cases hsome

theorem applyValidationRules_complete_example :
    ∃ data o, getValidationData id (some creationOfNothing) = .ok data ∧ applyValidationRules data = .ok o ∧
      ((∀ c' ∈ o.response.changes, c'.operation = JSON_OPERATION_CREATE ∨ c'.operation = JSON_OPERATION_UPDATE →
          ∀ d', c'.authSubscription.authSubscriptionStaticData = some d' →
            ∀ attr ∈ d'.mandatory, attr.isSome = true) ↔
        EveryAccepted data.relatedResources data.changes (Supplied data.relatedResources)) := by
  obtain ⟨data, o, hdata, herrors, hrun, -⟩ := creationOfNothing_answered
  exact ⟨data, o, hdata, hrun, applyValidationRules_complete id (some creationOfNothing) data o hdata herrors hrun⟩

end AuthProvValidator
