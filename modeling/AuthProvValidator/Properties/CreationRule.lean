import AuthProvValidator.Entities.Faults
import AuthProvValidator.Entities.Formats
import AuthProvValidator.Properties.UpdateRule

/-!
# The creation rule

When a creation of static data is accepted for an IMSI that has no 4G legacy subscription, attribute by attribute.

* `NewCreation` : such a creation, with readable static data and no dynamic data;
* `CreationRule` : what its static data must be, and what the journal must say where `akaAlgorithmInd` is there;
* `applyValidationRules_creation` : it is accepted exactly when it meets the rule. Where the mask of the journal is not
  cut short the validation returns, whatever the static data are.
-/

namespace AuthProvValidator
open Recorder

/-- A creation of the static data `d` for the IMSI `i`, without a legacy subscription for it. -/
structure NewCreation (R : RelatedResources) (c : Change) (x i : Str) (d : AuthSubscriptionStaticData) : Prop where
  operation : c.operation = JSON_OPERATION_CREATE
  imsi : IsImsi i
  path : c.resourcePath.cStr = staticDataPath x i
  static : c.authSubscription.authSubscriptionStaticData = some d
  dynamic : c.authSubscription.authSubscriptionDynamicData = none
  readable : d.Readable
  noLegacy : R[LEGACY_BASE_PATH ++ i]? = none

/-- The journal of the subscriber is stored, and the fifth character of its mask from the right is a one. -/
def JournalSaysAuC (R : RelatedResources) (mscId : Str) : Prop :=
  ∃ journal, R[buildProvJournalResourcePathFromMscId mscId]? = some (.provJournal journal) ∧
    journal.imsiMask.reverse[4]? = some '1'

/-- What is stored as the journal of the subscriber is one, with a mask that is empty or has more than four
characters. -/
def JournalReadable (R : RelatedResources) (mscId : Str) : Prop :=
  ∀ r, R[buildProvJournalResourcePathFromMscId mscId]? = some r →
    ∃ journal, r = .provJournal journal ∧ (journal.imsiMask = [] ∨ 4 < journal.imsiMask.length)

/-- What a client must send. -/
structure CreationRule (definedInAuC : Prop) (d : AuthSubscriptionStaticData) : Prop where
  authenticationMethod : d.authenticationMethod = JSON_5G_AKA ∨ d.authenticationMethod = JSON_EAP_AKA_PRIME
  encPermanentKey : ∃ t, d.encPermanentKey = some t ∧ HexDigits 32 t
  authenticationManagementField : ∃ t, d.authenticationManagementField = some t ∧ HexDigits 4 t
  algorithmId : ∃ t, d.algorithmId = some t ∧ Str.DecimalUpTo 15 t
  a4KeyInd : ∃ t, d.a4KeyInd = some t ∧ Str.DecimalUpTo 511 t
  a4Ind : ∃ t, d.a4Ind = some t ∧ Str.DecimalUpTo 2 t
  encOpcKey : ∀ t, d.encOpcKey = some t → (∀ c ∈ t, Str.isHexDigit c = true) ∧
    ∃ algorithm, d.algorithmId = some algorithm ∧ Str.decValue algorithm ≠ 1
  a4KeyV : ∀ t, d.a4KeyV = some t → ∃ n ≤ 31, t = Nat.toDigits 10 n
  akaAlgorithmInd : ∀ t, d.akaAlgorithmInd = some t → (∃ n ≤ 2, t = Nat.toDigits 10 n) ∧ definedInAuC

section Attributes
variable {d : AuthSubscriptionStaticData} {definedInAuC : Prop}

theorem exists_formatted_iff {attr : Option Str} {format : Str → Prop} :
    (∃ t, attr = some t ∧ format t) ↔ attr.isSome = true ∧ ∀ t, attr = some t → format t := by
  cases attr with
  | none => simp
  | some t => simp

/-- The rule is the method, the formats, the presence of five attributes, and the journal. -/
theorem creationRule_iff :
    CreationRule definedInAuC d ↔
      (d.authenticationMethod = JSON_5G_AKA ∨ d.authenticationMethod = JSON_EAP_AKA_PRIME) ∧ Formatted d ∧
      (∀ attr ∈ d.mandatory, attr.isSome = true) ∧ (d.akaAlgorithmInd.isSome = true → definedInAuC) := by
  simp only [AuthSubscriptionStaticData.mandatory, List.forall_mem_cons, List.not_mem_nil, false_implies, implies_true,
    and_true]
  constructor
  · intro h
    obtain ⟨hkey, fkey⟩ := exists_formatted_iff.mp h.encPermanentKey
    obtain ⟨hamf, famf⟩ := exists_formatted_iff.mp h.authenticationManagementField
    obtain ⟨halg, falg⟩ := exists_formatted_iff.mp h.algorithmId
    obtain ⟨hkeyInd, fkeyInd⟩ := exists_formatted_iff.mp h.a4KeyInd
    obtain ⟨hind, find⟩ := exists_formatted_iff.mp h.a4Ind
    refine ⟨h.authenticationMethod, ⟨fkey, famf, falg, fkeyInd, find, h.encOpcKey, h.a4KeyV,
      fun t ht => (h.akaAlgorithmInd t ht).1⟩, ⟨hkey, hamf, halg, hkeyInd, hind⟩, fun hsome => ?_⟩
    obtain ⟨t, ht⟩ := Option.isSome_iff_exists.mp hsome
    exact (h.akaAlgorithmInd t ht).2
  · intro h
    obtain ⟨hmethod, hformat, ⟨hkey, hamf, halg, hkeyInd, hind⟩, hjournal⟩ := h
    exact ⟨hmethod, exists_formatted_iff.mpr ⟨hkey, hformat.encPermanentKey⟩,
      exists_formatted_iff.mpr ⟨hamf, hformat.authenticationManagementField⟩,
      exists_formatted_iff.mpr ⟨halg, hformat.algorithmId⟩, exists_formatted_iff.mpr ⟨hkeyInd, hformat.a4KeyInd⟩,
      exists_formatted_iff.mpr ⟨hind, hformat.a4Ind⟩, hformat.encOpcKey, hformat.a4KeyV,
      fun t ht => ⟨hformat.akaAlgorithmInd t ht, hjournal (by rw [ht, Option.isSome_some])⟩⟩

end Attributes

section Creation
variable {R : RelatedResources} {c : Change} {x i : Str} {d : AuthSubscriptionStaticData}

theorem NewCreation.pathClass_eq (h : NewCreation R c x i d) : pathClass c.resourcePath = .imsi :=
  pathClass_staticDataPath h.imsi h.path

theorem NewCreation.lookup (h : NewCreation R c x i d) : R[getLegacyPathFromResourcePath c.resourcePath]? = none := by
  rw [getLegacyPath_of_cStr_eq h.imsi h.path]
  exact h.noLegacy

theorem NewCreation.legacyRules (h : NewCreation R c x i d) : LegacyRules R c := by
  intro r hr
  rw [h.lookup] at hr
  cases hr

theorem NewCreation.mutations (h : NewCreation R c x i d) :
    ∃ c', computeMutations R c = .ok c' ∧ c'.operation = c.operation ∧ c'.resourcePath = c.resourcePath ∧
      c'.authSubscription.authSubscriptionStaticData = c.authSubscription.authSubscriptionStaticData := by
  have hs := (staticData_imsi_iff.mpr ⟨x, i, h.imsi, h.path⟩).1
  exact ⟨_, computeMutations_create_none hs h.operation h.lookup, rfl, rfl, rfl⟩

theorem NewCreation.isRequired_iff (h : NewCreation R c x i d) :
    isRequired R c.resourcePath d = true ↔
      d.authenticationMethod = JSON_5G_AKA ∨ d.authenticationMethod = JSON_EAP_AKA_PRIME := by
  have hnone : R.contains (getLegacyPathFromResourcePath c.resourcePath) = false := by
    rw [Std.ExtTreeMap.contains_eq_isSome_getElem?, h.lookup, Option.isSome_none]
  rw [isRequired, hnone, ← isAuthenticationMethodAKA_iff]
  show (isAuthenticationMethodAKA d && true) = true ↔ _
  rw [Bool.and_true]

theorem definedInAuC_iff {p : Str} : DefinedInAuC R p ↔ JournalSaysAuC R (getMscId p) :=
  exists_congr fun _ => and_congr_right fun _ => isDefinedInAuC_iff

/-- **The rules of such a creation.** -/
theorem NewCreation.conforms_iff (h : NewCreation R c x i d) :
    Conforms R c ↔ CreationRule (JournalSaysAuC R (getMscId c.resourcePath)) d := by
  have hfirst : FirstRules R c ↔ CommonRules R c := by
    simp only [FirstRules, h.pathClass_eq, if_pos h.operation]
  have hfurther : FurtherRules R c := by
    simp only [FurtherRules, h.pathClass_eq, if_pos h.operation]
    exact h.legacyRules
  have hcommon : CommonRules R c ↔ StaticDataRules R c.resourcePath d := by
    constructor
    · intro hrules
      exact hrules.static d h.static
    · intro hrules
      refine ⟨fun d' hd' => ?_, h.dynamic⟩
      obtain rfl := Option.some.inj (h.static.symm.trans hd')
      exact hrules
  rw [Conforms, and_iff_left hfurther, hfirst, hcommon, staticDataRules_iff h.readable, creationRule_iff,
    definedInAuC_iff]
  refine and_congr_right fun hmethod => and_congr_right fun _ => and_congr_left fun _ => ?_
  exact ⟨fun hrequired => hrequired (h.isRequired_iff.mpr hmethod), fun hpresent _ => hpresent⟩

/-! ## Validation to the end -/

theorem JournalReadable.returns {p : Str} (h : JournalReadable R (getMscId p)) : Returns (checkDefinedInAuC R p) := by
  cases hr : R[buildProvJournalResourcePathFromMscId (getMscId p)]? with
  | none =>
    simp only [checkDefinedInAuC, hr]
    exact (returns_record _).bind fun _ => returns_pure _
  | some r =>
    obtain ⟨journal, rfl, hmask⟩ := h r hr
    exact (returns_checkDefinedInAuC_iff hr).mpr hmask

theorem NewCreation.turn (h : NewCreation R c x i d) (hj : JournalReadable R (getMscId c.resourcePath)) (run : Run) :
    ∃ run' E, (validateChange R run c).run [] = .ok (run', E) := by
  cases hturn : (validateChange R run c).run [] with
  | ok r => exact ⟨r.1, r.2, rfl⟩
  | error f =>
    rw [validateChange_imsi h.pathClass_eq] at hturn
    rcases run_bind_error.mp hturn with hcheck | ⟨resp, E, -, hrest⟩
    · rw [checkForOperation, if_pos h.operation] at hcheck
      have hfurther : (checkForLegacyAuthSubscriptionRules R c).run [] = .ok (true, []) :=
        silent_checkForLegacyAuthSubscriptionRules.mpr h.legacyRules
      have hnever : Fails (fun _ => False) (checkDefinedInAuC R c.resourcePath) := hj.returns.fails
      rcases checkForCommonRulesThen_error hcheck with hcommon | ⟨-, -, hlegacy⟩
      · exact absurd (fails_checkForCommonRules hnever [] f hcommon) not_false
      · rw [hfurther] at hlegacy
        cases hlegacy
    · obtain ⟨c', hmut, -⟩ := h.mutations
      rw [hmut] at hrest
      split at hrest <;> cases hrest

theorem NewCreation.turn_verdict {run' : Run} {E : List Error} (h : NewCreation R c x i d)
    (hturn : (validateChange R ⟨true, HTTP_OK, []⟩ c).run [] = .ok (run', E)) : run'.ret = true ↔ Conforms R c := by
  have hstep := validateChange_step hturn
  have hjudges : Judges c := by
    simp only [Judges, h.pathClass_eq]
    exact Or.inl h.operation
  have hrange : Run.Ranged ⟨true, HTTP_OK, []⟩ := by
    rw [Run.Ranged]
    decide
  have hconforms : E = [] ↔ Conforms R c := by
    rw [hstep.checked.eq_nil_iff]
    exact and_iff_right rfl
  rw [(hstep.judged hjudges hrange).1, verdictOn, ← hconforms]
  by_cases hE : E = []
  · simp [hE, Run.join]
  · simp [hE, Run.join]

end Creation

/-- **The creation rule.** The creation is accepted exactly when it meets the rule; where the journal is readable the
validation returns and its verdict says so; and a subscriber without a slash is the one whose journal is looked at. -/
theorem applyValidationRules_creation (R : RelatedResources) (c : Change) (x i : Str) (d : AuthSubscriptionStaticData)
    (h : NewCreation R c x i d) :
    (AcceptedAfter R [] c [] ↔ CreationRule (JournalSaysAuC R (getMscId c.resourcePath)) d) ∧
      (JournalReadable R (getMscId c.resourcePath) → ∃ o,
        applyValidationRules { changes := [c], relatedResources := R } = .ok o ∧
          (o.verdict.validation = true ↔ CreationRule (JournalSaysAuC R (getMscId c.resourcePath)) d)) ∧
      ('/' ∉ x → c.resourcePath = staticDataPath x i → getMscId c.resourcePath = x) := by
  have hnone : applyValidationRules { changes := [], relatedResources := R } = .ok ⟨⟨true, HTTP_OK⟩, ⟨[], []⟩⟩ := rfl
  rw [← h.conforms_iff]
  refine ⟨acceptedAfter_iff hnone rfl h.pathClass_eq h.mutations, fun hj => ?_, fun hx hpath => ?_⟩
  · obtain ⟨run, E, hturn⟩ := h.turn hj ⟨true, HTTP_OK, []⟩
    exact ⟨⟨⟨run.ret, run.code⟩, ⟨run.changes, E⟩⟩, (applyValidationRules_append hnone rfl).mpr ⟨run, hturn, rfl, rfl⟩,
      h.turn_verdict hturn⟩
  · rw [hpath]
    exact getMscId_staticDataPath hx

def fullStaticData : AuthSubscriptionStaticData where
  authenticationMethod := JSON_EAP_AKA_PRIME
  encPermanentKey := some "0123456789abcdefABCDEF0123456789"
  authenticationManagementField := some "8000"
  algorithmId := some "002"
  a4KeyInd := some "511"
  a4Ind := some "0"
  encOpcKey := some "AB"
  a4KeyV := some "31"
  akaAlgorithmInd := some "1"

def fullCreation : Change where
  operation := JSON_OPERATION_CREATE
  resourcePath := staticDataPath "a" "12345"
  authSubscription := { authSubscriptionStaticData := some fullStaticData }

def journalResources : RelatedResources :=
  (∅ : RelatedResources).insert "/subscribers/a/journal/provJournal" (.provJournal { imsiMask := "10000" })

theorem newCreation_fullCreation : NewCreation journalResources fullCreation "a" "12345" fullStaticData where
  operation := rfl
  imsi := ⟨List.all_eq_true.mp (by decide), by decide, by decide⟩
  path := by decide
  static := rfl
  dynamic := rfl
  readable := by
    refine ⟨by decide, fun t ht => ?_⟩
    have hall : ∀ attr ∈ fullStaticData.attributes, attr.all (fun t => !t.contains '\x00') = true := by decide
    simpa using hall _ ht
  noLegacy := by
    have hnone : journalResources.contains (LEGACY_BASE_PATH ++ "12345") = false := by decide
    rwa [Std.ExtTreeMap.contains_eq_isSome_getElem?, Option.isSome_eq_false_iff, Option.isNone_iff_eq_none] at hnone

theorem journalReadable_fullCreation : JournalReadable journalResources (getMscId fullCreation.resourcePath) := by
  intro r hr
  have hpath : buildProvJournalResourcePathFromMscId (getMscId fullCreation.resourcePath) =
      "/subscribers/a/journal/provJournal" := by decide
  rw [hpath, journalResources, Std.ExtTreeMap.getElem?_insert_self] at hr
  exact ⟨_, (Option.some.inj hr).symm, Or.inr (by decide)⟩

/-- It is accepted, so it meets the rule. -/
theorem applyValidationRules_creation_example :
    CreationRule (JournalSaysAuC journalResources (getMscId fullCreation.resourcePath)) fullStaticData := by
  obtain ⟨-, hreturns, -⟩ :=
    applyValidationRules_creation journalResources fullCreation "a" "12345" fullStaticData newCreation_fullCreation
  obtain ⟨o, hrun, hverdict⟩ := hreturns journalReadable_fullCreation
  obtain ⟨o', hrun', hvalid⟩ := exists_outcome { changes := [fullCreation], relatedResources := journalResources }
    (fun o => o.verdict.validation) (a := true) (by decide)
  obtain rfl := Except.ok.inj (hrun.symm.trans hrun')
  exact hverdict.mp hvalid

end AuthProvValidator
