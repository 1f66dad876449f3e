import AuthProvValidator.Entities.Apply

/-!
# What a change can see of the related resources

* `consulted c` : the keys under which the rules and the mutations look something up for `c`;
* `applyValidationRules_isolated` : two requests whose related resources agree on the keys of their changes have the
  same outcome, whatever else the client sends along.
-/

namespace AuthProvValidator
open Recorder

/-- Where the rules and the mutations look for the related resources of a change: a creation needs the legacy
subscription of its IMSI and the journal of its subscriber, an update also the stored subscription. -/
def consulted (c : Change) : List Str :=
  match pathClass c.resourcePath with
  | .imsi =>
      let common := [getLegacyPathFromResourcePath c.resourcePath,
        buildProvJournalResourcePathFromMscId (getMscId c.resourcePath)]
      if c.operation = JSON_OPERATION_CREATE then common
      else if c.operation = JSON_OPERATION_UPDATE then getBasePath c.resourcePath :: c.resourcePath :: common
      else []
  | _ => []

theorem consulted_create {c : Change} (hclass : pathClass c.resourcePath = .imsi)
    (hop : c.operation = JSON_OPERATION_CREATE) :
    consulted c = [getLegacyPathFromResourcePath c.resourcePath,
      buildProvJournalResourcePathFromMscId (getMscId c.resourcePath)] := by
  unfold consulted
  rw [hclass]
  exact if_pos hop

theorem consulted_update {c : Change} (hclass : pathClass c.resourcePath = .imsi)
    (hop : c.operation = JSON_OPERATION_UPDATE) :
    consulted c = [getBasePath c.resourcePath, c.resourcePath, getLegacyPathFromResourcePath c.resourcePath,
      buildProvJournalResourcePathFromMscId (getMscId c.resourcePath)] := by
  have hne : c.operation ≠ JSON_OPERATION_CREATE := by
    rw [hop]
    decide
  unfold consulted
  rw [hclass]
  exact (if_neg hne).trans (if_pos hop)

def SameFor (R R' : RelatedResources) (c : Change) : Prop := ∀ k ∈ consulted c, R[k]? = R'[k]?

section Rules
variable {R R' : RelatedResources} {c : Change} {p : Str}

theorem contains_congr (h : R[p]? = R'[p]?) : R.contains p = R'.contains p := by
  rw [Std.ExtTreeMap.contains_eq_isSome_getElem?, Std.ExtTreeMap.contains_eq_isSome_getElem?, h]

theorem checkForCommonRulesThen_congr
    (hlegacy : R[getLegacyPathFromResourcePath c.resourcePath]? = R'[getLegacyPathFromResourcePath c.resourcePath]?)
    (hjournal : R[buildProvJournalResourcePathFromMscId (getMscId c.resourcePath)]? =
      R'[buildProvJournalResourcePathFromMscId (getMscId c.resourcePath)]?) (further : Rules Bool) :
    checkForCommonRulesThen R c further = checkForCommonRulesThen R' c further := by
  have hrequired : isRequired R c.resourcePath = isRequired R' c.resourcePath := by
    funext d
    rw [isRequired, isRequired, contains_congr hlegacy]
  have hattributes : attributeChecks R c.resourcePath = attributeChecks R' c.resourcePath := by
    funext d
    rw [attributeChecks, attributeChecks, hrequired]
  have hauc : checkDefinedInAuC R c.resourcePath = checkDefinedInAuC R' c.resourcePath := by
    rw [checkDefinedInAuC, checkDefinedInAuC, hjournal]
  have haka : checkAkaAlgorithmInd R c.resourcePath = checkAkaAlgorithmInd R' c.resourcePath := by
    funext attr
    cases attr with
    | none => rfl
    | some value => rw [checkAkaAlgorithmInd, checkAkaAlgorithmInd, hauc]
  have hstatic : checkForCommonStaticDataRules R c.resourcePath = checkForCommonStaticDataRules R' c.resourcePath := by
    funext staticData
    cases staticData with
    | none => rfl
    | some d => rw [checkForCommonStaticDataRules, checkForCommonStaticDataRules, hattributes, haka]
  have hcommon : checkForCommonRules R c = checkForCommonRules R' c := by
    rw [checkForCommonRules, checkForCommonRules, hstatic]
  rw [checkForCommonRulesThen, checkForCommonRulesThen, checkForCommonAuthSubscriptionRules,
    checkForCommonAuthSubscriptionRules, hcommon]

theorem checkForLegacyAuthSubscriptionRules_congr
    (hlegacy : R[getLegacyPathFromResourcePath c.resourcePath]? = R'[getLegacyPathFromResourcePath c.resourcePath]?) :
    checkForLegacyAuthSubscriptionRules R c = checkForLegacyAuthSubscriptionRules R' c := by
  rw [checkForLegacyAuthSubscriptionRules, checkForLegacyAuthSubscriptionRules, hlegacy]

theorem checkForUpdateAuthSubscriptionRules_congr
    (hbase : R[getBasePath c.resourcePath]? = R'[getBasePath c.resourcePath]?) :
    checkForUpdateAuthSubscriptionRules R c = checkForUpdateAuthSubscriptionRules R' c := by
  rw [checkForUpdateAuthSubscriptionRules, checkForUpdateAuthSubscriptionRules, hbase]

theorem checkForOperation_congr (hclass : pathClass c.resourcePath = .imsi) (h : SameFor R R' c) :
    checkForOperation R c = checkForOperation R' c := by
  unfold checkForOperation
  split
  · next hop =>
    have hlegacy := h (getLegacyPathFromResourcePath c.resourcePath) (by simp [consulted_create hclass hop])
    have hjournal := h (buildProvJournalResourcePathFromMscId (getMscId c.resourcePath))
      (by simp [consulted_create hclass hop])
    rw [checkForCreationAuthSubscription, checkForCreationAuthSubscription,
      checkForLegacyAuthSubscriptionRules_congr hlegacy, checkForCommonRulesThen_congr hlegacy hjournal]
  · split
    · next hop =>
      have hbase := h (getBasePath c.resourcePath) (by simp [consulted_update hclass hop])
      have hlegacy := h (getLegacyPathFromResourcePath c.resourcePath) (by simp [consulted_update hclass hop])
      have hjournal := h (buildProvJournalResourcePathFromMscId (getMscId c.resourcePath))
        (by simp [consulted_update hclass hop])
      rw [checkForUpdateAuthSubscription, checkForUpdateAuthSubscription, hasRelatedResource, hasRelatedResource,
        contains_congr hbase, checkForUpdateAuthSubscriptionRules_congr hbase,
        checkForCommonRulesThen_congr hlegacy hjournal]
    · rfl

theorem computeMutations_congr (hclass : pathClass c.resourcePath = .imsi) (h : SameFor R R' c) :
    computeMutations R c = computeMutations R' c := by
  by_cases hs : checkAuthSubscriptionStaticDataUri c.resourcePath = true
  · by_cases hc : c.operation = JSON_OPERATION_CREATE
    · have hlegacy := h (getLegacyPathFromResourcePath c.resourcePath) (by simp [consulted_create hclass hc])
      rw [computeMutations, computeMutations, if_pos hs, if_pos hc, if_pos hs, if_pos hc, hlegacy]
    · by_cases hu : c.operation = JSON_OPERATION_UPDATE
      · have hown := h c.resourcePath (by simp [consulted_update hclass hu])
        rw [computeMutations, computeMutations, if_pos hs, if_neg hc, if_pos hu, if_pos hs, if_neg hc, if_pos hu,
          hown]
      · rw [computeMutations_of_other hc hu, computeMutations_of_other hc hu]
  · rw [computeMutations_of_not_static hs, computeMutations_of_not_static hs]

theorem validateChange_congr (h : SameFor R R' c) (run : Run) : validateChange R run c = validateChange R' run c := by
  cases hclass : pathClass c.resourcePath with
  | imsi =>
    rw [validateChange_imsi hclass, validateChange_imsi hclass, checkForOperation_congr hclass h,
      computeMutations_congr hclass h]
  | authSubscription => rw [validateChange_authSubscription hclass, validateChange_authSubscription hclass]
  | badImsi => rw [validateChange_badImsi hclass, validateChange_badImsi hclass]
  | dynamicData => rw [validateChange_dynamicData hclass, validateChange_dynamicData hclass]
  | other =>
    by_cases hop : c.operation = JSON_OPERATION_DELETE
    · rw [validateChange_reset hclass hop, validateChange_reset hclass hop]
    · rw [validateChange_other hclass hop, validateChange_other hclass hop]

theorem validateChanges_congr {cs : List Change} (h : ∀ c ∈ cs, SameFor R R' c) (run : Run) :
    validateChanges R run cs = validateChanges R' run cs := by
  induction cs generalizing run with
  | nil => rfl
  | cons c cs ih =>
    rw [List.forall_mem_cons] at h
    rw [validateChanges, validateChanges, List.foldlM_cons, List.foldlM_cons, validateChange_congr h.1 run]
    congr 1
    funext run₁
    exact ih h.2 run₁

end Rules

/-- The outcome of a request, its verdict, its errors, its response and whether it breaks off, depends on nothing of the
related resources but what is stored under the keys that its changes consult. -/
theorem applyValidationRules_isolated (data : ValidationData) (R : RelatedResources)
    (h : ∀ c ∈ data.changes, ∀ k ∈ consulted c, data.relatedResources[k]? = R[k]?) :
    applyValidationRules data = applyValidationRules { data with relatedResources := R } := by
  rw [applyValidationRules, applyValidationRules, validateChanges_congr h]

def bareCreation : Change := { operation := JSON_OPERATION_CREATE, resourcePath := staticDataPath "a" "12345" }

def foreignLegacy : RelatedResources :=
  (∅ : RelatedResources).insert (LEGACY_BASE_PATH ++ "67890") (.authSubscriptionLegacy {})

/-- The legacy subscription of another IMSI is not looked at. -/
theorem applyValidationRules_isolated_foreignLegacy :
    applyValidationRules { changes := [bareCreation], relatedResources := foreignLegacy } =
      applyValidationRules { changes := [bareCreation], relatedResources := ∅ } := by
  refine applyValidationRules_isolated { changes := [bareCreation], relatedResources := foreignLegacy } ∅ ?_
  intro c hc k hk
  obtain rfl := List.mem_singleton.mp hc
  have hkeys : (consulted bareCreation).all (fun k => !foreignLegacy.contains k) = true := by decide
  have habsent := List.all_eq_true.mp hkeys k hk
  rw [Bool.not_eq_true', Std.ExtTreeMap.contains_eq_isSome_getElem?, Option.isSome_eq_false_iff,
    Option.isNone_iff_eq_none] at habsent
  rw [habsent, Std.ExtTreeMap.getElem?_empty]

end AuthProvValidator
