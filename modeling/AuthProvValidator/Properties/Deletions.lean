import AuthProvValidator.Entities.Steps

/-!
# Deletions

Two branches of the loop refuse a change by its path and never look at its operation: the one for a child of an
`authSubscription` resource without a valid IMSI, and the one for dynamic data.

`applyValidationRules_deletions` : a request of deletions is validated to the end, and all of them are allowed and
answered as they are exactly when no path is one of these.
-/

namespace AuthProvValidator
open Recorder

def Deletable (p : Str) : Prop := pathClass p ≠ .badImsi ∧ pathClass p ≠ .dynamicData

/-- A request of deletions is allowed: valid, with the code 200 and no error, and answered by the same changes. -/
structure Allowed (data : ValidationData) (o : Outcome) : Prop where
  validation : o.verdict.validation = true
  code : o.verdict.code = HTTP_OK
  errors : o.response.errors = []
  changes : o.response.changes = data.changes

section Turns
variable {R : RelatedResources} {c : Change} {cs start : List Change} {run : Run} {E : List Error}

theorem delete_ne_create (h : c.operation = JSON_OPERATION_DELETE) : c.operation ≠ JSON_OPERATION_CREATE := by
  rw [h]
  decide

theorem delete_ne_update (h : c.operation = JSON_OPERATION_DELETE) : c.operation ≠ JSON_OPERATION_UPDATE := by
  rw [h]
  decide

theorem validateChange_deletion_imsi (hclass : pathClass c.resourcePath = .imsi)
    (hop : c.operation = JSON_OPERATION_DELETE) :
    validateChange R run c =
      pure (if run.ret then (run.join ⟨true, HTTP_OK⟩).push c else run.join ⟨true, HTTP_OK⟩) := by
  have hcheck : checkForOperation R c = pure ⟨true, HTTP_OK⟩ := by
    rw [checkForOperation, if_neg (delete_ne_create hop), if_neg (delete_ne_update hop)]
  have hret : (run.join ⟨true, HTTP_OK⟩).ret = run.ret := Bool.and_true run.ret
  rw [validateChange_imsi hclass, hcheck, pure_bind, hret,
    computeMutations_of_other (delete_ne_create hop) (delete_ne_update hop)]
  split
  · rfl
  · rfl

theorem validateChange_deletion_returns (hop : c.operation = JSON_OPERATION_DELETE) :
    ∃ run' E', (validateChange R run c).run E = .ok (run', E') := by
  cases hclass : pathClass c.resourcePath with
  | authSubscription =>
    rw [validateChange_authSubscription hclass, if_pos hop]
    exact ⟨_, _, rfl⟩
  | imsi =>
    rw [validateChange_deletion_imsi hclass hop]
    exact ⟨_, _, rfl⟩
  | badImsi =>
    rw [validateChange_badImsi hclass]
    exact ⟨_, _, rfl⟩
  | dynamicData =>
    rw [validateChange_dynamicData hclass]
    exact ⟨_, _, rfl⟩
  | other =>
    rw [validateChange_reset hclass hop]
    exact ⟨_, _, rfl⟩

/-- Where deletions are let through, a valid run stays valid and answers the change. -/
theorem validateChange_deletion (hop : c.operation = JSON_OPERATION_DELETE) (hpath : Deletable c.resourcePath) :
    validateChange R ⟨true, HTTP_OK, start⟩ c = pure ⟨true, HTTP_OK, start ++ [c]⟩ := by
  cases hclass : pathClass c.resourcePath with
  | authSubscription =>
    rw [validateChange_authSubscription hclass, if_pos hop]
    rfl
  | imsi =>
    rw [validateChange_deletion_imsi hclass hop]
    rfl
  | badImsi => exact absurd hclass hpath.1
  | dynamicData => exact absurd hclass hpath.2
  | other =>
    rw [validateChange_reset hclass hop]
    rfl

theorem validateChanges_deletions_return (hop : ∀ c ∈ cs, c.operation = JSON_OPERATION_DELETE) :
    ∃ run' E', (validateChanges R run cs).run E = .ok (run', E') := by
  induction cs generalizing run E with
  | nil => exact ⟨run, E, rfl⟩
  | cons c cs ih =>
    rw [List.forall_mem_cons] at hop
    obtain ⟨run₁, E₁, hc⟩ := @validateChange_deletion_returns R c run E hop.1
    obtain ⟨run', E', hcs⟩ := @ih run₁ E₁ hop.2
    exact ⟨run', E', validateChanges_cons_run.mpr ⟨run₁, E₁, hc, hcs⟩⟩

theorem validateChanges_deletions (h : ∀ c ∈ cs, c.operation = JSON_OPERATION_DELETE ∧ Deletable c.resourcePath) :
    validateChanges R ⟨true, HTTP_OK, start⟩ cs = pure ⟨true, HTTP_OK, start ++ cs⟩ := by
  induction cs generalizing start with
  | nil => rw [List.append_nil, validateChanges, List.foldlM_nil]
  | cons c cs ih =>
    rw [List.forall_mem_cons] at h
    rw [validateChanges, List.foldlM_cons, validateChange_deletion h.1.1 h.1.2, pure_bind]
    show validateChanges R ⟨true, HTTP_OK, start ++ [c]⟩ cs = _
    rw [ih h.2, List.append_assoc, List.singleton_append]

theorem Conforms.deletable (h : Conforms R c) : Deletable c.resourcePath := by
  have hfirst := h.1
  unfold FirstRules at hfirst
  constructor
  · intro hclass
    simp only [hclass] at hfirst
  · intro hclass
    simp only [hclass] at hfirst

end Turns

/-- **A request of deletions is allowed exactly when all its paths let deletions through.** -/
theorem applyValidationRules_deletions (data : ValidationData) (hempty : data.response = {})
    (hop : ∀ c ∈ data.changes, c.operation = JSON_OPERATION_DELETE) :
    ∃ o, applyValidationRules data = .ok o ∧ (Allowed data o ↔ ∀ c ∈ data.changes, Deletable c.resourcePath) := by
  obtain ⟨run, E, hrun⟩ := @validateChanges_deletions_return data.relatedResources data.changes ⟨true, HTTP_OK, []⟩ []
    hop
  refine ⟨⟨⟨run.ret, run.code⟩, ⟨run.changes, E⟩⟩, ?_, ?_⟩
  · rw [applyValidationRules, hempty]
    exact bind_eq_ok.mpr ⟨(run, E), hrun, rfl⟩
  · constructor
    · intro hallowed c hc
      have hconforms := ((validateChanges_eq_nil_iff hrun).mp hallowed.errors).2
      exact (hconforms c hc).deletable
    · intro hpath
      rw [validateChanges_deletions fun c hc => ⟨hop c hc, hpath c hc⟩] at hrun
      obtain ⟨rfl, rfl⟩ := Prod.mk.inj (Except.ok.inj hrun)
      exact ⟨rfl, rfl, rfl, List.nil_append _⟩

def deletionOfDynamicData : ValidationData where
  changes := [{
    operation := JSON_OPERATION_DELETE
    resourcePath := addSuffixToPath (imsiPath "a" "12345") JSON_AUTH_SUBSCRIPTION_DYNAMIC_DATA }]

theorem deletionOfDynamicData_operation : ∀ c ∈ deletionOfDynamicData.changes, c.operation = JSON_OPERATION_DELETE := by
  intro c hc
  rw [List.mem_singleton.mp hc]

theorem deletionOfDynamicData_refused :
    ¬ ∀ data : ValidationData, data.response = {} → (∀ c ∈ data.changes, c.operation = JSON_OPERATION_DELETE) →
      ∃ o, applyValidationRules data = .ok o ∧ Allowed data o := by
  intro h
  obtain ⟨o, hrun, hallowed⟩ := h deletionOfDynamicData rfl deletionOfDynamicData_operation
  obtain ⟨o', hrun', hcode⟩ := exists_outcome deletionOfDynamicData (fun o => o.verdict.code) (a := HTTP_CONFLICT)
    (by decide)
  obtain rfl := Except.ok.inj (hrun.symm.trans hrun')
  rw [hallowed.code] at hcode
  exact absurd hcode (by decide)

theorem applyValidationRules_deletions_example :
    ∃ o, applyValidationRules deletionOfDynamicData = .ok o ∧
      (Allowed deletionOfDynamicData o ↔ ∀ c ∈ deletionOfDynamicData.changes, Deletable c.resourcePath) :=
  applyValidationRules_deletions deletionOfDynamicData rfl deletionOfDynamicData_operation

end AuthProvValidator
