import AuthProvValidator.Entities.Mutations

/-!
# Validating a request

* `validateChange` : the body of the loop over the changes; `Run` is what it carries besides the errors, which are the
  log of the `Recorder`;
* `applyValidationRules` : the loop, from the verdict "valid" and the code 200;
* `PathClass` : the five branches of the loop body; `validateChange_*` is the body, branch by branch.
-/

namespace AuthProvValidator
open Recorder

/-- The verdict, the code and `response.changes` so far. -/
structure Run where
  ret : Bool
  code : Nat
  changes : List Change

def Run.push (run : Run) (c : Change) : Run := { run with changes := run.changes ++ [c] }

/-- One more verdict: failures stay, the higher code wins. -/
def Run.join (run : Run) (resp : ValidationResponse) : Run :=
  { run with ret := run.ret && resp.validation, code := max run.code resp.code }

variable (relatedResources : RelatedResources)

def checkForOperation (c : Change) : Rules ValidationResponse :=
  if c.operation = JSON_OPERATION_CREATE then checkForCreationAuthSubscription relatedResources c
  else if c.operation = JSON_OPERATION_UPDATE then checkForUpdateAuthSubscription relatedResources c
  else return ⟨true, HTTP_OK⟩

def badImsiDescription : Str :=
  "\"" ++ JSON_IMSI ++ "\" in \"" ++ JSON_RESOURCE_PATH ++ "\" has not the valid format"

def unknownPathDescription : Str := "Validation could not be performed on the specified resource_path"

def validateChange (run : Run) (c : Change) : Rules Run := do
  if checkAuthSubscriptionUri c.resourcePath then
    if c.operation = JSON_OPERATION_DELETE then return run.push c
    else return run
  else if checkAuthSubscriptionStaticDataUri c.resourcePath || checkAuthSubscriptionPrivIdUri c.resourcePath then
    if checkUriImsi c.resourcePath then
      let resp ← checkForOperation relatedResources c
      let run := run.join resp
      if run.ret then
        let responseChange ← computeMutations relatedResources c
        return run.push responseChange
      else return run
    else
      addConstraintViolation c.resourcePath badImsiDescription
      return { run with ret := false, code := max run.code HTTP_CONFLICT }
  else if Str.endsWith c.resourcePath JSON_AUTH_SUBSCRIPTION_DYNAMIC_DATA then
    addConstraintViolation c.resourcePath dynamicDataDescription
    return { run with ret := false, code := max run.code HTTP_CONFLICT }
  else if c.operation ≠ JSON_OPERATION_DELETE then
    addUnprocessableEntity c.resourcePath unknownPathDescription
    return { run with ret := false, code := HTTP_UNPROCESSABLE_ENTITY }
  else
    -- the verdict and the code of the changes before this one are overwritten here
    return { run with ret := true, code := HTTP_OK }.push c

def validateChanges (run : Run) (changes : List Change) : Rules Run :=
  changes.foldlM (validateChange relatedResources) run

structure Outcome where
  verdict : ValidationResponse
  response : Response

def applyValidationRules (data : ValidationData) : Except Fault Outcome := do
  let (run, errors) ←
    (validateChanges data.relatedResources ⟨true, HTTP_OK, data.response.changes⟩ data.changes).run data.response.errors
  return ⟨⟨run.ret, run.code⟩, ⟨run.changes, errors⟩⟩

theorem exists_outcome {α : Type} (data : ValidationData) (f : Outcome → α) {a : α}
    (h : (applyValidationRules data).toOption.map f = some a) : ∃ o, applyValidationRules data = .ok o ∧ f o = a :=
  exists_of_toOption f h

theorem exists_mem_of_map_eq_singleton {α β : Type} {f : α → β} {l : List α} {b : β} (h : l.map f = [b]) :
    ∃ a ∈ l, f a = b := by
  obtain ⟨a, rfl, ha⟩ := List.map_eq_singleton_iff.mp h
  exact ⟨a, List.mem_singleton_self a, ha⟩

/-! ## The branches -/

/-- The five branches of the loop body. -/
inductive PathClass where
  | authSubscription
  | imsi
  | badImsi
  | dynamicData
  | other
deriving DecidableEq

def pathClass (p : Str) : PathClass :=
  if checkAuthSubscriptionUri p then .authSubscription
  else if checkAuthSubscriptionStaticDataUri p || checkAuthSubscriptionPrivIdUri p then
    if checkUriImsi p then .imsi else .badImsi
  else if Str.endsWith p JSON_AUTH_SUBSCRIPTION_DYNAMIC_DATA then .dynamicData
  else .other

section Branches
variable {R : RelatedResources} {run : Run} {c : Change}

theorem validateChange_authSubscription (h : pathClass c.resourcePath = .authSubscription) :
    validateChange R run c = if c.operation = JSON_OPERATION_DELETE then pure (run.push c) else pure run := by
  unfold pathClass at h
  split_ifs at h with h1
  rw [validateChange, if_pos h1]

theorem validateChange_imsi (h : pathClass c.resourcePath = .imsi) :
    validateChange R run c = (do
      let resp ← checkForOperation R c
      if (run.join resp).ret then
        let responseChange ← computeMutations R c
        return (run.join resp).push responseChange
      else return run.join resp) := by
  unfold pathClass at h
  split_ifs at h with h1 h2 h3
  rw [validateChange, if_neg h1, if_pos h2, if_pos h3]

theorem validateChange_badImsi (h : pathClass c.resourcePath = .badImsi) :
    validateChange R run c = (do
      addConstraintViolation c.resourcePath badImsiDescription
      return { run with ret := false, code := max run.code HTTP_CONFLICT }) := by
  unfold pathClass at h
  split_ifs at h with h1 h2 h3
  rw [validateChange, if_neg h1, if_pos h2, if_neg h3]

theorem validateChange_dynamicData (h : pathClass c.resourcePath = .dynamicData) :
    validateChange R run c = (do
      addConstraintViolation c.resourcePath dynamicDataDescription
      return { run with ret := false, code := max run.code HTTP_CONFLICT }) := by
  unfold pathClass at h
  split_ifs at h with h1 h2 h3 h4
  rw [validateChange, if_neg h1, if_neg h2, if_pos h4]

theorem validateChange_other (h : pathClass c.resourcePath = .other) (hop : c.operation ≠ JSON_OPERATION_DELETE) :
    validateChange R run c = (do
      addUnprocessableEntity c.resourcePath unknownPathDescription
      return { run with ret := false, code := HTTP_UNPROCESSABLE_ENTITY }) := by
  unfold pathClass at h
  split_ifs at h with h1 h2 h3 h4
  rw [validateChange, if_neg h1, if_neg h2, if_neg h4, if_pos hop]

/-- The branch that starts the verdict and the code anew. -/
theorem validateChange_reset (h : pathClass c.resourcePath = .other) (hop : c.operation = JSON_OPERATION_DELETE) :
    validateChange R run c = pure ({ run with ret := true, code := HTTP_OK }.push c) := by
  unfold pathClass at h
  split_ifs at h with h1 h2 h3 h4
  rw [validateChange, if_neg h1, if_neg h2, if_neg h4, if_neg (not_not_intro hop)]

theorem pathClass_eq_imsi_iff {p : Str} :
    pathClass p = .imsi ↔ ∃ x d, IsImsi d ∧ (p.cStr = imsiPath x d ∨ p.cStr = staticDataPath x d) := by
  constructor
  · intro h
    unfold pathClass at h
    split_ifs at h with h1 h2 h3
    rcases (Bool.or_eq_true _ _).mp h2 with hs | hp
    · obtain ⟨x, d, hd, heq⟩ := staticData_imsi_iff.mp ⟨hs, h3⟩
      exact ⟨x, d, hd, Or.inr heq⟩
    · obtain ⟨x, d, hd, heq⟩ := privId_imsi_iff.mp ⟨hp, h3⟩
      exact ⟨x, d, hd, Or.inl heq⟩
  · rintro ⟨x, d, hd, hp⟩
    have hnot : ¬ checkAuthSubscriptionUri p = true := by
      rw [checkAuthSubscriptionUri_iff]
      rintro ⟨y, hy⟩
      rcases hp with hp | hp
      · exact imsiPath_ne_authSubscriptionPath hd (hp.symm.trans hy)
      · exact staticDataPath_ne_authSubscriptionPath (hp.symm.trans hy)
    have hchecks : (checkAuthSubscriptionStaticDataUri p || checkAuthSubscriptionPrivIdUri p) = true ∧
        checkUriImsi p = true := by
      rcases hp with hp | hp
      · obtain ⟨h2, h3⟩ := privId_imsi_iff.mpr ⟨x, d, hd, hp⟩
        exact ⟨by rw [h2, Bool.or_true], h3⟩
      · obtain ⟨h2, h3⟩ := staticData_imsi_iff.mpr ⟨x, d, hd, hp⟩
        exact ⟨by rw [h2, Bool.true_or], h3⟩
    rw [pathClass, if_neg hnot, if_pos hchecks.1, if_pos hchecks.2]

theorem staticDataPath_of_imsi {p : Str} (h : pathClass p = .imsi) (hs : checkAuthSubscriptionStaticDataUri p = true) :
    ∃ x d, IsImsi d ∧ p.cStr = staticDataPath x d := by
  unfold pathClass at h
  split_ifs at h with h1 h2 h3
  exact staticData_imsi_iff.mp ⟨hs, h3⟩

theorem pathClass_staticDataPath {p x d : Str} (hd : IsImsi d) (h : p.cStr = staticDataPath x d) :
    pathClass p = .imsi := pathClass_eq_imsi_iff.mpr ⟨x, d, hd, Or.inr h⟩

end Branches

end AuthProvValidator
