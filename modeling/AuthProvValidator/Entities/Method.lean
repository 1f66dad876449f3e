import AuthProvValidator.Entities.Apply

/-!
# The method and its object

`applyValidationRules` is a method of `ValidationData`: it reads the changes and the related resources of its object,
and writes to its response. Here the object is the state.

* `validateChangeMethod`, `applyValidationRulesMethod` : the loop body and the loop, on the object;
* `applyValidationRulesMethod_run` : what the method does to its object is what `applyValidationRules` computes.
-/

namespace AuthProvValidator
open Recorder

/-- A method of `ValidationData`: it may change its object. -/
abbrev Method (α : Type) := StateT ValidationData (Except Fault) α

def ValidationData.setErrors (data : ValidationData) (errors : List Error) : ValidationData :=
  { data with response := { data.response with errors } }

def ValidationData.pushChange (data : ValidationData) (c : Change) : ValidationData :=
  { data with response := { data.response with changes := data.response.changes ++ [c] } }

/-- A check reads the related resources of the object and records its errors in the response. -/
def check {α : Type} (x : RelatedResources → Rules α) : Method α := fun data => do
  let (a, errors) ← (x data.relatedResources).run data.response.errors
  return (a, data.setErrors errors)

/-- `response.changes.push_back` -/
def pushBack (c : Change) : Method Unit := modify fun data => data.pushChange c

/-- The mutations read the related resources of the object; what they give is pushed back. -/
def pushMutated (c : Change) : Method Unit := fun data => do
  let responseChange ← computeMutations data.relatedResources c
  return ((), data.pushChange responseChange)

/-- The loop body, with the verdict and the code so far. -/
def validateChangeMethod (resp : ValidationResponse) (c : Change) : Method ValidationResponse := do
  if checkAuthSubscriptionUri c.resourcePath then
    if c.operation = JSON_OPERATION_DELETE then
      pushBack c
      return resp
    else return resp
  else if checkAuthSubscriptionStaticDataUri c.resourcePath || checkAuthSubscriptionPrivIdUri c.resourcePath then
    if checkUriImsi c.resourcePath then
      let r ← check (checkForOperation · c)
      let resp : ValidationResponse := ⟨resp.validation && r.validation, max resp.code r.code⟩
      if resp.validation then
        pushMutated c
        return resp
      else return resp
    else
      check fun _ => addConstraintViolation c.resourcePath badImsiDescription
      return ⟨false, max resp.code HTTP_CONFLICT⟩
  else if Str.endsWith c.resourcePath JSON_AUTH_SUBSCRIPTION_DYNAMIC_DATA then
    check fun _ => addConstraintViolation c.resourcePath dynamicDataDescription
    return ⟨false, max resp.code HTTP_CONFLICT⟩
  else if c.operation ≠ JSON_OPERATION_DELETE then
    check fun _ => addUnprocessableEntity c.resourcePath unknownPathDescription
    return ⟨false, HTTP_UNPROCESSABLE_ENTITY⟩
  else
    pushBack c
    return ⟨true, HTTP_OK⟩

def applyValidationRulesMethod : Method ValidationResponse := do
  let data ← get
  data.changes.foldlM validateChangeMethod ⟨true, HTTP_OK⟩

section Lemmas
variable {data : ValidationData} {c : Change} {resp : ValidationResponse} {α β : Type}

/-- What a run leaves in the object that it was started on. -/
def ValidationData.after (data : ValidationData) (r : Run × List Error) : ValidationResponse × ValidationData :=
  (⟨r.1.ret, r.1.code⟩, { data with response := ⟨r.1.changes, r.2⟩ })

theorem check_bind_run (x : RelatedResources → Rules α) (f : α → Method β) :
    (check x >>= f).run data = ((x data.relatedResources).run data.response.errors) >>= fun r =>
      (f r.1).run (data.setErrors r.2) := by
  rw [StateT.run_bind]
  show ((x data.relatedResources).run data.response.errors >>= fun r => pure (r.1, data.setErrors r.2)) >>= _ = _
  rw [bind_assoc]
  rfl

theorem pushMutated_bind_run (f : Method β) :
    (pushMutated c >>= fun _ => f).run data =
      computeMutations data.relatedResources c >>= fun c' => f.run (data.pushChange c') := by
  rw [StateT.run_bind]
  show (computeMutations data.relatedResources c >>= fun c' => pure ((), data.pushChange c')) >>= _ = _
  rw [bind_assoc]
  rfl

/-- **One turn of the method is one turn of the loop.** -/
theorem validateChangeMethod_run :
    (validateChangeMethod resp c).run data =
      ((validateChange data.relatedResources ⟨resp.validation, resp.code, data.response.changes⟩ c).run
        data.response.errors).map data.after := by
  unfold validateChangeMethod validateChange
  split_ifs with h1 h2 h3 h4 h5 h6
  · rfl
  · rfl
  · rw [check_bind_run, StateT.run_bind]
    cases (checkForOperation data.relatedResources c).run data.response.errors with
    | error e => rfl
    | ok r =>
      obtain ⟨resp', errors⟩ := r
      rw [ok_bind, ok_bind]
      cases hret : resp.validation && resp'.validation with
      | false =>
        simp only [hret, Run.join]
        rfl
      | true =>
        simp only [hret, Run.join, if_true]
        rw [pushMutated_bind_run, StateT.run_bind]
        show (computeMutations data.relatedResources c >>= _) = _
        cases computeMutations data.relatedResources c with
        | error e => rfl
        | ok c' => rfl
  · rfl
  · rfl
  · rfl
  · rfl

theorem validateChanges_method_run {cs : List Change} :
    (cs.foldlM validateChangeMethod resp).run data =
      ((validateChanges data.relatedResources ⟨resp.validation, resp.code, data.response.changes⟩ cs).run
        data.response.errors).map data.after := by
  induction cs generalizing resp data with
  | nil => rfl
  | cons c cs ih =>
    rw [List.foldlM_cons, StateT.run_bind, validateChangeMethod_run, validateChanges, List.foldlM_cons, StateT.run_bind]
    cases (validateChange data.relatedResources ⟨resp.validation, resp.code, data.response.changes⟩ c).run
        data.response.errors with
    | error e => rfl
    | ok r =>
      show (cs.foldlM validateChangeMethod ⟨r.1.ret, r.1.code⟩).run (data.after r).2 = _
      rw [ih]
      rfl

/-- **What the method does to its object.** -/
theorem applyValidationRulesMethod_run :
    applyValidationRulesMethod.run data =
      (applyValidationRules data).map fun o => (o.verdict, { data with response := o.response }) := by
  show (data.changes.foldlM validateChangeMethod ⟨true, HTTP_OK⟩).run data = _
  rw [validateChanges_method_run, applyValidationRules]
  cases (validateChanges data.relatedResources ⟨true, HTTP_OK, data.response.changes⟩ data.changes).run
      data.response.errors with
  | error e => rfl
  | ok r => rfl

end Lemmas

end AuthProvValidator
