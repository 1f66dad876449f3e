import AuthProvValidator.Entities.Steps

/-!
# The changes of a valid request

Without errors the response holds the operations and paths of the request, in its order, unless one is dropped: what is
not a deletion of an `authSubscription` resource as a whole is neither answered nor refused.

`applyValidationRules_conserves` : nothing is lost exactly when every change of such a resource is a deletion.
-/

namespace AuthProvValidator
open Recorder

def Change.target (c : Change) : Str × Str := (c.operation, c.resourcePath)

/-- The change of an `authSubscription` resource as a whole that the loop passes over. -/
def isDropped (c : Change) : Bool := checkAuthSubscriptionUri c.resourcePath && c.operation != JSON_OPERATION_DELETE

section Turns
variable {R : RelatedResources} {c : Change} {cs : List Change} {run run' : Run} {E E' : List Error}

theorem pathClass_eq_authSubscription_iff {p : Str} :
    pathClass p = .authSubscription ↔ checkAuthSubscriptionUri p = true := by
  unfold pathClass
  split_ifs <;> simp_all

theorem isDropped_of_authSubscription (hclass : pathClass c.resourcePath = .authSubscription) :
    isDropped c = (c.operation != JSON_OPERATION_DELETE) := by
  rw [isDropped, pathClass_eq_authSubscription_iff.mp hclass, Bool.true_and]

theorem isDropped_of_ne (hclass : pathClass c.resourcePath ≠ .authSubscription) : isDropped c = false := by
  rw [isDropped, Bool.and_eq_false_iff]
  exact Or.inl (Bool.eq_false_iff.mpr fun h => hclass (pathClass_eq_authSubscription_iff.mpr h))

/-- A valid turn answers the change under its own operation and path, or drops it. -/
theorem Step.pushed_targets (h : Step R c run E run' E') (hvalid : run'.ret = true) (hE' : E' = []) :
    run'.changes.map Change.target =
      run.changes.map Change.target ++ if isDropped c then [] else [c.target] := by
  obtain ⟨l, hl, hpushed⟩ := h.pushed
  have hconforms : FirstRules R c := (h.checked.eq_nil_iff.mp hE').2.1
  rw [hl, List.map_append]
  refine congrArg (_ ++ ·) ?_
  unfold Pushed at hpushed
  unfold FirstRules at hconforms
  cases hclass : pathClass c.resourcePath with
  | authSubscription =>
    simp only [hclass] at hpushed
    rw [isDropped_of_authSubscription hclass, hpushed]
    by_cases hop : c.operation = JSON_OPERATION_DELETE <;> simp [hop]
  | imsi =>
    simp only [hclass, hvalid, if_true] at hpushed
    obtain ⟨c', hmut, rfl⟩ := hpushed
    obtain ⟨hop, hpath, -⟩ := computeMutations_frame hmut
    rw [isDropped_of_ne (by simp [hclass])]
    simp [Change.target, hop, hpath]
  | badImsi => simp [hclass] at hconforms
  | dynamicData => simp [hclass] at hconforms
  | other =>
    simp only [hclass] at hpushed hconforms
    rw [isDropped_of_ne (by simp [hclass]), hpushed, if_pos hconforms]
    rfl

theorem validateChanges_targets (h : (validateChanges R run cs).run E = .ok (run', E')) (hE' : E' = [])
    (hret : run.ret = true) (hcode : run.code = HTTP_OK) :
    run'.changes.map Change.target =
      run.changes.map Change.target ++ (cs.filter fun c => !isDropped c).map Change.target := by
  induction cs generalizing run E with
  | nil =>
    obtain ⟨rfl, -⟩ := validateChanges_nil_run.mp h
    simp
  | cons c cs ih =>
    obtain ⟨run₁, E₁, hc, hcs⟩ := validateChanges_cons_run.mp h
    have hE₁ : E₁ = [] := ((validateChanges_eq_nil_iff hcs).mp hE').1
    have hone : (validateChanges R run [c]).run E = .ok (run₁, E₁) :=
      validateChanges_cons_run.mpr ⟨run₁, E₁, hc, validateChanges_nil_run.mpr ⟨rfl, rfl⟩⟩
    obtain ⟨hret₁, hcode₁⟩ := validateChanges_valid hone hE₁ hret hcode
    rw [ih hcs hret₁ hcode₁, (validateChange_step hc).pushed_targets hret₁ hE₁, List.append_assoc]
    cases hd : isDropped c <;> simp [hd]

end Turns

/-- **A request without errors is answered change by change, in its order, exactly when it only deletes
`authSubscription` resources as a whole.** -/
theorem applyValidationRules_conserves (data : ValidationData) (o : Outcome) (hempty : data.response = {})
    (h : applyValidationRules data = .ok o) (herrors : o.response.errors = []) :
    (o.response.changes.map (fun c => (c.operation, c.resourcePath)) =
        data.changes.map (fun c => (c.operation, c.resourcePath))) ↔
      ∀ c ∈ data.changes, checkAuthSubscriptionUri c.resourcePath = true → c.operation = JSON_OPERATION_DELETE := by
  obtain ⟨⟨run, E⟩, hrun, hret⟩ := bind_eq_ok.mp h
  obtain rfl := Except.ok.inj hret
  rw [hempty] at hrun
  have htargets : run.changes.map Change.target = (data.changes.filter fun c => !isDropped c).map Change.target :=
    validateChanges_targets hrun herrors rfl rfl
  show run.changes.map Change.target = data.changes.map Change.target ↔ _
  have hkept : (∀ c ∈ data.changes, checkAuthSubscriptionUri c.resourcePath = true →
      c.operation = JSON_OPERATION_DELETE) ↔ ∀ c ∈ data.changes, (!isDropped c) = true := by
    refine forall₂_congr fun c _ => ?_
    rw [isDropped, Bool.not_and, Bool.or_eq_true, Bool.not_eq_true', Bool.not_eq_true', bne_eq_false_iff_eq,
      ← Bool.not_eq_true, imp_iff_not_or]
  rw [hkept, htargets, ← List.length_filter_eq_length_iff]
  refine ⟨fun heq => ?_, fun hlen => ?_⟩
  · have := congrArg List.length heq
    rwa [List.length_map, List.length_map] at this
  · rw [List.filter_eq_self.mpr (List.length_filter_eq_length_iff.mp hlen)]

def creationOfWhole : ValidationData where
  changes := [⟨JSON_OPERATION_CREATE, "/subscribers/a/authSubscription", {}⟩]

theorem creationOfWhole_dropped :
    ¬ ∀ (data : ValidationData) (o : Outcome), data.response = {} → applyValidationRules data = .ok o →
      o.response.errors = [] →
      o.response.changes.map (fun c => (c.operation, c.resourcePath)) =
        data.changes.map (fun c => (c.operation, c.resourcePath)) := by
  intro h
  obtain ⟨o, hrun, ho⟩ : ∃ o, applyValidationRules creationOfWhole = .ok o ∧
      (o.response.errors.length, o.response.changes.length) = (0, 0) :=
    exists_outcome creationOfWhole (fun o => (o.response.errors.length, o.response.changes.length))
      (by decide)
  obtain ⟨herrors, hchanges⟩ := Prod.mk.inj ho
  have heq := congrArg List.length (h creationOfWhole o rfl hrun (List.length_eq_zero_iff.mp herrors))
  rw [List.length_map, List.length_map, hchanges] at heq
  exact absurd heq (by decide)

theorem applyValidationRules_conserves_example :
    ∃ o, applyValidationRules creationOfWhole = .ok o ∧
      ((o.response.changes.map (fun c => (c.operation, c.resourcePath)) =
          creationOfWhole.changes.map (fun c => (c.operation, c.resourcePath))) ↔
        ∀ c ∈ creationOfWhole.changes, checkAuthSubscriptionUri c.resourcePath = true →
          c.operation = JSON_OPERATION_DELETE) := by
  obtain ⟨o, hrun, ho⟩ := exists_outcome creationOfWhole (fun o => o.response.errors.length) (a := 0)
    (by decide)
  exact ⟨o, hrun, applyValidationRules_conserves creationOfWhole o rfl hrun (List.length_eq_zero_iff.mp ho)⟩

end AuthProvValidator
