import AuthProvValidator.Entities.Conformance

/-!
# Steps and runs of the loop

* `stage R c` : what the checks of `c` record, those made always and those made only while there is no error;
* `Step` : all that one turn of the loop does to the verdict, the code, the errors and the response
  (`validateChange_step`);
* `validateChanges_induct` : what each step keeps, a run keeps;
* `validateChanges_errors` : the errors of a run are those of its stages;
* `validateChanges_eq_nil_iff` : a run leaves no error exactly when every change conforms.
-/

namespace AuthProvValidator
open Recorder

def notStored (c : Change) : Error :=
  unprocessableEntity c.resourcePath ("There is no associated relatedResource: " ++ getBasePath c.resourcePath)

def stage (R : RelatedResources) (c : Change) : Stage Error :=
  match pathClass c.resourcePath with
  | .authSubscription => ⟨[], []⟩
  | .imsi =>
      if c.operation = JSON_OPERATION_CREATE then
        ⟨(checkForCommonRules R c).logged, (checkForLegacyAuthSubscriptionRules R c).logged⟩
      else if c.operation = JSON_OPERATION_UPDATE then
        if R.contains (getBasePath c.resourcePath) then
          ⟨(checkForCommonRules R c).logged, (checkForUpdateAuthSubscriptionRules R c).logged⟩
        else ⟨[notStored c], []⟩
      else ⟨[], []⟩
  | .badImsi => ⟨[constraintViolation c.resourcePath badImsiDescription], []⟩
  | .dynamicData => ⟨[constraintViolation c.resourcePath dynamicDataDescription], []⟩
  | .other =>
      if c.operation = JSON_OPERATION_DELETE then ⟨[], []⟩
      else ⟨[unprocessableEntity c.resourcePath unknownPathDescription], []⟩

/-- The verdict on a change with rules to meet, from the errors after it. -/
def verdictOn (R : RelatedResources) (c : Change) (errors : List Error) : ValidationResponse :=
  if errors = [] then ⟨true, HTTP_OK⟩ else ⟨false, codeOf (unprocessable R c)⟩

section Checks
variable {R : RelatedResources} {c : Change} {E E' : List Error} {resp : ValidationResponse}

/-- The common rules pass when no error has been recorded, be it of this change or of an earlier one. -/
theorem checkForCommonAuthSubscriptionRules_run :
    (checkForCommonAuthSubscriptionRules R c).run E = ((checkForCommonRules R c).run E).map fun r =>
      (if r.2 = [] then ⟨true, HTTP_OK⟩ else ⟨false, r.1⟩, r.2) := by
  rw [checkForCommonAuthSubscriptionRules, StateT.run_bind]
  cases (checkForCommonRules R c).run E with
  | error f => rfl
  | ok r =>
    obtain ⟨code, log⟩ := r
    cases log <;> rfl

/-- Further rules are only looked at while no error has been recorded. -/
theorem checkForCommonRulesThen_run_of_ne_nil {further : Rules Bool} {code : Nat} {log : List Error}
    (h : (checkForCommonRules R c).run E = .ok (code, log)) (hlog : log ≠ []) :
    (checkForCommonRulesThen R c further).run E = .ok (⟨false, max code HTTP_CONFLICT⟩, log) := by
  rw [checkForCommonRulesThen, StateT.run_bind, checkForCommonAuthSubscriptionRules_run, h]
  simp only [Except.map, if_neg hlog, ok_bind]
  rfl

theorem checkForCommonRulesThen_run_of_nil {further : Rules Bool} {code : Nat}
    (h : (checkForCommonRules R c).run E = .ok (code, [])) :
    (checkForCommonRulesThen R c further).run E = (further.run []).map fun r =>
      (⟨r.1, if r.1 then HTTP_OK else HTTP_CONFLICT⟩, r.2) := by
  rw [checkForCommonRulesThen, StateT.run_bind, checkForCommonAuthSubscriptionRules_run, h]
  simp only [Except.map, if_pos, ok_bind]
  rw [StateT.run_bind]
  cases further.run [] <;> rfl

theorem checkForCommonRulesThen_run_of_error {further : Rules Bool} {f : Fault}
    (h : (checkForCommonRules R c).run E = .error f) : (checkForCommonRulesThen R c further).run E = .error f := by
  rw [checkForCommonRulesThen, StateT.run_bind, checkForCommonAuthSubscriptionRules_run, h]
  rfl

theorem checkForCommonRulesThen_run {P : Error → Prop} {further : Rules Bool} (hf : PlainVerdict P further)
    (h : (checkForCommonRulesThen R c further).run E = .ok (resp, E')) :
    (∃ code es, (checkForCommonRules R c).run [] = .ok (code, es)) ∧
    (E ++ (checkForCommonRules R c).logged = [] → ∃ ret es, further.run [] = .ok (ret, es)) ∧
    E' = E ++ Stage.findings ⟨(checkForCommonRules R c).logged, further.logged⟩ E ∧
    resp = if E' = [] then ⟨true, HTTP_OK⟩ else ⟨false, codeOf (journalMissing R c)⟩ := by
  cases hrules : (checkForCommonRules R c).run E with
  | error f =>
    rw [checkForCommonRulesThen_run_of_error hrules] at h
    cases h
  | ok r =>
    obtain ⟨code, log⟩ := r
    obtain ⟨es, hes, rfl⟩ := oblivious_checkForCommonRules.run_ok.mp hrules
    obtain ⟨hcode, hany⟩ := coded_checkForCommonRules code es hes
    rw [logged_of_run hes]
    refine ⟨⟨code, es, hes⟩, ?_⟩
    by_cases hE : E ++ es = []
    · -- no error so far: the further rules decide
      rw [hE] at hrules
      rw [checkForCommonRulesThen_run_of_nil hrules] at h
      obtain ⟨rfl, rfl⟩ := List.append_eq_nil_iff.mp hE
      have hmissing : journalMissing R c = false := by simpa using hany.symm
      cases hfurther : further.run [] with
      | error f =>
        rw [hfurther] at h
        cases h
      | ok q =>
        obtain ⟨ret, E₁⟩ := q
        rw [hfurther] at h
        obtain ⟨rfl, rfl⟩ := Prod.mk.inj (Except.ok.inj h)
        have hiff := hf.honest ret E₁ hfurther
        refine ⟨fun _ => ⟨ret, E₁, rfl⟩, by simp [Stage.findings, logged_of_run hfurther], ?_⟩
        cases ret with
        | true => rw [if_pos (hiff.mp rfl)]; rfl
        | false => rw [if_neg fun h => absurd (hiff.mpr h) (by decide), hmissing]; rfl
    · -- an error, of this change or an earlier one: the further rules are not looked at
      rw [checkForCommonRulesThen_run_of_ne_nil hrules hE] at h
      obtain ⟨rfl, rfl⟩ := Prod.mk.inj (Except.ok.inj h)
      refine ⟨fun h => absurd h hE, by simp [Stage.findings, hE], ?_⟩
      rw [if_neg hE, hcode]
      cases journalMissing R c <;> rfl

theorem logged_common_eq_nil_iff {code : Nat} {es : List Error}
    (h : (checkForCommonRules R c).run [] = .ok (code, es)) :
    (checkForCommonRules R c).logged = [] ↔ CommonRules R c := by
  constructor
  · intro hnil
    exact (silent_checkForCommonRules.mp ((logged_eq_nil_iff h).mp hnil)).2
  · intro hrules
    exact logged_of_run (silent_checkForCommonRules.mpr ⟨rfl, hrules⟩)

theorem logged_verdict_eq_nil_iff {P : Error → Prop} {x : Rules Bool} (hx : PlainVerdict P x) {ret : Bool}
    {es : List Error} (h : x.run [] = .ok (ret, es)) : x.logged = [] ↔ Silent x true := by
  constructor
  · intro hnil
    rw [logged_of_run h] at hnil
    subst hnil
    rwa [(hx.honest ret [] h).mpr rfl] at h
  · exact fun hs => logged_of_run hs

theorem any_isUnprocessable_logged {α : Type} {x : Rules α} (hx : Plain Error.IsConflict x) :
    x.logged.any Error.isUnprocessable = false := by
  unfold logged
  split
  · rename_i h
    exact any_isUnprocessable_of_plain hx h
  · rfl

/-- What the checks of a change have recorded, and what that says about the change. -/
structure Checked (R : RelatedResources) (c : Change) (E E' : List Error) : Prop where
  errors : E' = E ++ (stage R c).findings E
  first : (stage R c).always = [] ↔ FirstRules R c
  further : E ++ (stage R c).always = [] → ((stage R c).gated = [] ↔ FurtherRules R c)
  always_any : (stage R c).always.any Error.isUnprocessable = unprocessable R c

theorem checked_then {P : Error → Prop} {further : Rules Bool} (hf : PlainVerdict P further)
    (hstage : stage R c = ⟨(checkForCommonRules R c).logged, further.logged⟩)
    (hfirst : FirstRules R c ↔ CommonRules R c) (hfurther : FurtherRules R c ↔ Silent further true)
    (hunproc : unprocessable R c = journalMissing R c)
    (h : (checkForCommonRulesThen R c further).run E = .ok (resp, E')) :
    Checked R c E E' ∧ resp = verdictOn R c E' := by
  obtain ⟨⟨code, es, hes⟩, hreturn, herr, hresp⟩ := checkForCommonRulesThen_run hf h
  refine ⟨⟨by rw [hstage]; exact herr, ?_, fun hE => ?_, ?_⟩, by rw [verdictOn, hunproc]; exact hresp⟩
  · rw [hstage, hfirst]
    exact logged_common_eq_nil_iff hes
  · rw [hstage] at hE ⊢
    obtain ⟨ret, fs, hfs⟩ := hreturn hE
    rw [hfurther]
    exact logged_verdict_eq_nil_iff hf hfs
  · rw [hstage, hunproc]
    exact (logged_of_run hes).symm ▸ (coded_checkForCommonRules code es hes).2

theorem checked_refused {e : Error} (hstage : stage R c = ⟨[e], []⟩) (hfirst : ¬ FirstRules R c)
    (hunproc : unprocessable R c = e.isUnprocessable) : Checked R c E (E ++ [e]) where
  errors := by rw [hstage, Stage.findings, if_neg (by simp)]
  first := by rw [hstage]; exact iff_of_false (List.cons_ne_nil e []) hfirst
  further := fun h => absurd h (by simp [hstage])
  always_any := by rw [hstage, hunproc, List.any_cons, List.any_nil, Bool.or_false]

theorem checked_free (hstage : stage R c = ⟨[], []⟩) (hfirst : FirstRules R c) (hfurther : FurtherRules R c)
    (hunproc : unprocessable R c = false) : Checked R c E E where
  errors := by simp [hstage, Stage.findings]
  first := by rw [hstage]; exact iff_of_true rfl hfirst
  further := fun _ => by rw [hstage]; exact iff_of_true rfl hfurther
  always_any := by rw [hstage, hunproc]; rfl

theorem update_ne_create (h : c.operation = JSON_OPERATION_UPDATE) : c.operation ≠ JSON_OPERATION_CREATE := by
  rw [h]
  decide

theorem checkForOperation_create_run (hclass : pathClass c.resourcePath = .imsi)
    (hop : c.operation = JSON_OPERATION_CREATE) (h : (checkForOperation R c).run E = .ok (resp, E')) :
    Checked R c E E' ∧ resp = verdictOn R c E' := by
  rw [checkForOperation, if_pos hop] at h
  refine checked_then (plainVerdict_checkForLegacyAuthSubscriptionRules isConflict_constraintViolation) ?_ ?_ ?_ ?_ h
  · simp only [stage, hclass, if_pos hop]
  · simp only [FirstRules, hclass, if_pos hop]
  · simp only [FurtherRules, hclass, if_pos hop, silent_checkForLegacyAuthSubscriptionRules]
  · simp only [unprocessable, hclass, if_pos hop]

theorem checkForOperation_update_run (hclass : pathClass c.resourcePath = .imsi)
    (hop : c.operation = JSON_OPERATION_UPDATE) (h : (checkForOperation R c).run E = .ok (resp, E')) :
    Checked R c E E' ∧ resp = verdictOn R c E' := by
  have hne := update_ne_create hop
  rw [checkForOperation, if_neg hne, if_pos hop, checkForUpdateAuthSubscription, hasRelatedResource] at h
  by_cases hbase : R.contains (getBasePath c.resourcePath) = true
  · rw [if_neg (by simp [hbase])] at h
    refine checked_then (plainVerdict_checkForUpdateAuthSubscriptionRules isConflict_constraintViolation) ?_ ?_ ?_ ?_ h
    · simp only [stage, hclass, if_neg hne, if_pos hop, if_pos hbase]
    · simp only [FirstRules, hclass, if_neg hne, if_pos hop, hbase, true_and]
    · simp only [FurtherRules, hclass, if_neg hne, if_pos hop, silent_checkForUpdateAuthSubscriptionRules]
    · simp only [unprocessable, hclass, if_neg hne, if_pos hop, hbase, Bool.not_true, Bool.false_or]
  · rw [if_pos (by simp [hbase])] at h
    obtain ⟨rfl, rfl⟩ := Prod.mk.inj (Except.ok.inj h)
    have hunproc : unprocessable R c = true := by
      rw [Bool.not_eq_true] at hbase
      simp only [unprocessable, hclass, if_neg hne, if_pos hop, hbase, Bool.not_false, Bool.true_or]
    refine ⟨checked_refused ?_ ?_ ?_, ?_⟩
    · simp only [stage, hclass, if_neg hne, if_pos hop, if_neg hbase]
      rfl
    · simp only [FirstRules, hclass, if_neg hne, if_pos hop]
      exact fun hfirst => hbase hfirst.1
    · exact hunproc.trans unprocessableEntity_isUnprocessable.symm
    · rw [verdictOn, hunproc, if_neg (by simp)]
      rfl

end Checks

/-! ## One turn of the loop -/

/-- The turn joins a verdict on the change to those before. -/
def Judges (c : Change) : Prop :=
  match pathClass c.resourcePath with
  | .authSubscription => False
  | .imsi => c.operation = JSON_OPERATION_CREATE ∨ c.operation = JSON_OPERATION_UPDATE
  | .badImsi => True
  | .dynamicData => True
  | .other => c.operation ≠ JSON_OPERATION_DELETE

/-- The turn starts the verdict and the code anew: a deletion under a path of no known shape. -/
def Resets (c : Change) : Prop := pathClass c.resourcePath = .other ∧ c.operation = JSON_OPERATION_DELETE

/-- The changes that the turn adds to the response, by the verdict after it. -/
def Pushed (R : RelatedResources) (c : Change) (ret : Bool) (l : List Change) : Prop :=
  match pathClass c.resourcePath with
  | .authSubscription => l = if c.operation = JSON_OPERATION_DELETE then [c] else []
  | .imsi => if ret then ∃ c', computeMutations R c = .ok c' ∧ l = [c'] else l = []
  | .badImsi => l = []
  | .dynamicData => l = []
  | .other => l = if c.operation = JSON_OPERATION_DELETE then [c] else []

/-- The code lies between 200 and 422. -/
def Run.Ranged (run : Run) : Prop := HTTP_OK ≤ run.code ∧ run.code ≤ HTTP_UNPROCESSABLE_ENTITY

/-- All that one turn of the loop does, from the run `run` with the errors `E` to `run'` with `E'`. -/
structure Step (R : RelatedResources) (c : Change) (run : Run) (E : List Error) (run' : Run) (E' : List Error) :
    Prop where
  checked : Checked R c E E'
  judged : Judges c → run.Ranged →
    run'.ret = (run.join (verdictOn R c E')).ret ∧ run'.code = (run.join (verdictOn R c E')).code
  reset : Resets c → run'.ret = true ∧ run'.code = HTTP_OK
  kept : ¬ Judges c → ¬ Resets c → run.Ranged → run'.ret = run.ret ∧ run'.code = run.code
  pushed : ∃ l, run'.changes = run.changes ++ l ∧ Pushed R c run'.ret l

section Turn
variable {R : RelatedResources} {c : Change} {run run' : Run} {E E' : List Error}

theorem step_authSubscription (hclass : pathClass c.resourcePath = .authSubscription)
    (h : (validateChange R run c).run E = .ok (run', E')) : Step R c run E run' E' := by
  rw [validateChange_authSubscription hclass] at h
  have hjudges : ¬ Judges c := by simp only [Judges, hclass, not_false_eq_true]
  have hresets : ¬ Resets c := by simp only [Resets, hclass, reduceCtorEq, false_and, not_false_eq_true]
  obtain ⟨hrun, rfl⟩ : (if c.operation = JSON_OPERATION_DELETE then run.push c else run) = run' ∧ E = E' := by
    split at h <;> rename_i hop
    · rw [if_pos hop]; exact Prod.mk.inj (Except.ok.inj h)
    · rw [if_neg hop]; exact Prod.mk.inj (Except.ok.inj h)
  refine ⟨checked_free ?_ ?_ ?_ ?_, fun hj => absurd hj hjudges, fun hr => absurd hr hresets, fun _ _ _ => ?_, ?_⟩
  · simp only [stage, hclass]
  · simp only [FirstRules, hclass]
  · simp only [FurtherRules, hclass]
  · simp only [unprocessable, hclass]
  · rw [← hrun]
    split <;> exact ⟨rfl, rfl⟩
  · simp only [Pushed, hclass, exists_eq_right]
    rw [← hrun]
    split <;> simp [Run.push]

theorem step_refused {e : Error} (hchecked : Checked R c E (E ++ [e])) (hjudges : Judges c) (hresets : ¬ Resets c)
    (hret : run'.ret = false) (hcode : run.Ranged →
      run'.code = max run.code (codeOf (unprocessable R c)))
    (hchanges : run'.changes = run.changes) (hpushed : Pushed R c false []) : Step R c run E run' (E ++ [e]) where
  checked := hchecked
  judged := fun _ hle => by
    rw [hret, hcode hle, verdictOn, if_neg (by simp)]
    exact ⟨(Bool.and_false _).symm, rfl⟩
  reset := fun hr => absurd hr hresets
  kept := fun hj => absurd hjudges hj
  pushed := ⟨[], by rw [hchanges, List.append_nil], by rw [hret]; exact hpushed⟩

theorem step_violation {description : Str}
    (hclass : pathClass c.resourcePath = .badImsi ∧ description = badImsiDescription ∨
      pathClass c.resourcePath = .dynamicData ∧ description = dynamicDataDescription)
    (hturn : validateChange R run c = (do
      addConstraintViolation c.resourcePath description
      return { run with ret := false, code := max run.code HTTP_CONFLICT }))
    (h : (validateChange R run c).run E = .ok (run', E')) : Step R c run E run' E' := by
  rw [hturn, addConstraintViolation_eq] at h
  obtain ⟨rfl, rfl⟩ := Prod.mk.inj (Except.ok.inj h)
  have hunproc : unprocessable R c = false := by
    rcases hclass with ⟨hclass, -⟩ | ⟨hclass, -⟩ <;> simp only [unprocessable, hclass]
  refine step_refused (checked_refused ?_ ?_ (hunproc.trans (isConflict_constraintViolation _).symm)) ?_ ?_ rfl
    (fun _ => by rw [hunproc]; rfl) rfl ?_
  · rcases hclass with ⟨hclass, rfl⟩ | ⟨hclass, rfl⟩ <;> simp only [stage, hclass]
  · rcases hclass with ⟨hclass, -⟩ | ⟨hclass, -⟩ <;> simp only [FirstRules, hclass, not_false_eq_true]
  · rcases hclass with ⟨hclass, -⟩ | ⟨hclass, -⟩ <;> simp only [Judges, hclass]
  · rcases hclass with ⟨hclass, -⟩ | ⟨hclass, -⟩ <;>
      simp only [Resets, hclass, reduceCtorEq, false_and, not_false_eq_true]
  · rcases hclass with ⟨hclass, -⟩ | ⟨hclass, -⟩ <;> simp only [Pushed, hclass]

theorem step_other (hclass : pathClass c.resourcePath = .other) (hop : c.operation ≠ JSON_OPERATION_DELETE)
    (h : (validateChange R run c).run E = .ok (run', E')) : Step R c run E run' E' := by
  rw [validateChange_other hclass hop, addUnprocessableEntity_eq] at h
  obtain ⟨rfl, rfl⟩ := Prod.mk.inj (Except.ok.inj h)
  have hunproc : unprocessable R c = true := by
    simp only [unprocessable, hclass, hop, ne_eq, not_false_eq_true, decide_true]
  refine step_refused (checked_refused ?_ ?_ ?_) ?_ ?_ rfl (fun hrange => ?_) rfl ?_
  · simp only [stage, hclass, if_neg hop]
  · simpa only [FirstRules, hclass] using hop
  · exact hunproc.trans unprocessableEntity_isUnprocessable.symm
  · simpa only [Judges, hclass] using hop
  · exact fun hr => hop hr.2
  · rw [hunproc]
    exact (max_eq_right hrange.2).symm
  · simp only [Pushed, hclass, if_neg hop]

theorem step_reset (hclass : pathClass c.resourcePath = .other) (hop : c.operation = JSON_OPERATION_DELETE)
    (h : (validateChange R run c).run E = .ok (run', E')) : Step R c run E run' E' := by
  rw [validateChange_reset hclass hop] at h
  obtain ⟨rfl, rfl⟩ := Prod.mk.inj (Except.ok.inj h)
  refine ⟨checked_free ?_ ?_ ?_ ?_, fun hj => ?_, fun _ => ⟨rfl, rfl⟩, fun _ hr => absurd ⟨hclass, hop⟩ hr,
    [c], rfl, ?_⟩
  · simp only [stage, hclass, if_pos hop]
  · simpa only [FirstRules, hclass] using hop
  · simp only [FurtherRules, hclass]
  · simp only [unprocessable, hclass, hop, ne_eq, not_true_eq_false, decide_false]
  · simp only [Judges, hclass] at hj
    exact absurd hop hj
  · simp only [Pushed, hclass, if_pos hop]

theorem validateChange_imsi_run (hclass : pathClass c.resourcePath = .imsi)
    (h : (validateChange R run c).run E = .ok (run', E')) :
    ∃ resp, (checkForOperation R c).run E = .ok (resp, E') ∧
      run'.ret = (run.join resp).ret ∧ run'.code = (run.join resp).code ∧
      ∃ l, run'.changes = run.changes ++ l ∧ Pushed R c run'.ret l := by
  rw [validateChange_imsi hclass] at h
  obtain ⟨resp, E₁, hcheck, hrest⟩ := run_bind_ok.mp h
  refine ⟨resp, ?_⟩
  unfold Pushed
  rw [hclass]
  by_cases hret : (run.join resp).ret = true
  · rw [if_pos hret] at hrest
    obtain ⟨c', E₂, hmut, hpush⟩ := run_bind_ok.mp hrest
    obtain ⟨rfl, rfl⟩ := Prod.mk.inj (Except.ok.inj hpush)
    cases hm : computeMutations R c with
    | error e => rw [hm] at hmut; cases hmut
    | ok c'' =>
      rw [hm] at hmut
      obtain ⟨rfl, rfl⟩ := Prod.mk.inj (Except.ok.inj hmut)
      refine ⟨hcheck, rfl, rfl, [c''], rfl, ?_⟩
      show if (run.join resp).ret = true then _ else _
      rw [if_pos hret]
      exact ⟨c'', rfl, rfl⟩
  · rw [if_neg hret] at hrest
    obtain ⟨rfl, rfl⟩ := Prod.mk.inj (Except.ok.inj hrest)
    refine ⟨hcheck, rfl, rfl, [], (List.append_nil _).symm, ?_⟩
    simp only [if_neg hret]

theorem step_imsi (hclass : pathClass c.resourcePath = .imsi)
    (h : (validateChange R run c).run E = .ok (run', E')) : Step R c run E run' E' := by
  obtain ⟨resp, hcheck, hret, hcode, hpushed⟩ := validateChange_imsi_run hclass h
  have hresets : ¬ Resets c := by simp only [Resets, hclass, reduceCtorEq, false_and, not_false_eq_true]
  by_cases hop : c.operation = JSON_OPERATION_CREATE ∨ c.operation = JSON_OPERATION_UPDATE
  · obtain ⟨hchecked, rfl⟩ : Checked R c E E' ∧ resp = verdictOn R c E' := by
      rcases hop with hop | hop
      · exact checkForOperation_create_run hclass hop hcheck
      · exact checkForOperation_update_run hclass hop hcheck
    exact ⟨hchecked, fun _ _ => ⟨hret, hcode⟩, fun hr => absurd hr hresets,
      fun hj => absurd (by simpa only [Judges, hclass] using hop) hj, hpushed⟩
  · obtain ⟨hc, hu⟩ := not_or.mp hop
    rw [checkForOperation, if_neg hc, if_neg hu] at hcheck
    obtain ⟨rfl, rfl⟩ := Prod.mk.inj (Except.ok.inj hcheck)
    refine ⟨checked_free ?_ ?_ ?_ ?_, fun hj => absurd (by simpa only [Judges, hclass] using hj) hop,
      fun hr => absurd hr hresets, fun _ _ hrange => ?_, hpushed⟩
    · simp only [stage, hclass, if_neg hc, if_neg hu]
    · simp only [FirstRules, hclass, if_neg hc, if_neg hu]
    · simp only [FurtherRules, hclass, if_neg hc, if_neg hu]
    · simp only [unprocessable, hclass, if_neg hc, if_neg hu]
    · rw [hret, hcode]
      exact ⟨Bool.and_true _, max_eq_left hrange.1⟩

/-- **Every turn of the loop is a step.** -/
theorem validateChange_step (h : (validateChange R run c).run E = .ok (run', E')) : Step R c run E run' E' := by
  cases hclass : pathClass c.resourcePath with
  | authSubscription => exact step_authSubscription hclass h
  | imsi => exact step_imsi hclass h
  | badImsi => exact step_violation (Or.inl ⟨hclass, rfl⟩) (validateChange_badImsi hclass) h
  | dynamicData => exact step_violation (Or.inr ⟨hclass, rfl⟩) (validateChange_dynamicData hclass) h
  | other =>
    by_cases hop : c.operation = JSON_OPERATION_DELETE
    · exact step_reset hclass hop h
    · exact step_other hclass hop h

end Turn

/-! ## What a step says about the errors -/

section Errors
variable {R : RelatedResources} {c : Change} {run run' : Run} {E E' : List Error}

theorem stage_gated_any : (stage R c).gated.any Error.isUnprocessable = false := by
  unfold stage
  split
  · rfl
  · split_ifs
    · exact any_isUnprocessable_logged
        (plainVerdict_checkForLegacyAuthSubscriptionRules isConflict_constraintViolation).toPlain
    · exact any_isUnprocessable_logged
        (plainVerdict_checkForUpdateAuthSubscriptionRules isConflict_constraintViolation).toPlain
    · rfl
    · rfl
  · rfl
  · rfl
  · split <;> rfl

theorem Checked.findings_any (h : Checked R c E E') :
    ((stage R c).findings E).any Error.isUnprocessable = unprocessable R c := by
  unfold Stage.findings
  split
  · rename_i hnil
    rw [stage_gated_any, ← h.always_any, (List.append_eq_nil_iff.mp hnil).2, List.any_nil]
  · exact h.always_any

theorem Checked.any_isUnprocessable (h : Checked R c E E') :
    E'.any Error.isUnprocessable = (E.any Error.isUnprocessable || unprocessable R c) := by
  rw [h.errors, List.any_append, h.findings_any]

theorem Checked.eq_nil_iff (h : Checked R c E E') : E' = [] ↔ E = [] ∧ Conforms R c := by
  rw [h.errors, List.append_eq_nil_iff]
  refine and_congr_right fun hE => ?_
  subst hE
  unfold Stage.findings Conforms
  split
  · rename_i hnil
    rw [h.further hnil, ← h.first]
    exact ⟨fun hf => ⟨(List.append_eq_nil_iff.mp hnil).2, hf⟩, fun hf => hf.2⟩
  · rename_i hne
    exact iff_of_false hne fun hf => hne (h.first.mpr hf.1)

theorem Step.ranged (h : Step R c run E run' E') (hr : run.Ranged) : run'.Ranged := by
  unfold Run.Ranged at hr ⊢
  by_cases hreset : Resets c
  · rw [(h.reset hreset).2]
    decide
  · by_cases hj : Judges c
    · rw [(h.judged hj hr).2]
      have : (verdictOn R c E').code ≤ HTTP_UNPROCESSABLE_ENTITY := by
        unfold verdictOn codeOf
        split_ifs <;> decide
      simp only [Run.join]
      omega
    · rw [(h.kept hj hreset hr).2]
      exact hr

end Errors

/-! ## Runs of the loop -/

section Runs
variable {R : RelatedResources} {c : Change} {cs : List Change} {run run' : Run} {E E' : List Error}

theorem validateChanges_nil_run :
    (validateChanges R run []).run E = .ok (run', E') ↔ run' = run ∧ E' = E := by
  simp [validateChanges, eq_comm]

theorem validateChanges_cons_run :
    (validateChanges R run (c :: cs)).run E = .ok (run', E') ↔
      ∃ run₁ E₁, (validateChange R run c).run E = .ok (run₁, E₁) ∧
        (validateChanges R run₁ cs).run E₁ = .ok (run', E') := by
  rw [validateChanges, List.foldlM_cons, run_bind_ok]
  rfl

theorem validateChanges_append_run {ds : List Change} :
    (validateChanges R run (cs ++ ds)).run E = .ok (run', E') ↔
      ∃ run₁ E₁, (validateChanges R run cs).run E = .ok (run₁, E₁) ∧
        (validateChanges R run₁ ds).run E₁ = .ok (run', E') := by
  rw [validateChanges, List.foldlM_append, run_bind_ok]
  rfl

/-- **What each step of a run keeps, the run keeps.** -/
theorem validateChanges_induct {I : Run → List Error → Prop}
    (h : (validateChanges R run cs).run E = .ok (run', E')) (start : I run E)
    (step : ∀ c ∈ cs, ∀ run E run' E', I run E → Step R c run E run' E' → I run' E') : I run' E' := by
  induction cs generalizing run E with
  | nil =>
    obtain ⟨rfl, rfl⟩ := validateChanges_nil_run.mp h
    exact start
  | cons c cs ih =>
    obtain ⟨run₁, E₁, hc, hcs⟩ := validateChanges_cons_run.mp h
    rw [List.forall_mem_cons] at step
    exact ih hcs (step.1 run E run₁ E₁ start (validateChange_step hc)) step.2

theorem validateChanges_ranged (h : (validateChanges R run cs).run E = .ok (run', E')) (hr : run.Ranged) :
    run'.Ranged :=
  validateChanges_induct (I := fun run _ => run.Ranged) h hr fun _ _ _ _ _ _ hr hstep => hstep.ranged hr

/-- **The errors of a run are those of its stages.** -/
theorem validateChanges_errors (h : (validateChanges R run cs).run E = .ok (run', E')) :
    E' = Stage.runAll E (cs.map (stage R)) := by
  induction cs generalizing run E with
  | nil => exact (validateChanges_nil_run.mp h).2
  | cons c cs ih =>
    obtain ⟨run₁, E₁, hc, hcs⟩ := validateChanges_cons_run.mp h
    rw [List.map_cons, Stage.runAll_cons, ← (validateChange_step hc).checked.errors]
    exact ih hcs

/-- **A run leaves no error exactly when there was none before and every change conforms.** -/
theorem validateChanges_eq_nil_iff (h : (validateChanges R run cs).run E = .ok (run', E')) :
    E' = [] ↔ E = [] ∧ ∀ c ∈ cs, Conforms R c := by
  induction cs generalizing run E with
  | nil =>
    rw [(validateChanges_nil_run.mp h).2]
    simp
  | cons c cs ih =>
    obtain ⟨run₁, E₁, hc, hcs⟩ := validateChanges_cons_run.mp h
    rw [ih hcs, (validateChange_step hc).checked.eq_nil_iff, List.forall_mem_cons, and_assoc]

/-- A run leaves an unprocessable error exactly when there was one before or a change has one. -/
theorem validateChanges_any (h : (validateChanges R run cs).run E = .ok (run', E')) :
    E'.any Error.isUnprocessable = (E.any Error.isUnprocessable || cs.any (unprocessable R)) := by
  induction cs generalizing run E with
  | nil =>
    rw [(validateChanges_nil_run.mp h).2]
    simp
  | cons c cs ih =>
    obtain ⟨run₁, E₁, hc, hcs⟩ := validateChanges_cons_run.mp h
    rw [ih hcs, (validateChange_step hc).checked.any_isUnprocessable, List.any_cons, Bool.or_assoc]

/-- Without errors the verdict stays what it was at the start: valid, 200. -/
theorem validateChanges_valid (h : (validateChanges R run cs).run E = .ok (run', E')) (hE : E' = [])
    (hret : run.ret = true) (hcode : run.code = HTTP_OK) : run'.ret = true ∧ run'.code = HTTP_OK := by
  refine validateChanges_induct (I := fun run E => E = [] → run.ret = true ∧ run.code = HTTP_OK) h
    (fun _ => ⟨hret, hcode⟩) ?_ hE
  intro c _ run E run₁ E₁ hvalid hstep hE₁
  obtain ⟨hret, hcode⟩ := hvalid (hstep.checked.eq_nil_iff.mp hE₁).1
  have hrange : run.Ranged := by rw [Run.Ranged, hcode]; decide
  by_cases hreset : Resets c
  · exact hstep.reset hreset
  · by_cases hj : Judges c
    · obtain ⟨hr, hk⟩ := hstep.judged hj hrange
      rw [hr, hk, verdictOn, if_pos hE₁]
      simp [Run.join, hret, hcode]
    · obtain ⟨hr, hk⟩ := hstep.kept hj hreset hrange
      exact ⟨hr.trans hret, hk.trans hcode⟩

end Runs

end AuthProvValidator
