import AuthProvValidator.Entities.Steps
import AuthProvValidator.Ports.Server

/-!
# The verdict and the code of a request

A request is valid exactly when no error is recorded, and its code is the one of its worst error, unless a deletion
under a path of no known shape hides the errors before it: that branch of the loop starts the verdict and the code
anew.

* `expectedCode` : the code that a list of errors calls for;
* `Clean` : the verdict and the code that the errors so far call for, kept by every turn but a reset;
* `ResetHarmless` : the errors before the last reset, if any, are outdone by those after it;
* `applyValidationRules_verdict` : verdict and code are as expected exactly under this condition.
-/

namespace AuthProvValidator
open Recorder

/-- The code that the errors call for: 422 before 409 before 200. -/
def expectedCode (errors : List Error) : Nat :=
  if errors = [] then HTTP_OK else codeOf (errors.any Error.isUnprocessable)

/-- The verdict is `true` exactly without errors, and the code is the one they call for. -/
def Outcome.AsExpected (o : Outcome) : Prop :=
  (o.verdict.validation = true ↔ o.response.errors = []) ∧ o.verdict.code = expectedCode o.response.errors

/-- After the last reset there is a change that is judged again and, if one before it was unprocessable, an
unprocessable one; or there was nothing to hide. -/
def ResetHarmless (R : RelatedResources) (changes : List Change) : Prop :=
  ∀ pre d post, changes = pre ++ d :: post → Resets d → (∀ c ∈ post, ¬ Resets c) →
    (∀ c ∈ pre, Conforms R c) ∨
      ((∃ c ∈ post, Judges c) ∧ (pre.any (unprocessable R) = true → post.any (unprocessable R) = true))

theorem codeOf_inj {a b : Bool} (h : codeOf a = codeOf b) : a = b := by
  cases a <;> cases b <;> first | rfl | exact absurd h (by decide)

theorem max_codeOf (a b : Bool) : max (codeOf a) (codeOf b) = codeOf (a || b) := by
  cases a <;> cases b <;> decide

theorem max_ok_codeOf (a : Bool) : max HTTP_OK (codeOf a) = codeOf a := by
  cases a <;> decide

/-! ## Turns that do not reset -/

section Turns
variable {R : RelatedResources} {c : Change} {run run' : Run} {E E' : List Error}

theorem judges_of_unprocessable (h : unprocessable R c = true) : Judges c := by
  unfold unprocessable at h
  unfold Judges
  split at h
  · rename_i hclass
    rw [hclass]
    split_ifs at h with hc hu
    · exact Or.inl hc
    · exact Or.inr hu
  · rename_i hclass
    rw [hclass]
    exact of_decide_eq_true h
  · cases h

theorem conforms_of_not_judges (hj : ¬ Judges c) : Conforms R c := by
  unfold Judges at hj
  unfold Conforms FirstRules FurtherRules
  split at hj <;> rename_i hclass <;> simp only [hclass]
  · exact ⟨trivial, trivial⟩
  · obtain ⟨hc, hu⟩ := not_or.mp hj
    simp only [if_neg hc, if_neg hu]
    exact ⟨trivial, trivial⟩
  · exact absurd trivial hj
  · exact absurd trivial hj
  · exact ⟨not_not.mp hj, trivial⟩

structure Clean (run : Run) (E : List Error) : Prop where
  ret : run.ret = true ↔ E = []
  code : run.code = expectedCode E

theorem Clean.ranged (h : Clean run E) : run.Ranged := by
  unfold Run.Ranged
  rw [h.code]
  unfold expectedCode codeOf
  split_ifs <;> decide

/-- The code after an error is the higher one of the codes so far and of this change. -/
theorem expectedCode_step (h : Checked R c E E') (hE' : E' ≠ []) :
    expectedCode E' = max (expectedCode E) (codeOf (unprocessable R c)) := by
  unfold expectedCode
  rw [if_neg hE', h.any_isUnprocessable]
  split
  · rename_i hE
    rw [hE, List.any_nil, Bool.false_or, max_ok_codeOf]
  · exact (max_codeOf _ _).symm

theorem Clean.step (hclean : Clean run E) (h : Step R c run E run' E') (hreset : ¬ Resets c) : Clean run' E' := by
  have hrange := hclean.ranged
  by_cases hj : Judges c
  · obtain ⟨hret, hcode⟩ := h.judged hj hrange
    unfold verdictOn at hret hcode
    by_cases hE' : E' = []
    · have hE : E = [] := (h.checked.eq_nil_iff.mp hE').1
      have hr : run.ret = true := hclean.ret.mpr hE
      have hk : run.code = HTTP_OK := by rw [hclean.code, hE]; rfl
      rw [if_pos hE'] at hret hcode
      refine ⟨iff_of_true ?_ hE', ?_⟩
      · rw [hret, Run.join, hr]
        rfl
      · rw [hcode, Run.join, hk, hE']
        rfl
    · rw [if_neg hE'] at hret hcode
      refine ⟨iff_of_false ?_ hE', ?_⟩
      · rw [hret, Run.join, Bool.and_false]
        exact Bool.false_ne_true
      · rw [hcode, expectedCode_step h.checked hE', ← hclean.code]
        rfl
  · obtain ⟨hret, hcode⟩ := h.kept hj hreset hrange
    have hE' : E' = [] ↔ E = [] := by
      rw [h.checked.eq_nil_iff]
      exact and_iff_left (conforms_of_not_judges hj)
    have hany : E'.any Error.isUnprocessable = E.any Error.isUnprocessable := by
      have hu : unprocessable R c = false := Bool.eq_false_iff.mpr fun hu => hj (judges_of_unprocessable hu)
      rw [h.checked.any_isUnprocessable, hu, Bool.or_false]
    refine ⟨by rw [hret, hclean.ret, hE'], ?_⟩
    unfold expectedCode
    rw [hcode, hclean.code, expectedCode, hany]
    simp only [hE']

theorem clean_of_run {cs : List Change} (hclean : Clean run E) (hreset : ∀ c ∈ cs, ¬ Resets c)
    (h : (validateChanges R run cs).run E = .ok (run', E')) : Clean run' E' :=
  validateChanges_induct h hclean fun c hc _ _ _ _ hclean hstep => hclean.step hstep (hreset c hc)

/-- After an error no turn but a reset makes the request valid again: the verdict is lost with the first change that is
judged, and from then on the code is that of the worst judged change. -/
theorem run_after_error {cs : List Change} (hE : E ≠ []) (hrange : run.Ranged) (hreset : ∀ c ∈ cs, ¬ Resets c)
    (h : (validateChanges R run cs).run E = .ok (run', E')) :
    ((∀ c ∈ cs, ¬ Judges c) → run'.ret = run.ret ∧ run'.code = run.code) ∧
      ((∃ c ∈ cs, Judges c) → run'.ret = false ∧ run'.code = max run.code (codeOf (cs.any (unprocessable R)))) := by
  induction cs generalizing run E with
  | nil =>
    obtain ⟨rfl, -⟩ := validateChanges_nil_run.mp h
    exact ⟨fun _ => ⟨rfl, rfl⟩, fun hj => by simp at hj⟩
  | cons c cs ih =>
    obtain ⟨run₁, E₁, hc, hcs⟩ := validateChanges_cons_run.mp h
    have hstep := validateChange_step hc
    have hE₁ : E₁ ≠ [] := fun hnil => hE (hstep.checked.eq_nil_iff.mp hnil).1
    rw [List.forall_mem_cons] at hreset
    obtain ⟨hquiet, hloud⟩ := ih hE₁ (hstep.ranged hrange) hreset.2 hcs
    have hany : (∀ c ∈ cs, ¬ Judges c) → cs.any (unprocessable R) = false := fun hnone => by
      rw [List.any_eq_false]
      exact fun c hmem hu => hnone c hmem (judges_of_unprocessable hu)
    by_cases hj : Judges c
    · obtain ⟨hret, hcode⟩ := hstep.judged hj hrange
      rw [verdictOn, if_neg hE₁] at hret hcode
      rw [Run.join, Bool.and_false] at hret
      change run₁.code = max run.code (codeOf (unprocessable R c)) at hcode
      refine ⟨fun hnone => absurd hj (hnone c List.mem_cons_self), fun _ => ?_⟩
      rw [List.any_cons, ← max_codeOf, ← max_assoc, ← hcode]
      by_cases hrest : ∃ c ∈ cs, Judges c
      · exact hloud hrest
      · have hnone : ∀ c ∈ cs, ¬ Judges c := fun c hmem hjc => hrest ⟨c, hmem, hjc⟩
        obtain ⟨hr, hk⟩ := hquiet hnone
        refine ⟨hr.trans hret, ?_⟩
        rw [hk, hany hnone, hcode, max_assoc, max_codeOf, Bool.or_false]
    · obtain ⟨hret, hcode⟩ := hstep.kept hj hreset.1 hrange
      have hu : unprocessable R c = false := Bool.eq_false_iff.mpr fun hu => hj (judges_of_unprocessable hu)
      refine ⟨fun hnone => ?_, fun hsome => ?_⟩
      · obtain ⟨hr, hk⟩ := hquiet fun c hmem => hnone c (List.mem_cons_of_mem _ hmem)
        exact ⟨hr.trans hret, hk.trans hcode⟩
      · obtain ⟨d, hd, hjd⟩ := hsome
        have hmem : d ∈ cs := (List.mem_cons.mp hd).resolve_left fun heq => hj (heq ▸ hjd)
        rw [List.any_cons, hu, Bool.false_or, ← hcode]
        exact hloud ⟨d, hmem, hjd⟩

end Turns

/-! ## Whole requests -/

section Requests
variable {R : RelatedResources} {pre post : List Change} {d : Change} {run : Run} {E : List Error}

theorem exists_last_reset (changes : List Change) :
    (∀ c ∈ changes, ¬ Resets c) ∨
      ∃ pre d post, changes = pre ++ d :: post ∧ Resets d ∧ ∀ c ∈ post, ¬ Resets c := by
  induction changes with
  | nil => exact Or.inl (by simp)
  | cons c cs ih =>
    rcases ih with hnone | ⟨pre, d, post, rfl, hd, hpost⟩
    · by_cases hc : Resets c
      · exact Or.inr ⟨[], c, cs, rfl, hc, hnone⟩
      · exact Or.inl (List.forall_mem_cons.mpr ⟨hc, hnone⟩)
    · exact Or.inr ⟨c :: pre, d, post, rfl, hd, hpost⟩

theorem clean_start (changes : List Change) : Clean ⟨true, HTTP_OK, changes⟩ [] := ⟨iff_of_true rfl rfl, rfl⟩

theorem clean_iff_of_last_reset (hd : Resets d) (hpost : ∀ c ∈ post, ¬ Resets c) {start : List Change}
    (h : (validateChanges R ⟨true, HTTP_OK, start⟩ (pre ++ d :: post)).run [] = .ok (run, E)) :
    Clean run E ↔ (∀ c ∈ pre, Conforms R c) ∨
      ((∃ c ∈ post, Judges c) ∧ (pre.any (unprocessable R) = true → post.any (unprocessable R) = true)) := by
  obtain ⟨run₁, E₁, hpre, hrest⟩ := validateChanges_append_run.mp h
  obtain ⟨run₂, E₂, hreset, htail⟩ := validateChanges_cons_run.mp hrest
  have hstep := validateChange_step hreset
  obtain ⟨hret₂, hcode₂⟩ := hstep.reset hd
  have hnotJudged : ¬ Judges d := by
    unfold Judges
    rw [hd.1]
    exact not_not_intro hd.2
  have hE₂ : E₂ = [] ↔ ∀ c ∈ pre, Conforms R c := by
    rw [hstep.checked.eq_nil_iff, validateChanges_eq_nil_iff hpre]
    simp [conforms_of_not_judges hnotJudged]
  by_cases hpreOk : ∀ c ∈ pre, Conforms R c
  · -- nothing was hidden
    have hclean : Clean run₂ E₂ := by
      rw [hE₂.mpr hpreOk]
      exact ⟨iff_of_true hret₂ rfl, hcode₂⟩
    exact iff_of_true (clean_of_run hclean hpost htail) (Or.inl hpreOk)
  · have hne₂ : E₂ ≠ [] := fun hnil => hpreOk (hE₂.mp hnil)
    have hne : E ≠ [] := fun hnil => hne₂ ((validateChanges_eq_nil_iff htail).mp hnil).1
    have hrange : run₂.Ranged := by rw [Run.Ranged, hcode₂]; decide
    obtain ⟨hquiet, hloud⟩ := run_after_error hne₂ hrange hpost htail
    by_cases hj : ∃ c ∈ post, Judges c
    · obtain ⟨hret, hcode⟩ := hloud hj
      have hu : unprocessable R d = false := Bool.eq_false_iff.mpr fun hu => hnotJudged (judges_of_unprocessable hu)
      have hexpected : expectedCode E = codeOf (pre.any (unprocessable R) || post.any (unprocessable R)) := by
        rw [expectedCode, if_neg hne, validateChanges_any htail, hstep.checked.any_isUnprocessable, hu, Bool.or_false,
          validateChanges_any hpre, List.any_nil, Bool.false_or]
      have hcode' : run.code = codeOf (post.any (unprocessable R)) := by rw [hcode, hcode₂, max_ok_codeOf]
      have hclean : Clean run E ↔ run.code = expectedCode E :=
        ⟨fun hc => hc.code, fun hc => ⟨iff_of_false (by simp [hret]) hne, hc⟩⟩
      rw [hclean, hcode', hexpected]
      refine ⟨fun heq => Or.inr ⟨hj, fun hp => ?_⟩, fun hor => ?_⟩
      · rw [codeOf_inj heq, hp, Bool.true_or]
      · obtain ⟨-, himp⟩ := hor.resolve_left hpreOk
        cases hp : pre.any (unprocessable R) with
        | false => rw [Bool.false_or]
        | true => rw [himp hp, Bool.true_or]
    · -- the errors before the reset stay hidden
      obtain ⟨hret, -⟩ := hquiet fun c hmem hjc => hj ⟨c, hmem, hjc⟩
      refine iff_of_false (fun hc => hne (hc.ret.mp (hret.trans hret₂))) ?_
      rintro (hc | ⟨hc, -⟩)
      · exact hpreOk hc
      · exact hj hc

theorem asExpected_iff {data : ValidationData} {o : Outcome} (hempty : data.response.errors = [])
    (h : applyValidationRules data = .ok o) :
    o.AsExpected ↔ ResetHarmless data.relatedResources data.changes := by
  obtain ⟨⟨run, E⟩, hrun, hret⟩ := bind_eq_ok.mp h
  obtain rfl := Except.ok.inj hret
  rw [hempty] at hrun
  have hclean : Outcome.AsExpected ⟨⟨run.ret, run.code⟩, ⟨run.changes, E⟩⟩ ↔ Clean run E :=
    ⟨fun ho => ⟨ho.1, ho.2⟩, fun hc => ⟨hc.ret, hc.code⟩⟩
  refine hclean.trans ⟨fun hc pre d post hsplit hd hpost => ?_, fun hharmless => ?_⟩
  · rw [hsplit] at hrun
    exact (clean_iff_of_last_reset hd hpost hrun).mp hc
  · rcases exists_last_reset data.changes with hnone | ⟨pre, d, post, hsplit, hd, hpost⟩
    · exact clean_of_run (clean_start _) hnone hrun
    · have hor := hharmless pre d post hsplit hd hpost
      rw [hsplit] at hrun
      exact (clean_iff_of_last_reset hd hpost hrun).mpr hor

end Requests

/-! ## The answer -/

section Answer
variable {lib : Library} {data : ValidationData} {r : Reply}

theorem sendResponse_eq_ok {status : Nat} {json : Json} (h : (sendResponse lib status json).status = HTTP_OK) :
    status = HTTP_OK ∧ (sendResponse lib status json).body = json := by
  unfold sendResponse at h ⊢
  split at h
  · exact absurd (show HTTP_INTERNAL_SERVER_ERROR = HTTP_OK from h) (by decide)
  · exact ⟨h, rfl⟩

theorem answer_ok (hharmless : ResetHarmless data.relatedResources data.changes) (h : answer lib data = .ok r)
    (hstatus : r.status = HTTP_OK) : ¬ r.body.HoldsErrors := by
  unfold answer at h
  split at h
  · obtain rfl := Except.ok.inj h
    exact absurd (sendResponse_eq_ok hstatus).1 (by decide)
  · rename_i hempty
    obtain ⟨o, hrun, hsend⟩ := bind_eq_ok.mp h
    have hnone : data.response.errors = [] := by simpa using hempty
    obtain ⟨hvalid, hcode⟩ := (asExpected_iff hnone hrun).mpr hharmless
    have herrors : o.response.errors = [] ∧ r.body = validatorResponseToJson o.response := by
      split at hsend
      · obtain rfl := Except.ok.inj hsend
        obtain ⟨hok, hbody⟩ := sendResponse_eq_ok hstatus
        refine ⟨by_contra fun hne => ?_, hbody⟩
        rw [hcode, expectedCode, if_neg hne] at hok
        revert hok
        cases o.response.errors.any Error.isUnprocessable <;> decide
      · rename_i hv
        obtain rfl := Except.ok.inj hsend
        exact ⟨hvalid.mp (by simpa using hv), (sendResponse_eq_ok hstatus).2⟩
    rw [herrors.2, holdsErrors_validatorResponseToJson]
    exact not_not_intro herrors.1

end Answer

/-- **Verdict and code follow the recorded errors exactly when no reset hides one, and then no request is answered with
200 and a list of errors.** -/
theorem applyValidationRules_verdict (lib : Library) :
    (∀ (data : ValidationData) (o : Outcome), data.response = {} → applyValidationRules data = .ok o →
      (((o.verdict.validation = true ↔ o.response.errors = []) ∧
          o.verdict.code = expectedCode o.response.errors) ↔
        ResetHarmless data.relatedResources data.changes)) ∧
    (∀ (json : Str) (r : Reply),
      (∀ data, getValidationData lib.decodeFromBase64 (lib.parseJson json) = .ok data →
        ResetHarmless data.relatedResources data.changes) →
      handleHttp2Request lib json = .ok r → r.status = HTTP_OK → ¬ r.body.HoldsErrors) := by
  refine ⟨fun data o hempty h => asExpected_iff (by rw [hempty]) h, fun json r hharmless h hstatus => ?_⟩
  unfold handleHttp2Request at h
  split at h
  · obtain rfl := Except.ok.inj h
    exact absurd (show HTTP_BAD_REQUEST = HTTP_OK from hstatus) (by decide)
  · split at h
    · obtain rfl := Except.ok.inj h
      exact absurd (sendResponse_eq_ok hstatus).1 (by decide)
    · cases h
    · rename_i data hdata
      cases hanswer : answer lib data with
      | error f =>
        rw [hanswer] at h
        cases h
      | ok r' =>
        rw [hanswer] at h
        obtain rfl := Except.ok.inj h
        exact answer_ok (hharmless data hdata) hanswer hstatus

/-- A creation under an unknown path, and then a deletion under another one. -/
def hiddenErrorRequest : ValidationData where
  changes := [⟨JSON_OPERATION_CREATE, "/x", {}⟩, ⟨JSON_OPERATION_DELETE, "/y", {}⟩]

/-- The error of the creation is recorded, and the verdict is "valid". -/
theorem hiddenErrorRequest_valid :
    ¬ ∀ (data : ValidationData) (o : Outcome), data.response = {} → applyValidationRules data = .ok o →
      (o.verdict.validation = true ↔ o.response.errors = []) ∧ o.verdict.code = expectedCode o.response.errors := by
  intro h
  obtain ⟨o, hrun, ho⟩ : ∃ o, applyValidationRules hiddenErrorRequest = .ok o ∧
      (o.verdict.validation, o.response.errors.isEmpty) = (true, false) :=
    exists_outcome hiddenErrorRequest (fun o => (o.verdict.validation, o.response.errors.isEmpty)) (by decide)
  obtain ⟨hvalid, herrors⟩ := Prod.mk.inj ho
  rw [(h hiddenErrorRequest o rfl hrun).1.mp hvalid] at herrors
  exact Bool.noConfusion herrors

def deletionOfImsi : Change := ⟨JSON_OPERATION_DELETE, "/subscribers/a/authSubscription/imsi-12345", {}⟩

def deletionOfUnknown : Change := ⟨JSON_OPERATION_DELETE, "/y", {}⟩

def changeMembers (c : Change) : Json :=
  .obj [(JSON_OPERATION, .str c.operation), (JSON_RESOURCE_PATH, .str c.resourcePath)]

/-- Libraries that allow everything and read every text as a request of the two deletions. -/
def deletionsLibrary : Library where
  validateRequest := fun _ => none
  validateResponse := fun _ _ => none
  parseJson := fun _ => some (.obj [(JSON_CHANGES,
    .arr [changeMembers deletionOfImsi, changeMembers deletionOfUnknown])])
  decodeFromBase64 := id

/-- The second deletion resets, and before it nothing is wrong. -/
theorem resetHarmless_deletions (R : RelatedResources) : ResetHarmless R [deletionOfImsi, deletionOfUnknown] := by
  have hclass : pathClass deletionOfImsi.resourcePath = .imsi := by decide
  have hjudges : ¬ Judges deletionOfImsi := by
    simp only [Judges, hclass]
    decide
  have hother : pathClass deletionOfUnknown.resourcePath = .other := by decide
  intro pre d post hsplit hd _
  left
  intro c hc
  have hmem : c ∈ [deletionOfImsi, deletionOfUnknown] := by
    rw [hsplit]
    exact List.mem_append_left _ hc
  rcases List.mem_pair.mp hmem with rfl | rfl
  · exact conforms_of_not_judges hjudges
  · constructor
    · simp only [FirstRules, hother]
      rfl
    · simp only [FurtherRules, hother]

theorem applyValidationRules_verdict_examples :
    (∃ o, applyValidationRules hiddenErrorRequest = .ok o ∧
      (((o.verdict.validation = true ↔ o.response.errors = []) ∧
          o.verdict.code = expectedCode o.response.errors) ↔
        ResetHarmless hiddenErrorRequest.relatedResources hiddenErrorRequest.changes)) ∧
    ∃ r, handleHttp2Request deletionsLibrary "x" = .ok r ∧ r.status = HTTP_OK ∧
      r.body = .obj [(JSON_CHANGES, .arr [changeMembers deletionOfImsi, changeMembers deletionOfUnknown])] ∧
      ¬ r.body.HoldsErrors := by
  obtain ⟨hverdict, hanswer⟩ := applyValidationRules_verdict deletionsLibrary
  constructor
  · obtain ⟨o, hrun, -⟩ := exists_outcome hiddenErrorRequest (fun o => o.verdict.validation) (a := true)
      (by decide)
    exact ⟨o, hrun, hverdict hiddenErrorRequest o rfl hrun⟩
  · have hr : handleHttp2Request deletionsLibrary "x" = .ok ⟨HTTP_OK,
        .obj [(JSON_CHANGES, .arr [changeMembers deletionOfImsi, changeMembers deletionOfUnknown])]⟩ := rfl
    refine ⟨_, hr, rfl, rfl, hanswer "x" _ (fun data hdata => ?_) hr rfl⟩
    have hread : (getValidationData deletionsLibrary.decodeFromBase64 (deletionsLibrary.parseJson "x")).toOption.map
        ValidationData.changes = some [deletionOfImsi, deletionOfUnknown] := rfl
    rw [hdata] at hread
    rw [Option.some.inj hread]
    exact resetHarmless_deletions _

end AuthProvValidator
