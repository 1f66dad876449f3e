import AuthProvValidator.Base.Entries
import AuthProvValidator.Entities.Accepted

/-!
# Requests of several changes

* `Answers R cs l` : a request with the changes `cs` is accepted, and answered with `l`;
* `AnswerTo R c l` : one turn of the loop accepts `c` and adds `l` to the response;
* `answers_iff_forall₂` : a request is accepted exactly when each of its changes is, and its response is what they
  add, in order;
* `answers_perm` : so the order of the changes only decides the order of the response.
-/

namespace AuthProvValidator
open Recorder

/-- A request with the changes `cs` leaves no error, and its response holds the changes `l`. -/
def Answers (R : RelatedResources) (cs l : List Change) : Prop :=
  ∃ o, applyValidationRules { changes := cs, relatedResources := R } = .ok o ∧ o.response = ⟨l, []⟩

structure AnswerTo (R : RelatedResources) (c : Change) (l : List Change) : Prop where
  conforms : Conforms R c
  pushed : Pushed R c true l

section Turns
variable {R : RelatedResources} {c : Change} {cs ds l m : List Change} {run : Run}

def validRun (changes : List Change) : Run := ⟨true, HTTP_OK, changes⟩

theorem answerTo_of_turn (h : (validateChange R (validRun l) c).run [] = .ok (run, [])) :
    ∃ m, AnswerTo R c m ∧ run = validRun (l ++ m) := by
  have hstep := validateChange_step h
  have hone : (validateChanges R (validRun l) [c]).run [] = .ok (run, []) :=
    validateChanges_cons_run.mpr ⟨run, [], h, validateChanges_nil_run.mpr ⟨rfl, rfl⟩⟩
  obtain ⟨hret, hcode⟩ := validateChanges_valid hone rfl rfl rfl
  obtain ⟨m, hm, hpushed⟩ := hstep.pushed
  rw [hret] at hpushed
  refine ⟨m, ⟨(hstep.checked.eq_nil_iff.mp rfl).2, hpushed⟩, ?_⟩
  rw [validRun, ← hret, ← hcode]
  show run = ⟨run.ret, run.code, l ++ m⟩
  rw [← show run.changes = l ++ m from hm]

theorem AnswerTo.turn (h : AnswerTo R c m) (l : List Change) :
    (validateChange R (validRun l) c).run [] = .ok (validRun (l ++ m), []) := by
  have hfirst := h.conforms.1
  have hpushed := h.pushed
  unfold FirstRules at hfirst
  unfold Pushed at hpushed
  cases hclass : pathClass c.resourcePath with
  | authSubscription =>
    simp only [hclass] at hpushed
    rw [validateChange_authSubscription hclass, hpushed]
    split
    · rfl
    · rw [List.append_nil]
      rfl
  | imsi =>
    simp only [hclass, if_true] at hpushed
    obtain ⟨c', hmut, rfl⟩ := hpushed
    rw [validateChange_imsi hclass]
    refine run_bind_ok.mpr ⟨_, [], checkForOperation_conforms hclass h.conforms, ?_⟩
    rw [hmut]
    rfl
  | badImsi => simp [hclass] at hfirst
  | dynamicData => simp [hclass] at hfirst
  | other =>
    simp only [hclass] at hfirst hpushed
    rw [if_pos hfirst] at hpushed
    rw [validateChange_reset hclass hfirst, hpushed]
    rfl

theorem validateChanges_forall₂ :
    (validateChanges R (validRun l) cs).run [] = .ok (run, []) ↔
      ∃ ms, List.Forall₂ (AnswerTo R) cs ms ∧ run = validRun (l ++ ms.flatten) := by
  induction cs generalizing l with
  | nil =>
    rw [validateChanges_nil_run]
    constructor
    · rintro ⟨rfl, -⟩
      exact ⟨[], List.Forall₂.nil, by rw [List.flatten_nil, List.append_nil]⟩
    · rintro ⟨ms, hms, rfl⟩
      cases hms
      exact ⟨by rw [List.flatten_nil, List.append_nil], rfl⟩
  | cons c cs ih =>
    rw [validateChanges_cons_run]
    constructor
    · rintro ⟨run₁, E₁, hc, hcs⟩
      obtain rfl : E₁ = [] := ((validateChanges_eq_nil_iff hcs).mp rfl).1
      obtain ⟨m, hm, rfl⟩ := answerTo_of_turn hc
      obtain ⟨ms, hms, rfl⟩ := ih.mp hcs
      exact ⟨m :: ms, List.Forall₂.cons hm hms, by rw [List.flatten_cons, List.append_assoc]⟩
    · rintro ⟨ms, hms, rfl⟩
      cases hms with
      | @cons _ m _ ms hm hms =>
        refine ⟨_, [], hm.turn l, ih.mpr ⟨ms, hms, ?_⟩⟩
        rw [List.flatten_cons, List.append_assoc]

/-- **A request is accepted change by change.** -/
theorem answers_iff_forall₂ : Answers R cs l ↔ ∃ ms, List.Forall₂ (AnswerTo R) cs ms ∧ l = ms.flatten := by
  constructor
  · rintro ⟨o, ho, hresponse⟩
    obtain ⟨⟨run, errors⟩, hloop, hret⟩ := bind_eq_ok.mp ho
    obtain rfl := Except.ok.inj hret
    obtain ⟨rfl, rfl⟩ := Response.mk.inj hresponse
    obtain ⟨ms, hms, rfl⟩ := validateChanges_forall₂.mp hloop
    exact ⟨ms, hms, rfl⟩
  · rintro ⟨ms, hms, rfl⟩
    refine ⟨⟨⟨true, HTTP_OK⟩, ⟨ms.flatten, []⟩⟩, bind_eq_ok.mpr ⟨(validRun ms.flatten, []), ?_, rfl⟩, rfl⟩
    exact validateChanges_forall₂.mpr ⟨ms, hms, rfl⟩

end Turns

/-- A request whose changes come in another order is accepted too, and its response holds the same changes in another
order. -/
theorem answers_perm (R : RelatedResources) (cs ds l : List Change) (hperm : cs.Perm ds) (h : Answers R cs l) :
    ∃ m, Answers R ds m ∧ l.Perm m := by
  obtain ⟨ls, hls, rfl⟩ := answers_iff_forall₂.mp h
  obtain ⟨ms, hms, hflat⟩ := List.perm_comp_forall₂ hperm.symm hls
  exact ⟨ms.flatten, answers_iff_forall₂.mpr ⟨ms, hms, rfl⟩, hflat.symm.flatten⟩

theorem answers_perm_deletions :
    ∃ m, Answers ∅ [{ operation := JSON_OPERATION_DELETE, resourcePath := "/b" },
        { operation := JSON_OPERATION_DELETE, resourcePath := "/a" }] m ∧
      List.Perm [{ operation := JSON_OPERATION_DELETE, resourcePath := "/a" },
        { operation := JSON_OPERATION_DELETE, resourcePath := "/b" }] m :=
  answers_perm ∅ [{ operation := JSON_OPERATION_DELETE, resourcePath := "/a" },
    { operation := JSON_OPERATION_DELETE, resourcePath := "/b" }] _ _ (List.Perm.swap _ _ _) ⟨_, rfl, rfl⟩

end AuthProvValidator
