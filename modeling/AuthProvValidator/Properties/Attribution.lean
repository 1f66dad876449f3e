import AuthProvValidator.Entities.Steps

/-!
# Whose error an error is

* `Error.Names p` : the error is one of the two kinds, and its details are the resource path `p` and a description;
* `names_of_stage` : what the checks of a change record names its path;
* `applyValidationRules_attributed` : an error of the rules names a change that does not conform, and a change
  that breaks the rules looked at first is named by an error.
-/

namespace AuthProvValidator
open Regex Recorder

/-- The error has one of the two messages, and its details are the resource path and a description. -/
def Error.Names (e : Error) (p : Str) : Prop :=
  ∃ description, e = constraintViolation p description ∨ e = unprocessableEntity p description

/-! ## The checks of a change -/

section Checks
variable {R : RelatedResources} {p : Str} {c : Change}

theorem names_constraintViolation (description : Str) : (constraintViolation p description).Names p :=
  ⟨description, Or.inl rfl⟩

theorem names_unprocessableEntity (description : Str) : (unprocessableEntity p description).Names p :=
  ⟨description, Or.inr rfl⟩

theorem names_of_stage : ∀ e, e ∈ (stage R c).always ∨ e ∈ (stage R c).gated → e.Names c.resourcePath := by
  have hnone : ∀ e : Error, e ∈ ([] : List Error) ∨ e ∈ ([] : List Error) → e.Names c.resourcePath := by simp
  have hone : ∀ e e' : Error, e'.Names c.resourcePath → e ∈ [e'] ∨ e ∈ ([] : List Error) → e.Names c.resourcePath := by
    intro e e' he' he
    rcases he with he | he
    · rwa [List.mem_singleton.mp he]
    · cases he
  have hcommon := (plain_checkForCommonRules (R := R) (P := fun e => e.Names c.resourcePath)
    names_constraintViolation fun _ => names_unprocessableEntity).logged
  intro e
  unfold stage
  split
  · exact hnone e
  · split_ifs
    · rintro (he | he)
      · exact hcommon e he
      · exact (plainVerdict_checkForLegacyAuthSubscriptionRules (P := fun e => e.Names c.resourcePath)
          names_constraintViolation).logged e he
    · rintro (he | he)
      · exact hcommon e he
      · exact (plainVerdict_checkForUpdateAuthSubscriptionRules (P := fun e => e.Names c.resourcePath)
          names_constraintViolation).logged e he
    · exact hone e _ (names_unprocessableEntity _)
    · exact hnone e
  · exact hone e _ (names_constraintViolation _)
  · exact hone e _ (names_constraintViolation _)
  · split
    · exact hnone e
    · exact hone e _ (names_unprocessableEntity _)

end Checks

/-! ## The errors of a run -/

section Runs
variable {R : RelatedResources} {c : Change} {cs : List Change} {run run' : Run} {E E' : List Error} {e : Error}

theorem Checked.names (h : Checked R c E E') (he : e ∈ E') :
    e ∈ E ∨ ¬ Conforms R c ∧ e.Names c.resourcePath := by
  rw [h.errors, List.mem_append] at he
  refine he.imp_right fun hfound => ?_
  unfold Stage.findings at hfound
  split at hfound
  · next hnil =>
    refine ⟨fun hconforms => ?_, names_of_stage e (Or.inr hfound)⟩
    rw [(h.further hnil).mpr hconforms.2] at hfound
    cases hfound
  · refine ⟨fun hconforms => ?_, names_of_stage e (Or.inl hfound)⟩
    rw [h.first.mpr hconforms.1] at hfound
    cases hfound

theorem Checked.exists_names (h : Checked R c E E') (hfirst : ¬ FirstRules R c) :
    ∃ e ∈ E', e.Names c.resourcePath := by
  have halways : (stage R c).always ≠ [] := fun hnil => hfirst (h.first.mp hnil)
  obtain ⟨e, rest, hcons⟩ := List.exists_cons_of_ne_nil halways
  have hmem : e ∈ (stage R c).always := by
    rw [hcons]
    exact List.mem_cons_self
  refine ⟨e, ?_, names_of_stage e (Or.inl hmem)⟩
  rw [h.errors, Stage.findings, if_neg fun hnil => halways (List.append_eq_nil_iff.mp hnil).2]
  exact List.mem_append_right E hmem

theorem validateChanges_mono (h : (validateChanges R run cs).run E = .ok (run', E')) (he : e ∈ E) : e ∈ E' :=
  validateChanges_induct (I := fun _ E => e ∈ E) h he fun _ _ _ _ _ _ he hstep => by
    rw [hstep.checked.errors]
    exact List.mem_append_left _ he

theorem validateChanges_names (h : (validateChanges R run cs).run E = .ok (run', E')) :
    ∀ e ∈ E', e ∈ E ∨ ∃ c ∈ cs, ¬ Conforms R c ∧ e.Names c.resourcePath := by
  refine validateChanges_induct (I := fun _ E₁ => ∀ e ∈ E₁, e ∈ E ∨ ∃ c ∈ cs, ¬ Conforms R c ∧ e.Names c.resourcePath)
    h (fun e he => Or.inl he) ?_
  intro c hc run₁ E₁ run₂ E₂ hnamed hstep e he
  rcases hstep.checked.names he with hin | hnames
  · exact hnamed e hin
  · exact Or.inr ⟨c, hc, hnames⟩

theorem validateChanges_exists_names (h : (validateChanges R run cs).run E = .ok (run', E')) (hc : c ∈ cs)
    (hfirst : ¬ FirstRules R c) : ∃ e ∈ E', e.Names c.resourcePath := by
  induction cs generalizing run E with
  | nil => cases hc
  | cons d cs ih =>
    obtain ⟨run₁, E₁, hd, hcs⟩ := validateChanges_cons_run.mp h
    rcases List.mem_cons.mp hc with rfl | hin
    · obtain ⟨e, he, hnames⟩ := (validateChange_step hd).checked.exists_names hfirst
      exact ⟨e, validateChanges_mono hcs he, hnames⟩
    · exact ih hcs hin

end Runs

/-- Every error that the rules add has one of the two messages, and its details are exactly a description and the path
of a change of the request that does not conform; every change that breaks the rules looked at in any case, of the
common rules, its path and its stored base, is named by an error. -/
theorem applyValidationRules_attributed (data : ValidationData) (o : Outcome) (h : applyValidationRules data = .ok o) :
    (∀ e ∈ o.response.errors, e ∈ data.response.errors ∨
      ∃ c ∈ data.changes, ¬ Conforms data.relatedResources c ∧ e.Names c.resourcePath) ∧
    ∀ c ∈ data.changes, ¬ FirstRules data.relatedResources c → ∃ e ∈ o.response.errors, e.Names c.resourcePath := by
  obtain ⟨⟨run, errors⟩, hloop, hret⟩ := bind_eq_ok.mp h
  obtain rfl := Except.ok.inj hret
  constructor
  · exact validateChanges_names hloop
  · intro c hc hfirst
    exact validateChanges_exists_names hloop hc hfirst

def unknownUpdate : Change := { operation := JSON_OPERATION_UPDATE, resourcePath := "/any" }

theorem applyValidationRules_attributed_unknownUpdate :
    ∃ o, applyValidationRules { changes := [unknownUpdate] } = .ok o ∧
      (∀ e ∈ o.response.errors, e ∈ ([] : List Error) ∨
        ∃ c ∈ [unknownUpdate], ¬ Conforms ∅ c ∧ e.Names c.resourcePath) ∧
      ∀ c ∈ [unknownUpdate], ¬ FirstRules ∅ c → ∃ e ∈ o.response.errors, e.Names c.resourcePath :=
  ⟨_, rfl, applyValidationRules_attributed { changes := [unknownUpdate] } _ rfl⟩

end AuthProvValidator
