import AuthProvValidator.Entities.Steps

/-!
# Changes validated together and alone

The errors of a request are those of its changes validated one by one, unless a violation is hidden: the legacy rules of
a creation and the rules of an update are not looked at once the request has an error, also one of another change.

* `NothingHidden` : no change that breaks only these further rules comes after a change with an error;
* `applyValidationRules_independent` : the errors are those of the changes alone exactly under this condition.
-/

namespace AuthProvValidator
open Recorder

/-- A change after one that does not conform meets its further rules, if it meets the first ones. -/
def NothingHidden (R : RelatedResources) (changes : List Change) : Prop :=
  ∀ pre c post, changes = pre ++ c :: post → (∃ b ∈ pre, ¬ Conforms R b) → FirstRules R c → FurtherRules R c

section Alone
variable {R : RelatedResources} {c : Change} {changes : List Change} {o : Outcome}

theorem errors_eq_runAll (h : applyValidationRules { changes, relatedResources := R } = .ok o) :
    o.response.errors = Stage.runAll [] (changes.map (stage R)) := by
  obtain ⟨⟨run, E⟩, hrun, hret⟩ := bind_eq_ok.mp h
  obtain rfl := Except.ok.inj hret
  exact validateChanges_errors hrun

theorem checked_alone (h : applyValidationRules { changes := [c], relatedResources := R } = .ok o) :
    Checked R c [] o.response.errors := by
  obtain ⟨⟨run, E⟩, hrun, hret⟩ := bind_eq_ok.mp h
  obtain rfl := Except.ok.inj hret
  obtain ⟨run₁, E₁, hc, hnil⟩ := validateChanges_cons_run.mp hrun
  obtain ⟨rfl, rfl⟩ := validateChanges_nil_run.mp hnil
  exact (validateChange_step hc).checked

theorem Checked.alone_eq_nil_iff {E : List Error} (h : Checked R c [] E) : (stage R c).alone = [] ↔ Conforms R c := by
  have hE : E = (stage R c).alone := h.errors
  rw [← hE, h.eq_nil_iff]
  exact and_iff_right rfl

/-- The violations that can be hidden are those of a change that meets its first rules only. -/
theorem Checked.hidden_iff {E : List Error} (h : Checked R c [] E) :
    (stage R c).Hidden ↔ FirstRules R c ∧ ¬ FurtherRules R c := by
  unfold Stage.Hidden
  rw [h.first]
  refine and_congr_right fun hfirst => ?_
  rw [ne_eq, h.further (h.first.mpr hfirst)]

end Alone

/-- **A request records the errors of its changes, each validated alone, exactly when nothing is hidden.** -/
theorem applyValidationRules_independent (R : RelatedResources) (changes : List Change) (o : Outcome)
    (alone : Change → Outcome) (h : applyValidationRules { changes, relatedResources := R } = .ok o)
    (halone : ∀ c ∈ changes, applyValidationRules { changes := [c], relatedResources := R } = .ok (alone c)) :
    o.response.errors = changes.flatMap (fun c => (alone c).response.errors) ↔ NothingHidden R changes := by
  have hchecked : ∀ c ∈ changes, Checked R c [] (alone c).response.errors :=
    fun c hc => checked_alone (halone c hc)
  have hflat : changes.flatMap (fun c => (alone c).response.errors) =
      (changes.map (stage R)).flatMap Stage.alone := by
    rw [List.flatMap_map]
    exact List.flatMap_congr fun c hc => (hchecked c hc).errors
  rw [errors_eq_runAll h, hflat, Stage.runAll_eq_iff]
  constructor
  · intro hstage pre c post hsplit hpre hfirst
    obtain ⟨b, hb, hnot⟩ := hpre
    have hE := hchecked c (by simp [hsplit])
    have hF := hchecked b (by simp [hsplit, hb])
    by_contra hfurther
    refine hstage (pre.map (stage R)) (stage R c) (post.map (stage R)) (by simp [hsplit]) ?_
      (hE.hidden_iff.mpr ⟨hfirst, hfurther⟩)
    exact ⟨stage R b, List.mem_map_of_mem hb, fun hnil => hnot (hF.alone_eq_nil_iff.mp hnil)⟩
  · intro hnothing pre' s post' hsplit hpre hhidden
    obtain ⟨pre, rest, rfl, rfl, hrest⟩ := List.map_eq_append_iff.mp hsplit
    obtain ⟨c, post, rfl, rfl, rfl⟩ := List.map_eq_cons_iff.mp hrest
    obtain ⟨t, ht, hne⟩ := hpre
    obtain ⟨b, hb, rfl⟩ := List.mem_map.mp ht
    have hE := hchecked c (by simp)
    have hF := hchecked b (by simp [hb])
    obtain ⟨hfirst, hfurther⟩ := hE.hidden_iff.mp hhidden
    exact hfurther (hnothing pre c post rfl ⟨b, hb, fun hc => hne (hF.alone_eq_nil_iff.mpr hc)⟩ hfirst)

def legacyWithoutAkaType : RelatedResources :=
  (∅ : RelatedResources).insert "/legacy/serv=Auth/IMSI=12345" (.authSubscriptionLegacy {})

/-- A creation that only breaks the rule about `AKATYPE`. -/
def creationNextToLegacy : Change where
  operation := JSON_OPERATION_CREATE
  resourcePath := "/subscribers/a/authSubscription/imsi-12345/authSubscriptionStaticData"
  authSubscription := { authSubscriptionStaticData := some { authenticationMethod := JSON_5G_AKA } }

def creationOfUnknown : Change := ⟨JSON_OPERATION_CREATE, "/x", {}⟩

/-- The two creations in either order, and alone. The second one has no error behind the other one. -/
theorem exists_creations : ∃ (o o' : Outcome) (alone : Change → Outcome),
    applyValidationRules
      { changes := [creationOfUnknown, creationNextToLegacy], relatedResources := legacyWithoutAkaType } = .ok o ∧
    applyValidationRules
      { changes := [creationNextToLegacy, creationOfUnknown], relatedResources := legacyWithoutAkaType } = .ok o' ∧
    (∀ c ∈ [creationOfUnknown, creationNextToLegacy],
      applyValidationRules { changes := [c], relatedResources := legacyWithoutAkaType } = .ok (alone c)) ∧
    o.response.errors.length = 1 ∧ ∀ c, (alone c).response.errors.length = 1 := by
  have run : ∀ changes n, (applyValidationRules { changes, relatedResources := legacyWithoutAkaType }).toOption.map
      (fun o => o.response.errors.length) = some n → ∃ o, applyValidationRules
        { changes, relatedResources := legacyWithoutAkaType } = .ok o ∧ o.response.errors.length = n :=
    fun changes n => exists_outcome _ fun o => o.response.errors.length
  obtain ⟨o, hrun, ho⟩ := run [creationOfUnknown, creationNextToLegacy] 1 (by decide)
  obtain ⟨o', hrun', -⟩ := run [creationNextToLegacy, creationOfUnknown] 2 (by decide)
  obtain ⟨a, hunknown, ha⟩ := run [creationOfUnknown] 1 (by decide)
  obtain ⟨b, hlegacy, hb⟩ := run [creationNextToLegacy] 1 (by decide)
  have hne : creationNextToLegacy.resourcePath ≠ creationOfUnknown.resourcePath := by decide
  refine ⟨o, o', fun c => if c.resourcePath = creationOfUnknown.resourcePath then a else b, hrun, hrun', ?_, ho, ?_⟩
  · simpa [hne] using ⟨hunknown, hlegacy⟩
  · intro c
    dsimp only
    split
    · exact ha
    · exact hb

/-- The errors of a request and of its changes alone: behind another error the one about `AKATYPE` is not recorded. -/
theorem akaType_error_hidden :
    ¬ ∀ (R : RelatedResources) (changes : List Change) (o : Outcome) (alone : Change → Outcome),
      applyValidationRules { changes, relatedResources := R } = .ok o →
      (∀ c ∈ changes, applyValidationRules { changes := [c], relatedResources := R } = .ok (alone c)) →
      o.response.errors = changes.flatMap (fun c => (alone c).response.errors) := by
  intro h
  obtain ⟨o, -, alone, hrun, -, halone, ho, hone⟩ := exists_creations
  have hlength := congrArg List.length (h _ _ o alone hrun halone)
  simp [ho, hone] at hlength

/-- Behind the other creation, the one on an unknown path hides nothing. -/
theorem nothingHidden_creations : NothingHidden legacyWithoutAkaType [creationNextToLegacy, creationOfUnknown] := by
  rintro pre c post hsplit ⟨b, hb, -⟩ -
  cases pre with
  | nil => cases hb
  | cons d pre =>
    obtain ⟨-, hrest⟩ := List.cons_eq_cons.mp hsplit
    obtain ⟨-, hcons⟩ | ⟨pre', -, hnil⟩ := List.cons_eq_append_iff.mp hrest
    · obtain ⟨rfl, -⟩ := List.cons_eq_cons.mp hcons
      have hclass : pathClass creationOfUnknown.resourcePath = .other := by decide
      rw [FurtherRules, hclass]
      trivial
    · simp at hnil

theorem applyValidationRules_independent_example : ∃ (o o' : Outcome) (alone : Change → Outcome),
    applyValidationRules
      { changes := [creationOfUnknown, creationNextToLegacy], relatedResources := legacyWithoutAkaType } = .ok o ∧
    applyValidationRules
      { changes := [creationNextToLegacy, creationOfUnknown], relatedResources := legacyWithoutAkaType } = .ok o' ∧
    (∀ c ∈ [creationOfUnknown, creationNextToLegacy],
      applyValidationRules { changes := [c], relatedResources := legacyWithoutAkaType } = .ok (alone c)) ∧
    (o.response.errors ≠
        [creationOfUnknown, creationNextToLegacy].flatMap (fun c => (alone c).response.errors) ∧
      ¬ NothingHidden legacyWithoutAkaType [creationOfUnknown, creationNextToLegacy]) ∧
    (o'.response.errors =
        [creationNextToLegacy, creationOfUnknown].flatMap (fun c => (alone c).response.errors) ∧
      NothingHidden legacyWithoutAkaType [creationNextToLegacy, creationOfUnknown]) := by
  obtain ⟨o, o', alone, hrun, hrun', halone, ho, hone⟩ := exists_creations
  have hne : o.response.errors ≠
      [creationOfUnknown, creationNextToLegacy].flatMap (fun c => (alone c).response.errors) := by
    intro heq
    have hlength := congrArg List.length heq
    simp [ho, hone] at hlength
  have halone' : ∀ c ∈ [creationNextToLegacy, creationOfUnknown],
      applyValidationRules { changes := [c], relatedResources := legacyWithoutAkaType } = .ok (alone c) := by
    intro c hc
    exact halone c (List.mem_pair.mpr (List.mem_pair.mp hc).symm)
  refine ⟨o, o', alone, hrun, hrun', halone, ⟨hne, fun hnothing => hne ?_⟩, ?_, nothingHidden_creations⟩
  · exact (applyValidationRules_independent _ _ o alone hrun halone).mpr hnothing
  · exact (applyValidationRules_independent _ _ o' alone hrun' halone').mpr nothingHidden_creations

end AuthProvValidator
