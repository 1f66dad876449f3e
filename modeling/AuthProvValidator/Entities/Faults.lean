import AuthProvValidator.Base.Stops
import AuthProvValidator.Entities.Accepted

/-!
# What breaks a run off

* `TypedLookups R c` : the resources that the rules and the mutations look up for `c` have the type they ask for;
* `UpdateWithoutData R c` : an update that reaches the update rules without static data;
* `validateChange_error`, `validateChanges_error` : with typed lookups a run breaks off only at a mask that is too
  short, at a number that cannot be read, or at such an update, where no error has been recorded before.
-/

namespace AuthProvValidator
open Recorder

/-- The resources that are looked up for a change have the type that is asked for. -/
structure TypedLookups (R : RelatedResources) (c : Change) : Prop where
  legacy : ∀ r, R[getLegacyPathFromResourcePath c.resourcePath]? = some r → ∃ l, r = .authSubscriptionLegacy l
  journal : ∀ r, R[buildProvJournalResourcePathFromMscId (getMscId c.resourcePath)]? = some r → ∃ j, r = .provJournal j
  base : pathClass c.resourcePath = .imsi → ∀ r, R[getBasePath c.resourcePath]? = some r →
    ∃ a old, r = .authSubscription a ∧ a.authSubscriptionStaticData = some old
  own : pathClass c.resourcePath = .imsi → checkAuthSubscriptionStaticDataUri c.resourcePath = true →
    ∀ r, R[c.resourcePath]? = some r → ∃ a, r = .authSubscription a

/-- An update of a stored subscription that has no data at all. -/
structure UpdateWithoutData (R : RelatedResources) (c : Change) : Prop where
  imsi : pathClass c.resourcePath = .imsi
  operation : c.operation = JSON_OPERATION_UPDATE
  stored : R.contains (getBasePath c.resourcePath) = true
  static : c.authSubscription.authSubscriptionStaticData = none
  dynamic : c.authSubscription.authSubscriptionDynamicData = none

/-- How a run over typed resources breaks off. -/
inductive BreaksOff (R : RelatedResources) (c : Change) (E : List Error) : Fault → Prop where
  | outOfRange : BreaksOff R c E .outOfRange
  | uninitialized : BreaksOff R c E .uninitialized
  | changeStaticData (hE : E = []) (hc : UpdateWithoutData R c) : BreaksOff R c E (.badOptionalAccess .changeStaticData)

section Checks
variable {R : RelatedResources} {p : Str} {c : Change} {E : List Error} {f : Fault}

theorem TypedLookups.mutations (h : TypedLookups R c) (hclass : pathClass c.resourcePath = .imsi) :
    MutationsTyped R c :=
  ⟨fun _ _ => h.legacy, fun _ hs => h.own hclass hs⟩

theorem fails_isDefinedInAuC {j : ProvJournal} (h : isDefinedInAuC j = .error f) : f = .outOfRange := by
  unfold isDefinedInAuC checkBitIsSet at h
  split at h
  · cases h
  · split at h
    · cases h
    · exact (Except.error.inj h).symm

theorem checkBitIsSet_ok_iff {mask : Str} {n : Nat} : (∃ b, checkBitIsSet mask n = .ok b) ↔ n < mask.length := by
  rw [checkBitIsSet, ← List.length_reverse]
  cases hbit : mask.reverse[n]? with
  | none =>
    rw [List.getElem?_eq_none_iff] at hbit
    exact iff_of_false nofun (by omega)
  | some it => exact iff_of_true ⟨_, rfl⟩ (List.getElem?_eq_some_iff.mp hbit).1

/-- The mask of a journal is read to the end exactly when it is empty or not cut short. -/
theorem isDefinedInAuC_ok_iff {j : ProvJournal} :
    (∃ b, isDefinedInAuC j = .ok b) ↔ j.imsiMask = [] ∨ 4 < j.imsiMask.length := by
  rw [isDefinedInAuC]
  cases hmask : j.imsiMask with
  | nil => exact iff_of_true ⟨false, rfl⟩ (Or.inl rfl)
  | cons c cs =>
    rw [List.isEmpty_cons, if_neg (by decide), checkBitIsSet_ok_iff, or_iff_right (by simp)]
    exact Iff.rfl

theorem returns_checkDefinedInAuC_iff {j : ProvJournal}
    (hj : R[buildProvJournalResourcePathFromMscId (getMscId p)]? = some (.provJournal j)) :
    Returns (checkDefinedInAuC R p) ↔ j.imsiMask = [] ∨ 4 < j.imsiMask.length := by
  have hrest : ∀ definedInAuC, Oblivious (checkJournal p definedInAuC >>= fun _ => (pure HTTP_CONFLICT : Rules Nat)) :=
    fun _ => oblivious_checkJournal.bind fun _ => oblivious_pure _
  have hreturns : ∀ definedInAuC,
      Returns (checkJournal p definedInAuC >>= fun _ => (pure HTTP_CONFLICT : Rules Nat)) ↔ True := by
    intro definedInAuC
    have hjournal : Returns (checkJournal p definedInAuC) :=
      Returns.ite (fun _ => returns_record _) fun _ => returns_pure ()
    exact iff_of_true (hjournal.bind fun _ => returns_pure _) trivial
  simp only [checkDefinedInAuC, hj]
  rw [← isDefinedInAuC_ok_iff]
  exact (returns_seq hrest hreturns).trans ((and_iff_left trivial).trans returns_lift)

theorem fails_checkDefinedInAuC
    (hj : ∀ r, R[buildProvJournalResourcePathFromMscId (getMscId p)]? = some r → ∃ j, r = .provJournal j) :
    Fails (· = Fault.outOfRange) (checkDefinedInAuC R p) := by
  cases hr : R[buildProvJournalResourcePathFromMscId (getMscId p)]? with
  | none =>
    simp only [checkDefinedInAuC, hr]
    exact (fails_record _).bind fun _ => fails_pure _
  | some r =>
    obtain ⟨j, rfl⟩ := hj r hr
    simp only [checkDefinedInAuC, hr]
    refine fails_ok_bind ((fails_lift fun f hf => fails_isDefinedInAuC hf).bind fun b => Fails.bind ?_
      fun _ => fails_pure _)
    exact (fails_record _).ite (fails_pure ())

theorem fails_checkAttribute {P : Fault → Prop} (attrName : Str) (pattern : Regex.Expr) (further : Str → Bool)
    (furtherText : String) (required : Bool) (attr : Option Str) :
    Fails P (checkAttribute attrName pattern further furtherText p required attr) := by
  cases attr with
  | some value => exact (fails_record _).ite ((fails_record _).ite (fails_pure ()))
  | none => exact (fails_record _).ite (fails_pure ())

theorem fails_checkOptionalPattern {P : Fault → Prop} (attrName : Str) (pattern : Regex.Expr) (attr : Option Str) :
    Fails P (checkOptionalPattern attrName pattern p attr) := by
  cases attr with
  | some value => exact (fails_record _).ite (fails_pure ())
  | none => exact fails_pure ()

theorem fails_checkEncOpcKey {P : Fault → Prop} (algorithmId attr : Option Str) :
    Fails P (checkEncOpcKey p algorithmId attr) := by
  cases attr with
  | none => exact fails_pure ()
  | some value =>
    refine (fails_record _).ite ?_
    cases algorithmId with
    | none => exact fails_record _
    | some algorithm => exact ((fails_record _).ite (fails_pure ())).ite (fails_pure ())

theorem fails_attributeChecks {P : Fault → Prop} {d : AuthSubscriptionStaticData} :
    ∀ x ∈ attributeChecks R p d, Fails P x := by
  simp only [attributeChecks, List.forall_mem_cons, List.not_mem_nil, false_implies, implies_true, and_true]
  exact ⟨(fails_record _).ite (fails_pure ()), fails_checkAttribute _ _ _ _ _ _, fails_checkAttribute _ _ _ _ _ _,
    fails_checkAttribute _ _ _ _ _ _, fails_checkAttribute _ _ _ _ _ _, fails_checkAttribute _ _ _ _ _ _,
    fails_checkEncOpcKey _ _, fails_checkOptionalPattern _ _ _⟩

theorem fails_checkForCommonRules {P : Fault → Prop} (h : Fails P (checkDefinedInAuC R c.resourcePath)) :
    Fails P (checkForCommonRules R c) := by
  refine Fails.bind ?_ fun _ => Fails.bind ((fails_record _).ite (fails_pure ())) fun _ => fails_pure _
  cases c.authSubscription.authSubscriptionStaticData with
  | none => exact fails_pure _
  | some d =>
    refine (fails_each fails_attributeChecks).bind fun _ => ?_
    cases d.akaAlgorithmInd with
    | none => exact fails_pure _
    | some value => exact (fails_checkOptionalPattern _ _ _).bind fun _ => h

theorem fails_checkOptionalAttributeWithLegacy {P : Fault → Prop} {attr attrLegacy : Option Str}
    {name legacyName : Str} :
    Fails P (checkOptionalAttributeWithLegacy attr attrLegacy p name legacyName) := by
  unfold checkOptionalAttributeWithLegacy
  split
  · exact ((fails_record _).bind fun _ => fails_pure _).ite (fails_pure _)
  · exact fails_pure _

theorem fails_checkAuthenticationManagementFieldWithLegacy {attr : Option Str} {attrLegacy : Option Int} :
    Fails (· = Fault.uninitialized) (checkAuthenticationManagementFieldWithLegacy attr attrLegacy p) := by
  cases attr with
  | none => exact fails_pure _
  | some text =>
    refine (fails_lift fun f hf => ?_).bind fun value => ?_
    · unfold fromHexStringToUnsignedInt at hf
      split at hf
      · cases hf
      · exact (Except.error.inj hf).symm
    · cases attrLegacy with
      | none => exact fails_pure _
      | some l => exact ((fails_record _).bind fun _ => fails_pure _).ite (fails_pure _)

theorem fails_legacyChecks {d : AuthSubscriptionStaticData} {l : AuthSubscriptionLegacy} :
    ∀ x ∈ legacyChecks p d l, Fails (· = Fault.uninitialized) x := by
  simp only [legacyChecks, checkOptionalAttributeWithLegacyInt, List.forall_mem_cons, List.not_mem_nil, false_implies,
    implies_true, and_true]
  exact ⟨fails_checkOptionalAttributeWithLegacy, fails_checkOptionalAttributeWithLegacy,
    fails_checkOptionalAttributeWithLegacy, fails_checkOptionalAttributeWithLegacy,
    fails_checkAuthenticationManagementFieldWithLegacy, fails_checkOptionalAttributeWithLegacy,
    fails_checkOptionalAttributeWithLegacy⟩

theorem fails_checkForLegacyAuthSubscriptionRules (h : TypedLookups R c) :
    Fails (· = Fault.uninitialized) (checkForLegacyAuthSubscriptionRules R c) := by
  unfold checkForLegacyAuthSubscriptionRules
  cases hr : R[getLegacyPathFromResourcePath c.resourcePath]? with
  | none => exact fails_pure _
  | some r =>
    obtain ⟨l, rfl⟩ := h.legacy r hr
    refine fails_ok_bind (fails_all (List.forall_mem_cons.mpr ⟨?_, ?_⟩))
    · cases l.akaType with
      | none => exact (fails_record _).bind fun _ => fails_pure _
      | some value => exact ((fails_record _).bind fun _ => fails_pure _).ite (fails_pure _)
    · split
      · exact fails_legacyChecks
      · exact nofun

theorem fails_optionalAttributeHasChanged {P : Fault → Prop} {new old : Option Str} {name : Str} :
    Fails P (optionalAttributeHasChanged new old p name) := by
  unfold optionalAttributeHasChanged
  have hmodified : Fails P (reject p (inStaticData name "cannot be modified")) :=
    (fails_record _).bind fun _ => fails_pure _
  refine hmodified.ite ?_
  split
  · exact hmodified.ite (fails_pure _)
  · exact fails_pure _

theorem fails_unmodifiedChecks {P : Fault → Prop} {new old : AuthSubscriptionStaticData} :
    ∀ x ∈ unmodifiedChecks p new old, Fails P x := by
  simp only [unmodifiedChecks, List.forall_mem_cons, List.not_mem_nil, false_implies, implies_true, and_true,
    fails_optionalAttributeHasChanged]

theorem fails_checkForUpdateAuthSubscriptionRules (h : TypedLookups R c) (hclass : pathClass c.resourcePath = .imsi) :
    Fails (fun f => f = .badOptionalAccess .changeStaticData ∧ c.authSubscription.authSubscriptionStaticData = none)
      (checkForUpdateAuthSubscriptionRules R c) := by
  unfold checkForUpdateAuthSubscriptionRules
  cases c.authSubscription.authSubscriptionStaticData with
  | none =>
    intro log f hf
    exact ⟨(Except.error.inj hf).symm, rfl⟩
  | some new =>
    apply fails_ok_bind
    cases hr : R[getBasePath c.resourcePath]? with
    | none => exact fails_pure _
    | some r =>
      obtain ⟨a, old, rfl, ha⟩ := h.base hclass r hr
      apply fails_ok_bind
      rw [ha]
      exact fails_ok_bind (fails_all fails_unmodifiedChecks)

/-- The common rules and further ones break off where the common rules do, or where the further ones do after rules that
have left no error. -/
theorem checkForCommonRulesThen_error {further : Rules Bool}
    (h : (checkForCommonRulesThen R c further).run E = .error f) :
    (checkForCommonRules R c).run E = .error f ∨ E = [] ∧ CommonRules R c ∧ further.run [] = .error f := by
  cases hrules : (checkForCommonRules R c).run E with
  | error g =>
    rw [checkForCommonRulesThen_run_of_error hrules] at h
    exact Or.inl (congrArg Except.error (Except.error.inj h))
  | ok r =>
    obtain ⟨code, log⟩ := r
    obtain ⟨es, hes, rfl⟩ := oblivious_checkForCommonRules.run_ok.mp hrules
    by_cases hE : E ++ es = []
    · rw [hE] at hrules
      rw [checkForCommonRulesThen_run_of_nil hrules] at h
      obtain ⟨rfl, rfl⟩ := List.append_eq_nil_iff.mp hE
      refine Or.inr ⟨rfl, (silent_checkForCommonRules.mp hes).2, ?_⟩
      cases hfurther : further.run [] with
      | error g =>
        rw [hfurther] at h
        exact congrArg Except.error (Except.error.inj h)
      | ok q =>
        rw [hfurther] at h
        cases h
    · rw [checkForCommonRulesThen_run_of_ne_nil hrules hE] at h
      cases h

theorem checkForOperation_error (ht : TypedLookups R c) (hclass : pathClass c.resourcePath = .imsi)
    (h : (checkForOperation R c).run E = .error f) : BreaksOff R c E f := by
  unfold checkForOperation at h
  split at h
  · rcases checkForCommonRulesThen_error h with hcommon | ⟨-, -, hfurther⟩
    · obtain rfl := fails_checkForCommonRules (fails_checkDefinedInAuC ht.journal) E f hcommon
      exact .outOfRange
    · obtain rfl := fails_checkForLegacyAuthSubscriptionRules ht [] f hfurther
      exact .uninitialized
  · split at h
    · rename_i hop
      unfold checkForUpdateAuthSubscription at h
      by_cases hbase : R.contains (getBasePath c.resourcePath) = true
      · rw [if_neg (by simp [hasRelatedResource, hbase])] at h
        rcases checkForCommonRulesThen_error h with hcommon | ⟨hE, hrules, hfurther⟩
        · obtain rfl := fails_checkForCommonRules (fails_checkDefinedInAuC ht.journal) E f hcommon
          exact .outOfRange
        · obtain ⟨rfl, hstatic⟩ := fails_checkForUpdateAuthSubscriptionRules ht hclass [] f hfurther
          exact .changeStaticData hE ⟨hclass, hop, hbase, hstatic, hrules.dynamic⟩
      · rw [if_pos (by simp [hasRelatedResource, hbase])] at h
        cases h
    · cases h

end Checks

section Runs
variable {R : RelatedResources} {c : Change} {cs : List Change} {run : Run} {E : List Error} {f : Fault}

/-- **How one turn of the loop breaks off.** -/
theorem validateChange_error (ht : TypedLookups R c) (h : (validateChange R run c).run E = .error f) :
    BreaksOff R c E f := by
  cases hclass : pathClass c.resourcePath with
  | authSubscription =>
    rw [validateChange_authSubscription hclass] at h
    split at h <;> cases h
  | imsi =>
    rw [validateChange_imsi hclass] at h
    rcases run_bind_error.mp h with hcheck | ⟨resp, E₁, -, hrest⟩
    · exact checkForOperation_error ht hclass hcheck
    · split at hrest
      · rcases run_bind_error.mp hrest with hmut | ⟨c', E₂, -, hpush⟩
        · cases hm : computeMutations R c with
          | ok c' =>
            rw [hm] at hmut
            cases hmut
          | error g =>
            rw [hm] at hmut
            obtain rfl := Except.error.inj hmut
            obtain rfl := computeMutations_error (ht.mutations hclass) hm
            exact .uninitialized
        · cases hpush
      · cases hrest
  | badImsi =>
    rw [validateChange_badImsi hclass] at h
    cases h
  | dynamicData =>
    rw [validateChange_dynamicData hclass] at h
    cases h
  | other =>
    by_cases hop : c.operation = JSON_OPERATION_DELETE
    · rw [validateChange_reset hclass hop] at h
      cases h
    · rw [validateChange_other hclass hop] at h
      cases h

/-- **A run breaks off in one of its turns.** -/
theorem validateChanges_error (ht : ∀ c ∈ cs, TypedLookups R c) (h : (validateChanges R run cs).run E = .error f) :
    ∃ pre c post run₁ E₁, cs = pre ++ c :: post ∧ (validateChanges R run pre).run E = .ok (run₁, E₁) ∧
      BreaksOff R c E₁ f := by
  induction cs generalizing run E with
  | nil => cases h
  | cons c cs ih =>
    rw [List.forall_mem_cons] at ht
    rw [validateChanges, List.foldlM_cons] at h
    rcases run_bind_error.mp h with hc | ⟨run₁, E₁, hc, hcs⟩
    · exact ⟨[], c, cs, run, E, rfl, validateChanges_nil_run.mpr ⟨rfl, rfl⟩, validateChange_error ht.1 hc⟩
    · obtain ⟨pre, d, post, run₂, E₂, rfl, hpre, hd⟩ := ih ht.2 hcs
      exact ⟨c :: pre, d, post, run₂, E₂, rfl, validateChanges_cons_run.mpr ⟨run₁, E₁, hc, hpre⟩, hd⟩

end Runs

end AuthProvValidator
