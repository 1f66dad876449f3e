import AuthProvValidator.Entities.Apply

/-!
# What the rules demand

For each rule the condition under which it passes without an error, in terms of the change, the related resources and
the pure checks.

* `StaticDataRules`, `CommonRules` : the rules every creation and update is measured by;
* `LegacyRules` : agreement with the 4G legacy subscription; `UpdateRules` : an update keeps six attributes;
* `Conforms R c` : `c` passes everything when it is validated alone;
* `silent_*` : the rule functions pass silently exactly under these conditions.
-/

namespace AuthProvValidator
open Regex Recorder

/-- The error is one that makes the request unprocessable. -/
def Error.isUnprocessable (e : Error) : Bool := e.errorMessage == UNPROCESSABLE_ENTITY

def Error.IsConflict (e : Error) : Prop := e.isUnprocessable = false

section Errors
variable {p description : Str}

theorem isConflict_constraintViolation (description : Str) : (constraintViolation p description).IsConflict := by
  simp only [Error.IsConflict, Error.isUnprocessable, constraintViolation, composeError_errorMessage]
  decide

theorem unprocessableEntity_isUnprocessable : (unprocessableEntity p description).isUnprocessable = true := by
  simp [Error.isUnprocessable, unprocessableEntity]

theorem not_silent_reject : ¬ Silent (reject p description) true := by
  simp [reject, addConstraintViolation_eq, Silent]

theorem silent_ite_reject {c : Prop} [Decidable c] :
    Silent (if c then reject p description else pure true) true ↔ ¬ c := by
  split
  · rename_i hc
    exact iff_of_false not_silent_reject (not_not_intro hc)
  · rename_i hc
    simp [hc, silent_pure]

theorem honest_ite_reject {c : Prop} [Decidable c] : Honest (if c then reject p description else pure true) := by
  intro b es h
  split at h
  · simp [reject, addConstraintViolation_eq] at h
    simp [← h.1, ← h.2]
  · simp at h
    simp [← h.1, ← h.2]

end Errors

/-! ## What the rules record -/

structure PlainVerdict (P : Error → Prop) (x : Rules Bool) : Prop extends Plain P x where
  honest : Honest x

section Recorded
variable {R : RelatedResources} {P : Error → Prop} {p : Str}

theorem plainVerdict_pure_true : PlainVerdict P (pure true) := by
  refine ⟨plain_pure true, fun b es h => ?_⟩
  obtain ⟨rfl, rfl⟩ := Prod.mk.inj (Except.ok.inj h)
  exact iff_of_true rfl rfl

theorem plainVerdict_all {xs : List (Rules Bool)} (h : ∀ x ∈ xs, PlainVerdict P x) : PlainVerdict P (all xs) :=
  ⟨plain_all fun x hx => (h x hx).toPlain, honest_all (fun x hx => (h x hx).honest) fun x hx => (h x hx).oblivious⟩

theorem plainVerdict_lift_bind {α : Type} {v : Except Fault α} {f : α → Rules Bool} (hf : ∀ a, PlainVerdict P (f a)) :
    PlainVerdict P (liftM v >>= f) := by
  refine ⟨(plain_lift v).bind fun a => (hf a).toPlain, fun b es h => ?_⟩
  obtain ⟨a, m, hv, hfa⟩ := run_bind_ok.mp h
  cases v with
  | error e => cases hv
  | ok a' =>
    obtain ⟨rfl, rfl⟩ := Prod.mk.inj (Except.ok.inj hv)
    exact (hf a').honest b es hfa

section Violations
variable (hP : ∀ description, P (constraintViolation p description))
include hP

theorem plain_addConstraintViolation {description : Str} :
    Plain P (addConstraintViolation p description : Rules Unit) := plain_record (hP description)

theorem plainVerdict_ite_reject {description : Str} {c : Prop} [Decidable c] :
    PlainVerdict P (if c then reject p description else pure true) :=
  ⟨((plain_addConstraintViolation hP).bind fun _ => plain_pure false).ite (plain_pure true), honest_ite_reject⟩

theorem plainVerdict_reject {description : Str} : PlainVerdict P (reject p description) :=
  plainVerdict_ite_reject (c := True) hP

theorem plain_checkAttribute (attrName : Str) (pattern : Expr) (further : Str → Bool) (furtherText : String)
    (required : Bool) (attr : Option Str) :
    Plain P (checkAttribute attrName pattern further furtherText p required attr) := by
  have hviolation : ∀ description, Plain P (addConstraintViolation p description : Rules Unit) := fun _ =>
    plain_addConstraintViolation hP
  cases attr with
  | some value => exact (hviolation _).ite ((hviolation _).ite (plain_pure ()))
  | none => exact (hviolation _).ite (plain_pure ())

theorem plain_checkEncOpcKey (algorithmId attr : Option Str) : Plain P (checkEncOpcKey p algorithmId attr) := by
  have hviolation : ∀ description, Plain P (addConstraintViolation p description : Rules Unit) := fun _ =>
    plain_addConstraintViolation hP
  cases attr with
  | none => exact plain_pure ()
  | some value =>
    apply (hviolation _).ite
    cases algorithmId with
    | none => exact hviolation _
    | some algorithm => exact ((hviolation _).ite (plain_pure ())).ite (plain_pure ())

theorem plain_checkOptionalPattern (attrName : Str) (pattern : Expr) (attr : Option Str) :
    Plain P (checkOptionalPattern attrName pattern p attr) := by
  cases attr with
  | none => exact plain_pure ()
  | some value => exact (plain_addConstraintViolation hP).ite (plain_pure ())

theorem plain_checkJournal {definedInAuC : Bool} : Plain P (checkJournal p definedInAuC) :=
  (plain_addConstraintViolation hP).ite (plain_pure ())

theorem plain_attributeChecks {d : AuthSubscriptionStaticData} : ∀ x ∈ attributeChecks R p d, Plain P x := by
  simp only [attributeChecks, List.forall_mem_cons, List.not_mem_nil, false_implies, implies_true, and_true]
  exact ⟨(plain_addConstraintViolation hP).ite (plain_pure ()), plain_checkAttribute hP _ _ _ _ _ _,
    plain_checkAttribute hP _ _ _ _ _ _, plain_checkAttribute hP _ _ _ _ _ _, plain_checkAttribute hP _ _ _ _ _ _,
    plain_checkAttribute hP _ _ _ _ _ _, plain_checkEncOpcKey hP _ _, plain_checkOptionalPattern hP _ _ _⟩

/-- Only a missing journal is another kind of error. -/
theorem plain_checkDefinedInAuC
    (hmissing : R[buildProvJournalResourcePathFromMscId (getMscId p)]? = none →
      ∀ description, P (unprocessableEntity p description)) : Plain P (checkDefinedInAuC R p) := by
  cases h : R[buildProvJournalResourcePathFromMscId (getMscId p)]? with
  | some r =>
    simp only [checkDefinedInAuC, h]
    exact (plain_lift _).bind fun _ => (plain_lift _).bind fun _ => (plain_checkJournal hP).bind fun _ => plain_pure _
  | none =>
    simp only [checkDefinedInAuC, h]
    exact Plain.bind (plain_record (hmissing h _)) fun _ => plain_pure _

theorem plain_checkAkaAlgorithmInd {attr : Option Str}
    (hmissing : R[buildProvJournalResourcePathFromMscId (getMscId p)]? = none →
      ∀ description, P (unprocessableEntity p description)) : Plain P (checkAkaAlgorithmInd R p attr) := by
  cases attr with
  | none => exact plain_pure _
  | some value => exact (plain_checkOptionalPattern hP _ _ _).bind fun _ => plain_checkDefinedInAuC hP hmissing

theorem plain_checkForCommonStaticDataRules {staticData : Option AuthSubscriptionStaticData}
    (hmissing : R[buildProvJournalResourcePathFromMscId (getMscId p)]? = none →
      ∀ description, P (unprocessableEntity p description)) :
    Plain P (checkForCommonStaticDataRules R p staticData) := by
  cases staticData with
  | none => exact plain_pure _
  | some d => exact (plain_each (plain_attributeChecks hP)).bind fun _ => plain_checkAkaAlgorithmInd hP hmissing

theorem plain_checkNoDynamicData {dynamicData : Option AuthSubscriptionDynamicData} :
    Plain P (checkNoDynamicData p dynamicData) := (plain_addConstraintViolation hP).ite (plain_pure ())

theorem plainVerdict_checkOptionalAttributeWithLegacy {attr attrLegacy : Option Str} {name legacyName : Str} :
    PlainVerdict P (checkOptionalAttributeWithLegacy attr attrLegacy p name legacyName) := by
  unfold checkOptionalAttributeWithLegacy
  split
  · exact plainVerdict_ite_reject hP
  · exact plainVerdict_pure_true

theorem plainVerdict_checkAuthenticationManagementFieldWithLegacy {attr : Option Str} {attrLegacy : Option Int} :
    PlainVerdict P (checkAuthenticationManagementFieldWithLegacy attr attrLegacy p) := by
  cases attr with
  | none => exact plainVerdict_pure_true
  | some text =>
    refine plainVerdict_lift_bind fun value => ?_
    cases attrLegacy with
    | none => exact plainVerdict_pure_true
    | some l => exact plainVerdict_ite_reject hP

theorem plainVerdict_checkAkaType {akaType : Option Int} : PlainVerdict P (checkAkaType p akaType) := by
  cases akaType with
  | none => exact plainVerdict_reject hP
  | some value => exact plainVerdict_ite_reject hP

theorem plainVerdict_legacyChecks {d : AuthSubscriptionStaticData} {l : AuthSubscriptionLegacy} :
    ∀ x ∈ legacyChecks p d l, PlainVerdict P x := by
  simp only [legacyChecks, checkOptionalAttributeWithLegacyInt, List.forall_mem_cons, List.not_mem_nil, false_implies,
    implies_true, and_true, plainVerdict_checkOptionalAttributeWithLegacy hP,
    plainVerdict_checkAuthenticationManagementFieldWithLegacy hP]

theorem plainVerdict_optionalAttributeHasChanged {new old : Option Str} {name : Str} :
    PlainVerdict P (optionalAttributeHasChanged new old p name) := by
  cases new <;> cases old
  · exact plainVerdict_pure_true
  · exact plainVerdict_reject hP
  · exact plainVerdict_reject hP
  · exact plainVerdict_ite_reject hP

theorem plainVerdict_unmodifiedChecks {new old : AuthSubscriptionStaticData} :
    ∀ x ∈ unmodifiedChecks p new old, PlainVerdict P x := by
  simp only [unmodifiedChecks, List.forall_mem_cons, List.not_mem_nil, false_implies, implies_true, and_true,
    plainVerdict_optionalAttributeHasChanged hP]

end Violations

section Rules
variable {c : Change} (hP : ∀ description, P (constraintViolation c.resourcePath description))
include hP

theorem plain_checkForCommonRules
    (hmissing : R[buildProvJournalResourcePathFromMscId (getMscId c.resourcePath)]? = none →
      ∀ description, P (unprocessableEntity c.resourcePath description)) : Plain P (checkForCommonRules R c) :=
  (plain_checkForCommonStaticDataRules hP hmissing).bind fun _ =>
    (plain_checkNoDynamicData hP).bind fun _ => plain_pure _

theorem plainVerdict_checkForLegacyAuthSubscriptionRules :
    PlainVerdict P (checkForLegacyAuthSubscriptionRules R c) := by
  unfold checkForLegacyAuthSubscriptionRules
  split
  · refine plainVerdict_lift_bind fun l => plainVerdict_all ?_
    rw [List.forall_mem_cons]
    refine ⟨plainVerdict_checkAkaType hP, ?_⟩
    split
    · exact plainVerdict_legacyChecks hP
    · exact nofun
  · exact plainVerdict_pure_true

theorem plainVerdict_checkForUpdateAuthSubscriptionRules :
    PlainVerdict P (checkForUpdateAuthSubscriptionRules R c) := by
  refine plainVerdict_lift_bind fun new => ?_
  split
  · exact plainVerdict_lift_bind fun related => plainVerdict_lift_bind fun old =>
      plainVerdict_all (plainVerdict_unmodifiedChecks hP)
  · exact plainVerdict_pure_true

end Rules

/-! ### The log is never looked at -/

theorem oblivious_attributeChecks {d : AuthSubscriptionStaticData} : ∀ x ∈ attributeChecks R p d, Oblivious x :=
  fun x hx => (plain_attributeChecks (P := fun _ => True) (fun _ => trivial) x hx).oblivious

theorem oblivious_checkJournal {definedInAuC : Bool} : Oblivious (checkJournal p definedInAuC) :=
  (plain_checkJournal (P := fun _ => True) fun _ => trivial).oblivious

theorem oblivious_checkDefinedInAuC : Oblivious (checkDefinedInAuC R p) :=
  (plain_checkDefinedInAuC (P := fun _ => True) (fun _ => trivial) fun _ _ => trivial).oblivious

theorem oblivious_checkAkaAlgorithmInd {attr : Option Str} : Oblivious (checkAkaAlgorithmInd R p attr) :=
  (plain_checkAkaAlgorithmInd (P := fun _ => True) (fun _ => trivial) fun _ _ => trivial).oblivious

theorem oblivious_checkNoDynamicData {dynamicData : Option AuthSubscriptionDynamicData} :
    Oblivious (checkNoDynamicData p dynamicData) :=
  (plain_checkNoDynamicData (P := fun _ => True) fun _ => trivial).oblivious

theorem oblivious_checkForCommonRules {c : Change} : Oblivious (checkForCommonRules R c) :=
  (plain_checkForCommonRules (P := fun _ => True) (fun _ => trivial) fun _ _ => trivial).oblivious

end Recorded

/-! ## The common rules -/

def AttributeRule (pattern : Expr) (further : Str → Bool) (required : Bool) : Option Str → Prop
  | some value => checkPatternOnData pattern value = true ∧ further value = true
  | none => required = false

def EncOpcKeyRule (algorithmId : Option Str) : Option Str → Prop
  | some value => checkPatternOnData encOpcKeyRegex value = true ∧ ∃ algorithm, algorithmId = some algorithm ∧
      (checkPatternOnData algorithmIdRegex algorithm = true → checkAlgorithmIdIsMillenage algorithm = true)
  | none => True

/-- There is a journal for the subscriber, and it says that the subscriber is defined in the AuC. -/
def DefinedInAuC (R : RelatedResources) (resourcePath : Str) : Prop :=
  ∃ journal, R[buildProvJournalResourcePathFromMscId (getMscId resourcePath)]? = some (.provJournal journal) ∧
    isDefinedInAuC journal = .ok true

structure StaticDataRules (R : RelatedResources) (resourcePath : Str) (d : AuthSubscriptionStaticData) : Prop where
  authenticationMethod : isAuthenticationMethodAKA d = true
  encPermanentKey : AttributeRule encPermanentKeyRegex (fun value => value.length == LENGTH_ENC_PERMANENT_KEY)
    (isRequired R resourcePath d) d.encPermanentKey
  authenticationManagementField : AttributeRule authenticationManagementFieldRegex (fun _ => true)
    (isRequired R resourcePath d) d.authenticationManagementField
  algorithmId : AttributeRule algorithmIdRegex checkAlgorithmIdInRange (isRequired R resourcePath d) d.algorithmId
  a4KeyInd : AttributeRule a4KeyIndRegex checkA4KeyIndInRange (isRequired R resourcePath d) d.a4KeyInd
  a4Ind : AttributeRule a4IndRegex checkA4IndInRange (isRequired R resourcePath d) d.a4Ind
  encOpcKey : EncOpcKeyRule d.algorithmId d.encOpcKey
  a4KeyV : ∀ value, d.a4KeyV = some value → checkPatternOnData a4KeyVRegex value = true
  akaAlgorithmInd : ∀ value, d.akaAlgorithmInd = some value →
    checkPatternOnData akaAlgorithmIndRegex value = true ∧ DefinedInAuC R resourcePath

structure CommonRules (R : RelatedResources) (c : Change) : Prop where
  static : ∀ d, c.authSubscription.authSubscriptionStaticData = some d → StaticDataRules R c.resourcePath d
  dynamic : c.authSubscription.authSubscriptionDynamicData = none

section Common
variable {R : RelatedResources} {p : Str} {c : Change}

theorem silent_checkAttribute (attrName : Str) (pattern : Expr) (further : Str → Bool) (furtherText : String)
    (required : Bool) (attr : Option Str) :
    Silent (checkAttribute attrName pattern further furtherText p required attr) () ↔
      AttributeRule pattern further required attr := by
  cases attr with
  | some value =>
    simp only [checkAttribute, AttributeRule, addConstraintViolation_eq, silent_ite_record, silent_pure]
    simp
  | none =>
    simp only [checkAttribute, AttributeRule, addConstraintViolation_eq, silent_ite_record, silent_pure]
    simp

theorem silent_checkEncOpcKey (algorithmId attr : Option Str) :
    Silent (checkEncOpcKey p algorithmId attr) () ↔ EncOpcKeyRule algorithmId attr := by
  cases attr with
  | none => simp [checkEncOpcKey, EncOpcKeyRule, silent_pure]
  | some value =>
    cases algorithmId with
    | none =>
      simp only [checkEncOpcKey, EncOpcKeyRule, addConstraintViolation_eq, silent_ite_record]
      simp [not_silent_record]
    | some algorithm =>
      simp only [checkEncOpcKey, EncOpcKeyRule, addConstraintViolation_eq, silent_ite_record]
      by_cases ha : checkPatternOnData algorithmIdRegex algorithm = true
      · rw [if_pos ha]
        simp [silent_ite_record, silent_pure, ha]
      · rw [if_neg ha]
        simp [silent_pure, ha]

theorem silent_checkOptionalPattern (attrName : Str) (pattern : Expr) (attr : Option Str) :
    Silent (checkOptionalPattern attrName pattern p attr) () ↔
      ∀ value, attr = some value → checkPatternOnData pattern value = true := by
  cases attr with
  | none => simp [checkOptionalPattern, silent_pure]
  | some value =>
    simp only [checkOptionalPattern, addConstraintViolation_eq, silent_ite_record, silent_pure]
    simp

theorem silent_checkJournal {definedInAuC : Bool} : Silent (checkJournal p definedInAuC) () ↔ definedInAuC = true := by
  simp only [checkJournal, addConstraintViolation_eq, silent_ite_record, silent_pure]
  simp

theorem silent_checkDefinedInAuC {code : Nat} :
    Silent (checkDefinedInAuC R p) code ↔ code = HTTP_CONFLICT ∧ DefinedInAuC R p := by
  unfold DefinedInAuC
  cases h : R[buildProvJournalResourcePathFromMscId (getMscId p)]? with
  | none => simp [checkDefinedInAuC, h, Silent, addUnprocessableEntity_eq]
  | some r =>
    cases r with
    | authSubscription a => simp [checkDefinedInAuC, h, Silent, getProvJournalResource]
    | authSubscriptionLegacy l => simp [checkDefinedInAuC, h, Silent, getProvJournalResource]
    | provJournal journal =>
      cases hb : isDefinedInAuC journal with
      | error e => simp [checkDefinedInAuC, h, Silent, getProvJournalResource, hb]
      | ok b =>
        have hrest : Oblivious (pure HTTP_CONFLICT : Rules Nat) := oblivious_pure _
        have : Silent (checkDefinedInAuC R p) code ↔
            Silent (checkJournal p b >>= fun _ => (pure HTTP_CONFLICT : Rules Nat)) code := by
          simp [checkDefinedInAuC, h, Silent, getProvJournalResource, hb]
        rw [this, silent_seq hrest, silent_checkJournal, silent_pure]
        simp [hb, and_comm, eq_comm]

theorem silent_checkAkaAlgorithmInd {attr : Option Str} {code : Nat} :
    Silent (checkAkaAlgorithmInd R p attr) code ↔ code = HTTP_CONFLICT ∧
      ∀ value, attr = some value → checkPatternOnData akaAlgorithmIndRegex value = true ∧ DefinedInAuC R p := by
  cases attr with
  | none =>
    rw [checkAkaAlgorithmInd, silent_pure]
    exact ⟨fun h => ⟨h.symm, nofun⟩, fun h => h.1.symm⟩
  | some value =>
    rw [checkAkaAlgorithmInd, silent_seq oblivious_checkDefinedInAuC, checkAkaAlgorithmIndPattern,
      silent_checkOptionalPattern, silent_checkDefinedInAuC]
    simp only [Option.some.injEq, forall_eq']
    exact and_left_comm

theorem silent_checkForCommonStaticDataRules {staticData : Option AuthSubscriptionStaticData} {code : Nat} :
    Silent (checkForCommonStaticDataRules R p staticData) code ↔
      code = HTTP_CONFLICT ∧ ∀ d, staticData = some d → StaticDataRules R p d := by
  cases staticData with
  | none =>
    rw [checkForCommonStaticDataRules, silent_pure]
    exact ⟨fun h => ⟨h.symm, nofun⟩, fun h => h.1.symm⟩
  | some d =>
    rw [checkForCommonStaticDataRules, silent_seq oblivious_checkAkaAlgorithmInd, silent_checkAkaAlgorithmInd,
      silent_each oblivious_attributeChecks]
    simp only [attributeChecks, List.forall_mem_cons, List.not_mem_nil, false_implies, implies_true, and_true,
      checkAuthenticationMethod, addConstraintViolation_eq, silent_ite_record, silent_pure, checkEncPermanentKey,
      checkAuthenticationManagementField, checkAlgorithmId, checkA4KeyInd, checkA4Ind, checkA4KeyV,
      silent_checkAttribute, silent_checkEncOpcKey, silent_checkOptionalPattern, Bool.not_eq_true', Bool.not_eq_false,
      Option.some.injEq, forall_eq']
    constructor
    · rintro ⟨⟨h1, h2, h3, h4, h5, h6, h7, h8⟩, hcode, h9⟩
      exact ⟨hcode, h1, h2, h3, h4, h5, h6, h7, h8, h9⟩
    · rintro ⟨hcode, h1, h2, h3, h4, h5, h6, h7, h8, h9⟩
      exact ⟨⟨h1, h2, h3, h4, h5, h6, h7, h8⟩, hcode, h9⟩

theorem silent_checkNoDynamicData {dynamicData : Option AuthSubscriptionDynamicData} :
    Silent (checkNoDynamicData p dynamicData) () ↔ dynamicData = none := by
  simp only [checkNoDynamicData, addConstraintViolation_eq, silent_ite_record, silent_pure, and_true,
    Bool.not_eq_true, Option.isSome_eq_false_iff, Option.isNone_iff_eq_none]

/-- **The common rules pass silently exactly under `CommonRules`.** -/
theorem silent_checkForCommonRules {code : Nat} :
    Silent (checkForCommonRules R c) code ↔ code = HTTP_CONFLICT ∧ CommonRules R c := by
  rw [checkForCommonRules, silent_bind fun _ => oblivious_checkNoDynamicData.bind fun _ => oblivious_pure _]
  simp only [silent_seq (oblivious_pure _), silent_checkForCommonStaticDataRules, silent_checkNoDynamicData,
    silent_pure]
  constructor
  · rintro ⟨_, ⟨hcode, hstatic⟩, hdyn, rfl⟩
    exact ⟨hcode, hstatic, hdyn⟩
  · rintro ⟨hcode, hstatic, hdyn⟩
    exact ⟨code, ⟨hcode, hstatic⟩, hdyn, rfl⟩

/-- The journal that `akaAlgorithmInd` needs is not among the related resources. -/
def journalMissing (R : RelatedResources) (c : Change) : Bool :=
  match c.authSubscription.authSubscriptionStaticData with
  | some d => d.akaAlgorithmInd.isSome && !R.contains (buildProvJournalResourcePathFromMscId (getMscId c.resourcePath))
  | none => false

/-- The code of a failed validation: 422 when something needed is missing. -/
def codeOf (missing : Bool) : Nat := if missing then HTTP_UNPROCESSABLE_ENTITY else HTTP_CONFLICT

/-- `x` gives the code 422 and records an unprocessable entity when something is missing, and neither otherwise. -/
def Coded (missing : Bool) (x : Rules Nat) : Prop :=
  ∀ code es, x.run [] = .ok (code, es) → code = codeOf missing ∧ es.any Error.isUnprocessable = missing

theorem any_isUnprocessable_of_plain {α : Type} {x : Rules α} (hx : Plain Error.IsConflict x) {a : α} {es : List Error}
    (h : x.run [] = .ok (a, es)) : es.any Error.isUnprocessable = false := by
  rw [List.any_eq_false]
  exact fun e he => by rw [hx.emits a es h e he]; simp

theorem coded_pure : Coded false (pure HTTP_CONFLICT) := by
  intro code es h
  simp only [StateT.run_pure, pure_eq_ok, Except.ok.injEq, Prod.mk.injEq] at h
  exact ⟨h.1.symm, by rw [← h.2]; rfl⟩

theorem Coded.after {α : Type} {missing : Bool} {x : Rules α} {f : α → Rules Nat} (hx : Plain Error.IsConflict x)
    (hf : ∀ a, Coded missing (f a)) (ho : ∀ a, Oblivious (f a)) : Coded missing (x >>= f) := by
  intro code es h
  obtain ⟨a, m, hxa, hfa⟩ := run_bind_ok.mp h
  obtain ⟨fs, hfs, rfl⟩ := (ho a).run_ok.mp hfa
  obtain ⟨hcode, hany⟩ := hf a code fs hfs
  refine ⟨hcode, ?_⟩
  rw [List.any_append, any_isUnprocessable_of_plain hx hxa, hany, Bool.false_or]

theorem Coded.before {missing : Bool} {x : Rules Nat} {y : Rules Unit} (hx : Coded missing x)
    (hy : Plain Error.IsConflict y) : Coded missing (do let code ← x; y; return code) := by
  intro code es h
  obtain ⟨code', m, hxc, hrest⟩ := run_bind_ok.mp h
  obtain ⟨_, l, hyl, hret⟩ := run_bind_ok.mp hrest
  obtain ⟨fs, hfs, rfl⟩ := hy.oblivious.run_ok.mp hyl
  simp only [StateT.run_pure, pure_eq_ok, Except.ok.injEq, Prod.mk.injEq] at hret
  obtain ⟨rfl, rfl⟩ := hret
  obtain ⟨hcode, hany⟩ := hx code' m hxc
  refine ⟨hcode, ?_⟩
  rw [List.any_append, any_isUnprocessable_of_plain hy hfs, hany, Bool.or_false]

theorem coded_checkDefinedInAuC :
    Coded (!R.contains (buildProvJournalResourcePathFromMscId (getMscId p))) (checkDefinedInAuC R p) := by
  rw [Std.ExtTreeMap.contains_eq_isSome_getElem?]
  cases h : R[buildProvJournalResourcePathFromMscId (getMscId p)]? with
  | some r =>
    simp only [checkDefinedInAuC, h]
    exact Coded.after (plain_lift _)
      (fun _ => Coded.after (plain_lift _)
        (fun _ => Coded.after (plain_checkJournal isConflict_constraintViolation) (fun _ => coded_pure)
          fun _ => oblivious_pure _)
        fun _ => oblivious_checkJournal.bind fun _ => oblivious_pure _)
      fun _ => (oblivious_lift _).bind fun _ => oblivious_checkJournal.bind fun _ => oblivious_pure _
  | none =>
    intro code es hrun
    simp only [checkDefinedInAuC, h, addUnprocessableEntity_eq, StateT.run_bind, run_record, ok_bind,
      StateT.run_pure, pure_eq_ok, Except.ok.injEq, Prod.mk.injEq] at hrun
    obtain ⟨rfl, rfl⟩ := hrun
    exact ⟨rfl, by simp [unprocessableEntity_isUnprocessable]⟩

theorem coded_checkForCommonRules : Coded (journalMissing R c) (checkForCommonRules R c) := by
  refine Coded.before ?_ (plain_checkNoDynamicData isConflict_constraintViolation)
  unfold journalMissing
  cases c.authSubscription.authSubscriptionStaticData with
  | none => exact coded_pure
  | some d =>
    refine Coded.after (plain_each (plain_attributeChecks isConflict_constraintViolation)) (fun _ => ?_)
      fun _ => oblivious_checkAkaAlgorithmInd
    dsimp only
    cases d.akaAlgorithmInd with
    | none => exact coded_pure
    | some value =>
      rw [Option.isSome_some, Bool.true_and]
      exact Coded.after (plain_checkOptionalPattern isConflict_constraintViolation _ _ _)
        (fun _ => coded_checkDefinedInAuC) fun _ => oblivious_checkDefinedInAuC

end Common

/-! ## The rules of a creation -/

/-- Two attributes agree when both are defined. -/
def Agree (attr attrLegacy : Option Str) : Prop := ∀ a l, attr = some a → attrLegacy = some l → a = l

/-- A management field denotes `AMFVALUE` as an unsigned number, when both are defined. -/
def AgreeUnsigned (attr : Option Str) (attrLegacy : Option Int) : Prop :=
  ∀ text, attr = some text → ∃ value, fromHexStringToUnsignedInt text = .ok value ∧
    ∀ l, attrLegacy = some l → value = toUnsigned l

/-- The static data agrees with the legacy subscription. `VNUMBER` is not compared. -/
structure AgreesWithLegacy (d : AuthSubscriptionStaticData) (l : AuthSubscriptionLegacy) : Prop where
  encPermanentKey : Agree d.encPermanentKey l.eki
  a4KeyInd : Agree d.a4KeyInd (l.kind.map Str.to_string)
  a4Ind : Agree d.a4Ind (l.a4Ind.map Str.to_string)
  algorithmId : Agree d.algorithmId (l.fSetInd.map Str.to_string)
  authenticationManagementField : AgreeUnsigned d.authenticationManagementField l.amfValue
  encOpcKey : Agree d.encOpcKey l.eopc
  akaAlgorithmInd : Agree d.akaAlgorithmInd (l.akaAlgInd.map Str.to_string)

/-- What is stored where a creation looks for its legacy subscription is one, with an allowed `AKATYPE`, and the static
data agrees with it. -/
def LegacyRules (R : RelatedResources) (c : Change) : Prop :=
  ∀ r, R[getLegacyPathFromResourcePath c.resourcePath]? = some r → ∃ l, r = .authSubscriptionLegacy l ∧
    l.akaType = some AKATYPE_ALLOWED_VALUE ∧
    ∀ d, c.authSubscription.authSubscriptionStaticData = some d → AgreesWithLegacy d l

section Creation
variable {R : RelatedResources} {P : Error → Prop} {p : Str} {c : Change}

theorem silent_all_iff {xs : List (Rules Bool)} (h : ∀ x ∈ xs, PlainVerdict P x) :
    Silent (all xs) true ↔ ∀ x ∈ xs, Silent x true :=
  silent_all (fun x hx => (h x hx).honest) fun x hx => (h x hx).oblivious

theorem silent_lift_bind {α : Type} {v : Except Fault α} {f : α → Rules Bool} :
    Silent (liftM v >>= f) true ↔ ∃ a, v = .ok a ∧ Silent (f a) true := by
  cases v with
  | error e => simp [Silent]
  | ok a => simp [Silent]

theorem silent_checkOptionalAttributeWithLegacy {attr attrLegacy : Option Str} {name legacyName : Str} :
    Silent (checkOptionalAttributeWithLegacy attr attrLegacy p name legacyName) true ↔ Agree attr attrLegacy := by
  cases attr with
  | none => simp [checkOptionalAttributeWithLegacy, silent_pure, Agree]
  | some a =>
    cases attrLegacy with
    | none => simp [checkOptionalAttributeWithLegacy, silent_pure, Agree]
    | some l =>
      rw [checkOptionalAttributeWithLegacy, legacyMismatch, silent_ite_reject]
      simp [Agree]

theorem silent_checkAuthenticationManagementFieldWithLegacy {attr : Option Str} {attrLegacy : Option Int} :
    Silent (checkAuthenticationManagementFieldWithLegacy attr attrLegacy p) true ↔ AgreeUnsigned attr attrLegacy := by
  unfold AgreeUnsigned
  cases attr with
  | none => simp [checkAuthenticationManagementFieldWithLegacy, silent_pure]
  | some text =>
    simp only [checkAuthenticationManagementFieldWithLegacy, silent_lift_bind]
    cases attrLegacy with
    | none => simp [checkOptionalAttributeWithLegacyUnsigned, silent_pure]
    | some l =>
      simp only [checkOptionalAttributeWithLegacyUnsigned, legacyMismatch, silent_ite_reject]
      simp

theorem silent_checkAkaType {akaType : Option Int} :
    Silent (checkAkaType p akaType) true ↔ akaType = some AKATYPE_ALLOWED_VALUE := by
  cases akaType with
  | none => simp only [checkAkaType, not_silent_reject, reduceCtorEq]
  | some value =>
    rw [checkAkaType, silent_ite_reject]
    simp

theorem silent_legacyChecks {d : AuthSubscriptionStaticData} {l : AuthSubscriptionLegacy} :
    (∀ x ∈ legacyChecks p d l, Silent x true) ↔ AgreesWithLegacy d l := by
  simp only [legacyChecks, checkOptionalAttributeWithLegacyInt, List.forall_mem_cons, List.not_mem_nil, false_implies,
    implies_true, and_true, silent_checkOptionalAttributeWithLegacy,
    silent_checkAuthenticationManagementFieldWithLegacy]
  constructor
  · rintro ⟨h1, h2, h3, h4, h5, h6, h7⟩
    exact ⟨h1, h2, h3, h4, h5, h6, h7⟩
  · rintro ⟨h1, h2, h3, h4, h5, h6, h7⟩
    exact ⟨h1, h2, h3, h4, h5, h6, h7⟩

/-- **The legacy rules pass silently exactly under `LegacyRules`.** -/
theorem silent_checkForLegacyAuthSubscriptionRules :
    Silent (checkForLegacyAuthSubscriptionRules R c) true ↔ LegacyRules R c := by
  unfold checkForLegacyAuthSubscriptionRules LegacyRules
  cases R[getLegacyPathFromResourcePath c.resourcePath]? with
  | none => simp [silent_pure]
  | some r =>
    cases r with
    | authSubscription a => simp [getAuthSubscriptionLegacyResource, silent_lift_bind]
    | provJournal j => simp [getAuthSubscriptionLegacyResource, silent_lift_bind]
    | authSubscriptionLegacy l =>
      simp only [getAuthSubscriptionLegacyResource, silent_lift_bind, Except.ok.injEq, exists_eq_left',
        Option.some.injEq, forall_eq', Resource.authSubscriptionLegacy.injEq]
      cases c.authSubscription.authSubscriptionStaticData with
      | none =>
        rw [silent_all_iff (by simpa using plainVerdict_checkAkaType isConflict_constraintViolation),
          List.forall_mem_cons, silent_checkAkaType]
        simp
      | some d =>
        rw [silent_all_iff (List.forall_mem_cons.mpr ⟨plainVerdict_checkAkaType isConflict_constraintViolation,
          plainVerdict_legacyChecks isConflict_constraintViolation⟩),
          List.forall_mem_cons, silent_checkAkaType, silent_legacyChecks]
        simp

end Creation

/-! ## The rules of an update -/

structure Unmodified (new old : AuthSubscriptionStaticData) : Prop where
  encPermanentKey : new.encPermanentKey = old.encPermanentKey
  algorithmId : new.algorithmId = old.algorithmId
  a4KeyInd : new.a4KeyInd = old.a4KeyInd
  a4Ind : new.a4Ind = old.a4Ind
  encOpcKey : new.encOpcKey = old.encOpcKey
  a4KeyV : new.a4KeyV = old.a4KeyV

/-- An update has static data, and what is stored under its base path is a subscription with static data that it does
not modify. -/
def UpdateRules (R : RelatedResources) (c : Change) : Prop :=
  ∃ new, c.authSubscription.authSubscriptionStaticData = some new ∧
    ∀ r, R[getBasePath c.resourcePath]? = some r → ∃ a old, r = .authSubscription a ∧
      a.authSubscriptionStaticData = some old ∧ Unmodified new old

section Update
variable {R : RelatedResources} {p : Str} {c : Change}

theorem silent_optionalAttributeHasChanged {new old : Option Str} {name : Str} :
    Silent (optionalAttributeHasChanged new old p name) true ↔ new = old := by
  cases new with
  | none =>
    cases old with
    | none => exact iff_of_true (silent_pure.mpr rfl) rfl
    | some o => exact iff_of_false not_silent_reject nofun
  | some n =>
    cases old with
    | none => exact iff_of_false not_silent_reject nofun
    | some o =>
      rw [Option.some.injEq]
      exact silent_ite_reject.trans not_not

theorem silent_unmodifiedChecks {new old : AuthSubscriptionStaticData} :
    (∀ x ∈ unmodifiedChecks p new old, Silent x true) ↔ Unmodified new old := by
  simp only [unmodifiedChecks, List.forall_mem_cons, List.not_mem_nil, false_implies, implies_true, and_true,
    silent_optionalAttributeHasChanged]
  constructor
  · rintro ⟨h1, h2, h3, h4, h5, h6⟩
    exact ⟨h1, h2, h3, h4, h5, h6⟩
  · rintro ⟨h1, h2, h3, h4, h5, h6⟩
    exact ⟨h1, h2, h3, h4, h5, h6⟩

/-- **The update rules pass silently exactly under `UpdateRules`.** -/
theorem silent_checkForUpdateAuthSubscriptionRules :
    Silent (checkForUpdateAuthSubscriptionRules R c) true ↔ UpdateRules R c := by
  unfold checkForUpdateAuthSubscriptionRules UpdateRules
  cases c.authSubscription.authSubscriptionStaticData with
  | none => simp [silent_lift_bind, staticDataValue]
  | some new =>
    simp only [silent_lift_bind, staticDataValue, Except.ok.injEq, exists_eq_left', Option.some.injEq]
    cases R[getBasePath c.resourcePath]? with
    | none => simp [silent_pure]
    | some r =>
      cases r with
      | provJournal j => simp [getAuthSubscriptionResource, silent_lift_bind]
      | authSubscriptionLegacy l => simp [getAuthSubscriptionResource, silent_lift_bind]
      | authSubscription a =>
        simp only [getAuthSubscriptionResource, silent_lift_bind, Except.ok.injEq, exists_eq_left', Option.some.injEq,
          forall_eq', Resource.authSubscription.injEq]
        cases ha : a.authSubscriptionStaticData with
        | none => simp [ha]
        | some old =>
          simp only [Except.ok.injEq, exists_eq_left',
            silent_all_iff (plainVerdict_unmodifiedChecks isConflict_constraintViolation), silent_unmodifiedChecks]
          simp [ha]

end Update

/-! ## A change on its own -/

/-- The rules that are looked at for every change, whatever was recorded before. -/
def FirstRules (R : RelatedResources) (c : Change) : Prop :=
  match pathClass c.resourcePath with
  | .authSubscription => True
  | .imsi =>
      if c.operation = JSON_OPERATION_CREATE then CommonRules R c
      else if c.operation = JSON_OPERATION_UPDATE then
        R.contains (getBasePath c.resourcePath) = true ∧ CommonRules R c
      else True
  | .badImsi => False
  | .dynamicData => False
  | .other => c.operation = JSON_OPERATION_DELETE

/-- The rules that are only looked at while no error is recorded. -/
def FurtherRules (R : RelatedResources) (c : Change) : Prop :=
  match pathClass c.resourcePath with
  | .imsi =>
      if c.operation = JSON_OPERATION_CREATE then LegacyRules R c
      else if c.operation = JSON_OPERATION_UPDATE then UpdateRules R c
      else True
  | _ => True

/-- The change passes all rules when it is validated alone. -/
def Conforms (R : RelatedResources) (c : Change) : Prop := FirstRules R c ∧ FurtherRules R c

def unprocessable (R : RelatedResources) (c : Change) : Bool :=
  match pathClass c.resourcePath with
  | .imsi =>
      if c.operation = JSON_OPERATION_CREATE then journalMissing R c
      else if c.operation = JSON_OPERATION_UPDATE then
        !R.contains (getBasePath c.resourcePath) || journalMissing R c
      else false
  | .other => c.operation ≠ JSON_OPERATION_DELETE
  | _ => false

end AuthProvValidator
