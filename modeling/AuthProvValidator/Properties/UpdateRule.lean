import AuthProvValidator.Entities.Accepted

/-!
# The update rule

When an update of static data is accepted, next to what is stored for the subscription.

* `UpdateOf` : an update of static data, and what is stored where the rules look for its subscription;
* `applyValidationRules_update` : with no error before it, it is accepted exactly when its base path is stored, the
  common rules pass and it modifies none of six attributes. The mutations look under its own path too, and break off
  when something other than a subscription is stored there.
-/

namespace AuthProvValidator
open Recorder

/-- An update of static data to `new` under a path with a valid IMSI. What is stored under its base path is a
subscription with static data. -/
structure UpdateOf (R : RelatedResources) (c : Change) (new : AuthSubscriptionStaticData) : Prop where
  operation : c.operation = JSON_OPERATION_UPDATE
  staticDataUri : checkAuthSubscriptionStaticDataUri c.resourcePath = true
  imsi : checkUriImsi c.resourcePath = true
  static : c.authSubscription.authSubscriptionStaticData = some new
  base : ∀ r, R[getBasePath c.resourcePath]? = some r →
    ∃ a old, r = .authSubscription a ∧ a.authSubscriptionStaticData = some old

/-- The update agrees with the static data stored under its base path in the attributes that cannot be modified. -/
def UnmodifiedStored (R : RelatedResources) (c : Change) (new : AuthSubscriptionStaticData) : Prop :=
  ∀ a old, R[getBasePath c.resourcePath]? = some (.authSubscription a) → a.authSubscriptionStaticData = some old →
    Unmodified new old

/-- The request with `c` last is valid, and `c` is answered with its operation, path and static data, after `before`. -/
def AcceptedAfter (R : RelatedResources) (pre : List Change) (c : Change) (before : List Change) : Prop :=
  ∃ o c', applyValidationRules { changes := pre ++ [c], relatedResources := R } = .ok o ∧
    o.verdict = ⟨true, HTTP_OK⟩ ∧ o.response = ⟨before ++ [c'], []⟩ ∧
    c'.operation = c.operation ∧ c'.resourcePath = c.resourcePath ∧
    c'.authSubscription.authSubscriptionStaticData = c.authSubscription.authSubscriptionStaticData

section Runs
variable {R : RelatedResources} {c : Change} {pre : List Change} {new : AuthSubscriptionStaticData} {o o₁ : Outcome}

theorem checkForCommonAuthSubscriptionRules_records {es : List Error} :
    (∃ resp, (checkForCommonAuthSubscriptionRules R c).run [] = .ok (resp, es)) ↔
      ∃ code, (checkForCommonRules R c).run [] = .ok (code, es) := by
  rw [checkForCommonAuthSubscriptionRules_run]
  cases (checkForCommonRules R c).run [] with
  | error f => exact iff_of_false (fun h => by cases h.choose_spec) fun h => by cases h.choose_spec
  | ok r =>
    obtain ⟨code, log⟩ := r
    constructor
    · intro h
      obtain ⟨resp, hresp⟩ := h
      obtain ⟨-, rfl⟩ := Prod.mk.inj (Except.ok.inj hresp)
      exact ⟨code, rfl⟩
    · intro h
      obtain ⟨code', hcode⟩ := h
      obtain ⟨-, rfl⟩ := Prod.mk.inj (Except.ok.inj hcode)
      exact ⟨_, rfl⟩

theorem checkForCommonAuthSubscriptionRules_iff :
    (∃ resp, (checkForCommonAuthSubscriptionRules R c).run [] = .ok (resp, [])) ↔ CommonRules R c := by
  rw [checkForCommonAuthSubscriptionRules_records]
  constructor
  · intro h
    obtain ⟨code, hrules⟩ := h
    exact (silent_checkForCommonRules.mp hrules).2
  · intro h
    exact ⟨HTTP_CONFLICT, silent_checkForCommonRules.mpr ⟨rfl, h⟩⟩

theorem UpdateOf.pathClass_eq (h : UpdateOf R c new) : pathClass c.resourcePath = .imsi := by
  obtain ⟨x, d, hd, hpath⟩ := staticData_imsi_iff.mp ⟨h.staticDataUri, h.imsi⟩
  exact pathClass_staticDataPath hd hpath

theorem UpdateOf.mutations (h : UpdateOf R c new)
    (hown : ∀ r, R[c.resourcePath]? = some r → ∃ a, r = .authSubscription a) :
    ∃ c', computeMutations R c = .ok c' ∧ c'.operation = c.operation ∧ c'.resourcePath = c.resourcePath ∧
      c'.authSubscription.authSubscriptionStaticData = c.authSubscription.authSubscriptionStaticData := by
  have hne := update_ne_create h.operation
  have htyped : MutationsTyped R c := ⟨fun hc => absurd hc hne, fun _ _ => hown⟩
  obtain ⟨c', hc'⟩ := computeMutations_ok htyped fun hc => absurd hc hne
  refine ⟨c', hc', ?_⟩
  rcases computeMutations_update h.operation hc' with rfl | rfl <;> exact ⟨rfl, rfl, rfl⟩

/-- Such an update conforms exactly when its base path is stored, the common rules pass and nothing is modified. -/
theorem UpdateOf.conforms_iff (h : UpdateOf R c new) :
    Conforms R c ↔ R.contains (getBasePath c.resourcePath) = true ∧ CommonRules R c ∧ UnmodifiedStored R c new := by
  have hfirst : FirstRules R c ↔ R.contains (getBasePath c.resourcePath) = true ∧ CommonRules R c := by
    simp only [FirstRules, h.pathClass_eq, if_neg (update_ne_create h.operation), if_pos h.operation]
  have hfurther : FurtherRules R c ↔ UpdateRules R c := by
    simp only [FurtherRules, h.pathClass_eq, if_neg (update_ne_create h.operation), if_pos h.operation]
  have hupdate : UpdateRules R c ↔ UnmodifiedStored R c new := by
    constructor
    · intro hrules a old hr ha
      obtain ⟨new', hnew, hstored⟩ := hrules
      obtain rfl := Option.some.inj (h.static.symm.trans hnew)
      obtain ⟨a', old', heq, ha', hunmodified⟩ := hstored _ hr
      obtain rfl := Resource.authSubscription.inj heq
      obtain rfl := Option.some.inj (ha.symm.trans ha')
      exact hunmodified
    · intro hunmodified
      refine ⟨new, h.static, fun r hr => ?_⟩
      obtain ⟨a, old, rfl, ha⟩ := h.base r hr
      exact ⟨a, old, rfl, ha, hunmodified a old hr ha⟩
  rw [Conforms, hfirst, hfurther, hupdate, and_assoc]

theorem exists_run_before (h : applyValidationRules { changes := pre, relatedResources := R } = .ok o₁)
    (hpre : o₁.response.errors = []) :
    (validateChanges R ⟨true, HTTP_OK, []⟩ pre).run [] = .ok (⟨true, HTTP_OK, o₁.response.changes⟩, []) := by
  obtain ⟨⟨run, E⟩, hrun, hret⟩ := bind_eq_ok.mp h
  obtain rfl := Except.ok.inj hret
  obtain rfl : E = [] := hpre
  obtain ⟨hvalid, hcode⟩ := validateChanges_valid hrun rfl rfl rfl
  rw [hrun]
  obtain ⟨ret, code, changes⟩ := run
  obtain rfl : ret = true := hvalid
  obtain rfl : code = HTTP_OK := hcode
  rfl

theorem applyValidationRules_append (h : applyValidationRules { changes := pre, relatedResources := R } = .ok o₁)
    (hpre : o₁.response.errors = []) :
    applyValidationRules { changes := pre ++ [c], relatedResources := R } = .ok o ↔
      ∃ run, (validateChange R ⟨true, HTTP_OK, o₁.response.changes⟩ c).run [] = .ok (run, o.response.errors) ∧
        o.verdict = ⟨run.ret, run.code⟩ ∧ o.response.changes = run.changes := by
  have hbefore := exists_run_before h hpre
  constructor
  · intro hrun
    obtain ⟨⟨run, E⟩, hall, hret⟩ := bind_eq_ok.mp hrun
    obtain rfl := Except.ok.inj hret
    obtain ⟨run₁, E₁, hrun₁, hrest⟩ := validateChanges_append_run.mp hall
    obtain ⟨rfl, rfl⟩ := Prod.mk.inj (Except.ok.inj (hbefore.symm.trans hrun₁))
    obtain ⟨run₂, E₂, hc, hnil⟩ := validateChanges_cons_run.mp hrest
    obtain ⟨rfl, rfl⟩ := validateChanges_nil_run.mp hnil
    exact ⟨run, hc, rfl, rfl⟩
  · intro hturn
    obtain ⟨run, hc, hverdict, hchanges⟩ := hturn
    refine bind_eq_ok.mpr ⟨(run, o.response.errors), validateChanges_append_run.mpr ⟨_, [], hbefore,
      validateChanges_cons_run.mpr ⟨run, _, hc, validateChanges_nil_run.mpr ⟨rfl, rfl⟩⟩⟩, ?_⟩
    dsimp only
    rw [← hverdict, ← hchanges]
    rfl

theorem turn_conforms {c' : Change} (hclass : pathClass c.resourcePath = .imsi) (hconforms : Conforms R c)
    (hmut : computeMutations R c = .ok c') (before : List Change) :
    (validateChange R ⟨true, HTTP_OK, before⟩ c).run [] = .ok (⟨true, HTTP_OK, before ++ [c']⟩, []) := by
  rw [validateChange_imsi hclass]
  refine run_bind_ok.mpr ⟨_, [], checkForOperation_conforms hclass hconforms, ?_⟩
  rw [hmut]
  rfl

/-- After a run without an error, the request with `c` last is valid and answers `c` by some `c'` with `P` exactly when
`c` conforms and the mutations give such a `c'`. -/
theorem answeredAfter_iff {P : Change → Prop}
    (h : applyValidationRules { changes := pre, relatedResources := R } = .ok o₁) (hpre : o₁.response.errors = [])
    (hclass : pathClass c.resourcePath = .imsi) :
    (∃ o c', applyValidationRules { changes := pre ++ [c], relatedResources := R } = .ok o ∧
        o.verdict = ⟨true, HTTP_OK⟩ ∧ o.response = ⟨o₁.response.changes ++ [c'], []⟩ ∧ P c') ↔
      Conforms R c ∧ ∃ c', computeMutations R c = .ok c' ∧ P c' := by
  constructor
  · intro hacc
    obtain ⟨o, c', ho, hverdict, hresponse, hP⟩ := hacc
    obtain ⟨run, hturn, hrun, hchanges⟩ := (applyValidationRules_append h hpre).mp ho
    rw [hresponse] at hturn hchanges
    have hstep := validateChange_step hturn
    obtain ⟨l, hl, hpushed⟩ := hstep.pushed
    have hret : run.ret = true := congrArg ValidationResponse.validation (hrun.symm.trans hverdict)
    unfold Pushed at hpushed
    simp only [hclass, hret, if_true] at hpushed
    obtain ⟨c'', hmut, rfl⟩ := hpushed
    obtain rfl := List.singleton_inj.mp (List.append_cancel_left (hchanges.trans hl))
    exact ⟨(hstep.checked.eq_nil_iff.mp rfl).2, c', hmut, hP⟩
  · intro hboth
    obtain ⟨hconforms, c', hmut, hP⟩ := hboth
    have hturn := turn_conforms hclass hconforms hmut o₁.response.changes
    exact ⟨⟨⟨true, HTTP_OK⟩, ⟨o₁.response.changes ++ [c'], []⟩⟩, c',
      (applyValidationRules_append h hpre).mpr ⟨_, hturn, rfl, rfl⟩, rfl, rfl, hP⟩

theorem acceptedAfter_iff (h : applyValidationRules { changes := pre, relatedResources := R } = .ok o₁)
    (hpre : o₁.response.errors = []) (hclass : pathClass c.resourcePath = .imsi)
    (hmut : ∃ c', computeMutations R c = .ok c' ∧ c'.operation = c.operation ∧ c'.resourcePath = c.resourcePath ∧
      c'.authSubscription.authSubscriptionStaticData = c.authSubscription.authSubscriptionStaticData) :
    AcceptedAfter R pre c o₁.response.changes ↔ Conforms R c :=
  (answeredAfter_iff h hpre hclass).trans (and_iff_left hmut)

theorem UpdateOf.turn_not_stored (h : UpdateOf R c new) (hbase : R.contains (getBasePath c.resourcePath) = false)
    (before : List Change) :
    (validateChange R ⟨true, HTTP_OK, before⟩ c).run [] =
      .ok (⟨false, HTTP_UNPROCESSABLE_ENTITY, before⟩, [notStored c]) := by
  have hcheck : (checkForOperation R c).run [] = .ok (⟨false, HTTP_UNPROCESSABLE_ENTITY⟩, [notStored c]) := by
    rw [checkForOperation, if_neg (update_ne_create h.operation), if_pos h.operation, checkForUpdateAuthSubscription,
      if_pos (by simp [hasRelatedResource, hbase]), addUnprocessableEntity_eq]
    rfl
  rw [validateChange_imsi h.pathClass_eq]
  exact run_bind_ok.mpr ⟨_, _, hcheck, rfl⟩

theorem UpdateOf.errors_eq {run run' : Run} {E : List Error} (h : UpdateOf R c new)
    (hbase : R.contains (getBasePath c.resourcePath) = true) (hunmodified : UnmodifiedStored R c new)
    (hturn : (validateChange R run c).run [] = .ok (run', E)) :
    ∃ resp, (checkForCommonAuthSubscriptionRules R c).run [] = .ok (resp, E) := by
  obtain ⟨resp, hcheck, -⟩ := validateChange_imsi_run h.pathClass_eq hturn
  rw [checkForOperation, if_neg (update_ne_create h.operation), if_pos h.operation, checkForUpdateAuthSubscription,
    if_neg (by simp [hasRelatedResource, hbase])] at hcheck
  obtain ⟨⟨code, es, hes⟩, -, hE, -⟩ :=
    checkForCommonRulesThen_run (plainVerdict_checkForUpdateAuthSubscriptionRules isConflict_constraintViolation) hcheck
  have hsilent : Silent (checkForUpdateAuthSubscriptionRules R c) true := by
    refine silent_checkForUpdateAuthSubscriptionRules.mpr ⟨new, h.static, fun r hr => ?_⟩
    obtain ⟨a, old, rfl, ha⟩ := h.base r hr
    exact ⟨a, old, rfl, ha, hunmodified a old hr ha⟩
  have hfindings : E = es := by
    rw [hE, logged_of_run hsilent, logged_of_run hes]
    by_cases hnil : es = [] <;> simp [Stage.findings, hnil]
  rw [hfindings]
  exact checkForCommonAuthSubscriptionRules_records.mpr ⟨code, hes⟩

end Runs

/-- **The update rule.** With no error before it, and no other kind of resource under its own path, an update is
accepted exactly when its base path is stored, the common rules record no error and it modifies nothing; when its base
path is not stored the code is 422; and when it modifies nothing it has no error besides those of the common rules. -/
theorem applyValidationRules_update (R : RelatedResources) (pre : List Change) (c : Change) (o₁ : Outcome)
    (new : AuthSubscriptionStaticData) (h : applyValidationRules { changes := pre, relatedResources := R } = .ok o₁)
    (hpre : o₁.response.errors = []) (hc : UpdateOf R c new) :
    ((∀ r, R[c.resourcePath]? = some r → ∃ a, r = .authSubscription a) →
      (AcceptedAfter R pre c o₁.response.changes ↔
        R.contains (getBasePath c.resourcePath) = true ∧
        (∃ resp, (checkForCommonAuthSubscriptionRules R c).run [] = .ok (resp, [])) ∧ UnmodifiedStored R c new)) ∧
      (R.contains (getBasePath c.resourcePath) = false → ∃ o,
        applyValidationRules { changes := pre ++ [c], relatedResources := R } = .ok o ∧
          o.verdict = ⟨false, HTTP_UNPROCESSABLE_ENTITY⟩) ∧
      (R.contains (getBasePath c.resourcePath) = true → UnmodifiedStored R c new → ∀ o,
        applyValidationRules { changes := pre ++ [c], relatedResources := R } = .ok o →
          ∃ resp, (checkForCommonAuthSubscriptionRules R c).run [] = .ok (resp, o.response.errors)) := by
  rw [checkForCommonAuthSubscriptionRules_iff, ← hc.conforms_iff]
  refine ⟨fun hown => ?_, fun hbase => ?_, fun hbase hunmodified o ho => ?_⟩
  · exact acceptedAfter_iff h hpre hc.pathClass_eq (hc.mutations hown)
  · exact ⟨⟨⟨false, HTTP_UNPROCESSABLE_ENTITY⟩, ⟨o₁.response.changes, [notStored c]⟩⟩,
      (applyValidationRules_append h hpre).mpr ⟨_, hc.turn_not_stored hbase _, rfl, rfl⟩, rfl⟩
  · obtain ⟨run, hturn, -, -⟩ := (applyValidationRules_append h hpre).mp ho
    exact hc.errors_eq hbase hunmodified hturn

/-- The stored subscription of a subscriber, and an update that repeats it. -/
def storedSubscription : AuthSubscription :=
  { authSubscriptionStaticData := some { authenticationMethod := JSON_5G_AKA } }

def repeatedUpdate : Change := ⟨JSON_OPERATION_UPDATE, staticDataPath "a" "12345", storedSubscription⟩

def storedResources : RelatedResources :=
  ((∅ : RelatedResources).insert (LEGACY_BASE_PATH ++ "12345") (.authSubscriptionLegacy {})).insert
    (imsiPath "a" "12345") (.authSubscription storedSubscription)

/-- A journal under the path of the update itself. -/
def misplacedResources : RelatedResources :=
  ((∅ : RelatedResources).insert (LEGACY_BASE_PATH ++ "12345") (.authSubscriptionLegacy {})).insert
    (staticDataPath "a" "12345") (.provJournal {}) |>.insert (imsiPath "a" "12345")
      (.authSubscription storedSubscription)

section Repeated
variable {R : RelatedResources}

theorem getBasePath_repeatedUpdate : getBasePath repeatedUpdate.resourcePath = imsiPath "a" "12345" :=
  getBasePath_addSuffixToPath slash_not_mem_staticData

theorem updateOf_repeatedUpdate : UpdateOf (R.insert (imsiPath "a" "12345") (.authSubscription storedSubscription))
    repeatedUpdate { authenticationMethod := JSON_5G_AKA } where
  operation := rfl
  staticDataUri := by decide
  imsi := by decide
  static := rfl
  base := fun r hr => by
    rw [getBasePath_repeatedUpdate, Std.ExtTreeMap.getElem?_insert_self] at hr
    exact ⟨storedSubscription, _, (Option.some.inj hr).symm, rfl⟩

theorem unmodifiedStored_repeatedUpdate :
    UnmodifiedStored (R.insert (imsiPath "a" "12345") (.authSubscription storedSubscription)) repeatedUpdate
      { authenticationMethod := JSON_5G_AKA } := by
  intro a old hr ha
  rw [getBasePath_repeatedUpdate, Std.ExtTreeMap.getElem?_insert_self] at hr
  obtain rfl := Resource.authSubscription.inj (Option.some.inj hr)
  obtain rfl := Option.some.inj ha
  exact ⟨rfl, rfl, rfl, rfl, rfl, rfl⟩

end Repeated

/-- What is stored under the path of the update itself matters too. -/
theorem repeatedUpdate_stops :
    ¬ ∀ (R : RelatedResources) (pre : List Change) (c : Change) (o₁ : Outcome) (new : AuthSubscriptionStaticData),
      applyValidationRules { changes := pre, relatedResources := R } = .ok o₁ → o₁.response.errors = [] →
      UpdateOf R c new →
      (AcceptedAfter R pre c o₁.response.changes ↔
        R.contains (getBasePath c.resourcePath) = true ∧
        (∃ resp, (checkForCommonAuthSubscriptionRules R c).run [] = .ok (resp, [])) ∧ UnmodifiedStored R c new) := by
  intro h
  have hiff := h misplacedResources [] repeatedUpdate ⟨⟨true, HTTP_OK⟩, ⟨[], []⟩⟩ _ rfl rfl updateOf_repeatedUpdate
  have hcommon : ∃ resp, (checkForCommonAuthSubscriptionRules misplacedResources repeatedUpdate).run [] =
      .ok (resp, []) := by
    have hlogged : (((checkForCommonAuthSubscriptionRules misplacedResources repeatedUpdate).run []).toOption.map
        fun r => r.2.length) = some 0 := by decide
    cases hrun : (checkForCommonAuthSubscriptionRules misplacedResources repeatedUpdate).run [] with
    | error e =>
      rw [hrun] at hlogged
      cases hlogged
    | ok r =>
      rw [hrun] at hlogged
      exact ⟨r.1, by rw [← List.length_eq_zero_iff.mp (Option.some.inj hlogged)]⟩
  obtain ⟨o, c', hrun, -⟩ := hiff.mpr ⟨by decide, hcommon, unmodifiedStored_repeatedUpdate⟩
  have hstops : (applyValidationRules
      { changes := [repeatedUpdate], relatedResources := misplacedResources }).toOption.isSome = false := by
    decide
  rw [← List.nil_append [repeatedUpdate], hrun] at hstops
  cases hstops

theorem applyValidationRules_update_example :
    AcceptedAfter storedResources [] repeatedUpdate [] ↔
      storedResources.contains (getBasePath repeatedUpdate.resourcePath) = true ∧
      (∃ resp, (checkForCommonAuthSubscriptionRules storedResources repeatedUpdate).run [] = .ok (resp, [])) ∧
      UnmodifiedStored storedResources repeatedUpdate { authenticationMethod := JSON_5G_AKA } := by
  refine (applyValidationRules_update storedResources [] repeatedUpdate ⟨⟨true, HTTP_OK⟩, ⟨[], []⟩⟩ _ rfl rfl
    updateOf_repeatedUpdate).1 fun r hr => ?_
  have hnone : storedResources.contains repeatedUpdate.resourcePath = false := by decide
  rw [Std.ExtTreeMap.contains_eq_isSome_getElem?, hr] at hnone
  cases hnone

end AuthProvValidator
