import AuthProvValidator.Base.Records
import AuthProvValidator.Ports.StaticData
import AuthProvValidator.Properties.MemberOrder
import AuthProvValidator.Properties.StoredResources

/-!
# The errors of the parser

What is wrong with the data of a request is recorded while it is read, and the reading goes on. Which errors there are
depends on the values alone, for a change also on the resource path that comes before its data.

* `subscriptionErrors`, `changeErrors`, `resourceErrors` : the errors for a value, in their order;
* `CleanSubscription`, `CleanChange`, `CleanResource` : the values without an error;
* `getValidationData_errors` : the errors of a request are those of its changes and then those of its related
  resources, and there are none exactly when all of them are clean.
-/

namespace AuthProvValidator
open Recorder Json

/-! ## What is reported -/

def memberList : Json → List (Str × Json)
  | .obj ms => ms
  | _ => []

def objectErrors (name p : Str) (f : List (Str × Json) → List Error) : Json → List Error
  | .obj ms => f ms
  | _ => [constraintViolation p (notObjectFieldError name)]

def staticErrors (p : Str) (ms : List (Str × Json)) : List Error :=
  missingMethodErrors ms p ++ notStringErrors ms p staticDataNames

def indexErrors (p : Str) (ms : List (Str × Json)) : List Error :=
  (ms.filter fun m => !m.2.isInt).map fun _ =>
    constraintViolation p ("value not integer in \"" ++ JSON_LAST_INDEXES_LIST ++ "\"")

def dynamicErrors (p : Str) (ms : List (Str × Json)) : List Error :=
  notStringErrors ms p [JSON_SQN_SCHEME, JSON_SQN] ++
    (find ms JSON_LAST_INDEXES_LIST).elim [] (objectErrors JSON_LAST_INDEXES_LIST p (indexErrors p))

def subscriptionErrors (p : Str) (ms : List (Str × Json)) : List Error :=
  (find ms JSON_AUTH_SUBSCRIPTION_STATIC_DATA).elim
    [constraintViolation p (unfoundMandatoryFieldError JSON_AUTH_SUBSCRIPTION_STATIC_DATA)]
    (objectErrors JSON_AUTH_SUBSCRIPTION_STATIC_DATA p fun static =>
      staticErrors p static ++ (find ms JSON_AUTH_SUBSCRIPTION_DYNAMIC_DATA).elim []
        (objectErrors JSON_AUTH_SUBSCRIPTION_DYNAMIC_DATA p (dynamicErrors p)))

def dataErrors (p : Str) (v : Json) : List Error :=
  if checkAuthSubscriptionUri p then subscriptionErrors p (memberList v)
  else if checkAuthSubscriptionStaticDataUri p then staticErrors p (memberList v)
  else []

/-- The path of a change after one more member. -/
def pathAfter (p : Str) (m : Str × Json) : Str := if m.1.cStr = JSON_RESOURCE_PATH then textOf m.2 else p

def changeMemberErrors (p : Str) (m : Str × Json) : List Error := if m.1.cStr = JSON_DATA then dataErrors p m.2 else []

def changeErrors (v : Json) : List Error := sweep pathAfter changeMemberErrors [] (memberList v)

def childErrors (p : Str) (m : Str × Json) : List Error :=
  subscriptionErrors (addSuffixToPath p m.1.cStr) (memberList m.2)

/-- Only subscriptions are read with errors; they are stored alone or as the children of their subscriber. -/
def resourceErrors (m : Str × Json) : List Error :=
  if checkAuthSubscriptionUri m.1.cStr then
    if (find (memberList m.2) JSON_AUTH_SUBSCRIPTION_STATIC_DATA).isSome then
      subscriptionErrors m.1.cStr (memberList m.2)
    else (memberList m.2).flatMap (childErrors m.1.cStr)
  else []

def requestChanges (ms : List (Str × Json)) : List Json :=
  match find ms JSON_CHANGES with
  | some (.arr vs) => vs
  | _ => []

def requestResources (ms : List (Str × Json)) : List (Str × Json) :=
  (find ms JSON_RELATED_RESOURCES).elim [] memberList

/-! ## What is clean -/

structure CleanStatic (ms : List (Str × Json)) : Prop where
  mandatory : (find ms JSON_AUTHENTICATION_METHOD).isSome = true
  texts : ∀ name ∈ staticDataNames, TextOrMissing ms name

structure CleanDynamic (ms : List (Str × Json)) : Prop where
  sqnScheme : TextOrMissing ms JSON_SQN_SCHEME
  sqn : TextOrMissing ms JSON_SQN
  lastIndexes : ∀ v, find ms JSON_LAST_INDEXES_LIST = some v → ∃ es, v = obj es ∧ ∀ e ∈ es, e.2.isInt = true

structure CleanSubscription (ms : List (Str × Json)) : Prop where
  static : ∃ s, find ms JSON_AUTH_SUBSCRIPTION_STATIC_DATA = some (obj s) ∧ CleanStatic s
  dynamic : ∀ v, find ms JSON_AUTH_SUBSCRIPTION_DYNAMIC_DATA = some v → ∃ d, v = obj d ∧ CleanDynamic d

def CleanData (p : Str) (ms : List (Str × Json)) : Prop :=
  if checkAuthSubscriptionUri p then CleanSubscription ms
  else checkAuthSubscriptionStaticDataUri p = true → CleanStatic ms

/-- Each member read as `data` is clean for the path that the last `resource_path` before it gives. -/
def CleanChange (v : Json) : Prop :=
  ∀ pre m post, memberList v = pre ++ m :: post → m.1.cStr = JSON_DATA →
    CleanData (pre.foldl pathAfter []) (memberList m.2)

def CleanResource (m : Str × Json) : Prop :=
  checkAuthSubscriptionUri m.1.cStr = true →
    if (find (memberList m.2) JSON_AUTH_SUBSCRIPTION_STATIC_DATA).isSome then CleanSubscription (memberList m.2)
    else ∀ child ∈ memberList m.2, CleanSubscription (memberList child.2)

section Clean
variable {p name : Str} {v : Json} {m : Str × Json} {ms : List (Str × Json)}

theorem objectErrors_eq_nil_iff {f : List (Str × Json) → List Error} :
    objectErrors name p f v = [] ↔ ∃ ms, v = obj ms ∧ f ms = [] := by
  cases v with
  | obj ms => simp [objectErrors]
  | _ => simp [objectErrors]

theorem elim_objectErrors_eq_nil_iff {o : Option Json} {f : List (Str × Json) → List Error} :
    o.elim [] (objectErrors name p f) = [] ↔ ∀ v, o = some v → ∃ ms, v = obj ms ∧ f ms = [] := by
  cases o with
  | none => simp
  | some v => simp [objectErrors_eq_nil_iff]

theorem staticErrors_eq_nil_iff : staticErrors p ms = [] ↔ CleanStatic ms := by
  rw [staticErrors, staticDataErrors_eq_nil_iff]
  constructor
  · intro h
    exact ⟨h.1, h.2⟩
  · intro h
    exact ⟨h.mandatory, h.texts⟩

theorem indexErrors_eq_nil_iff : indexErrors p ms = [] ↔ ∀ m ∈ ms, m.2.isInt = true := by
  simp [indexErrors]

theorem dynamicErrors_eq_nil_iff : dynamicErrors p ms = [] ↔ CleanDynamic ms := by
  rw [dynamicErrors, List.append_eq_nil_iff, notStringErrors_eq_nil_iff, elim_objectErrors_eq_nil_iff]
  simp only [List.forall_mem_cons, List.not_mem_nil, false_implies, implies_true, and_true, indexErrors_eq_nil_iff]
  constructor
  · intro h
    exact ⟨h.1.1, h.1.2, h.2⟩
  · intro h
    exact ⟨⟨h.sqnScheme, h.sqn⟩, h.lastIndexes⟩

theorem subscriptionErrors_eq_nil_iff : subscriptionErrors p ms = [] ↔ CleanSubscription ms := by
  have hsplit : CleanSubscription ms ↔
      (∃ s, find ms JSON_AUTH_SUBSCRIPTION_STATIC_DATA = some (obj s) ∧ CleanStatic s) ∧
      ∀ v, find ms JSON_AUTH_SUBSCRIPTION_DYNAMIC_DATA = some v → ∃ d, v = obj d ∧ CleanDynamic d :=
    ⟨fun h => ⟨h.static, h.dynamic⟩, fun h => ⟨h.1, h.2⟩⟩
  rw [subscriptionErrors, hsplit]
  cases find ms JSON_AUTH_SUBSCRIPTION_STATIC_DATA with
  | none => simp
  | some v =>
    rw [Option.elim_some, objectErrors_eq_nil_iff]
    simp only [List.append_eq_nil_iff, staticErrors_eq_nil_iff, elim_objectErrors_eq_nil_iff, dynamicErrors_eq_nil_iff,
      Option.some.injEq]
    constructor
    · intro h
      obtain ⟨s, hs, hstatic, hdynamic⟩ := h
      exact ⟨⟨s, hs, hstatic⟩, hdynamic⟩
    · intro h
      obtain ⟨⟨s, hs, hstatic⟩, hdynamic⟩ := h
      exact ⟨s, hs, hstatic, hdynamic⟩

theorem dataErrors_eq_nil_iff : dataErrors p v = [] ↔ CleanData p (memberList v) := by
  unfold dataErrors CleanData
  split_ifs with hauth hstatic
  · exact subscriptionErrors_eq_nil_iff
  · rw [staticErrors_eq_nil_iff, forall_prop_of_true hstatic]
  · exact iff_of_true rfl fun h => absurd h hstatic

theorem changeErrors_eq_nil_iff : changeErrors v = [] ↔ CleanChange v := by
  rw [changeErrors, sweep_eq_nil_iff, CleanChange]
  refine forall₄_congr fun pre m post hsplit => ?_
  unfold changeMemberErrors
  split_ifs with hname
  · rw [dataErrors_eq_nil_iff, forall_prop_of_true hname]
  · exact iff_of_true rfl fun h => absurd h hname

theorem resourceErrors_eq_nil_iff : resourceErrors m = [] ↔ CleanResource m := by
  unfold resourceErrors CleanResource
  by_cases hauth : checkAuthSubscriptionUri m.1.cStr = true
  · rw [if_pos hauth, forall_prop_of_true hauth]
    split_ifs
    · exact subscriptionErrors_eq_nil_iff
    · rw [List.flatMap_eq_nil_iff]
      exact forall₂_congr fun child _ => subscriptionErrors_eq_nil_iff
  · rw [if_neg hauth]
    exact iff_of_true rfl fun h => absurd h hauth

end Clean

/-! ## What is recorded -/

section Recorded
variable {p name : Str} {v : Json} {m : Str × Json} {ms : List (Str × Json)} {a : AuthSubscription} {c : Change}
  {decode : Str → Str}

theorem records_access {α : Type} (x : Except Assertion α) : Records (access x) [] fun a => x = .ok a := by
  refine (records_lift _).mono fun a h => ?_
  cases x with
  | error e => cases h
  | ok b =>
    obtain rfl := Except.ok.inj h
    rfl

theorem records_object {α : Type} {x : Parse α} {d : α} {f : List (Str × Json) → List Error}
    (h : ∀ ms, v = .obj ms → Records x (f ms) fun _ => True) :
    Records (if v.isObject then x else do
        addConstraintViolation p (notObjectFieldError name)
        return d) (objectErrors name p f v) fun _ => True := by
  cases v with
  | obj ms => exact h ms rfl
  | _ => exact (records_record _).ret fun _ _ => trivial

theorem records_member {α : Type} {k : Json → Parse α} {d : Parse α} {f : Json → List Error} {es : List Error}
    (hd : Records d es fun _ => True) (hk : ∀ v, find ms name = some v → Records (k v) (f v) fun _ => True) :
    Records (do if ← access ((obj ms).hasMember name) then
                  let value ← access ((obj ms).index name)
                  k value
                else d) ((find ms name).elim es f) fun _ => True := by
  rw [access_member]
  cases hv : find ms name with
  | none => exact hd
  | some v => exact hk v hv

theorem records_readString : Records (readString (obj ms) name p) (notStringErrors ms p [name]) fun _ => True :=
  records_of_run (fun _ => readString_run) trivial

theorem records_getAuthSubscriptionStaticData :
    Records (getAuthSubscriptionStaticData (obj ms) p) (staticErrors p ms) fun _ => True :=
  records_of_run (fun _ => getAuthSubscriptionStaticData_run) trivial

theorem records_getLastIndexesList {l : LastIndexesList} :
    Records (getLastIndexesList p ms l) (indexErrors p ms) fun _ => True := by
  induction ms generalizing l with
  | nil => exact records_pure trivial
  | cons m ms ih =>
    rw [getLastIndexesList, indexErrors, List.filter_cons]
    by_cases hint : m.2.isInt = true
    · rw [if_pos hint, if_neg (by simp [hint])]
      exact (records_access _).seq fun value _ => ih
    · rw [if_neg hint, if_pos (by simp [hint]), List.map_cons]
      exact (records_record _).bind fun _ _ => ih

theorem records_readLastIndexes : Records (readLastIndexes (obj ms) p)
    ((find ms JSON_LAST_INDEXES_LIST).elim [] (objectErrors JSON_LAST_INDEXES_LIST p (indexErrors p)))
    fun _ => True := by
  refine records_member (records_pure trivial) fun v _ => records_object fun es hv => ?_
  refine (records_access _).seq fun ms' hms => ?_
  rw [hv] at hms
  obtain rfl := Except.ok.inj hms
  exact records_getLastIndexesList.ret fun _ _ => trivial

theorem records_getAuthSubscriptionDynamicData :
    Records (getAuthSubscriptionDynamicData (obj ms) p) (dynamicErrors p ms) fun _ => True := by
  have htexts : notStringErrors ms p [JSON_SQN_SCHEME, JSON_SQN] =
      notStringErrors ms p [JSON_SQN_SCHEME] ++ notStringErrors ms p [JSON_SQN] :=
    @notStringErrors_append ms p [JSON_SQN_SCHEME] [JSON_SQN]
  rw [dynamicErrors, htexts, List.append_assoc]
  refine records_readString.bind fun _ _ => records_readString.bind fun _ _ => ?_
  exact records_readLastIndexes.ret fun _ _ => trivial

theorem records_readDynamicData : Records (readDynamicData (obj ms) a p)
    ((find ms JSON_AUTH_SUBSCRIPTION_DYNAMIC_DATA).elim []
      (objectErrors JSON_AUTH_SUBSCRIPTION_DYNAMIC_DATA p (dynamicErrors p))) fun _ => True := by
  refine records_member (records_pure trivial) fun v _ => records_object fun dyn hv => ?_
  rw [hv]
  exact records_getAuthSubscriptionDynamicData.ret fun _ _ => trivial

/-- **The errors for a subscription.** -/
theorem records_getAuthSubscription :
    Records (getAuthSubscription v a p) (subscriptionErrors p (memberList v)) fun _ => True := by
  cases v with
  | obj ms =>
    refine records_member ?_ fun v _ => records_object fun static hv => ?_
    · exact (records_record _).ret fun _ _ => trivial
    · rw [hv]
      exact records_getAuthSubscriptionStaticData.bind fun _ _ => records_readDynamicData
  | _ => exact records_fail

/-! ## Changes -/

theorem records_getData : Records (getData v c) (dataErrors c.resourcePath v) fun _ => True := by
  cases v with
  | obj ms =>
    have hobject : ¬ (!(obj ms).isObject) = true := Bool.false_ne_true
    rw [getData, if_neg hobject]
    unfold dataErrors
    split_ifs
    · exact records_getAuthSubscription
    · exact records_getAuthSubscriptionStaticData.ret fun _ _ => trivial
    · exact records_pure trivial
  | _ => exact records_fail

theorem records_getOperation : Records (getOperation v) [] fun _ => True := by
  intro log operation l hrun
  obtain ⟨-, rfl⟩ := getOperation_run hrun
  exact ⟨(List.append_nil _).symm, trivial⟩

theorem records_getResourcePath : Records (getResourcePath v) [] fun p => p = textOf v := by
  intro log p l hrun
  obtain ⟨hp, rfl⟩ := getResourcePath_run hrun
  exact ⟨(List.append_nil _).symm, hp⟩

theorem records_getChangeMember : Records (getChangeMember c m) (changeMemberErrors c.resourcePath m)
    fun c' => c'.resourcePath = pathAfter c.resourcePath m := by
  unfold getChangeMember changeMemberErrors pathAfter
  dsimp only
  by_cases hop : m.1.cStr = JSON_OPERATION
  · rw [if_pos hop, hop, if_neg resourcePath_ne_operation.symm, if_neg data_ne_operation.symm]
    exact records_getOperation.ret fun _ _ => rfl
  · rw [if_neg hop]
    by_cases hpath : m.1.cStr = JSON_RESOURCE_PATH
    · rw [if_pos hpath, if_pos hpath, hpath, if_neg data_ne_resourcePath.symm]
      exact records_getResourcePath.ret fun p hp => hp
    · rw [if_neg hpath, if_neg hpath]
      split_ifs
      · exact records_getData.ret fun _ _ => rfl
      · exact records_pure rfl

theorem records_getChange : Records (getChange v) (changeErrors v) fun _ => True := by
  cases v with
  | obj ms =>
    have hobject : ¬ (!(obj ms).isObject) = true := Bool.false_ne_true
    rw [getChange, if_neg hobject]
    refine (records_access _).seq fun ms' hms => ?_
    obtain rfl := Except.ok.inj hms
    -- the path that the members so far have given is the one that the change has
    have hloop : Records (ms.foldlM getChangeMember {}) (sweep pathAfter changeMemberErrors [] ms)
        fun c => c.resourcePath = ms.foldl pathAfter [] := by
      apply records_foldlM (Q := fun (p : Str) (c : Change) => c.resourcePath = p)
      · intro p c m hp
        rw [← hp]
        exact records_getChangeMember
      · rfl
    exact hloop.mono fun _ _ => trivial
  | _ => exact records_fail

theorem records_getChangesToValidate : Records (getChangesToValidate (obj ms))
    ((requestChanges ms).flatMap changeErrors) fun _ => True := by
  rw [getChangesToValidate, access_member, requestChanges]
  cases find ms JSON_CHANGES with
  | none => exact records_pure trivial
  | some v =>
    cases v with
    | arr vs =>
      show Records (vs.mapM getChange) _ _
      exact (records_mapM fun v _ => records_getChange).mono fun _ _ => trivial
    | _ => exact records_fail

/-! ## Related resources -/

theorem records_childEntry : Records (childEntry p m) (childErrors p m) fun _ => True :=
  records_getAuthSubscription.ret fun _ _ => trivial

theorem records_subscriptionEntries : Records (subscriptionEntries p v)
    (if (find (memberList v) JSON_AUTH_SUBSCRIPTION_STATIC_DATA).isSome then subscriptionErrors p (memberList v)
      else (memberList v).flatMap (childErrors p)) fun _ => True := by
  cases v with
  | obj ms =>
    refine (records_access _).seq fun b hb => ?_
    obtain rfl := Except.ok.inj hb
    rw [memberList]
    split_ifs
    · exact records_getAuthSubscription.ret fun _ _ => trivial
    · refine (records_access _).seq fun ms' hms => ?_
      obtain rfl := Except.ok.inj hms
      exact (records_mapM fun m _ => records_childEntry).mono fun _ _ => trivial
  | _ => exact records_fail

theorem records_memberEntries : Records (memberEntries decode m) (resourceErrors m) fun _ => True := by
  unfold memberEntries resourceErrors
  dsimp only
  by_cases hauth : checkAuthSubscriptionUri m.1.cStr = true
  · rw [if_pos hauth, if_pos hauth]
    exact records_subscriptionEntries
  · rw [if_neg hauth, if_neg hauth]
    split_ifs
    · exact (records_access _).ret fun _ _ => trivial
    · exact (records_access _).ret fun _ _ => trivial
    · exact records_pure trivial

theorem records_getRelatedResources : Records (getRelatedResources decode (obj ms))
    ((requestResources ms).flatMap resourceErrors) fun _ => True := by
  rw [requestResources]
  cases hfind : find ms JSON_RELATED_RESOURCES with
  | none =>
    rw [getRelatedResources, access_member, hfind]
    exact records_pure trivial
  | some v =>
    cases v with
    | obj rs =>
      rw [getRelatedResources_entries hfind]
      exact (records_mapM fun m _ => records_memberEntries).ret fun _ _ => trivial
    | _ =>
      rw [getRelatedResources, access_member, hfind]
      exact records_fail

end Recorded

/-- **The errors of a request** are those for its changes, in order, and then those for its related resources; there
are none exactly when every change and every related resource is clean. -/
theorem getValidationData_errors (decode : Str → Str) (ms : List (Str × Json)) (data : ValidationData)
    (h : getValidationData decode (some (.obj ms)) = .ok data) :
    data.response.errors = (requestChanges ms).flatMap changeErrors ++ (requestResources ms).flatMap resourceErrors ∧
      (data.response.errors = [] ↔
        (∀ v ∈ requestChanges ms, CleanChange v) ∧ ∀ m ∈ requestResources ms, CleanResource m) := by
  obtain ⟨es, fs, hchanges, hresources, hresponse⟩ := getValidationData_eq_ok h
  obtain ⟨rfl, -⟩ := records_getChangesToValidate _ _ _ hchanges
  obtain ⟨rfl, -⟩ := records_getRelatedResources _ _ _ hresources
  rw [hresponse]
  constructor
  · rfl
  · show [] ++ _ ++ ([] ++ _) = [] ↔ _
    rw [List.nil_append, List.nil_append, List.append_eq_nil_iff, List.flatMap_eq_nil_iff, List.flatMap_eq_nil_iff]
    exact and_congr (forall₂_congr fun _ _ => changeErrors_eq_nil_iff)
      (forall₂_congr fun _ _ => resourceErrors_eq_nil_iff)

/-- Two creations without `authenticationMethod`; the data of the second come before its path. -/
def methodlessCreations : List (Str × Json) := [
  (JSON_CHANGES, .arr [
    .obj [(JSON_OPERATION, .str JSON_OPERATION_CREATE), (JSON_RESOURCE_PATH, .str (staticDataPath "a" "12345")),
      (JSON_DATA, .obj [])],
    .obj [(JSON_OPERATION, .str JSON_OPERATION_CREATE), (JSON_DATA, .obj []),
      (JSON_RESOURCE_PATH, .str (staticDataPath "b" "67890"))]])]

/-- Only the first has an error. -/
theorem getValidationData_errors_methodless :
    ∃ data, getValidationData id (some (.obj methodlessCreations)) = .ok data ∧
      data.response.errors = [constraintViolation (staticDataPath "a" "12345")
        (unfoundMandatoryChildError JSON_AUTHENTICATION_METHOD JSON_AUTH_SUBSCRIPTION_STATIC_DATA)] :=
  ⟨_, rfl, (getValidationData_errors id methodlessCreations _ rfl).1.trans rfl⟩

end AuthProvValidator
