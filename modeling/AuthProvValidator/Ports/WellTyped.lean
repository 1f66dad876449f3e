import AuthProvValidator.Ports.Parsed

/-!
# What the parser needs of a document

Each function of the parser returns exactly on the values of one shape; elsewhere it fails an assertion of rapidjson, or
stops with an error of its own.

* `ResourceWellTyped m` : the shape of a related resource, by its path (`returns_getRelatedResource`);
* `ChangesRead json` : the changes that are read to the end (`returns_getChangesToValidate`);
* `fails_getChangesToValidate`, `fails_getRelatedResources` : the changes only stop with an error of the parser's own,
  the related resources only at an assertion.
-/

namespace AuthProvValidator
open Recorder Json

/-! ## Members of an object -/

section Members
variable {ms : List (Str × Json)} {name : Str} {json : Json} {p : Str}

theorem hasMember_index {α : Type} (ms : List (Str × Json)) (name : Str) (k : Json → Except Assertion α)
    (d : Except Assertion α) :
    (do if ← (obj ms).hasMember name then
          let value ← (obj ms).index name
          k value
        else d) = match find ms name with
      | some value => k value
      | none => d := by
  rw [hasMember_obj, ok_bind]
  cases h : find ms name with
  | none => rfl
  | some value =>
    rw [index_obj h]
    rfl

theorem defined_hasMember : Defined (json.hasMember name) ↔ json.isObject = true := by
  cases json with
  | obj ms => exact iff_of_true ⟨_, rfl⟩ rfl
  | _ => exact iff_of_false (not_defined_error _) nofun

theorem defined_members : Defined json.members ↔ json.isObject = true := by
  cases json with
  | obj ms => exact iff_of_true ⟨_, rfl⟩ rfl
  | _ => exact iff_of_false (not_defined_error _) nofun

theorem defined_getString : Defined json.getString ↔ json.isString = true := by
  cases json with
  | str s => exact iff_of_true ⟨_, rfl⟩ rfl
  | _ => exact iff_of_false (not_defined_error _) nofun

theorem defined_getInt : Defined json.getInt ↔ json.isInt = true := by
  by_cases h : json.isInt = true
  · exact iff_of_true (getInt_of_isInt h) h
  · rw [getInt_of_not_isInt h]
    exact iff_of_false (not_defined_error _) h

theorem defined_elements : Defined json.elements ↔ json.isArray = true := by
  cases json with
  | arr vs => exact iff_of_true ⟨_, rfl⟩ rfl
  | _ => exact iff_of_false (not_defined_error _) nofun

end Members

/-! ## Legacy subscriptions -/

section Legacy
variable {ms : List (Str × Json)} {key : Str} {decode : Str → Str} {v : Json}

theorem defined_getStringMember {reverseOrderLDAP isBase64Encoded : Bool} :
    Defined (getStringMember decode (obj ms) key reverseOrderLDAP isBase64Encoded) := by
  unfold getStringMember
  rw [hasMember_index]
  split
  · exact Defined.ite (fun hs => defined_bind (defined_getString.mpr hs) fun _ => defined_ok _) fun _ => defined_ok _
  · exact defined_ok _

theorem defined_getStringOrBase64 {keyBase64 : Str} {reverseOrderLDAP : Bool} :
    Defined (getStringOrBase64 decode (obj ms) key keyBase64 reverseOrderLDAP) :=
  defined_bind defined_getStringMember fun _ =>
    Defined.ite (fun _ => defined_bind defined_getStringMember fun _ => defined_ok _) fun _ => defined_ok _

theorem defined_getIntMember : Defined (getIntMember (obj ms) key) := by
  unfold getIntMember
  rw [hasMember_index]
  split
  · exact Defined.ite (fun hi => defined_bind (defined_getInt.mpr hi) fun _ => defined_ok _) fun _ => defined_ok _
  · exact defined_ok _

/-- `VNUMBER` is there when `AKAALGIND` is, and an integer only together with it. -/
def AkaAlgIndReadable (ms : List (Str × Json)) : Prop :=
  ∀ akaAlgInd, find ms JSON_AKA_ALG_IND = some akaAlgInd →
    ∃ vNumber, find ms JSON_VNUMBER = some vNumber ∧ (vNumber.isInt = true → akaAlgInd.isInt = true)

theorem defined_getAkaAlgInd : Defined (getAkaAlgInd (obj ms)) ↔ AkaAlgIndReadable ms := by
  unfold getAkaAlgInd AkaAlgIndReadable
  rw [hasMember_obj, ok_bind]
  cases ha : find ms JSON_AKA_ALG_IND with
  | none => exact iff_of_true (defined_ok _) nofun
  | some akaAlgInd =>
    simp only [Option.isSome_some, if_true, Option.some.injEq, forall_eq']
    cases hv : find ms JSON_VNUMBER with
    | none =>
      rw [index_missing hv]
      exact iff_of_false (not_defined_error _) (by simp)
    | some vNumber =>
      rw [index_obj hv, ok_bind, index_obj ha, ok_bind]
      simp only [Option.some.injEq, exists_eq_left']
      by_cases hi : vNumber.isInt = true
      · rw [if_pos hi, defined_map, defined_getInt]
        exact (imp_iff_right hi).symm
      · rw [if_neg hi]
        exact iff_of_true (defined_ok _) fun h => absurd h hi

def LegacyWellTyped (v : Json) : Prop := ∃ ms, v = obj ms ∧ AkaAlgIndReadable ms

theorem defined_getAuthSubscriptionLegacy :
    Defined (getAuthSubscriptionLegacy decode v) ↔ LegacyWellTyped v := by
  by_cases hobj : v.isObject = true
  · obtain ⟨ms, rfl⟩ := isObject_iff.mp hobj
    have hmembers : LegacyWellTyped (obj ms) ↔ AkaAlgIndReadable ms := by
      simp [LegacyWellTyped]
    rw [hmembers, ← defined_getAkaAlgInd]
    refine defined_then defined_getIntMember fun _ => defined_then defined_getStringOrBase64 fun _ =>
      defined_then defined_getIntMember fun _ => defined_then defined_getIntMember fun _ =>
      defined_then defined_getIntMember fun _ => defined_then defined_getStringOrBase64 fun _ =>
      defined_then defined_getStringOrBase64 fun _ => defined_then defined_getIntMember fun _ =>
      defined_then defined_getIntMember fun _ => ?_
    exact defined_map
  · refine iff_of_false (fun h => hobj (defined_hasMember.mp h.of_bind.of_bind)) fun h => ?_
    obtain ⟨ms, rfl, -⟩ := h
    exact hobj rfl

end Legacy

/-! ## Journals -/

section Journal
variable {ms : List (Str × Json)} {key : Str} {decode : Str → Str} {v : Json} {vs : List Json}

theorem defined_getStrings : Defined (getStrings vs) := by
  induction vs with
  | nil => exact defined_ok _
  | cons v vs ih =>
    unfold getStrings
    exact Defined.ite (fun hs => defined_bind (defined_getString.mpr hs) fun _ => defined_bind ih fun _ => defined_ok _)
      fun _ => ih

theorem defined_getStringList : Defined (getStringList (obj ms) key) := by
  unfold getStringList
  rw [hasMember_index]
  split
  · exact Defined.ite (fun ha => defined_bind (defined_elements.mpr ha) fun _ => defined_getStrings)
      fun _ => defined_ok _
  · exact defined_ok _

def TextOrMissing (ms : List (Str × Json)) (key : Str) : Prop := ∀ v, find ms key = some v → v.isString = true

theorem defined_getStringUnchecked : Defined (getStringUnchecked (obj ms) key) ↔ TextOrMissing ms key := by
  unfold getStringUnchecked TextOrMissing
  rw [members_obj, ok_bind]
  cases find ms key with
  | none => exact iff_of_true (defined_ok _) nofun
  | some v => simpa using defined_getString

/-- An identity that can be read: anything but an object with a member of another type. -/
def SubsIdWellTyped (v : Json) : Prop :=
  ∀ ms, v = obj ms → TextOrMissing ms JSON_SUBS_ID ∧ TextOrMissing ms JSON_SUBS_PREFIX

theorem defined_getSubsId : Defined (getSubsId (obj ms)) ↔ SubsIdWellTyped (obj ms) := by
  have hmembers : SubsIdWellTyped (obj ms) ↔ TextOrMissing ms JSON_SUBS_ID ∧ TextOrMissing ms JSON_SUBS_PREFIX := by
    simp [SubsIdWellTyped]
  rw [hmembers, ← defined_getStringUnchecked, ← defined_getStringUnchecked]
  exact defined_seq fun _ => defined_map

theorem defined_getSubsIds : Defined (getSubsIds vs) ↔ ∀ v ∈ vs, SubsIdWellTyped v := by
  induction vs with
  | nil => exact iff_of_true (defined_ok _) nofun
  | cons v vs ih =>
    rw [List.forall_mem_cons, ← ih, getSubsIds]
    by_cases hobj : v.isObject = true
    · obtain ⟨ms, rfl⟩ := isObject_iff.mp hobj
      rw [if_pos hobj, defined_seq fun _ => defined_map, defined_getSubsId]
    · have hfree : SubsIdWellTyped v := fun ms hv => absurd (by rw [hv]; rfl) hobj
      rw [if_neg hobj]
      exact (and_iff_right hfree).symm

def JournalWellTyped (v : Json) : Prop :=
  ∃ ms, v = obj ms ∧ ∀ vs, find ms JSON_SUBS_ID_LIST = some (arr vs) → ∀ w ∈ vs, SubsIdWellTyped w

theorem defined_getSubsIdList : Defined (getSubsIdList (obj ms)) ↔
    ∀ vs, find ms JSON_SUBS_ID_LIST = some (arr vs) → ∀ w ∈ vs, SubsIdWellTyped w := by
  unfold getSubsIdList
  rw [hasMember_index]
  cases find ms JSON_SUBS_ID_LIST with
  | none => exact iff_of_true (defined_ok _) nofun
  | some v =>
    by_cases ha : v.isArray = true
    · obtain ⟨vs, rfl⟩ := isArray_iff.mp ha
      simp only [if_pos ha, Option.some.injEq, arr.injEq, forall_eq']
      exact defined_getSubsIds
    · simp only [if_neg ha]
      refine iff_of_true (defined_ok _) fun vs hvs => absurd ?_ ha
      rw [Option.some.inj hvs]
      rfl

theorem defined_getProvJournal : Defined (getProvJournal decode v) ↔ JournalWellTyped v := by
  by_cases hobj : v.isObject = true
  · obtain ⟨ms, rfl⟩ := isObject_iff.mp hobj
    have hmembers : JournalWellTyped (obj ms) ↔
        ∀ vs, find ms JSON_SUBS_ID_LIST = some (arr vs) → ∀ w ∈ vs, SubsIdWellTyped w := by
      simp [JournalWellTyped]
    rw [hmembers, ← defined_getSubsIdList]
    unfold getProvJournal
    -- thirty members, of which only the list of identities can stop the parser
    repeat' first
      | exact defined_map
      | refine defined_then defined_getStringMember fun _ => ?_
      | refine defined_then defined_getIntMember fun _ => ?_
      | refine defined_then defined_getStringList fun _ => ?_
  · refine iff_of_false (fun h => hobj (defined_hasMember.mp h.of_bind.of_bind)) fun h => ?_
    obtain ⟨ms, rfl, -⟩ := h
    exact hobj rfl

end Journal

/-! ## Subscriptions -/

section Subscriptions
variable {ms : List (Str × Json)} {name p : Str} {json : Json} {a : AuthSubscription}

theorem returns_access {α : Type} {x : Except Assertion α} : Returns (access x) ↔ Defined x := by
  rw [access, returns_lift]
  cases x with
  | error e => exact iff_of_false (not_defined_error _) (not_defined_error e)
  | ok a => exact iff_of_true ⟨a, rfl⟩ ⟨a, rfl⟩

theorem access_member {α : Type} (ms : List (Str × Json)) (name : Str) (k : Json → Parse α) (d : Parse α) :
    (do if ← access ((obj ms).hasMember name) then
          let value ← access ((obj ms).index name)
          k value
        else d) = match find ms name with
      | some value => k value
      | none => d := by
  rw [hasMember_obj]
  cases h : find ms name with
  | none => rfl
  | some value =>
    rw [index_obj h]
    rfl

theorem returns_addConstraintViolation {α : Type} {description : Str} {b : α} :
    Returns (addConstraintViolation p description >>= fun _ => (pure b : Parse α)) :=
  (returns_record _).bind fun _ => returns_pure b

theorem returns_readString : Returns (readString (obj ms) name p) := by
  unfold readString
  rw [access_member]
  split
  · exact Returns.ite (fun hs => (returns_access.mpr (defined_getString.mpr hs)).bind fun _ => returns_pure _)
      fun _ => returns_addConstraintViolation
  · exact returns_pure _

theorem returns_readAuthenticationMethod : Returns (readAuthenticationMethod (obj ms) p) :=
  (returns_access.mpr (defined_hasMember.mpr rfl)).bind fun _ =>
    Returns.ite (fun _ => returns_readString.bind fun _ => returns_pure _) fun _ => returns_addConstraintViolation

theorem returns_getAuthSubscriptionStaticData : Returns (getAuthSubscriptionStaticData (obj ms) p) := by
  have hvendor : Returns (access (getVendorSpecific (obj ms))) := returns_access.mpr (defined_ok _)
  exact hvendor.bind fun _ => returns_readAuthenticationMethod.bind fun _ => returns_readString.bind fun _ =>
    returns_readString.bind fun _ => returns_readString.bind fun _ => returns_readString.bind fun _ =>
    returns_readString.bind fun _ => returns_readString.bind fun _ => returns_readString.bind fun _ =>
    returns_readString.bind fun _ => returns_readString.bind fun _ => returns_pure _

theorem returns_getLastIndexesList {l : LastIndexesList} : Returns (getLastIndexesList p ms l) := by
  induction ms generalizing l with
  | nil => exact returns_pure l
  | cons v vs ih =>
    unfold getLastIndexesList
    exact Returns.ite (fun hi => (returns_access.mpr (defined_getInt.mpr hi)).bind fun _ => ih)
      fun _ => (returns_record _).bind fun _ => ih

theorem returns_readLastIndexes : Returns (readLastIndexes (obj ms) p) := by
  unfold readLastIndexes
  rw [access_member]
  split
  · exact Returns.ite (fun ho => (returns_access.mpr (defined_members.mpr ho)).bind fun _ =>
      returns_getLastIndexesList.bind fun _ => returns_pure _) fun _ => returns_addConstraintViolation
  · exact returns_pure _

theorem returns_readDynamicData : Returns (readDynamicData (obj ms) a p) := by
  unfold readDynamicData
  rw [access_member]
  split
  · refine Returns.ite (fun ho => ?_) fun _ => returns_addConstraintViolation
    obtain ⟨ks, hks⟩ := isObject_iff.mp ho
    rw [hks]
    exact Returns.bind (returns_readString.bind fun _ => returns_readString.bind fun _ =>
      returns_readLastIndexes.bind fun _ => returns_pure _) fun _ => returns_pure _
  · exact returns_pure _

/-- A subscription is read from any object, and from nothing else. -/
theorem returns_getAuthSubscription : Returns (getAuthSubscription json a p) ↔ json.isObject = true := by
  constructor
  · intro h
    obtain ⟨a', l, hrun⟩ := h []
    obtain ⟨b, m, hb, -⟩ := run_bind_ok.mp hrun
    exact defined_hasMember.mp ⟨b, (run_access.mp hb).1⟩
  · intro h
    obtain ⟨ms, rfl⟩ := isObject_iff.mp h
    unfold getAuthSubscription
    rw [access_member]
    split
    · refine Returns.ite (fun ho => ?_) fun _ => returns_addConstraintViolation
      obtain ⟨ks, hks⟩ := isObject_iff.mp ho
      rw [hks]
      exact returns_getAuthSubscriptionStaticData.bind fun _ => returns_readDynamicData
    · exact returns_addConstraintViolation

end Subscriptions

/-! ## Changes -/

/-- A member of a change that can be read: one read as `operation`, `resource_path` or `data` has a value that is
allowed there. -/
def MemberRead (m : Str × Json) : Prop :=
  if m.1.cStr = JSON_OPERATION then ∃ s, m.2 = str s ∧ isOperation s.cStr = true
  else if m.1.cStr = JSON_RESOURCE_PATH then ∃ s, m.2 = str s ∧ s.cStr ≠ []
  else if m.1.cStr = JSON_DATA then m.2.isObject = true
  else True

def ChangeRead (v : Json) : Prop := ∃ ms, v = obj ms ∧ ∀ m ∈ ms, MemberRead m

def ChangesRead (ms : List (Str × Json)) : Prop :=
  ∀ v, find ms JSON_CHANGES = some v → ∃ vs, v = arr vs ∧ ∀ c ∈ vs, ChangeRead c

section Changes
variable {v : Json} {c : Change} {m : Str × Json} {ms : List (Str × Json)}

theorem returns_getOperation : Returns (getOperation v) ↔ ∃ s, v = str s ∧ isOperation s.cStr = true := by
  cases v with
  | str s =>
    have hempty : s.cStr.isEmpty = true → ¬ isOperation s.cStr = true := by
      intro h
      rw [List.isEmpty_iff.mp h]
      decide
    have hrun : getOperation (str s) = if s.cStr.isEmpty then setEmptyFieldError JSON_OPERATION
        else if !isOperation s.cStr then
          setParsingError "operation value is not allowed. It should be either: CREATE, UPDATE or DELETE"
        else pure s.cStr := rfl
    simp only [hrun, str.injEq, exists_eq_left']
    by_cases he : s.cStr.isEmpty = true
    · rw [if_pos he]
      exact iff_of_false (not_returns_fail _) (hempty he)
    · rw [if_neg he]
      cases isOperation s.cStr with
      | true => exact iff_of_true (returns_pure _) rfl
      | false => exact iff_of_false (not_returns_fail _) nofun
  | _ => exact iff_of_false (not_returns_fail _) nofun

theorem returns_getResourcePath : Returns (getResourcePath v) ↔ ∃ s, v = str s ∧ s.cStr ≠ [] := by
  cases v with
  | str s =>
    have hrun : getResourcePath (str s) =
        if s.cStr.isEmpty then setEmptyFieldError JSON_RESOURCE_PATH else pure s.cStr := rfl
    simp only [hrun, str.injEq, exists_eq_left']
    by_cases he : s.cStr = []
    · rw [if_pos (List.isEmpty_iff.mpr he)]
      exact iff_of_false (not_returns_fail _) (not_not_intro he)
    · rw [if_neg (by rwa [List.isEmpty_iff])]
      exact iff_of_true (returns_pure _) he
  | _ => exact iff_of_false (not_returns_fail _) nofun

theorem returns_getData : Returns (getData v c) ↔ v.isObject = true := by
  by_cases ho : v.isObject = true
  · obtain ⟨ms, rfl⟩ := isObject_iff.mp ho
    refine iff_of_true ?_ ho
    unfold getData
    rw [if_neg (by simp [ho])]
    exact Returns.ite (fun _ => returns_getAuthSubscription.mpr rfl) fun _ => Returns.ite
      (fun _ => returns_getAuthSubscriptionStaticData.bind fun _ => returns_pure _) fun _ => returns_pure _
  · refine iff_of_false ?_ ho
    rw [getData, if_pos (by simpa using ho)]
    exact not_returns_fail _

theorem returns_getChangeMember : Returns (getChangeMember c m) ↔ MemberRead m := by
  unfold getChangeMember MemberRead
  dsimp only
  split_ifs
  · exact returns_map.trans returns_getOperation
  · exact returns_map.trans returns_getResourcePath
  · exact returns_map.trans returns_getData
  · exact iff_of_true (returns_pure _) trivial

theorem returns_getChange : Returns (getChange v) ↔ ChangeRead v := by
  unfold ChangeRead
  cases v with
  | obj ms =>
    simp only [obj.injEq, exists_eq_left']
    exact returns_foldlM oblivious_getChangeMember (fun _ _ => returns_getChangeMember) ms {}
  | _ => exact iff_of_false (not_returns_fail _) nofun

/-- **The changes are read exactly when each of their members can be.** -/
theorem returns_getChangesToValidate : Returns (getChangesToValidate (obj ms)) ↔ ChangesRead ms := by
  unfold getChangesToValidate ChangesRead
  rw [access_member]
  cases find ms JSON_CHANGES with
  | none => exact iff_of_true (returns_pure _) nofun
  | some v =>
    simp only [Option.some.injEq, forall_eq']
    cases v with
    | arr vs =>
      simp only [arr.injEq, exists_eq_left']
      exact returns_mapM oblivious_getChange (fun _ => returns_getChange) vs
    | _ => exact iff_of_false (not_returns_fail _) nofun

end Changes

/-! ## Related resources -/

/-- What is stored for an `authSubscription` resource: a subscription, or one in every member. -/
def SubscriptionsWellTyped (v : Json) : Prop :=
  ∃ ms, v = obj ms ∧
    ((find ms JSON_AUTH_SUBSCRIPTION_STATIC_DATA).isSome = true ∨ ∀ m ∈ ms, m.2.isObject = true)

/-- A related resource that can be read, by its path. -/
def ResourceWellTyped (m : Str × Json) : Prop :=
  if checkAuthSubscriptionUri m.1.cStr then SubscriptionsWellTyped m.2
  else if Str.endsWith m.1.cStr JSON_PROV_JOURNAL then JournalWellTyped m.2
  else if checkAuthSubscriptionLegacyUri m.1.cStr then LegacyWellTyped m.2
  else True

def RelatedWellTyped (ms : List (Str × Json)) : Prop :=
  ∀ v, find ms JSON_RELATED_RESOURCES = some v → ∃ rs, v = obj rs ∧ ∀ m ∈ rs, ResourceWellTyped m

section Related
variable {v : Json} {p : Str} {m : Str × Json} {ms : List (Str × Json)} {R : RelatedResources} {decode : Str → Str}

theorem returns_getChildSubscriptions :
    Returns (getChildSubscriptions p R ms) ↔ ∀ m ∈ ms, m.2.isObject = true := by
  induction ms generalizing R with
  | nil => exact iff_of_true (returns_pure R) nofun
  | cons m ms ih =>
    unfold getChildSubscriptions
    dsimp only
    rw [returns_seq (fun a => oblivious_getChildSubscriptions _) (fun a => ih), returns_getAuthSubscription,
      List.forall_mem_cons]

theorem returns_getSubscriptions : Returns (getSubscriptions p v R) ↔ SubscriptionsWellTyped v := by
  unfold SubscriptionsWellTyped
  cases v with
  | obj ms =>
    have hrun : getSubscriptions p (obj ms) R =
        if (find ms JSON_AUTH_SUBSCRIPTION_STATIC_DATA).isSome then
          getAuthSubscription (obj ms) {} p >>= fun a => pure (R.insertIfNew p (.authSubscription a))
        else getChildSubscriptions p R ms := rfl
    simp only [hrun, obj.injEq, exists_eq_left']
    by_cases hs : (find ms JSON_AUTH_SUBSCRIPTION_STATIC_DATA).isSome = true
    · rw [if_pos hs]
      exact iff_of_true (returns_map.mpr (returns_getAuthSubscription.mpr rfl)) (Or.inl hs)
    · rw [if_neg hs, returns_getChildSubscriptions]
      exact (or_iff_right hs).symm
  | _ => exact iff_of_false (not_returns_fail _) nofun

/-- **A related resource is read exactly when it has the shape that its path calls for.** -/
theorem returns_getRelatedResource : Returns (getRelatedResource decode R m) ↔ ResourceWellTyped m := by
  unfold getRelatedResource ResourceWellTyped
  dsimp only
  split_ifs
  · exact returns_getSubscriptions
  · exact returns_map.trans (returns_access.trans defined_getProvJournal)
  · exact returns_map.trans (returns_access.trans defined_getAuthSubscriptionLegacy)
  · exact iff_of_true (returns_pure _) trivial

theorem returns_getRelatedResources : Returns (getRelatedResources decode (obj ms)) ↔ RelatedWellTyped ms := by
  unfold getRelatedResources RelatedWellTyped
  rw [access_member]
  cases find ms JSON_RELATED_RESOURCES with
  | none => exact iff_of_true (returns_pure _) nofun
  | some v =>
    simp only [Option.some.injEq, forall_eq']
    cases v with
    | obj rs =>
      simp only [obj.injEq, exists_eq_left']
      exact returns_foldlM oblivious_getRelatedResource (fun _ _ => returns_getRelatedResource) rs ∅
    | _ => exact iff_of_false (not_returns_fail _) nofun

end Related

/-! ## How the passes stop -/

def ParseStop.IsAssertion (stop : ParseStop) : Prop := ∃ a, stop = .assertion a

def ParseStop.IsParsingError (stop : ParseStop) : Prop := ∃ text, stop = .parsingError text

section Stops
variable {v : Json} {p : Str} {c : Change} {a : AuthSubscription} {ms : List (Str × Json)} {R : RelatedResources}
  {decode : Str → Str}

theorem fails_access {α : Type} {x : Except Assertion α} : Fails ParseStop.IsAssertion (access x) := by
  refine fails_lift fun stop h => ?_
  cases x with
  | error e => exact ⟨e, (Except.error.inj h).symm⟩
  | ok a => cases h

theorem fails_setParsingError {α : Type} (text : Str) :
    Fails ParseStop.IsParsingError (setParsingError text : Parse α) :=
  fails_fail ⟨text, rfl⟩

theorem fails_getOperation : Fails ParseStop.IsParsingError (getOperation v) := by
  unfold getOperation
  cases v with
  | str s => exact fails_ok_bind ((fails_setParsingError _).ite ((fails_setParsingError _).ite (fails_pure _)))
  | _ => exact fails_setParsingError _

theorem fails_getResourcePath : Fails ParseStop.IsParsingError (getResourcePath v) := by
  unfold getResourcePath
  cases v with
  | str s => exact fails_ok_bind ((fails_setParsingError _).ite (fails_pure _))
  | _ => exact fails_setParsingError _

theorem fails_getData : Fails ParseStop.IsParsingError (getData v c) := by
  by_cases ho : v.isObject = true
  · exact (returns_getData.mpr ho).fails
  · rw [getData, if_pos (by simpa using ho)]
    exact fails_setParsingError _

theorem fails_getChange : Fails ParseStop.IsParsingError (getChange v) := by
  unfold getChange
  cases v with
  | obj ms =>
    refine fails_ok_bind (fails_foldlM (fun m _ c => ?_) _)
    exact (fails_getOperation.bind fun _ => fails_pure _).ite ((fails_getResourcePath.bind fun _ => fails_pure _).ite
      ((fails_getData.bind fun _ => fails_pure _).ite (fails_pure _)))
  | _ => exact fails_setParsingError _

/-- **The changes of an object are read without a failed assertion.** -/
theorem fails_getChangesToValidate : Fails ParseStop.IsParsingError (getChangesToValidate (obj ms)) := by
  unfold getChangesToValidate
  rw [access_member]
  split
  · rename_i v _
    cases v with
    | arr vs => exact fails_ok_bind (fails_mapM fun v _ => fails_getChange)
    | _ => exact fails_setParsingError _
  · exact fails_pure _

theorem fails_getAuthSubscription : Fails ParseStop.IsAssertion (getAuthSubscription v a p) := by
  cases v with
  | obj ms => exact (returns_getAuthSubscription.mpr rfl).fails
  | _ => exact fun log stop h => ⟨.notObject, (Except.error.inj h).symm⟩

theorem fails_getChildSubscriptions : Fails ParseStop.IsAssertion (getChildSubscriptions p R ms) := by
  induction ms generalizing R with
  | nil => exact fails_pure R
  | cons m ms ih => exact fails_getAuthSubscription.bind fun _ => ih

theorem fails_getRelatedResource {m : Str × Json} : Fails ParseStop.IsAssertion (getRelatedResource decode R m) := by
  refine Fails.ite ?_ ((fails_access.bind fun _ => fails_pure _).ite ((fails_access.bind fun _ => fails_pure _).ite
    (fails_pure _)))
  exact fails_access.bind fun b => (fails_getAuthSubscription.bind fun _ => fails_pure _).ite
    (fails_access.bind fun _ => fails_getChildSubscriptions)

/-- **The related resources only stop at a failed assertion.** -/
theorem fails_getRelatedResources : Fails ParseStop.IsAssertion (getRelatedResources decode v) :=
  fails_access.bind fun _ => Fails.ite (fails_access.bind fun _ => fails_access.bind fun _ =>
    fails_foldlM (fun _ _ _ => fails_getRelatedResource) _) (fails_pure _)

end Stops

end AuthProvValidator
