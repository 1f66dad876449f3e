import AuthProvValidator.Entities.Formats
import AuthProvValidator.Ports.Encoder
import AuthProvValidator.Ports.WellTyped

/-!
# How static data are read and written

* `TextsOfParser d` : what is known of static data that were read from a document;
* `getAuthSubscriptionStaticData_run` : what is read from an object whose members are texts;
* `AuthSubscriptionStaticData.written` : what is left of static data that are written and read again
  (`getAuthSubscriptionStaticData_written`). `encTopcKey` is not written, nor is an empty text, and a text is cut at its
  first NUL;
* `written_eq_iff` : the static data that survive.
-/

namespace AuthProvValidator
open Recorder Json

/-! ## Reading -/

/-- A text as it is read: up to its first NUL. -/
def textMember (ms : List (Str × Json)) (name : Str) : Option Str :=
  match find ms name with
  | some (.str s) => some s.cStr
  | _ => none

/-- The vendor specific members have names of their kind without a NUL. -/
def VendorSpecific.Named (v : VendorSpecific) : Prop := ∀ k ∈ v, isVendorSpecific k = true ∧ k.cStr = k

/-- What is known of static data that were read from a document. -/
structure TextsOfParser (d : AuthSubscriptionStaticData) : Prop where
  readable : d.Readable
  vendorSpecific : d.vendorSpecific.Named

section Read
variable {ms : List (Str × Json)} {json : Json} {name p : Str} {E E' : List Error} {d : AuthSubscriptionStaticData}

/-- The members of these names that are no texts, as they are recorded. -/
def notStringErrors (ms : List (Str × Json)) (p : Str) (names : List Str) : List Error :=
  (names.filter fun name => (find ms name).any (!·.isString)).map fun name =>
    constraintViolation p (notStringFieldError name)

def missingMethodErrors (ms : List (Str × Json)) (p : Str) : List Error :=
  if (find ms JSON_AUTHENTICATION_METHOD).isSome then []
  else
    [constraintViolation p (unfoundMandatoryChildError JSON_AUTHENTICATION_METHOD JSON_AUTH_SUBSCRIPTION_STATIC_DATA)]

theorem notStringErrors_append {names names' : List Str} :
    notStringErrors ms p (names ++ names') = notStringErrors ms p names ++ notStringErrors ms p names' := by
  rw [notStringErrors, List.filter_append, List.map_append]
  rfl

theorem notStringErrors_eq_nil_iff {names : List Str} :
    notStringErrors ms p names = [] ↔ ∀ name ∈ names, TextOrMissing ms name := by
  rw [notStringErrors, List.map_eq_nil_iff, List.filter_eq_nil_iff]
  refine forall₂_congr fun name _ => ?_
  unfold TextOrMissing
  cases find ms name with
  | none => simp
  | some v => simp

/-- **Reading one member**: a text is read, anything else is recorded. -/
theorem readString_run :
    (readString (obj ms) name p).run E = .ok (textMember ms name, E ++ notStringErrors ms p [name]) := by
  rw [readString, access_member, textMember, notStringErrors]
  cases hv : find ms name with
  | none =>
    rw [List.filter_singleton, hv]
    exact congrArg (fun l => Except.ok (none, l)) (List.append_nil E).symm
  | some v =>
    rw [List.filter_singleton, hv]
    cases v with
    | str s => exact congrArg (fun l => Except.ok (some s.cStr, l)) (List.append_nil E).symm
    | _ => rfl

theorem readAuthenticationMethod_run :
    (readAuthenticationMethod (obj ms) p).run E = .ok ((textMember ms JSON_AUTHENTICATION_METHOD).getD [],
      E ++ (missingMethodErrors ms p ++ notStringErrors ms p [JSON_AUTHENTICATION_METHOD])) := by
  rw [readAuthenticationMethod, hasMember_obj, missingMethodErrors]
  refine run_bind_ok.mpr ⟨(find ms JSON_AUTHENTICATION_METHOD).isSome, E, rfl, ?_⟩
  cases hv : find ms JSON_AUTHENTICATION_METHOD with
  | none =>
    have hnone : notStringErrors ms p [JSON_AUTHENTICATION_METHOD] = [] := by
      rw [notStringErrors, List.filter_singleton, hv]
      rfl
    rw [hnone, textMember, hv]
    rfl
  | some v =>
    rw [Option.isSome_some, if_pos rfl, if_pos rfl, List.nil_append]
    exact run_bind_ok.mpr ⟨_, _, readString_run, rfl⟩

/-- The vendor specific members of an object, the first of each name. -/
def vendorMembers (ms : List (Str × Json)) : VendorSpecific :=
  ms.foldl (fun vendorSpecific m =>
    if isVendorSpecific m.1.cStr then vendorSpecific.insertIfNew m.1.cStr m.2 else vendorSpecific) ∅

def staticDataNames : List Str :=
  [JSON_AUTHENTICATION_METHOD, JSON_ENC_PERMANENT_KEY, JSON_AUTHENTICATION_MANAGEMENT_FIELD, JSON_ALGORITHM_ID,
    JSON_A4_KEY_IND, JSON_A4_IND, JSON_ENC_OPC_KEY, JSON_ENC_TOPC_KEY, JSON_A4_KEY_V, JSON_AKA_ALGORITHM_IND]

def readStaticData (ms : List (Str × Json)) : AuthSubscriptionStaticData where
  authenticationMethod := (textMember ms JSON_AUTHENTICATION_METHOD).getD []
  encPermanentKey := textMember ms JSON_ENC_PERMANENT_KEY
  authenticationManagementField := textMember ms JSON_AUTHENTICATION_MANAGEMENT_FIELD
  algorithmId := textMember ms JSON_ALGORITHM_ID
  a4KeyInd := textMember ms JSON_A4_KEY_IND
  a4Ind := textMember ms JSON_A4_IND
  encOpcKey := textMember ms JSON_ENC_OPC_KEY
  encTopcKey := textMember ms JSON_ENC_TOPC_KEY
  a4KeyV := textMember ms JSON_A4_KEY_V
  akaAlgorithmInd := textMember ms JSON_AKA_ALGORITHM_IND
  vendorSpecific := vendorMembers ms

/-- **Reading an object.** -/
theorem getAuthSubscriptionStaticData_run :
    (getAuthSubscriptionStaticData (obj ms) p).run E =
      .ok (readStaticData ms, E ++ (missingMethodErrors ms p ++ notStringErrors ms p staticDataNames)) := by
  refine run_bind_ok.mpr ⟨vendorMembers ms, E, rfl, ?_⟩
  refine run_bind_ok.mpr ⟨_, _, readAuthenticationMethod_run, ?_⟩
  refine run_bind_ok.mpr ⟨_, _, readString_run, ?_⟩
  refine run_bind_ok.mpr ⟨_, _, readString_run, ?_⟩
  refine run_bind_ok.mpr ⟨_, _, readString_run, ?_⟩
  refine run_bind_ok.mpr ⟨_, _, readString_run, ?_⟩
  refine run_bind_ok.mpr ⟨_, _, readString_run, ?_⟩
  refine run_bind_ok.mpr ⟨_, _, readString_run, ?_⟩
  refine run_bind_ok.mpr ⟨_, _, readString_run, ?_⟩
  refine run_bind_ok.mpr ⟨_, _, readString_run, ?_⟩
  refine run_bind_ok.mpr ⟨_, _, readString_run, ?_⟩
  have hnames : staticDataNames = [JSON_AUTHENTICATION_METHOD] ++ [JSON_ENC_PERMANENT_KEY] ++
      [JSON_AUTHENTICATION_MANAGEMENT_FIELD] ++ [JSON_ALGORITHM_ID] ++ [JSON_A4_KEY_IND] ++ [JSON_A4_IND] ++
      [JSON_ENC_OPC_KEY] ++ [JSON_ENC_TOPC_KEY] ++ [JSON_A4_KEY_V] ++ [JSON_AKA_ALGORITHM_IND] := rfl
  rw [hnames]
  simp only [notStringErrors_append, ← List.append_assoc]
  rfl

theorem staticDataErrors_eq_nil_iff :
    missingMethodErrors ms p ++ notStringErrors ms p staticDataNames = [] ↔
      (find ms JSON_AUTHENTICATION_METHOD).isSome = true ∧ ∀ name ∈ staticDataNames, TextOrMissing ms name := by
  rw [List.append_eq_nil_iff, notStringErrors_eq_nil_iff, missingMethodErrors]
  refine and_congr_left fun _ => ?_
  split
  · rename_i hsome
    exact iff_of_true rfl hsome
  · rename_i hnone
    exact iff_of_false (by simp) hnone

theorem readString_readable {text : Option Str} (h : (readString json name p).run E = .ok (text, E')) :
    ∀ t, text = some t → '\x00' ∉ t := by
  obtain ⟨b, E₁, -, h⟩ := run_bind_ok.mp h
  split at h
  · obtain ⟨value, E₂, -, h⟩ := run_bind_ok.mp h
    split at h
    · obtain ⟨s, E₃, hs, h⟩ := run_bind_ok.mp h
      obtain ⟨rfl, -⟩ := Prod.mk.inj (Except.ok.inj h)
      obtain ⟨hs, -⟩ := run_access.mp hs
      cases value with
      | str s' =>
        obtain rfl := Except.ok.inj hs
        intro t ht
        rw [← Option.some.inj ht]
        exact Str.nul_not_mem_cStr s'
      | _ => cases hs
    · obtain ⟨_, E₃, -, h⟩ := run_bind_ok.mp h
      obtain ⟨rfl, -⟩ := Prod.mk.inj (Except.ok.inj h)
      exact nofun
  · obtain ⟨rfl, -⟩ := Prod.mk.inj (Except.ok.inj h)
    exact nofun

theorem readAuthenticationMethod_readable {text : Str} (h : (readAuthenticationMethod json p).run E = .ok (text, E')) :
    '\x00' ∉ text := by
  obtain ⟨b, E₁, -, h⟩ := run_bind_ok.mp h
  split at h
  · obtain ⟨r, E₂, hr, h⟩ := run_bind_ok.mp h
    obtain ⟨rfl, -⟩ := Prod.mk.inj (Except.ok.inj h)
    cases r with
    | none => exact List.not_mem_nil
    | some t => exact readString_readable hr t rfl
  · obtain ⟨_, E₂, -, h⟩ := run_bind_ok.mp h
    obtain ⟨rfl, -⟩ := Prod.mk.inj (Except.ok.inj h)
    exact List.not_mem_nil

theorem VendorSpecific.Named.insertIfNew {v : VendorSpecific} (hv : v.Named) {k : Str} {value : Json}
    (hk : isVendorSpecific k = true) (hc : k.cStr = k) : VendorSpecific.Named (v.insertIfNew k value) := by
  intro k' hk'
  rcases Std.ExtTreeMap.mem_insertIfNew.mp hk' with heq | hmem
  · obtain rfl := Std.LawfulEqCmp.eq_of_compare heq
    exact ⟨hk, hc⟩
  · exact hv k' hmem

theorem named_foldl_vendorMembers {v : VendorSpecific} (hv : v.Named) :
    VendorSpecific.Named (ms.foldl (fun vendorSpecific m =>
      if isVendorSpecific m.1.cStr then vendorSpecific.insertIfNew m.1.cStr m.2 else vendorSpecific) v) := by
  induction ms generalizing v with
  | nil => exact hv
  | cons m ms ih =>
    apply ih
    dsimp only
    split
    · rename_i hk
      exact hv.insertIfNew hk (Str.cStr_cStr m.1)
    · exact hv

theorem named_vendorMembers : VendorSpecific.Named (vendorMembers ms) :=
  named_foldl_vendorMembers fun _ hk => absurd hk Std.ExtTreeMap.not_mem_empty

/-- **What is known of static data that were read.** -/
theorem textsOfParser_of_run (h : (getAuthSubscriptionStaticData json p).run E = .ok (d, E')) : TextsOfParser d := by
  obtain ⟨v, E₀, hv, h⟩ := run_bind_ok.mp h
  obtain ⟨_, E₁, hmethod, h⟩ := run_bind_ok.mp h
  obtain ⟨_, E₂, h1, h⟩ := run_bind_ok.mp h
  obtain ⟨_, E₃, h2, h⟩ := run_bind_ok.mp h
  obtain ⟨_, E₄, h3, h⟩ := run_bind_ok.mp h
  obtain ⟨_, E₅, h4, h⟩ := run_bind_ok.mp h
  obtain ⟨_, E₆, h5, h⟩ := run_bind_ok.mp h
  obtain ⟨_, E₇, h6, h⟩ := run_bind_ok.mp h
  obtain ⟨_, E₈, h7, h⟩ := run_bind_ok.mp h
  obtain ⟨_, E₉, h8, h⟩ := run_bind_ok.mp h
  obtain ⟨_, E₁₀, h9, h⟩ := run_bind_ok.mp h
  obtain ⟨rfl, -⟩ := Prod.mk.inj (Except.ok.inj h)
  refine ⟨⟨readAuthenticationMethod_readable hmethod, ?_⟩, ?_⟩
  · simp only [AuthSubscriptionStaticData.attributes, List.mem_cons, List.not_mem_nil, or_false]
    rintro t (ht | ht | ht | ht | ht | ht | ht | ht | ht)
    · exact readString_readable h1 t ht.symm
    · exact readString_readable h2 t ht.symm
    · exact readString_readable h3 t ht.symm
    · exact readString_readable h4 t ht.symm
    · exact readString_readable h5 t ht.symm
    · exact readString_readable h6 t ht.symm
    · exact readString_readable h7 t ht.symm
    · exact readString_readable h8 t ht.symm
    · exact readString_readable h9 t ht.symm
  · obtain ⟨hv, -⟩ := run_access.mp hv
    cases json with
    | obj ms =>
      obtain rfl := Except.ok.inj hv
      exact named_vendorMembers
    | _ => cases hv

end Read

/-! ## The static data of a change -/

/-- The static data of the change were read from a document. -/
def Change.FromParser (c : Change) : Prop :=
  ∀ d, c.authSubscription.authSubscriptionStaticData = some d → TextsOfParser d

section Changes
variable {c c' : Change} {json : Json} {changes : List Change} {a a' : AuthSubscription} {p : Str} {E E' : List Error}
  {decode : Str → Str} {doc : Option Json} {data : ValidationData}

theorem fromParser_of_getAuthSubscription (h : (getAuthSubscription json a p).run E = .ok (a', E'))
    (ha : ∀ d, a.authSubscriptionStaticData = some d → TextsOfParser d) :
    ∀ d, a'.authSubscriptionStaticData = some d → TextsOfParser d := by
  obtain ⟨b, E₁, -, h⟩ := run_bind_ok.mp h
  split at h
  · obtain ⟨staticJson, E₂, -, h⟩ := run_bind_ok.mp h
    split at h
    · obtain ⟨d', E₃, hd', h⟩ := run_bind_ok.mp h
      intro d hd
      rw [static_of_readDynamicData h] at hd
      rw [← Option.some.inj hd]
      exact textsOfParser_of_run hd'
    · obtain ⟨_, _, -, h⟩ := run_bind_ok.mp h
      rw [← (Prod.mk.inj (Except.ok.inj h)).1]
      exact ha
  · obtain ⟨_, _, -, h⟩ := run_bind_ok.mp h
    rw [← (Prod.mk.inj (Except.ok.inj h)).1]
    exact ha

theorem fromParser_of_getData (h : (getData json c).run E = .ok (a, E')) (hc : c.FromParser) :
    ∀ d, a.authSubscriptionStaticData = some d → TextsOfParser d := by
  unfold getData at h
  split at h
  · cases h
  · split at h
    · exact fromParser_of_getAuthSubscription h hc
    · split at h
      · obtain ⟨d', E₁, hd', h⟩ := run_bind_ok.mp h
        obtain ⟨rfl, -⟩ := Prod.mk.inj (Except.ok.inj h)
        intro d hd
        rw [← Option.some.inj hd]
        exact textsOfParser_of_run hd'
      · obtain ⟨rfl, -⟩ := Prod.mk.inj (Except.ok.inj h)
        exact hc

theorem fromParser_of_getChangeMember {m : Str × Json} (h : (getChangeMember c m).run E = .ok (c', E'))
    (hc : c.FromParser) : c'.FromParser := by
  unfold getChangeMember at h
  dsimp only at h
  split at h
  · obtain ⟨operation, E₁, -, h⟩ := run_bind_ok.mp h
    obtain ⟨rfl, -⟩ := Prod.mk.inj (Except.ok.inj h)
    exact hc
  · split at h
    · obtain ⟨path, E₁, -, h⟩ := run_bind_ok.mp h
      obtain ⟨rfl, -⟩ := Prod.mk.inj (Except.ok.inj h)
      exact hc
    · split at h
      · obtain ⟨a, E₁, ha, h⟩ := run_bind_ok.mp h
        obtain ⟨rfl, -⟩ := Prod.mk.inj (Except.ok.inj h)
        exact fromParser_of_getData ha hc
      · obtain ⟨rfl, -⟩ := Prod.mk.inj (Except.ok.inj h)
        exact hc

/-- **The static data of the changes of a request without errors were read from its document.** -/
theorem fromParser_of_getValidationData (h : getValidationData decode doc = .ok data)
    (herrors : data.response.errors = []) : ∀ c ∈ data.changes, c.FromParser := by
  obtain ⟨json, -, hchanges, -, -⟩ := silent_of_getValidationData h herrors
  have hstart : Change.FromParser {} := nofun
  exact forall_of_getChangesToValidate hstart (fun c m c' E E' hc hturn => fromParser_of_getChangeMember hturn hc)
    hchanges

end Changes

/-! ## Writing -/

def writtenText (text : Option Str) : Option Str :=
  match text with
  | some t => if t.isEmpty then none else some t.cStr
  | none => none

/-- Static data that are written and read again. -/
def AuthSubscriptionStaticData.written (d : AuthSubscriptionStaticData) : AuthSubscriptionStaticData where
  authenticationMethod := d.authenticationMethod.cStr
  encPermanentKey := writtenText d.encPermanentKey
  authenticationManagementField := writtenText d.authenticationManagementField
  algorithmId := writtenText d.algorithmId
  a4KeyInd := writtenText d.a4KeyInd
  a4Ind := writtenText d.a4Ind
  encOpcKey := writtenText d.encOpcKey
  encTopcKey := none
  a4KeyV := writtenText d.a4KeyV
  akaAlgorithmInd := writtenText d.akaAlgorithmInd
  vendorSpecific := d.vendorSpecific

/-- The members that are written for the attributes, in their order. -/
def AuthSubscriptionStaticData.writtenMembers (d : AuthSubscriptionStaticData) : List (Str × Option Str) := [
  (JSON_AUTHENTICATION_METHOD, some d.authenticationMethod),
  (JSON_ENC_PERMANENT_KEY, d.encPermanentKey),
  (JSON_AUTHENTICATION_MANAGEMENT_FIELD, d.authenticationManagementField),
  (JSON_ALGORITHM_ID, d.algorithmId),
  (JSON_A4_KEY_IND, d.a4KeyInd),
  (JSON_A4_IND, d.a4Ind),
  (JSON_ENC_OPC_KEY, d.encOpcKey),
  (JSON_A4_KEY_V, d.a4KeyV),
  (JSON_AKA_ALGORITHM_IND, d.akaAlgorithmInd)]

section Written
variable {d : AuthSubscriptionStaticData} {a : AuthSubscription} {l : List (Str × Option Str)} {name : Str}
  {text : Option Str} {v : VendorSpecific}

theorem authSubscriptionStaticDataToJson_eq (h : a.authSubscriptionStaticData = some d) :
    authSubscriptionStaticDataToJson a =
      vendorSpecificToJson d.vendorSpecific ++ d.writtenMembers.flatMap fun m => optionalStrToJson m.2 m.1 := by
  rw [authSubscriptionStaticDataToJson, h]
  simp only [AuthSubscriptionStaticData.writtenMembers, List.flatMap_cons, List.flatMap_nil, List.append_nil,
    List.append_assoc]
  rfl

theorem find_optionalStrToJson_self : find (optionalStrToJson text name) name = (writtenText text).map Json.str := by
  cases text with
  | none => rfl
  | some t =>
    rw [optionalStrToJson, strToJson, writtenText]
    split
    · rfl
    · exact List.lookup_cons_self

theorem find_optionalStrToJson_ne {key : Str} (h : name ≠ key) : find (optionalStrToJson text key) name = none := by
  cases text with
  | none => rfl
  | some t =>
    rw [optionalStrToJson, strToJson]
    split
    · rfl
    · rw [find_cons, if_neg h]
      rfl

theorem find_members_none (h : name ∉ l.map Prod.fst) :
    find (l.flatMap fun m => optionalStrToJson m.2 m.1) name = none := by
  induction l with
  | nil => rfl
  | cons m l ih =>
    rw [List.map_cons, List.mem_cons, not_or] at h
    rw [List.flatMap_cons, find_append, find_optionalStrToJson_ne h.1, Option.none_or, ih h.2]

theorem find_members (hnodup : (l.map Prod.fst).Nodup) (hmem : (name, text) ∈ l) :
    find (l.flatMap fun m => optionalStrToJson m.2 m.1) name = (writtenText text).map Json.str := by
  induction l with
  | nil => exact absurd hmem List.not_mem_nil
  | cons m l ih =>
    rw [List.map_cons, List.nodup_cons] at hnodup
    rw [List.flatMap_cons, find_append]
    rcases List.mem_cons.mp hmem with rfl | hin
    · rw [find_members_none hnodup.1, Option.or_none, find_optionalStrToJson_self]
    · have hne : name ≠ m.1 := by
        intro hname
        apply hnodup.1
        rw [← hname]
        exact List.mem_map_of_mem hin
      rw [find_optionalStrToJson_ne hne, Option.none_or, ih hnodup.2 hin]

/-- The names of the attributes are not those of vendor specific members. -/
theorem not_isVendorSpecific : ∀ name ∈ staticDataNames, isVendorSpecific name = false := by
  simp only [staticDataNames, List.forall_mem_cons, List.not_mem_nil, false_implies, implies_true, and_true]
  decide

theorem getElem?_foldl_insertIfNew {ms : List (Str × Json)} {k : Str} (hms : ∀ m ∈ ms, m.1.cStr = m.1) :
    (ms.foldl (fun vendorSpecific m =>
      if isVendorSpecific m.1.cStr then vendorSpecific.insertIfNew m.1.cStr m.2 else vendorSpecific) v)[k]? =
      v[k]?.or (if isVendorSpecific k then find ms k else none) := by
  induction ms generalizing v with
  | nil => simp [find]
  | cons m ms ih =>
    rw [List.forall_mem_cons] at hms
    rw [List.foldl_cons, ih hms.2, hms.1, find_cons]
    by_cases hkind : isVendorSpecific m.1 = true
    · rw [if_pos hkind, Std.ExtTreeMap.getElem?_insertIfNew]
      by_cases hk : k = m.1
      · rw [if_pos hk]
        by_cases hmem : m.1 ∈ v
        · have hsome : v[k]?.isSome = true := by rwa [hk, ← Std.ExtTreeMap.mem_iff_isSome_getElem?]
          obtain ⟨value, hvalue⟩ := Option.isSome_iff_exists.mp hsome
          rw [if_neg (fun h => h.2 hmem), hvalue, Option.some_or, Option.some_or]
        · have heq : compare m.1 k = .eq := by
            rw [hk]
            exact Std.ReflCmp.compare_self
          rw [if_pos ⟨heq, hmem⟩, hk, Std.ExtTreeMap.getElem?_eq_none hmem, Option.some_or, Option.none_or,
            if_pos hkind]
      · have hne : compare m.1 k ≠ .eq := fun h => hk (Std.LawfulEqCmp.eq_of_compare h).symm
        rw [if_neg hk, if_neg fun h => hne h.1]
    · rw [if_neg hkind]
      by_cases hk : k = m.1
      · rw [hk, if_neg hkind, if_neg hkind]
      · rw [if_neg hk]

theorem getElem?_vendorMembers {ms : List (Str × Json)} {k : Str} (hms : ∀ m ∈ ms, m.1.cStr = m.1) :
    (vendorMembers ms)[k]? = if isVendorSpecific k then find ms k else none := by
  rw [vendorMembers, getElem?_foldl_insertIfNew hms, Std.ExtTreeMap.getElem?_empty, Option.none_or]

theorem vendorMembers_append {ms ms' : List (Str × Json)} (h : ∀ m ∈ ms', isVendorSpecific m.1.cStr = false) :
    vendorMembers (ms ++ ms') = vendorMembers ms := by
  rw [vendorMembers, List.foldl_append]
  show ms'.foldl _ (vendorMembers ms) = vendorMembers ms
  induction ms' with
  | nil => rfl
  | cons m ms' ih =>
    rw [List.forall_mem_cons] at h
    rw [List.foldl_cons, if_neg (by rw [h.1]; decide)]
    exact ih h.2

theorem find_toList {k : Str} : find v.toList k = v[k]? := by
  have hnodup : (v.toList.map Prod.fst).Nodup := by
    rw [List.Nodup, List.pairwise_map]
    refine Std.ExtTreeMap.distinct_keys_toList.imp fun h heq => h ?_
    rw [heq]
    exact Std.ReflCmp.compare_self
  apply Option.ext
  intro value
  rw [find_eq_some_iff hnodup]
  exact Std.ExtTreeMap.mem_toList_iff_getElem?_eq_some

theorem VendorSpecific.Named.of_mem_toList (hv : v.Named) {m : Str × Json} (hm : m ∈ v.toList) :
    isVendorSpecific m.1 = true ∧ m.1.cStr = m.1 := by
  apply hv
  rw [Std.ExtTreeMap.mem_iff_isSome_getElem?, Std.ExtTreeMap.mem_toList_iff_getElem?_eq_some.mp hm]
  rfl

theorem vendorSpecificToJson_eq (hv : v.Named) : vendorSpecificToJson v = v.toList := by
  refine (List.map_congr_left fun m hm => ?_).trans (List.map_id v.toList)
  rw [(hv.of_mem_toList hm).2]
  rfl

/-- The vendor specific members are read as they were written. -/
theorem vendorMembers_vendorSpecificToJson (hv : v.Named) : vendorMembers (vendorSpecificToJson v) = v := by
  apply Std.ExtTreeMap.ext_getElem?
  intro k
  have hnames : ∀ m ∈ v.toList, m.1.cStr = m.1 := fun m hm => (hv.of_mem_toList hm).2
  rw [vendorSpecificToJson_eq hv, getElem?_vendorMembers hnames, find_toList]
  by_cases hk : isVendorSpecific k = true
  · rw [if_pos hk]
  · rw [if_neg hk]
    have hmem : k ∉ v := fun h => hk (hv k h).1
    exact (Std.ExtTreeMap.getElem?_eq_none hmem).symm

theorem find_vendorSpecificToJson (hv : v.Named) (hname : isVendorSpecific name = false) :
    find (vendorSpecificToJson v) name = none := by
  rw [vendorSpecificToJson_eq hv, find_toList]
  apply Std.ExtTreeMap.getElem?_eq_none
  intro hmem
  rw [(hv name hmem).1] at hname
  cases hname

theorem name_of_mem_members {m : Str × Json} (hm : m ∈ l.flatMap fun m => optionalStrToJson m.2 m.1) :
    m.1 ∈ l.map Prod.fst := by
  obtain ⟨m', hm', hin⟩ := List.mem_flatMap.mp hm
  have hname : m.1 = m'.1 := by
    unfold optionalStrToJson strToJson at hin
    split at hin
    · split at hin
      · exact absurd hin List.not_mem_nil
      · rw [List.mem_singleton.mp hin]
    · exact absurd hin List.not_mem_nil
  rw [hname]
  exact List.mem_map_of_mem hm'

theorem writtenMembers_names : d.writtenMembers.map Prod.fst = staticDataNames.filter (· != JSON_ENC_TOPC_KEY) := by
  show [JSON_AUTHENTICATION_METHOD, JSON_ENC_PERMANENT_KEY, JSON_AUTHENTICATION_MANAGEMENT_FIELD, JSON_ALGORITHM_ID,
    JSON_A4_KEY_IND, JSON_A4_IND, JSON_ENC_OPC_KEY, JSON_A4_KEY_V, JSON_AKA_ALGORITHM_IND] = _
  decide

theorem find_written (ha : a.authSubscriptionStaticData = some d) (hv : d.vendorSpecific.Named)
    (hmem : (name, text) ∈ d.writtenMembers) :
    find (authSubscriptionStaticDataToJson a) name = (writtenText text).map Json.str := by
  have hin : name ∈ d.writtenMembers.map Prod.fst := List.mem_map_of_mem hmem
  have hnodup : (d.writtenMembers.map Prod.fst).Nodup := by
    rw [writtenMembers_names]
    decide
  rw [writtenMembers_names] at hin
  rw [authSubscriptionStaticDataToJson_eq ha, find_append,
    find_vendorSpecificToJson hv (not_isVendorSpecific name (List.mem_of_mem_filter hin)), Option.none_or,
    find_members hnodup hmem]

theorem find_written_encTopcKey (ha : a.authSubscriptionStaticData = some d) (hv : d.vendorSpecific.Named) :
    find (authSubscriptionStaticDataToJson a) JSON_ENC_TOPC_KEY = none := by
  have hnone : JSON_ENC_TOPC_KEY ∉ d.writtenMembers.map Prod.fst := by
    rw [writtenMembers_names]
    decide
  rw [authSubscriptionStaticDataToJson_eq ha, find_append, find_vendorSpecificToJson hv (by decide), Option.none_or,
    find_members_none hnone]

theorem textMember_written (ha : a.authSubscriptionStaticData = some d) (hv : d.vendorSpecific.Named)
    (hmem : (name, text) ∈ d.writtenMembers) :
    textMember (authSubscriptionStaticDataToJson a) name = writtenText text := by
  rw [textMember, find_written ha hv hmem]
  cases text with
  | none => rfl
  | some t =>
    rw [writtenText]
    split_ifs
    · rfl
    · exact congrArg some (Str.cStr_cStr t)

theorem textOrMissing_written (ha : a.authSubscriptionStaticData = some d) (hv : d.vendorSpecific.Named) :
    ∀ name ∈ staticDataNames, TextOrMissing (authSubscriptionStaticDataToJson a) name := by
  intro name hname value hvalue
  by_cases htopc : name = JSON_ENC_TOPC_KEY
  · rw [htopc, find_written_encTopcKey ha hv] at hvalue
    cases hvalue
  · have hin : name ∈ d.writtenMembers.map Prod.fst := by
      rw [writtenMembers_names]
      exact List.mem_filter.mpr ⟨hname, bne_iff_ne.mpr htopc⟩
    obtain ⟨m, hm, rfl⟩ := List.mem_map.mp hin
    rw [find_written ha hv hm, Option.map_eq_some_iff] at hvalue
    obtain ⟨t, -, rfl⟩ := hvalue
    rfl

/-- **Writing static data and reading them again.** -/
theorem getAuthSubscriptionStaticData_written {p : Str} {E : List Error} (ha : a.authSubscriptionStaticData = some d)
    (hv : d.vendorSpecific.Named) (hmethod : d.authenticationMethod ≠ []) :
    (getAuthSubscriptionStaticData (obj (authSubscriptionStaticDataToJson a)) p).run E = .ok (d.written, E) := by
  have hmem : ∀ m ∈ d.writtenMembers, textMember (authSubscriptionStaticDataToJson a) m.1 = writtenText m.2 :=
    fun m hm => textMember_written ha hv hm
  simp only [AuthSubscriptionStaticData.writtenMembers, List.forall_mem_cons, List.not_mem_nil, false_implies,
    implies_true, and_true] at hmem
  obtain ⟨-, h1, h2, h3, h4, h5, h6, h7, h8⟩ := hmem
  have hfound : find (authSubscriptionStaticDataToJson a) JSON_AUTHENTICATION_METHOD =
      some (.str d.authenticationMethod.cStr) := by
    have hin : (JSON_AUTHENTICATION_METHOD, some d.authenticationMethod) ∈ d.writtenMembers := List.mem_cons_self
    have hwritten : writtenText (some d.authenticationMethod) = some d.authenticationMethod.cStr :=
      if_neg (by simpa using hmethod)
    rw [find_written ha hv hin, hwritten, Option.map_some]
  have htopc : textMember (authSubscriptionStaticDataToJson a) JSON_ENC_TOPC_KEY = none := by
    rw [textMember, find_written_encTopcKey ha hv]
  have hvendor : vendorMembers (authSubscriptionStaticDataToJson a) = d.vendorSpecific := by
    rw [authSubscriptionStaticDataToJson_eq ha, vendorMembers_append ?_, vendorMembers_vendorSpecificToJson hv]
    intro m hm
    have hin := name_of_mem_members hm
    rw [writtenMembers_names] at hin
    have hc : ∀ name ∈ staticDataNames, name.cStr = name := by decide
    have hname := List.mem_of_mem_filter hin
    rw [hc m.1 hname]
    exact not_isVendorSpecific m.1 hname
  have herrors : missingMethodErrors (authSubscriptionStaticDataToJson a) p ++
      notStringErrors (authSubscriptionStaticDataToJson a) p staticDataNames = [] := by
    apply staticDataErrors_eq_nil_iff.mpr
    rw [hfound]
    exact ⟨rfl, textOrMissing_written ha hv⟩
  have hmethodRead : textMember (authSubscriptionStaticDataToJson a) JSON_AUTHENTICATION_METHOD =
      some d.authenticationMethod.cStr := by
    rw [textMember, hfound]
    exact congrArg some (Str.cStr_cStr _)
  rw [getAuthSubscriptionStaticData_run, herrors, List.append_nil, readStaticData, h1, h2, h3, h4, h5, h6, h7,
    h8, htopc, hvendor, hmethodRead]
  rfl

/-! ## What survives -/

theorem writtenText_eq_iff : writtenText text = text ↔ ∀ t, text = some t → t ≠ [] ∧ '\x00' ∉ t := by
  cases text with
  | none => exact iff_of_true rfl nofun
  | some t =>
    simp only [writtenText, Option.some.injEq, forall_eq']
    by_cases ht : t = []
    · rw [if_pos (by simpa using ht)]
      exact iff_of_false nofun fun h => h.1 ht
    · rw [if_neg (by simpa using ht), Option.some.injEq]
      constructor
      · intro h
        refine ⟨ht, ?_⟩
        rw [← h]
        exact Str.nul_not_mem_cStr t
      · intro h
        exact Str.cStr_eq_self h.2

/-- **The static data that survive being written**: no `encTopcKey`, and every text not empty and without a NUL. -/
theorem written_eq_iff (hmethod : '\x00' ∉ d.authenticationMethod) :
    d.written = d ↔ d.encTopcKey = none ∧ ∀ t, some t ∈ d.attributes → t ≠ [] ∧ '\x00' ∉ t := by
  have hlist : (∀ t, some t ∈ d.attributes → t ≠ [] ∧ '\x00' ∉ t) ↔
      ∀ attr ∈ d.attributes, ∀ t, attr = some t → t ≠ [] ∧ '\x00' ∉ t :=
    ⟨fun h attr hattr t ht => h t (ht ▸ hattr), fun h t ht => h _ ht t rfl⟩
  rw [hlist]
  simp only [AuthSubscriptionStaticData.attributes, List.forall_mem_cons, List.not_mem_nil, false_implies, implies_true,
    and_true, ← writtenText_eq_iff]
  constructor
  · intro h
    have hfields := fun (f : AuthSubscriptionStaticData → Option Str) => congrArg f h
    have hnone : d.encTopcKey = none := (hfields (·.encTopcKey)).symm
    refine ⟨hnone, hfields (·.encPermanentKey), hfields (·.authenticationManagementField), hfields (·.algorithmId),
      hfields (·.a4KeyInd), hfields (·.a4Ind), hfields (·.encOpcKey), ?_, hfields (·.a4KeyV),
      hfields (·.akaAlgorithmInd)⟩
    rw [hnone]
    rfl
  · intro h
    obtain ⟨hnone, h1, h2, h3, h4, h5, h6, -, h7, h8⟩ := h
    rw [AuthSubscriptionStaticData.written, h1, h2, h3, h4, h5, h6, h7, h8, Str.cStr_eq_self hmethod, ← hnone]

end Written

end AuthProvValidator
