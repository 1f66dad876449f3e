import AuthProvValidator.Ports.StaticData

/-!
# What is read of static data

* `isVendorSpecific_iff` : the names that the vendor specific pattern matches;
* `staticDataErrors` : the errors for an object, one for each of the ten members that is there and is no text, and one
  when `authenticationMethod` is missing;
* `getAuthSubscriptionStaticData_exact` : with distinct names and no NUL, each attribute is the text of its own member,
  these are the errors, and there is none exactly when the object is well typed.
-/

namespace AuthProvValidator
open Regex Regex.Expr Recorder Json

def VENDOR_SPECIFIC_PREFIX : Str := "vendorSpecific-"

/-- The errors that an object is read with. -/
def staticDataErrors (ms : List (Str × Json)) (p : Str) : List Error :=
  (if JSON_AUTHENTICATION_METHOD ∈ ms.map Prod.fst then []
    else [constraintViolation p
      (unfoundMandatoryChildError JSON_AUTHENTICATION_METHOD JSON_AUTH_SUBSCRIPTION_STATIC_DATA)]) ++
  (staticDataNames.filter fun name => ms.any fun m => m.1 == name && !m.2.isString).map fun name =>
    constraintViolation p (notStringFieldError name)

/-- The optional attributes, each under the name of its member. -/
def AuthSubscriptionStaticData.optionalMembers (d : AuthSubscriptionStaticData) : List (Str × Option Str) := [
  (JSON_ENC_PERMANENT_KEY, d.encPermanentKey),
  (JSON_AUTHENTICATION_MANAGEMENT_FIELD, d.authenticationManagementField),
  (JSON_ALGORITHM_ID, d.algorithmId),
  (JSON_A4_KEY_IND, d.a4KeyInd),
  (JSON_A4_IND, d.a4Ind),
  (JSON_ENC_OPC_KEY, d.encOpcKey),
  (JSON_ENC_TOPC_KEY, d.encTopcKey),
  (JSON_A4_KEY_V, d.a4KeyV),
  (JSON_AKA_ALGORITHM_IND, d.akaAlgorithmInd)]

/-- Each attribute is the text of its own member; `authenticationMethod` stays empty without one. -/
structure ReadExactly (ms : List (Str × Json)) (d : AuthSubscriptionStaticData) : Prop where
  authenticationMethod : ∀ s, (JSON_AUTHENTICATION_METHOD, Json.str s) ∈ ms → d.authenticationMethod = s
  noMethod : (∀ s, (JSON_AUTHENTICATION_METHOD, Json.str s) ∉ ms) → d.authenticationMethod = []
  optional : ∀ m ∈ d.optionalMembers, ∀ s, m.2 = some s ↔ (m.1, Json.str s) ∈ ms
  vendorSpecific : ∀ k v, d.vendorSpecific[k]? = some v ↔ (k, v) ∈ ms ∧ VENDOR_SPECIFIC_PREFIX <+: k

structure StaticDataWellTyped (ms : List (Str × Json)) : Prop where
  mandatory : JSON_AUTHENTICATION_METHOD ∈ ms.map Prod.fst
  texts : ∀ name ∈ staticDataNames, ∀ v, (name, v) ∈ ms → ∃ s, v = Json.str s

section Read
variable {ms : List (Str × Json)} {p name vs : Str} {v : Json}

/-- **The vendor specific names are those with the prefix.** -/
theorem isVendorSpecific_iff : isVendorSpecific vs = true ↔ VENDOR_SPECIFIC_PREFIX <+: vs.cStr := by
  rw [isVendorSpecific, fullMatch_isSome, VENDOR_SPECIFIC_REGEXP, cat, cat, cat, accepts_seq_bol, accepts_seq_lit]
  constructor
  · intro h
    obtain ⟨u, hu, -⟩ := h
    exact ⟨u, hu.symm⟩
  · intro h
    obtain ⟨u, hu⟩ := h
    exact ⟨u, hu.symm, accepts_group.mpr accepts_lazyAny⟩

theorem isString_iff : v.isString = true ↔ ∃ s, v = Json.str s := by cases v <;> simp [isString]

theorem isSome_find_iff (hnodup : (ms.map Prod.fst).Nodup) : (find ms name).isSome = true ↔ name ∈ ms.map Prod.fst := by
  rw [Option.isSome_iff_exists, List.mem_map]
  constructor
  · intro h
    obtain ⟨v, hv⟩ := h
    exact ⟨(name, v), (find_eq_some_iff hnodup).mp hv, rfl⟩
  · intro h
    obtain ⟨m, hm, rfl⟩ := h
    exact ⟨m.2, (find_eq_some_iff hnodup).mpr hm⟩

theorem any_find_eq (hnodup : (ms.map Prod.fst).Nodup) :
    (find ms name).any (!·.isString) = ms.any fun m => m.1 == name && !m.2.isString := by
  rw [Bool.eq_iff_iff, Option.any_eq_true, List.any_eq_true]
  constructor
  · intro h
    obtain ⟨v, hv, hs⟩ := h
    refine ⟨(name, v), (find_eq_some_iff hnodup).mp hv, ?_⟩
    rw [Bool.and_eq_true, beq_iff_eq]
    exact ⟨rfl, hs⟩
  · intro h
    obtain ⟨m, hm, hs⟩ := h
    rw [Bool.and_eq_true, beq_iff_eq] at hs
    obtain ⟨rfl, hs⟩ := hs
    exact ⟨m.2, (find_eq_some_iff hnodup).mpr hm, hs⟩

theorem staticDataErrors_eq (hnodup : (ms.map Prod.fst).Nodup) :
    staticDataErrors ms p = missingMethodErrors ms p ++ notStringErrors ms p staticDataNames := by
  unfold staticDataErrors missingMethodErrors notStringErrors
  simp only [any_find_eq hnodup, isSome_find_iff hnodup]

theorem textMember_eq_some_iff (hnodup : (ms.map Prod.fst).Nodup)
    (htexts : ∀ name s, (name, Json.str s) ∈ ms → '\x00' ∉ s) (s : Str) :
    textMember ms name = some s ↔ (name, Json.str s) ∈ ms := by
  have hread : ∀ t, find ms name = some (.str t) → textMember ms name = some t := by
    intro t ht
    rw [textMember, ht]
    exact congrArg some (Str.cStr_eq_self (htexts name t ((find_eq_some_iff hnodup).mp ht)))
  rw [← find_eq_some_iff hnodup]
  constructor
  · intro h
    cases hv : find ms name with
    | none =>
      rw [textMember, hv] at h
      cases h
    | some v =>
      cases v with
      | str t => rw [← Option.some.inj ((hread t hv).symm.trans h)]
      | _ =>
        rw [textMember, hv] at h
        cases h
  · exact hread s

theorem readStaticData_exact (hnodup : (ms.map Prod.fst).Nodup) (hnames : ∀ m ∈ ms, '\x00' ∉ m.1)
    (htexts : ∀ name s, (name, Json.str s) ∈ ms → '\x00' ∉ s) : ReadExactly ms (readStaticData ms) := by
  have htext := fun name => @textMember_eq_some_iff ms name hnodup htexts
  refine ⟨fun s hs => ?_, fun hnone => ?_, ?_, fun k v => ?_⟩
  · show (textMember ms JSON_AUTHENTICATION_METHOD).getD [] = s
    rw [(htext _ s).mpr hs]
    rfl
  · show (textMember ms JSON_AUTHENTICATION_METHOD).getD [] = []
    cases hread : textMember ms JSON_AUTHENTICATION_METHOD with
    | none => rfl
    | some s => exact absurd ((htext _ s).mp hread) (hnone s)
  · simp only [AuthSubscriptionStaticData.optionalMembers, List.forall_mem_cons, List.not_mem_nil, false_implies,
      implies_true, and_true]
    exact ⟨htext _, htext _, htext _, htext _, htext _, htext _, htext _, htext _, htext _⟩
  · show (vendorMembers ms)[k]? = some v ↔ _
    have hcStr : ∀ m ∈ ms, m.1.cStr = m.1 := fun m hm => Str.cStr_eq_self (hnames m hm)
    rw [getElem?_vendorMembers hcStr]
    by_cases hkind : isVendorSpecific k = true
    · rw [if_pos hkind, find_eq_some_iff hnodup]
      constructor
      · intro hmem
        rw [isVendorSpecific_iff, hcStr (k, v) hmem] at hkind
        exact ⟨hmem, hkind⟩
      · intro h
        exact h.1
    · rw [if_neg hkind]
      apply iff_of_false
      · intro h
        cases h
      · intro h
        apply hkind
        rw [isVendorSpecific_iff, hcStr (k, v) h.1]
        exact h.2

theorem staticDataWellTyped_iff (hnodup : (ms.map Prod.fst).Nodup) :
    staticDataErrors ms p = [] ↔ StaticDataWellTyped ms := by
  have htexts : (∀ name ∈ staticDataNames, TextOrMissing ms name) ↔
      ∀ name ∈ staticDataNames, ∀ v, (name, v) ∈ ms → ∃ s, v = Json.str s := by
    unfold TextOrMissing
    simp only [find_eq_some_iff hnodup, isString_iff]
  rw [staticDataErrors_eq hnodup, staticDataErrors_eq_nil_iff, isSome_find_iff hnodup, htexts]
  constructor
  · intro h
    exact ⟨h.1, h.2⟩
  · intro h
    exact ⟨h.mandatory, h.texts⟩

end Read

/-- **Reading static data is exact.** -/
theorem getAuthSubscriptionStaticData_exact (ms : List (Str × Json)) (p : Str) (E : List Error)
    (hnodup : (ms.map Prod.fst).Nodup) (hnames : ∀ m ∈ ms, '\x00' ∉ m.1)
    (htexts : ∀ name s, (name, Json.str s) ∈ ms → '\x00' ∉ s) :
    ∃ d, (getAuthSubscriptionStaticData (obj ms) p).run E = .ok (d, E ++ staticDataErrors ms p) ∧ ReadExactly ms d ∧
      (staticDataErrors ms p = [] ↔ StaticDataWellTyped ms) := by
  refine ⟨readStaticData ms, ?_, readStaticData_exact hnodup hnames htexts, staticDataWellTyped_iff hnodup⟩
  rw [staticDataErrors_eq hnodup]
  exact getAuthSubscriptionStaticData_run

/-- An object with a text, a number and a vendor specific member. -/
def mixedMembers : List (Str × Json) :=
  [(JSON_ENC_PERMANENT_KEY, .str "ab"), (JSON_A4_IND, .int 1), ("vendorSpecific-x", .null)]

theorem getAuthSubscriptionStaticData_exact_example :
    ∃ d, (getAuthSubscriptionStaticData (obj mixedMembers) "p").run [] =
        .ok (d, [] ++ staticDataErrors mixedMembers "p") ∧
      ReadExactly mixedMembers d ∧ (staticDataErrors mixedMembers "p" = [] ↔ StaticDataWellTyped mixedMembers) := by
  have hnodup : (mixedMembers.map Prod.fst).Nodup := by decide
  have hnames : ∀ name ∈ mixedMembers.map Prod.fst, '\x00' ∉ name := by decide
  refine getAuthSubscriptionStaticData_exact mixedMembers "p" [] hnodup
    (fun m hm => hnames m.1 (List.mem_map_of_mem hm)) ?_
  intro name s hmem
  simp only [mixedMembers, List.mem_cons, Prod.mk.injEq, List.not_mem_nil, or_false, reduceCtorEq, and_false,
    Json.str.injEq] at hmem
  rw [hmem.2]
  decide

end AuthProvValidator
