import AuthProvValidator.Ports.WellTyped

/-!
# A legacy subscription is read from its own members

Each attribute of a legacy subscription has a member of its own; three texts have a second one for the base64 encoding.
The guard of `AKAALGIND` looks at `VNUMBER` instead, and `GetString` ends every text at its first NUL.

* `OwnMembers decode ms l` : the attributes of `l` are the members of their names;
* `getAuthSubscriptionLegacy_ownMembers` : for every decoder the members are read so, exactly when `AKAALGIND` and
  `VNUMBER` are both integers or both not, where `AKAALGIND` is there, and the texts that count have no NUL.
-/

namespace AuthProvValidator
open Recorder Json

/-- The text of the member of a name, where that is a string. -/
def memberText (ms : List (Str × Json)) (name : Str) : Option Str :=
  match find ms name with
  | some (.str s) => some s
  | _ => none

/-- The plain text where it is not empty, else the decoded one where that is not empty. -/
def ownText (decode : Str → Str) (plain base64 : Option Str) : Option Str :=
  (plain.filter fun text => !text.isEmpty).or ((base64.map decode).filter fun text => !text.isEmpty)

def OwnInt (ms : List (Str × Json)) (name : Str) (attr : Option Int) : Prop :=
  ∀ n, attr = some n ↔ (name, Json.int n) ∈ ms ∧ (Json.int n).isInt = true

structure OwnMembers (decode : Str → Str) (ms : List (Str × Json)) (l : AuthSubscriptionLegacy) : Prop where
  fSetInd : OwnInt ms JSON_F_SET_IND l.fSetInd
  kind : OwnInt ms JSON_KIND l.kind
  a4Ind : OwnInt ms JSON_A4_IND_LEGACY l.a4Ind
  amfValue : OwnInt ms JSON_AMF_VALUE l.amfValue
  akaType : OwnInt ms JSON_AKA_TYPE l.akaType
  vNumber : OwnInt ms JSON_VNUMBER l.vNumber
  akaAlgInd : OwnInt ms JSON_AKA_ALG_IND l.akaAlgInd
  eki : l.eki = ownText decode (memberText ms JSON_EKI) (memberText ms JSON_EKI_BASE64)
  eopc : l.eopc = ownText decode (memberText ms JSON_EOPC) (memberText ms JSON_EOPC_BASE64)
  seqHe : l.seqHe = (ownText decode (memberText ms JSON_SEQ_HE) (memberText ms JSON_SEQ_HE_BASE64)).map
    sortLDAPoctetString

/-- `AKAALGIND` comes with `VNUMBER`, and both are an `int` or neither is. -/
def AkaAlgIndGuarded (ms : List (Str × Json)) : Prop :=
  ∀ akaAlgInd, (JSON_AKA_ALG_IND, akaAlgInd) ∈ ms →
    ∃ vNumber, (JSON_VNUMBER, vNumber) ∈ ms ∧ (vNumber.isInt = true ↔ akaAlgInd.isInt = true)

/-- The plain text has no NUL, and where it is empty or missing the encoded one has none either. -/
def WholeText (plain base64 : Option Str) : Prop :=
  (∀ s, plain = some s → '\x00' ∉ s) ∧ ((∀ s, plain = some s → s = []) → ∀ t, base64 = some t → '\x00' ∉ t)

/-! ## The octets of an LDAP text -/

section Octets
variable {s : Str} {c : Char}

/-- The characters of the reordered text are those of the text, after as many zeroes as its last group lacks. -/
theorem sortLDAPoctetString_perm (s : Str) :
    ∃ n, (s = [] → n = 0) ∧ (sortLDAPoctetString s).Perm (List.replicate n '0' ++ s) := by
  show ∃ n, (s = [] → n = 0) ∧
    (swapHalves (if s.length % 4 ≠ 0 then List.replicate (4 - s.length % 4) '0' ++ s else s)).Perm _
  by_cases h : s.length % 4 = 0
  · rw [if_neg (by omega)]
    exact ⟨0, fun _ => rfl, perm_swapHalves (Nat.dvd_of_mod_eq_zero h)⟩
  · rw [if_pos h]
    refine ⟨4 - s.length % 4, fun hnil => ?_, perm_swapHalves ?_⟩
    · rw [hnil] at h
      exact absurd rfl h
    · rw [List.length_append, List.length_replicate]
      omega

theorem mem_sortLDAPoctetString (hc : c ≠ '0') : c ∈ sortLDAPoctetString s ↔ c ∈ s := by
  obtain ⟨n, -, hperm⟩ := sortLDAPoctetString_perm s
  rw [hperm.mem_iff, List.mem_append, List.mem_replicate]
  exact or_iff_right fun h0 => hc h0.2

theorem isEmpty_sortLDAPoctetString : (sortLDAPoctetString s).isEmpty = s.isEmpty := by
  obtain ⟨n, hnil, hperm⟩ := sortLDAPoctetString_perm s
  cases s with
  | nil =>
    rw [hnil rfl] at hperm
    rw [hperm.eq_nil]
  | cons a t =>
    have hlength := hperm.length_eq
    rw [List.length_append, List.length_cons] at hlength
    rw [List.isEmpty_cons, List.isEmpty_eq_false_iff, ← List.length_pos_iff]
    omega

end Octets

/-! ## The members -/

section Members
variable {ms : List (Str × Json)} {name : Str} {decode : Str → Str}

theorem some_own_int {n : Int} (h : (Json.int n).isInt = true) (m : Int) :
    some n = some m ↔ Json.int n = Json.int m ∧ (Json.int m).isInt = true := by
  rw [Option.some.injEq, Json.int.injEq]
  exact ⟨fun heq => ⟨heq, heq ▸ h⟩, fun heq => heq.1⟩

theorem none_own_int {v : Json} (h : ¬ v.isInt = true) (m : Int) :
    none = some m ↔ v = Json.int m ∧ (Json.int m).isInt = true :=
  iff_of_false (Option.some_ne_none m).symm fun heq => h (heq.1 ▸ heq.2)

theorem getIntMember_own (hnodup : (ms.map Prod.fst).Nodup) (name : Str) :
    ∃ attr, getIntMember (obj ms) name = .ok attr ∧ OwnInt ms name attr := by
  unfold getIntMember OwnInt
  rw [hasMember_index]
  simp only [← find_eq_some_iff hnodup]
  cases find ms name with
  | none =>
    exact ⟨none, rfl, fun n => iff_of_false (Option.some_ne_none n).symm fun h => (Option.some_ne_none _).symm h.1⟩
  | some v =>
    simp only [Option.some.injEq]
    by_cases hi : v.isInt = true
    · obtain ⟨n, rfl, -⟩ := isInt_iff.mp hi
      exact ⟨some n, by simp [hi, getInt], some_own_int hi⟩
    · exact ⟨none, by simp [hi], none_own_int hi⟩

/-- `AKAALGIND` is read from its own member exactly when its guard says so. -/
theorem getAkaAlgInd_own_iff (hnodup : (ms.map Prod.fst).Nodup) :
    (∃ attr, getAkaAlgInd (obj ms) = .ok attr ∧ OwnInt ms JSON_AKA_ALG_IND attr) ↔ AkaAlgIndGuarded ms := by
  unfold getAkaAlgInd OwnInt AkaAlgIndGuarded
  simp only [← find_eq_some_iff hnodup]
  rw [hasMember_obj, ok_bind]
  cases ha : find ms JSON_AKA_ALG_IND with
  | none =>
    refine iff_of_true ⟨none, rfl, fun n => ?_⟩ fun akaAlgInd h => absurd h.symm (Option.some_ne_none akaAlgInd)
    exact iff_of_false (Option.some_ne_none n).symm fun h => (Option.some_ne_none _).symm h.1
  | some akaAlgInd =>
    simp only [Option.isSome_some, if_true, Option.some.injEq, forall_eq']
    cases hv : find ms JSON_VNUMBER with
    | none =>
      rw [index_missing hv, error_bind]
      refine iff_of_false (fun h => ?_) fun h => ?_
      · exact not_defined_error _ ⟨_, h.choose_spec.1⟩
      · exact (Option.some_ne_none _).symm h.choose_spec.1
    | some vNumber =>
      rw [index_obj hv, ok_bind, index_obj ha, ok_bind]
      simp only [Option.some.injEq, exists_eq_left']
      by_cases hi : vNumber.isInt = true
      · rw [if_pos hi, iff_true_left hi]
        by_cases hj : akaAlgInd.isInt = true
        · obtain ⟨n, rfl, -⟩ := isInt_iff.mp hj
          exact iff_of_true ⟨some n, by simp [hj, getInt], some_own_int hj⟩ hj
        · rw [getInt_of_not_isInt hj]
          exact iff_of_false (fun h => not_defined_error _ ⟨_, h.choose_spec.1⟩) hj
      · rw [if_neg hi, iff_false_left hi]
        constructor
        · intro h hj
          obtain ⟨attr, hattr, hown⟩ := h
          obtain rfl := Except.ok.inj hattr
          obtain ⟨n, rfl, -⟩ := isInt_iff.mp hj
          exact (Option.some_ne_none n).symm ((hown n).mpr ⟨rfl, hj⟩)
        · intro hj
          exact ⟨none, rfl, none_own_int hj⟩

theorem getStringMember_text {reverseOrderLDAP isBase64Encoded : Bool} :
    getStringMember decode (obj ms) name reverseOrderLDAP isBase64Encoded =
      .ok (((memberText ms name).map fun s =>
        let decodedStr := if isBase64Encoded then decode s.cStr else s.cStr
        if reverseOrderLDAP then sortLDAPoctetString decodedStr else decodedStr).getD []) := by
  unfold getStringMember memberText
  rw [hasMember_index]
  cases find ms name with
  | none => rfl
  | some v => cases v <;> rfl

theorem nonEmpty_order {order : Str → Str} (hempty : ∀ text, (order text).isEmpty = text.isEmpty) (read : Str → Str)
    (text : Option Str) :
    nonEmpty ((text.map fun s => order (read s)).getD []) =
      ((text.map read).filter fun text => !text.isEmpty).map order := by
  cases text with
  | none => rfl
  | some s =>
    rw [Option.map_some, Option.getD_some, nonEmpty, hempty, Option.map_some, Option.filter_some]
    cases (read s).isEmpty <;> rfl

theorem getStringOrBase64_text {nameBase64 : Str} {reverseOrderLDAP : Bool} :
    getStringOrBase64 decode (obj ms) name nameBase64 reverseOrderLDAP =
      .ok ((ownText decode ((memberText ms name).map Str.cStr) ((memberText ms nameBase64).map Str.cStr)).map
        fun text => if reverseOrderLDAP then sortLDAPoctetString text else text) := by
  have hempty : ∀ text : Str, (if reverseOrderLDAP then sortLDAPoctetString text else text).isEmpty = text.isEmpty := by
    intro text
    cases reverseOrderLDAP with
    | false => rfl
    | true => exact isEmpty_sortLDAPoctetString
  have hor : ∀ plain decoded : Str,
      (if plain.isEmpty then pure (nonEmpty decoded) else pure (some plain) : Except Assertion (Option Str)) =
        .ok ((nonEmpty plain).or (nonEmpty decoded)) := by
    intro plain decoded
    unfold nonEmpty
    cases plain.isEmpty <;> rfl
  unfold getStringOrBase64 ownText
  rw [getStringMember_text, getStringMember_text, ok_bind, ok_bind, hor, Option.map_or, Option.map_map]
  rw [← nonEmpty_order hempty, ← nonEmpty_order hempty]
  rfl

end Members

/-! ## NULs -/

section Texts
variable {plain base64 : Option Str} {decode order : Str → Str}

theorem map_cStr_eq_self {text : Option Str} (h : ∀ s, text = some s → '\x00' ∉ s) : text.map Str.cStr = text := by
  cases text with
  | none => rfl
  | some s => rw [Option.map_some, Str.cStr_eq_self (h s rfl)]

theorem filter_of_ne_nil {s : Str} (h : s ≠ []) : (some s).filter (fun text => !List.isEmpty text) = some s := by
  rw [Option.filter_some, if_pos (by simpa using h)]

theorem filter_of_empty {text : Option Str} (h : ∀ s, text = some s → s = []) :
    text.filter (fun text => !List.isEmpty text) = none := by
  cases text with
  | none => rfl
  | some s =>
    rw [h s rfl]
    rfl

theorem ownText_of_whole (h : WholeText plain base64) :
    ownText decode (plain.map Str.cStr) (base64.map Str.cStr) = ownText decode plain base64 := by
  obtain ⟨hplain, hbase64⟩ := h
  rw [map_cStr_eq_self hplain]
  by_cases hempty : ∀ s, plain = some s → s = []
  · rw [map_cStr_eq_self (hbase64 hempty)]
  · obtain ⟨s, hs⟩ := not_forall.mp hempty
    obtain ⟨rfl, hne⟩ := Classical.not_imp.mp hs
    rw [ownText, ownText, filter_of_ne_nil hne, Option.some_or, Option.some_or]

/-- **Whatever the decoder, the texts are read as they are, exactly when those that count have no NUL.** -/
theorem forall_ownText_iff (horder : ∀ s, '\x00' ∈ order s ↔ '\x00' ∈ s) :
    (∀ decode, (ownText decode (plain.map Str.cStr) (base64.map Str.cStr)).map order =
        (ownText decode plain base64).map order) ↔ WholeText plain base64 := by
  refine ⟨fun h => ⟨fun s hs hnul => ?_, fun hempty t ht hnul => ?_⟩, fun h decode => by rw [ownText_of_whole h]⟩
  · -- a decoder that gives nothing leaves the plain text
    have hread := h fun _ => []
    have hnone : ∀ text : Option Str, (text.map fun _ => ([] : Str)).filter (fun text => !text.isEmpty) = none := by
      intro text
      apply filter_of_empty
      intro s hs
      obtain ⟨_, -, hs⟩ := Option.map_eq_some_iff.mp hs
      exact hs.symm
    unfold ownText at hread
    rw [hnone, hnone, Option.or_none, Option.or_none, hs, filter_of_ne_nil (List.ne_nil_of_mem hnul), Option.map_some,
      Option.filter_some] at hread
    split at hread
    · have heq := Option.some.inj hread
      exact Str.nul_not_mem_cStr s ((horder _).mp (heq ▸ (horder s).mpr hnul))
    · cases hread
  · -- a decoder that only knows the whole text
    have hread := h fun u => if u = t then ['a'] else []
    have hne : t.cStr ≠ t := by
      intro heq
      rw [← heq] at hnul
      exact Str.nul_not_mem_cStr t hnul
    have hplain : ∀ s, plain.map Str.cStr = some s → s = [] := by
      intro s hs
      obtain ⟨s', hs', rfl⟩ := Option.map_eq_some_iff.mp hs
      rw [hempty s' hs']
      rfl
    unfold ownText at hread
    rw [filter_of_empty hempty, filter_of_empty hplain, ht, Option.none_or, Option.none_or,
      Option.map_some, Option.map_some, Option.map_some, if_pos rfl, if_neg hne] at hread
    cases hread

end Texts

/-! ## The whole subscription -/

/-- The text that counts under two names has no NUL. -/
def WholeMember (ms : List (Str × Json)) (name nameBase64 : Str) : Prop :=
  WholeText (memberText ms name) (memberText ms nameBase64)

/-- It returns, and every attribute is read from its own member. -/
def ReadsOwnMembers (decode : Str → Str) (ms : List (Str × Json)) : Prop :=
  ∃ l, getAuthSubscriptionLegacy decode (obj ms) = .ok l ∧ OwnMembers decode ms l

section Subscription
variable {ms : List (Str × Json)} {decode : Str → Str}

/-- Only the guard of `AKAALGIND` and the NULs can go wrong. -/
theorem readsOwnMembers_iff (hnodup : (ms.map Prod.fst).Nodup) :
    ReadsOwnMembers decode ms ↔ AkaAlgIndGuarded ms ∧
      (ownText decode ((memberText ms JSON_EKI).map Str.cStr) ((memberText ms JSON_EKI_BASE64).map Str.cStr) =
        ownText decode (memberText ms JSON_EKI) (memberText ms JSON_EKI_BASE64)) ∧
      (ownText decode ((memberText ms JSON_EOPC).map Str.cStr) ((memberText ms JSON_EOPC_BASE64).map Str.cStr) =
        ownText decode (memberText ms JSON_EOPC) (memberText ms JSON_EOPC_BASE64)) ∧
      ((ownText decode ((memberText ms JSON_SEQ_HE).map Str.cStr) ((memberText ms JSON_SEQ_HE_BASE64).map Str.cStr)).map
          sortLDAPoctetString =
        (ownText decode (memberText ms JSON_SEQ_HE) (memberText ms JSON_SEQ_HE_BASE64)).map sortLDAPoctetString) := by
  obtain ⟨fSetInd, hfSetInd, ofSetInd⟩ := getIntMember_own hnodup JSON_F_SET_IND
  obtain ⟨kind, hkind, okind⟩ := getIntMember_own hnodup JSON_KIND
  obtain ⟨a4Ind, ha4Ind, oa4Ind⟩ := getIntMember_own hnodup JSON_A4_IND_LEGACY
  obtain ⟨amfValue, hamfValue, oamfValue⟩ := getIntMember_own hnodup JSON_AMF_VALUE
  obtain ⟨akaType, hakaType, oakaType⟩ := getIntMember_own hnodup JSON_AKA_TYPE
  obtain ⟨vNumber, hvNumber, ovNumber⟩ := getIntMember_own hnodup JSON_VNUMBER
  have hid : ∀ text : Option Str,
      text.map (fun text => if false = true then sortLDAPoctetString text else text) = text :=
    fun text => by cases text <;> rfl
  rw [ReadsOwnMembers, getAuthSubscriptionLegacy, hfSetInd, ok_bind, getStringOrBase64_text, ok_bind, hkind, ok_bind,
    ha4Ind, ok_bind, hamfValue, ok_bind, getStringOrBase64_text, ok_bind, getStringOrBase64_text, ok_bind, hakaType,
    ok_bind, hvNumber, ok_bind, hid, hid, ← getAkaAlgInd_own_iff hnodup]
  constructor
  · intro h
    obtain ⟨l, hl, hown⟩ := h
    obtain ⟨akaAlgInd, haka, hret⟩ := bind_eq_ok.mp hl
    obtain rfl := Except.ok.inj hret
    exact ⟨⟨akaAlgInd, haka, hown.akaAlgInd⟩, hown.eki, hown.eopc, hown.seqHe⟩
  · intro h
    obtain ⟨⟨akaAlgInd, haka, oaka⟩, heki, heopc, hseqHe⟩ := h
    refine ⟨_, bind_eq_ok.mpr ⟨akaAlgInd, haka, rfl⟩, ?_⟩
    exact ⟨ofSetInd, okind, oa4Ind, oamfValue, oakaType, ovNumber, oaka, heki, heopc, hseqHe⟩

end Subscription

/-- **A legacy subscription is read from its own members, whatever the decoder, exactly when `AKAALGIND` meets its guard
with its own type and the texts have no NUL where they count.** -/
theorem getAuthSubscriptionLegacy_ownMembers (ms : List (Str × Json)) (hnodup : (ms.map Prod.fst).Nodup) :
    (∀ decode, ReadsOwnMembers decode ms) ↔
      AkaAlgIndGuarded ms ∧ WholeMember ms JSON_EKI JSON_EKI_BASE64 ∧ WholeMember ms JSON_EOPC JSON_EOPC_BASE64 ∧
        WholeMember ms JSON_SEQ_HE JSON_SEQ_HE_BASE64 := by
  have hplain : ∀ name nameBase64, (∀ decode,
      ownText decode ((memberText ms name).map Str.cStr) ((memberText ms nameBase64).map Str.cStr) =
        ownText decode (memberText ms name) (memberText ms nameBase64)) ↔ WholeMember ms name nameBase64 := by
    intro name nameBase64
    rw [WholeMember, ← forall_ownText_iff fun s => Iff.rfl]
    simp only [Option.map_id']
  have hnul : '\x00' ≠ '0' := by decide
  have hseqHe := @forall_ownText_iff (memberText ms JSON_SEQ_HE) (memberText ms JSON_SEQ_HE_BASE64) sortLDAPoctetString
    fun s => mem_sortLDAPoctetString hnul
  simp only [readsOwnMembers_iff hnodup, forall_and, hplain, hseqHe]
  exact and_congr_left' (forall_const _)

def legacyWithTextVNumber : List (Str × Json) := [(JSON_VNUMBER, .str "5"), (JSON_AKA_ALG_IND, .int 0)]

/-- Its `AKAALGIND` is left out. -/
theorem legacyWithTextVNumber_dropped :
    ¬ ∀ (decode : Str → Str) (ms : List (Str × Json)), (ms.map Prod.fst).Nodup → ReadsOwnMembers decode ms := by
  intro h
  obtain ⟨l, hl, hown⟩ := h id legacyWithTextVNumber (by decide)
  have hmem : (JSON_AKA_ALG_IND, Json.int 0) ∈ legacyWithTextVNumber := List.mem_cons_of_mem _ List.mem_cons_self
  have hsome := (hown.akaAlgInd 0).mpr ⟨hmem, by decide⟩
  obtain rfl := Except.ok.inj hl
  cases hsome

def legacyMembers : List (Str × Json) := [
  (JSON_F_SET_IND, .int 1), (JSON_EKI, .str "EK"), (JSON_KIND, .int 2), (JSON_A4_IND_LEGACY, .int 0),
  (JSON_AMF_VALUE, .int 32768), (JSON_EOPC_BASE64, .str "RU8="), (JSON_SEQ_HE, .str "0123"), (JSON_AKA_TYPE, .int 1),
  (JSON_VNUMBER, .int 4), (JSON_AKA_ALG_IND, .int 0)]

theorem getAuthSubscriptionLegacy_ownMembers_example :
    (∀ decode, ReadsOwnMembers decode legacyMembers) ↔
      AkaAlgIndGuarded legacyMembers ∧ WholeMember legacyMembers JSON_EKI JSON_EKI_BASE64 ∧
        WholeMember legacyMembers JSON_EOPC JSON_EOPC_BASE64 ∧
        WholeMember legacyMembers JSON_SEQ_HE JSON_SEQ_HE_BASE64 :=
  getAuthSubscriptionLegacy_ownMembers legacyMembers (by decide)

end AuthProvValidator
