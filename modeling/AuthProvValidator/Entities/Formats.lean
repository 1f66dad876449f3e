import AuthProvValidator.Base.Decimal
import AuthProvValidator.Entities.Conformance

/-!
# The formats of the static attributes

What the patterns and the ranges of the common rules say about a text without a NUL.

* `Formatted d` : the attributes of `d` that are there have the format the common rules ask of a client;
* `staticDataRules_iff` : the common rules for static data are its method, its formats, the presence of five attributes
  where they are required and, for `akaAlgorithmInd`, the journal.
-/

namespace AuthProvValidator
open Regex Regex.Expr Recorder

def AuthSubscriptionStaticData.attributes (d : AuthSubscriptionStaticData) : List (Option Str) :=
  [d.encPermanentKey, d.authenticationManagementField, d.algorithmId, d.a4KeyInd, d.a4Ind, d.encOpcKey, d.encTopcKey,
    d.a4KeyV, d.akaAlgorithmInd]

/-- The five attributes that an AKA method without 4G legacy requires. -/
def AuthSubscriptionStaticData.mandatory (d : AuthSubscriptionStaticData) : List (Option Str) :=
  [d.encPermanentKey, d.authenticationManagementField, d.algorithmId, d.a4KeyInd, d.a4Ind]

/-- No text of the static data has a NUL. -/
structure AuthSubscriptionStaticData.Readable (d : AuthSubscriptionStaticData) : Prop where
  authenticationMethod : '\x00' ∉ d.authenticationMethod
  attributes : ∀ t, some t ∈ d.attributes → '\x00' ∉ t

structure HexDigits (length : Nat) (t : Str) : Prop where
  digits : ∀ c ∈ t, Str.isHexDigit c = true
  length_eq : t.length = length

theorem HexDigits.ne_nil {length : Nat} {t : Str} (h : HexDigits length t) (hpos : 0 < length) : t ≠ [] := by
  apply List.ne_nil_of_length_pos
  rw [h.length_eq]
  exact hpos

theorem HexDigits.hexValue_lt {length : Nat} {t : Str} (h : HexDigits length t) : Str.hexValue t < 16 ^ length := by
  rw [← h.length_eq]
  exact Str.hexValue_lt h.digits

/-- The attributes that are there have their formats, and `encOpcKey` is only there next to a MILLENAGE
`algorithmId`. -/
structure Formatted (d : AuthSubscriptionStaticData) : Prop where
  encPermanentKey : ∀ t, d.encPermanentKey = some t → HexDigits 32 t
  authenticationManagementField : ∀ t, d.authenticationManagementField = some t → HexDigits 4 t
  algorithmId : ∀ t, d.algorithmId = some t → Str.DecimalUpTo 15 t
  a4KeyInd : ∀ t, d.a4KeyInd = some t → Str.DecimalUpTo 511 t
  a4Ind : ∀ t, d.a4Ind = some t → Str.DecimalUpTo 2 t
  encOpcKey : ∀ t, d.encOpcKey = some t → (∀ c ∈ t, Str.isHexDigit c = true) ∧
    ∃ algorithm, d.algorithmId = some algorithm ∧ Str.decValue algorithm ≠ 1
  a4KeyV : ∀ t, d.a4KeyV = some t → ∃ n ≤ 31, t = Nat.toDigits 10 n
  akaAlgorithmInd : ∀ t, d.akaAlgorithmInd = some t → ∃ n ≤ 2, t = Nat.toDigits 10 n

/-! ## Patterns -/

section Patterns
variable {text : Str} {cls : Char → Bool}

/-- `^cls*$` -/
theorem checkPattern_star_iff :
    checkPatternOnData (cat [bol, Expr.star cls, eol]) text = true ↔ ∀ c ∈ Str.cStr text, cls c = true := by
  simp only [checkPatternOnData_iff, cat, accepts_seq_bol, accepts_seq_star, accepts_eol]
  constructor
  · intro h
    obtain ⟨w, t, heq, hcls, rfl⟩ := h
    rw [heq, List.append_nil]
    exact hcls
  · intro h
    exact ⟨_, [], (List.append_nil _).symm, h, rfl⟩

/-- `^cls+$` -/
theorem checkPattern_plus_iff :
    checkPatternOnData (cat [bol, plus cls, eol]) text = true ↔
      Str.cStr text ≠ [] ∧ ∀ c ∈ Str.cStr text, cls c = true := by
  simp only [checkPatternOnData_iff, cat, accepts_seq_bol, accepts_seq_plus, accepts_eol]
  constructor
  · intro h
    obtain ⟨w, t, heq, ⟨hcls, hlen⟩, rfl⟩ := h
    rw [heq, List.append_nil]
    exact ⟨List.length_pos_iff.mp hlen, hcls⟩
  · intro h
    exact ⟨_, [], (List.append_nil _).symm, ⟨h.2, List.length_pos_iff.mpr h.1⟩, rfl⟩

/-- `^cls{n}$` -/
theorem checkPattern_times_iff {n : Nat} :
    checkPatternOnData (cat [bol, between n n cls, eol]) text = true ↔
      (∀ c ∈ Str.cStr text, cls c = true) ∧ (Str.cStr text).length = n := by
  simp only [checkPatternOnData_iff, cat, accepts_seq_bol, accepts_seq_between, accepts_eol]
  constructor
  · intro h
    obtain ⟨w, t, heq, ⟨hcls, hlo, hhi⟩, rfl⟩ := h
    rw [heq, List.append_nil]
    exact ⟨hcls, by omega⟩
  · intro h
    exact ⟨_, [], (List.append_nil _).symm, ⟨h.1, by omega, by omega⟩, rfl⟩

theorem exists_toDigits {max : Nat} (hdigits : ∀ c ∈ text, Str.isDecDigit c = true) (hne : text ≠ [])
    (hzero : ¬ Str.LeadingZero text) (hle : Str.decValue text ≤ max) : ∃ n ≤ max, text = Nat.toDigits 10 n :=
  ⟨Str.decValue text, hle, (Str.toDigits_decValue ⟨hne, hdigits⟩ hzero).symm⟩

theorem exists_toDigits_singleton {max : Nat} {c : Char} (hc : 48 ≤ c.toNat ∧ c.toNat ≤ 57) (hle : c.toNat ≤ 48 + max) :
    ∃ n ≤ max, [c] = Nat.toDigits 10 n := by
  refine exists_toDigits (fun d hd => ?_) (List.cons_ne_nil c []) (fun h => absurd h.1 (by simp)) ?_
  · rw [List.mem_singleton.mp hd, Str.isDecDigit_iff]
    exact hc
  · rw [Str.decValue_singleton]
    omega

theorem exists_toDigits_pair {max : Nat} {a b : Char} (ha : 49 ≤ a.toNat ∧ a.toNat ≤ 57)
    (hb : 48 ≤ b.toNat ∧ b.toNat ≤ 57) (hle : 10 * (a.toNat - 48) + (b.toNat - 48) ≤ max) :
    ∃ n ≤ max, [a, b] = Nat.toDigits 10 n := by
  refine exists_toDigits (fun d hd => ?_) (List.cons_ne_nil a [b]) (fun h => ?_) ?_
  · rw [Str.isDecDigit_iff]
    rcases List.mem_pair.mp hd with rfl | rfl
    · omega
    · exact hb
  · have ha0 : a = '0' := Option.some.inj h.2
    rw [ha0] at ha
    exact absurd ha.1 (by decide)
  · show Str.decValue ([a] ++ [b]) ≤ max
    rw [Str.decValue_append_singleton, Str.decValue_singleton, show '0'.toNat = 48 from rfl]
    exact hle

theorem checkPattern_akaAlgorithmInd_iff :
    checkPatternOnData akaAlgorithmIndRegex text = true ↔ ∃ n ≤ 2, Str.cStr text = Nat.toDigits 10 n := by
  rw [akaAlgorithmIndRegex, checkPattern_times_iff]
  constructor
  · intro h
    obtain ⟨hcls, hlen⟩ := h
    obtain ⟨c, hc⟩ := List.length_eq_one_iff.mp hlen
    rw [hc] at hcls ⊢
    obtain ⟨hlo, hhi⟩ := Str.char_range_iff.mp (hcls c (List.mem_singleton_self c))
    have h48 : '0'.toNat = 48 := rfl
    have h50 : '2'.toNat = 50 := rfl
    exact exists_toDigits_singleton (by omega) (by omega)
  · intro h
    obtain ⟨n, hn, htext⟩ := h
    rw [htext]
    have hall : ∀ n ≤ 2, ((Nat.toDigits 10 n).all fun c => '0' ≤ c && c ≤ '2') = true ∧
        (Nat.toDigits 10 n).length = 1 := by decide
    exact ⟨List.all_eq_true.mp (hall n hn).1, (hall n hn).2⟩

theorem checkPattern_a4KeyV_iff :
    checkPatternOnData a4KeyVRegex text = true ↔ ∃ n ≤ 31, Str.cStr text = Nat.toDigits 10 n := by
  constructor
  · intro h
    simp only [checkPatternOnData_iff, a4KeyVRegex, cat, accepts_alt, accepts_seq_bol, accepts_seq_between,
      accepts_seq_lit, accepts_eol] at h
    have hone : ∀ {w : Str}, 1 ≤ w.length ∧ w.length ≤ 1 → ∃ c, w = [c] := fun hw =>
      List.length_eq_one_iff.mp (by omega)
    have h48 : '0'.toNat = 48 := rfl
    have h49 : '1'.toNat = 49 := rfl
    have h50 : '2'.toNat = 50 := rfl
    rcases h with ⟨w, _, htext, ⟨hw, hlen⟩, rfl⟩ | ⟨w, _, htext, ⟨hw, hlen⟩, v, _, rfl, ⟨hv, hlen'⟩, rfl⟩ |
      ⟨_, htext, v, _, rfl, ⟨hv, hlen⟩, rfl⟩
    · obtain ⟨c, rfl⟩ := hone hlen
      have hc := Str.isDecDigit_iff.mp (hw c (List.mem_singleton_self c))
      rw [htext, List.append_nil]
      exact exists_toDigits_singleton hc (by omega)
    · obtain ⟨a, rfl⟩ := hone hlen
      obtain ⟨b, rfl⟩ := hone hlen'
      have ha := Str.char_range_iff.mp (hw a (List.mem_singleton_self a))
      have hb := Str.isDecDigit_iff.mp (hv b (List.mem_singleton_self b))
      rw [htext, List.append_nil]
      exact exists_toDigits_pair (by omega) hb (by omega)
    · obtain ⟨b, rfl⟩ := hone hlen
      have hb := Str.char_range_iff.mp (hv b (List.mem_singleton_self b))
      have h51 : '3'.toNat = 51 := rfl
      rw [htext, List.append_nil]
      exact exists_toDigits_pair (by omega) (by omega) (by omega)
  · intro h
    obtain ⟨n, hn, htext⟩ := h
    have hall : ∀ n ≤ 31, (a4KeyVRegex.fullMatch (Nat.toDigits 10 n)).isSome = true := by decide
    rw [checkPatternOnData, htext]
    exact hall n hn

end Patterns

/-! ## Rules for one attribute -/

section Attributes
variable {text : Str} {attr : Option Str} {required : Bool}

theorem checkInRange_iff {max : Nat} (hmax : max ≤ 2147483647) (h : Str.IsDecimal text) :
    checkInRange 0 max text = true ↔ Str.decValue text ≤ max := by
  rw [checkInRange, Str.stoi_of_digits h]
  by_cases hle : Str.decValue text ≤ 2147483647
  · rw [if_pos hle]
    simp only [Bool.and_eq_true, decide_eq_true_eq]
    omega
  · rw [if_neg hle]
    exact iff_of_false Bool.false_ne_true (by omega)

theorem checkAlgorithmIdIsMillenage_iff (h : Str.IsDecimal text) :
    checkAlgorithmIdIsMillenage text = true ↔ Str.decValue text ≤ 15 ∧ Str.decValue text ≠ 1 := by
  rw [checkAlgorithmIdIsMillenage, Str.stoi_of_digits h]
  by_cases hle : Str.decValue text ≤ 2147483647
  · rw [if_pos hle]
    show (decide (0 ≤ (Str.decValue text : Int)) && decide ((Str.decValue text : Int) ≤ 15) &&
      (Str.decValue text : Int) != 1) = true ↔ _
    simp only [Bool.and_eq_true, decide_eq_true_eq, bne_iff_ne]
    omega
  · rw [if_neg hle]
    exact iff_of_false Bool.false_ne_true (by omega)

theorem decimalRule_iff {max : Nat} (hmax : max ≤ 2147483647) (hnul : '\x00' ∉ text) :
    checkPatternOnData (cat [bol, plus Str.isDecDigit, eol]) text = true ∧ checkInRange 0 max text = true ↔
      Str.DecimalUpTo max text := by
  rw [checkPattern_plus_iff, Str.cStr_eq_self hnul]
  constructor
  · intro h
    exact ⟨⟨h.1.1, h.1.2⟩, (checkInRange_iff hmax ⟨h.1.1, h.1.2⟩).mp h.2⟩
  · intro h
    exact ⟨⟨h.ne_nil, h.digits⟩, (checkInRange_iff hmax h.toIsDecimal).mpr h.le⟩

theorem encPermanentKeyRule_iff (hnul : '\x00' ∉ text) :
    checkPatternOnData encPermanentKeyRegex text = true ∧ (text.length == LENGTH_ENC_PERMANENT_KEY) = true ↔
      HexDigits 32 text := by
  rw [encPermanentKeyRegex, checkPattern_star_iff, Str.cStr_eq_self hnul, beq_iff_eq]
  exact ⟨fun h => ⟨h.1, h.2⟩, fun h => ⟨h.digits, h.length_eq⟩⟩

theorem authenticationManagementField_iff :
    checkPatternOnData authenticationManagementFieldRegex text = true ↔
      (∀ c ∈ Str.cStr text, Str.isHexDigit c = true) ∧ (Str.cStr text).length = 4 := checkPattern_times_iff

/-- The rule for an attribute: its format where it is there, its presence where that is required. -/
theorem attributeRule_iff {pattern : Expr} {further : Str → Bool} {format : Str → Prop}
    (h : ∀ t, attr = some t → (checkPatternOnData pattern t = true ∧ further t = true ↔ format t)) :
    AttributeRule pattern further required attr ↔
      (∀ t, attr = some t → format t) ∧ (required = true → attr.isSome = true) := by
  cases attr with
  | none => simp [AttributeRule]
  | some t =>
    rw [AttributeRule, h t rfl]
    simp

/-- The rule for `encOpcKey`, next to an `algorithmId` of the right format. -/
theorem encOpcKeyRule_iff {algorithmId : Option Str} (hnul : ∀ t, attr = some t → '\x00' ∉ t)
    (hformat : ∀ t, algorithmId = some t → '\x00' ∉ t ∧ Str.DecimalUpTo 15 t) :
    EncOpcKeyRule algorithmId attr ↔ ∀ t, attr = some t → (∀ c ∈ t, Str.isHexDigit c = true) ∧
      ∃ algorithm, algorithmId = some algorithm ∧ Str.decValue algorithm ≠ 1 := by
  cases attr with
  | none => exact iff_of_true trivial nofun
  | some t =>
    simp only [EncOpcKeyRule, encOpcKeyRegex, checkPattern_star_iff, Str.cStr_eq_self (hnul t rfl), Option.some.injEq,
      forall_eq']
    refine and_congr_right fun _ => exists_congr fun algorithm => and_congr_right fun halgorithm => ?_
    obtain ⟨hnul', hdecimal⟩ := hformat algorithm halgorithm
    have hmax : 15 ≤ 2147483647 := by decide
    have hpattern := (decimalRule_iff hmax hnul').mpr hdecimal
    rw [checkAlgorithmIdIsMillenage_iff hdecimal.toIsDecimal]
    exact ⟨fun h => (h hpattern.1).2, fun h _ => ⟨hdecimal.le, h⟩⟩

end Attributes

/-! ## The rules for static data -/

section StaticData
variable {R : RelatedResources} {p : Str} {d : AuthSubscriptionStaticData}

theorem isAuthenticationMethodAKA_iff :
    isAuthenticationMethodAKA d = true ↔
      d.authenticationMethod = JSON_5G_AKA ∨ d.authenticationMethod = JSON_EAP_AKA_PRIME := by
  rw [isAuthenticationMethodAKA, Bool.or_eq_true, beq_iff_eq, beq_iff_eq]

/-- The `AuC` bit of the mask is the fifth character from its end. -/
theorem isDefinedInAuC_iff {journal : ProvJournal} :
    isDefinedInAuC journal = .ok true ↔ journal.imsiMask.reverse[4]? = some '1' := by
  rw [isDefinedInAuC]
  cases hmask : journal.imsiMask with
  | nil => simp
  | cons c cs =>
    have hpos : POS_AUC_IN_IMSI_MASK = 4 := rfl
    rw [List.isEmpty_cons, if_neg (by decide), checkBitIsSet, hpos]
    cases (c :: cs).reverse[4]? with
    | none => simp
    | some it => simp

/-- **The common rules for static data without NULs.** -/
theorem staticDataRules_iff (hd : d.Readable) :
    StaticDataRules R p d ↔
      (d.authenticationMethod = JSON_5G_AKA ∨ d.authenticationMethod = JSON_EAP_AKA_PRIME) ∧ Formatted d ∧
      (isRequired R p d = true → ∀ attr ∈ d.mandatory, attr.isSome = true) ∧
      (d.akaAlgorithmInd.isSome = true → DefinedInAuC R p) := by
  have hnul : ∀ attr ∈ d.attributes, ∀ t, attr = some t → '\x00' ∉ t := fun attr hmem t ht =>
    hd.attributes t (ht ▸ hmem)
  simp only [AuthSubscriptionStaticData.attributes, List.forall_mem_cons, List.not_mem_nil, false_implies, implies_true,
    and_true] at hnul
  obtain ⟨nkey, namf, nalg, nkeyInd, nind, nopc, -, nkeyV, naka⟩ := hnul
  have hmax : ∀ max, max ≤ 511 → max ≤ 2147483647 := fun max h => by omega
  have hkey := fun required => @attributeRule_iff _ required _ _ _ fun t ht => encPermanentKeyRule_iff (nkey t ht)
  have hamf := fun required => @attributeRule_iff d.authenticationManagementField required
    authenticationManagementFieldRegex (fun _ => true) (HexDigits 4) fun t ht => by
      rw [authenticationManagementField_iff, Str.cStr_eq_self (namf t ht)]
      exact ⟨fun h => ⟨h.1.1, h.1.2⟩, fun h => ⟨⟨h.digits, h.length_eq⟩, rfl⟩⟩
  have halg := fun required => @attributeRule_iff _ required _ _ _ fun t ht =>
    decimalRule_iff (hmax 15 (by decide)) (nalg t ht)
  have hkeyInd := fun required => @attributeRule_iff _ required _ _ _ fun t ht =>
    decimalRule_iff (hmax 511 (by decide)) (nkeyInd t ht)
  have hind := fun required => @attributeRule_iff _ required _ _ _ fun t ht =>
    decimalRule_iff (hmax 2 (by decide)) (nind t ht)
  have hkeyV : ∀ t, d.a4KeyV = some t →
      (checkPatternOnData a4KeyVRegex t = true ↔ ∃ n ≤ 31, t = Nat.toDigits 10 n) := fun t ht => by
    rw [checkPattern_a4KeyV_iff, Str.cStr_eq_self (nkeyV t ht)]
  have haka : ∀ t, d.akaAlgorithmInd = some t →
      (checkPatternOnData akaAlgorithmIndRegex t = true ↔ ∃ n ≤ 2, t = Nat.toDigits 10 n) := fun t ht => by
    rw [checkPattern_akaAlgorithmInd_iff, Str.cStr_eq_self (naka t ht)]
  have hopc := fun (h : ∀ t, d.algorithmId = some t → Str.DecimalUpTo 15 t) =>
    encOpcKeyRule_iff nopc fun t ht => ⟨nalg t ht, h t ht⟩
  simp only [AuthSubscriptionStaticData.mandatory, List.forall_mem_cons, List.not_mem_nil, false_implies, implies_true,
    and_true]
  constructor
  · intro h
    obtain ⟨fkey, rkey⟩ := (hkey _).mp h.encPermanentKey
    obtain ⟨famf, ramf⟩ := (hamf _).mp h.authenticationManagementField
    obtain ⟨falg, ralg⟩ := (halg _).mp h.algorithmId
    obtain ⟨fkeyInd, rkeyInd⟩ := (hkeyInd _).mp h.a4KeyInd
    obtain ⟨find, rind⟩ := (hind _).mp h.a4Ind
    refine ⟨isAuthenticationMethodAKA_iff.mp h.authenticationMethod,
      ⟨fkey, famf, falg, fkeyInd, find, (hopc falg).mp h.encOpcKey, fun t ht => (hkeyV t ht).mp (h.a4KeyV t ht),
        fun t ht => (haka t ht).mp (h.akaAlgorithmInd t ht).1⟩,
      fun hr => ⟨rkey hr, ramf hr, ralg hr, rkeyInd hr, rind hr⟩, fun hsome => ?_⟩
    obtain ⟨t, ht⟩ := Option.isSome_iff_exists.mp hsome
    exact (h.akaAlgorithmInd t ht).2
  · intro h
    obtain ⟨hmethod, hformat, hrequired, hjournal⟩ := h
    refine ⟨isAuthenticationMethodAKA_iff.mpr hmethod,
      (hkey _).mpr ⟨hformat.encPermanentKey, fun hr => (hrequired hr).1⟩,
      (hamf _).mpr ⟨hformat.authenticationManagementField, fun hr => (hrequired hr).2.1⟩,
      (halg _).mpr ⟨hformat.algorithmId, fun hr => (hrequired hr).2.2.1⟩,
      (hkeyInd _).mpr ⟨hformat.a4KeyInd, fun hr => (hrequired hr).2.2.2.1⟩,
      (hind _).mpr ⟨hformat.a4Ind, fun hr => (hrequired hr).2.2.2.2⟩,
      (hopc hformat.algorithmId).mpr hformat.encOpcKey, fun t ht => (hkeyV t ht).mpr (hformat.a4KeyV t ht),
      fun t ht => ⟨(haka t ht).mpr (hformat.akaAlgorithmInd t ht), hjournal (by rw [ht, Option.isSome_some])⟩⟩

end StaticData

end AuthProvValidator
