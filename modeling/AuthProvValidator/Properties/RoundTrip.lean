import AuthProvValidator.Properties.AnsweredData

/-!
# Static data that are answered and read again

The data of an answered creation or update are an object that the parser can read. What it reads are the static data of
the answer, except that `encTopcKey` and empty texts are not written and a text is cut at its first NUL.

* `ReadBack response n d` : the data of the `n`-th element of the written changes are read as `d`;
* `applyValidationRules_readBack` : the answers of a response without errors are read back exactly when no change has an
  `encTopcKey` or an empty `encOpcKey`, and the keys that are filled in are neither empty nor have a NUL.
-/

namespace AuthProvValidator
open Recorder Json

/-- The data of the `n`-th element of the `changes` array of a document. -/
def Json.writtenData (body : Json) (n : Nat) : Option Json :=
  match body.writtenChanges[n]? with
  | some (.obj ms) => find ms JSON_DATA
  | _ => none

/-- The data of the `n`-th element of the written changes are read as `d`, without an error. -/
def ReadBack (response : Response) (n : Nat) (d : AuthSubscriptionStaticData) : Prop :=
  ∃ v, (validatorResponseToJson response).writtenData n = some v ∧
    ∀ p E, (getAuthSubscriptionStaticData v p).run E = .ok (d, E)

def Writable (t : Str) : Prop := t ≠ [] ∧ '\x00' ∉ t

/-- Static data of a change that are written whole, with the keys that are filled in from a legacy subscription. -/
structure WrittenWhole (R : RelatedResources) (c : Change) (d : AuthSubscriptionStaticData) : Prop where
  encTopcKey : d.encTopcKey = none
  encOpcKey : d.encOpcKey ≠ some []
  filledKey : ∀ l, NextToLegacy R c d l → d.encPermanentKey = none → ∀ eki, l.eki = some eki → Writable eki
  filledOpcKey : ∀ l, NextToLegacy R c d l → d.encOpcKey = none → ∀ eopc, l.eopc = some eopc → Writable eopc

/-! ## Texts that are written whole -/

section Texts
variable {d : AuthSubscriptionStaticData} {l : AuthSubscriptionLegacy} {t : Str}

theorem writable_to_string {n : Int} : Writable (Str.to_string n) := by
  have hdigits : ∀ m, Nat.toDigits 10 m ≠ [] ∧ '\x00' ∉ Nat.toDigits 10 m := fun m =>
    ⟨Nat.toDigits_ne_nil, fun h => absurd (Str.isDecDigit_toDigits _ h) (by decide)⟩
  unfold Writable Str.to_string
  split
  · refine ⟨List.cons_ne_nil _ _, fun h => ?_⟩
    rcases List.mem_cons.mp h with h | h
    · cases h
    · exact (hdigits _).2 h
  · exact hdigits _

theorem HexDigits.writable {length : Nat} (h : HexDigits length t) (hpos : 0 < length) : Writable t :=
  ⟨h.ne_nil hpos, fun h0 => absurd (h.digits _ h0) (by decide)⟩

theorem writable_hexText {width value : Nat} : Writable (Str.hexText width value) :=
  ⟨Str.hexText_ne_nil, fun h0 => absurd (Str.isHexDigit_hexText _ h0) (by decide)⟩

theorem writable_decimal {max : Nat} (h : Str.DecimalUpTo max t) : Writable t :=
  ⟨h.ne_nil, fun h0 => absurd (h.digits _ h0) (by decide)⟩

theorem writable_toDigits {max : Nat} (h : ∃ n ≤ max, t = Nat.toDigits 10 n) : Writable t := by
  obtain ⟨n, -, rfl⟩ := h
  rw [← Str.to_string_ofNat]
  exact writable_to_string

theorem forall_writable_encOpcKey_iff (hd : Formatted d) :
    (∀ t, fillOptionalAttribute d.encOpcKey l.eopc = some t → Writable t) ↔
      d.encOpcKey ≠ some [] ∧ (d.encOpcKey = none → ∀ eopc, l.eopc = some eopc → Writable eopc) := by
  unfold fillOptionalAttribute
  cases hopc : d.encOpcKey with
  | none => simp
  | some t =>
    have hnul : '\x00' ∉ t := fun h => absurd ((hd.encOpcKey t hopc).1 _ h) (by decide)
    simp [Writable, hnul]

/-- **Static data in their formats are written whole, once they are filled, exactly when they have neither an
`encTopcKey` nor an empty `encOpcKey` and what is filled in is written whole.** -/
theorem written_fill_iff (hreadable : d.Readable) (hd : Formatted d) :
    (fillOptionalAuthSubscriptionStaticAttributes d l).written = fillOptionalAuthSubscriptionStaticAttributes d l ↔
      d.encTopcKey = none ∧ (d.encOpcKey ≠ some [] ∧
        (d.encOpcKey = none → ∀ eopc, l.eopc = some eopc → Writable eopc)) ∧
      (d.encPermanentKey = none → ∀ eki, l.eki = some eki → Writable eki) := by
  have hto : ∀ n, Writable (Str.to_string n) ↔ True := fun n => iff_of_true writable_to_string trivial
  have hint : ∀ {attr : Option Str} {attrLegacy : Option Int}, (∀ t, attr = some t → Writable t) →
      ∀ t, fillOptionalAttributeInt attr attrLegacy = some t → Writable t := fun h =>
    (forall_fillOptionalAttributeInt_iff h hto).mpr fun _ _ _ => trivial
  have hamf : ∀ t, fillOptionalAttribute d.authenticationManagementField
      (l.amfValue.map fun n => fromUnsignedIntToHexString (toUnsigned n) 4) = some t → Writable t := by
    have hwritable := fun t ht => (hd.authenticationManagementField t ht).writable (by decide)
    refine (forall_fillOptionalAttribute_iff hwritable).mpr fun _ t ht => ?_
    obtain ⟨n, -, rfl⟩ := Option.map_eq_some_iff.mp ht
    exact writable_hexText
  have hkey := @forall_fillOptionalAttribute_iff d.encPermanentKey Writable l.eki fun t ht =>
    (hd.encPermanentKey t ht).writable (by decide)
  have hmethod : '\x00' ∉ (fillOptionalAuthSubscriptionStaticAttributes d l).authenticationMethod :=
    hreadable.authenticationMethod
  rw [written_eq_iff hmethod]
  refine and_congr_right fun htopc => ?_
  rw [← forall_writable_encOpcKey_iff hd, ← hkey]
  constructor
  · intro h
    refine ⟨fun t ht => h t ?_, fun t ht => h t ?_⟩
    · rw [← ht]
      simp [AuthSubscriptionStaticData.attributes, fillOptionalAuthSubscriptionStaticAttributes]
    · rw [← ht]
      simp [AuthSubscriptionStaticData.attributes, fillOptionalAuthSubscriptionStaticAttributes]
  · intro h t ht
    simp only [AuthSubscriptionStaticData.attributes, fillOptionalAuthSubscriptionStaticAttributes, List.mem_cons,
      List.not_mem_nil, or_false] at ht
    rcases ht with ht | ht | ht | ht | ht | ht | ht | ht | ht
    · exact h.2 t ht.symm
    · exact hamf t ht.symm
    · exact hint (fun t ht => writable_decimal (hd.algorithmId t ht)) t ht.symm
    · exact hint (fun t ht => writable_decimal (hd.a4KeyInd t ht)) t ht.symm
    · exact hint (fun t ht => writable_decimal (hd.a4Ind t ht)) t ht.symm
    · exact h.1 t ht.symm
    · exact absurd (ht.trans htopc) (Option.some_ne_none t)
    · exact hint (fun t ht => writable_toDigits (hd.a4KeyV t ht)) t ht.symm
    · exact hint (fun t ht => writable_toDigits (hd.akaAlgorithmInd t ht)) t ht.symm

theorem written_iff (hreadable : d.Readable) (hd : Formatted d) :
    d.written = d ↔ d.encTopcKey = none ∧ d.encOpcKey ≠ some [] := by
  have hfill : fillOptionalAuthSubscriptionStaticAttributes d {} = d := by
    simp [fillOptionalAuthSubscriptionStaticAttributes, fillOptionalAttributeInt, fillOptionalAttribute]
  have h := @written_fill_iff d {} hreadable hd
  rw [hfill] at h
  rw [h]
  refine and_congr_right fun _ => ⟨fun h => h.1.1, fun h => ⟨⟨h, fun _ eopc heopc => ?_⟩, fun _ eki heki => ?_⟩⟩
  · exact absurd heopc.symm (Option.some_ne_none eopc)
  · exact absurd heki.symm (Option.some_ne_none eki)

end Texts

/-! ## The written document -/

section Document
variable {response : Response} {pre post : List Change} {c : Change}

theorem writtenData_validatorResponseToJson (h : response.errors = []) (hsplit : response.changes = pre ++ c :: post)
    (huri : checkAuthSubscriptionStaticDataUri c.resourcePath = true) (hop : c.operation ≠ JSON_OPERATION_DELETE) :
    (validatorResponseToJson response).writtenData (pre.flatMap changeToJson).length =
      some (.obj (authSubscriptionStaticDataToJson c.authSubscription)) := by
  have hdata : c.writtenStaticData = authSubscriptionStaticDataToJson c.authSubscription :=
    if_pos (hasInfix_of_staticDataUri huri)
  rw [writtenData, writtenChanges_validatorResponseToJson h, hsplit, List.flatMap_append, List.flatMap_cons,
    changeToJson_eq, if_neg hop, hdata, List.cons_append, List.getElem?_append_right (le_refl _), Nat.sub_self,
    List.getElem?_cons_zero]
  show find (operationToJson c.operation c.resourcePath ++ _) JSON_DATA = _
  rw [find_append]
  rfl

end Document

/-- The data of every answered creation and update of static data are read back. -/
def AnswersReadBack (response : Response) : Prop :=
  ∀ pre c' post, response.changes = pre ++ c' :: post →
    c'.operation = JSON_OPERATION_CREATE ∨ c'.operation = JSON_OPERATION_UPDATE →
    checkAuthSubscriptionStaticDataUri c'.resourcePath = true →
    ∀ d', c'.authSubscription.authSubscriptionStaticData = some d' →
      ReadBack response (pre.flatMap changeToJson).length d'

theorem not_delete {operation : Str} (h : operation = JSON_OPERATION_CREATE ∨ operation = JSON_OPERATION_UPDATE) :
    operation ≠ JSON_OPERATION_DELETE := by
  rcases h with h | h <;> rw [h]
  · exact create_ne_delete
  · exact update_ne_delete

/-- Whether a change is read back does not depend on its place. -/
theorem answersReadBack_iff {response : Response} (h : response.errors = []) :
    AnswersReadBack response ↔ ∀ c' ∈ response.changes,
      c'.operation = JSON_OPERATION_CREATE ∨ c'.operation = JSON_OPERATION_UPDATE →
      checkAuthSubscriptionStaticDataUri c'.resourcePath = true →
      ∀ d', c'.authSubscription.authSubscriptionStaticData = some d' → ∀ p E,
        (getAuthSubscriptionStaticData (.obj (authSubscriptionStaticDataToJson c'.authSubscription)) p).run E =
          .ok (d', E) := by
  constructor
  · intro hall c' hmem hop huri d' hd'
    obtain ⟨pre, post, hsplit⟩ := List.mem_iff_append.mp hmem
    obtain ⟨v, hv, hread⟩ := hall pre c' post hsplit hop huri d' hd'
    rw [writtenData_validatorResponseToJson h hsplit huri (not_delete hop)] at hv
    rw [Option.some.inj hv]
    exact hread
  · intro hall pre c' post hsplit hop huri d' hd'
    refine ⟨_, writtenData_validatorResponseToJson h hsplit huri (not_delete hop), ?_⟩
    exact hall c' (by simp [hsplit]) hop huri d' hd'

section Answered
variable {R : RelatedResources} {c c' : Change} {pre : List Change}

/-- What the parser and the rules make sure of for the static data of an answer. -/
theorem fromParser_answered (hparser : c.FromParser) (hcommon : CommonRules R c) (hacc : Accepted R pre c c') :
    ∀ d', c'.authSubscription.authSubscriptionStaticData = some d' →
      d'.vendorSpecific.Named ∧ d'.authenticationMethod ≠ [] := by
  rw [forall_static_of_mutations_iff hacc.imsi hacc.mutations]
  intro d hd
  have hmethod : d.authenticationMethod ≠ [] := by
    rcases isAuthenticationMethodAKA_iff.mp (hcommon.static d hd).authenticationMethod with h | h <;> rw [h]
    · decide
    · decide
  have hnamed := (hparser d hd).vendorSpecific
  exact ⟨fun _ _ => ⟨hnamed, hmethod⟩, fun _ => ⟨hnamed, hmethod⟩⟩

theorem readBack_answered_iff (h : ∀ d', c'.authSubscription.authSubscriptionStaticData = some d' →
      d'.vendorSpecific.Named ∧ d'.authenticationMethod ≠ []) :
    (∀ d', c'.authSubscription.authSubscriptionStaticData = some d' → ∀ p E,
        (getAuthSubscriptionStaticData (.obj (authSubscriptionStaticDataToJson c'.authSubscription)) p).run E =
          .ok (d', E)) ↔
      ∀ d', c'.authSubscription.authSubscriptionStaticData = some d' → d'.written = d' := by
  refine forall_congr' fun d' => forall_congr' fun hd' => ?_
  obtain ⟨hnamed, hmethod⟩ := h d' hd'
  simp only [getAuthSubscriptionStaticData_written hd' hnamed hmethod, Except.ok.injEq, Prod.mk.injEq, and_true]
  exact ⟨fun h => h [] [], fun h _ _ => h⟩

end Answered

/-- **The answers of a response without errors are read back exactly when the static data of every change are written
whole.** -/
theorem applyValidationRules_readBack (decode : Str → Str) (doc : Option Json) (data : ValidationData) (o : Outcome)
    (h : getValidationData decode doc = .ok data) (hrun : applyValidationRules data = .ok o)
    (herrors : o.response.errors = []) :
    AnswersReadBack o.response ↔
      ∀ c ∈ data.changes, pathClass c.resourcePath = .imsi →
        c.operation = JSON_OPERATION_CREATE ∨ c.operation = JSON_OPERATION_UPDATE →
        checkAuthSubscriptionStaticDataUri c.resourcePath = true →
        ∀ d, c.authSubscription.authSubscriptionStaticData = some d → WrittenWhole data.relatedResources c d := by
  rw [answersReadBack_iff herrors]
  obtain ⟨hparse, hconform⟩ := conforms_of_errors_nil hrun herrors
  have hparser := fromParser_of_getValidationData h hparse
  rw [← everyAccepted_iff hconform]
  refine forall_answered_parsed_iff h hparse hrun fun pre c c' hparser hacc hcommon => ?_
  obtain ⟨-, hpath, -⟩ := computeMutations_frame hacc.mutations
  rw [hpath]
  refine forall_congr' fun huri => ?_
  rw [readBack_answered_iff (fromParser_answered hparser hcommon hacc), forall_static_of_mutations_iff hacc.imsi
    hacc.mutations]
  refine forall_congr' fun d => forall_congr' fun hd => ?_
  have hreadable := (hparser d hd).readable
  have hformatted := hcommon.formatted hparser hd
  rw [written_iff hreadable hformatted]
  simp only [written_fill_iff hreadable hformatted]
  constructor
  · intro hall
    by_cases hnext : ∃ l, NextToLegacy data.relatedResources c d l
    · obtain ⟨l, hnext⟩ := hnext
      obtain ⟨htopc, ⟨hopc, -⟩, -⟩ := hall.1 l hnext
      exact ⟨htopc, hopc, fun l hnext => (hall.1 l hnext).2.2, fun l hnext => (hall.1 l hnext).2.1.2⟩
    · have hnone := not_exists.mp hnext
      obtain ⟨htopc, hopc⟩ := hall.2 hnone
      exact ⟨htopc, hopc, fun l hnext => absurd hnext (hnone l), fun l hnext => absurd hnext (hnone l)⟩
  · intro hwhole
    exact ⟨fun l hnext =>
        ⟨hwhole.encTopcKey, ⟨hwhole.encOpcKey, hwhole.filledOpcKey l hnext⟩, hwhole.filledKey l hnext⟩,
      fun _ => ⟨hwhole.encTopcKey, hwhole.encOpcKey⟩⟩

def creationEncTopcKey : Json :=
  creationDocument [(JSON_AUTHENTICATION_METHOD, .str JSON_5G_AKA), (JSON_ENC_TOPC_KEY, .str "AB".toList)]
    [(JSON_AKA_TYPE, .int 1)]

theorem creationEncTopcKey_answered :
    ∃ data o, getValidationData id (some creationEncTopcKey) = .ok data ∧ data.response.errors = [] ∧
      applyValidationRules data = .ok o ∧ (o.response.errors.isEmpty &&
        (o.response.changes.map fun c' => (c'.operation, checkAuthSubscriptionStaticDataUri c'.resourcePath,
          c'.authSubscription.authSubscriptionStaticData.bind (·.encTopcKey))) ==
            [(JSON_OPERATION_CREATE, true, some "AB".toList)] &&
        (((validatorResponseToJson o.response).writtenData 0).bind fun v =>
          ((getAuthSubscriptionStaticData v []).run []).toOption.map fun r => r.1.encTopcKey) == some none) = true :=
  exists_answered _ _ (by decide)

theorem creationEncTopcKey_lost :
    ¬ ∀ (decode : Str → Str) (doc : Option Json) (data : ValidationData) (o : Outcome),
      getValidationData decode doc = .ok data → applyValidationRules data = .ok o → o.response.errors = [] →
      AnswersReadBack o.response := by
  intro h
  obtain ⟨data, o, hdata, -, hrun, ho⟩ := creationEncTopcKey_answered
  simp only [Bool.and_eq_true, List.isEmpty_iff, beq_iff_eq, List.map_eq_singleton_iff, Prod.mk.injEq] at ho
  obtain ⟨⟨herrors, c', hchanges, hop, huri, hkey⟩, hread⟩ := ho
  obtain ⟨d', hd', hkey⟩ := Option.bind_eq_some_iff.mp hkey
  obtain ⟨v, hv, hrun'⟩ := h id _ data o hdata hrun herrors [] c' [] hchanges (Or.inl hop) huri d' hd'
  rw [List.flatMap_nil, List.length_nil] at hv
  rw [hv, Option.bind_some, hrun' [] []] at hread
  have hnone : d'.encTopcKey = none := Option.some.inj hread
  rw [hkey] at hnone
  cases hnone

theorem applyValidationRules_readBack_example :
    ∃ data o, getValidationData id (some creationEncTopcKey) = .ok data ∧ applyValidationRules data = .ok o ∧
      o.response.errors = [] ∧
      (AnswersReadBack o.response ↔
        ∀ c ∈ data.changes, pathClass c.resourcePath = .imsi →
          c.operation = JSON_OPERATION_CREATE ∨ c.operation = JSON_OPERATION_UPDATE →
          checkAuthSubscriptionStaticDataUri c.resourcePath = true →
          ∀ d, c.authSubscription.authSubscriptionStaticData = some d → WrittenWhole data.relatedResources c d) := by
  obtain ⟨data, o, hdata, -, hrun, ho⟩ := creationEncTopcKey_answered
  simp only [Bool.and_eq_true, List.isEmpty_iff] at ho
  have herrors := ho.1.1
  exact ⟨data, o, hdata, hrun, herrors,
    applyValidationRules_readBack id (some creationEncTopcKey) data o hdata hrun herrors⟩

end AuthProvValidator
