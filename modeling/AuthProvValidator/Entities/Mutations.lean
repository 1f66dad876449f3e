import AuthProvValidator.Entities.Rules

/-!
# The mutations of an accepted change

* `computeMutations` : a creation gets its dynamic data and, next to a 4G legacy subscription, the attributes it left
  out; an update loses dynamic data that the stored subscription does not have;
* `computeMutations_mutation` : the mutations that are defined are one of four, `Mutation`;
* `computeMutations_frame` : operation and path stay, static data stays present with its authentication method;
* `computeMutations_create_legacy` : what a creation next to a legacy subscription becomes.
-/

namespace AuthProvValidator
open Recorder

def SEQHE_INVALID_VALUE : Str := "FFFFFFFFFFFF"
def SEQHE_BITS_LENGTH : Nat := 48
def SQN_MUTATION_VALUE : Str := "000000000000"
def SQN_SCHEME_NON_TIME_BASED : Str := "NON_TIME_BASED"
def SQN_SCHEME_TIME_BASED : Str := "TIME_BASED"
def BITS_PER_CHAR : Nat := 4

/-- The text of the `unsigned int` that an `int` converts to. -/
def fromUnsignedIntToHexString (value : Nat) (len : Nat) : Str := Str.hexText len value

def fromHexStringToBitset (seqHe : Str) : Except Fault (BitVec SEQHE_BITS_LENGTH) :=
  match Str.extractHex 64 seqHe with
  | some tempValue => .ok (BitVec.ofNat SEQHE_BITS_LENGTH tempValue)
  | none => .error .uninitialized

def fromBitsetToHexString (bits : BitVec SEQHE_BITS_LENGTH) : Str :=
  Str.hexText (SEQHE_BITS_LENGTH / BITS_PER_CHAR) bits.toNat

def computeSqnFromSeqHe (seqHe : Str) : Except Fault Str := do
  let bits ← fromHexStringToBitset seqHe
  return fromBitsetToHexString (bits <<< 5)

def fillOptionalAttribute (attr attrLegacy : Option Str) : Option Str := attr.or attrLegacy

def fillOptionalAttributeInt (attr : Option Str) (attrLegacy : Option Int) : Option Str :=
  fillOptionalAttribute attr (attrLegacy.map Str.to_string)

def fillOptionalAuthSubscriptionStaticAttributes (d : AuthSubscriptionStaticData) (l : AuthSubscriptionLegacy) :
    AuthSubscriptionStaticData :=
  { d with
    encPermanentKey := fillOptionalAttribute d.encPermanentKey l.eki
    a4KeyInd := fillOptionalAttributeInt d.a4KeyInd l.kind
    a4Ind := fillOptionalAttributeInt d.a4Ind l.a4Ind
    algorithmId := fillOptionalAttributeInt d.algorithmId l.fSetInd
    authenticationManagementField := fillOptionalAttribute d.authenticationManagementField
      (l.amfValue.map fun amfValue => fromUnsignedIntToHexString (toUnsigned amfValue) 4)
    encOpcKey := fillOptionalAttribute d.encOpcKey l.eopc
    a4KeyV := fillOptionalAttributeInt d.a4KeyV l.vNumber
    akaAlgorithmInd := fillOptionalAttributeInt d.akaAlgorithmInd l.akaAlgInd }

/-- The dynamic data next to a legacy subscription: time based unless `SEQHE` gives a sequence number. -/
def legacyDynamicData (l : AuthSubscriptionLegacy) : Except Fault AuthSubscriptionDynamicData :=
  match l.seqHe with
  | none => return { sqnScheme := some SQN_SCHEME_TIME_BASED }
  | some seqHe =>
      if seqHe == SEQHE_INVALID_VALUE then return { sqnScheme := some SQN_SCHEME_TIME_BASED }
      else do
        let sqn ← computeSqnFromSeqHe seqHe
        return { sqnScheme := some SQN_SCHEME_NON_TIME_BASED, sqn := some sqn }

def Change.withDynamicData (c : Change) (dynData : Option AuthSubscriptionDynamicData) : Change :=
  { c with authSubscription := { c.authSubscription with authSubscriptionDynamicData := dynData } }

def Change.mapStaticData (c : Change) (f : AuthSubscriptionStaticData → AuthSubscriptionStaticData) : Change :=
  { c with authSubscription :=
      { c.authSubscription with
        authSubscriptionStaticData := c.authSubscription.authSubscriptionStaticData.map f } }

def computeMutations (relatedResources : RelatedResources) (change : Change) : Except Fault Change := do
  if checkAuthSubscriptionStaticDataUri change.resourcePath then
    if change.operation = JSON_OPERATION_CREATE then
      match relatedResources[getLegacyPathFromResourcePath change.resourcePath]? with
      | some resource =>
          let l ← getAuthSubscriptionLegacyResource resource
          let dynData ← legacyDynamicData l
          return (change.withDynamicData dynData).mapStaticData
            (fillOptionalAuthSubscriptionStaticAttributes · l)
      | none =>
          return change.withDynamicData
            (some { sqn := some SQN_MUTATION_VALUE, sqnScheme := some SQN_SCHEME_NON_TIME_BASED })
    else if change.operation = JSON_OPERATION_UPDATE then
      match relatedResources[change.resourcePath]? with
      | some resource =>
          let related ← getAuthSubscriptionResource resource
          if related.authSubscriptionDynamicData.isSome then return change
          else return change.withDynamicData none
      | none => return change
    else return change
  else return change

inductive Mutation (R : RelatedResources) (c : Change) : Change → Prop where
  | legacy (hc : c.operation = JSON_OPERATION_CREATE) (hs : checkAuthSubscriptionStaticDataUri c.resourcePath = true)
      {l : AuthSubscriptionLegacy}
      (hl : R[getLegacyPathFromResourcePath c.resourcePath]? = some (.authSubscriptionLegacy l))
      {dynData : AuthSubscriptionDynamicData} (hd : legacyDynamicData l = .ok dynData) :
      Mutation R c ((c.withDynamicData dynData).mapStaticData (fillOptionalAuthSubscriptionStaticAttributes · l))
  | fresh (hc : c.operation = JSON_OPERATION_CREATE) (hs : checkAuthSubscriptionStaticDataUri c.resourcePath = true)
      (hl : R[getLegacyPathFromResourcePath c.resourcePath]? = none) :
      Mutation R c (c.withDynamicData
        (some { sqn := some SQN_MUTATION_VALUE, sqnScheme := some SQN_SCHEME_NON_TIME_BASED }))
  | reset (hu : c.operation = JSON_OPERATION_UPDATE) : Mutation R c (c.withDynamicData none)
  | kept (h : c.operation = JSON_OPERATION_CREATE → ¬ checkAuthSubscriptionStaticDataUri c.resourcePath = true) :
      Mutation R c c

section Lemmas
variable {R : RelatedResources} {c c' : Change}

@[simp] theorem Change.withDynamicData_operation (c : Change) (dynData : Option AuthSubscriptionDynamicData) :
    (c.withDynamicData dynData).operation = c.operation := rfl

@[simp] theorem Change.withDynamicData_resourcePath (c : Change) (dynData : Option AuthSubscriptionDynamicData) :
    (c.withDynamicData dynData).resourcePath = c.resourcePath := rfl

@[simp] theorem Change.withDynamicData_static (c : Change) (dynData : Option AuthSubscriptionDynamicData) :
    (c.withDynamicData dynData).authSubscription.authSubscriptionStaticData =
      c.authSubscription.authSubscriptionStaticData := rfl

@[simp] theorem Change.mapStaticData_operation (c : Change) (f) : (c.mapStaticData f).operation = c.operation := rfl

@[simp] theorem Change.mapStaticData_static (c : Change) (f) :
    (c.mapStaticData f).authSubscription.authSubscriptionStaticData =
      c.authSubscription.authSubscriptionStaticData.map f := rfl

theorem computeMutations_of_not_static (hs : ¬ checkAuthSubscriptionStaticDataUri c.resourcePath = true) :
    computeMutations R c = .ok c := by
  rw [computeMutations, if_neg hs, pure_eq_ok]

theorem computeMutations_of_other (hc : c.operation ≠ JSON_OPERATION_CREATE)
    (hu : c.operation ≠ JSON_OPERATION_UPDATE) : computeMutations R c = .ok c := by
  by_cases hs : checkAuthSubscriptionStaticDataUri c.resourcePath = true
  · rw [computeMutations, if_pos hs, if_neg hc, if_neg hu, pure_eq_ok]
  · exact computeMutations_of_not_static hs

theorem computeMutations_create_legacy (hs : checkAuthSubscriptionStaticDataUri c.resourcePath = true)
    (hc : c.operation = JSON_OPERATION_CREATE) {l : AuthSubscriptionLegacy}
    (hr : R[getLegacyPathFromResourcePath c.resourcePath]? = some (.authSubscriptionLegacy l)) :
    computeMutations R c = (legacyDynamicData l).map fun dynData =>
      (c.withDynamicData (some dynData)).mapStaticData (fillOptionalAuthSubscriptionStaticAttributes · l) := by
  rw [computeMutations, if_pos hs, if_pos hc, hr]
  simp only [getAuthSubscriptionLegacyResource, ok_bind]
  cases legacyDynamicData l <;> rfl

theorem computeMutations_create_none (hs : checkAuthSubscriptionStaticDataUri c.resourcePath = true)
    (hc : c.operation = JSON_OPERATION_CREATE) (hr : R[getLegacyPathFromResourcePath c.resourcePath]? = none) :
    computeMutations R c = .ok (c.withDynamicData
      (some { sqn := some SQN_MUTATION_VALUE, sqnScheme := some SQN_SCHEME_NON_TIME_BASED })) := by
  rw [computeMutations, if_pos hs, if_pos hc, hr, pure_eq_ok]

/-- **The mutations that are defined.** -/
theorem computeMutations_mutation (h : computeMutations R c = .ok c') : Mutation R c c' := by
  by_cases hs : checkAuthSubscriptionStaticDataUri c.resourcePath = true
  case neg =>
    obtain rfl := Except.ok.inj ((computeMutations_of_not_static hs).symm.trans h)
    exact .kept fun _ => hs
  by_cases hc : c.operation = JSON_OPERATION_CREATE
  · cases hl : R[getLegacyPathFromResourcePath c.resourcePath]? with
    | none =>
      obtain rfl := Except.ok.inj ((computeMutations_create_none hs hc hl).symm.trans h)
      exact .fresh hc hs hl
    | some r =>
      cases r with
      | authSubscriptionLegacy l =>
        rw [computeMutations_create_legacy hs hc hl] at h
        cases hd : legacyDynamicData l with
        | error e => rw [hd] at h; cases h
        | ok dynData =>
          rw [hd] at h
          obtain rfl := Except.ok.inj h
          exact .legacy hc hs hl hd
      | authSubscription a =>
        simp [computeMutations, hs, hc, hl, getAuthSubscriptionLegacyResource] at h
      | provJournal j =>
        simp [computeMutations, hs, hc, hl, getAuthSubscriptionLegacyResource] at h
  · by_cases hu : c.operation = JSON_OPERATION_UPDATE
    · rw [computeMutations, if_pos hs, if_neg hc, if_pos hu] at h
      have hkept : Mutation R c c := .kept fun hc' => absurd hc' hc
      split at h
      · obtain ⟨a, -, ha⟩ := bind_eq_ok.mp h
        split at ha
        · exact Except.ok.inj ha ▸ hkept
        · exact Except.ok.inj ha ▸ .reset hu
      · exact Except.ok.inj h ▸ hkept
    · obtain rfl := Except.ok.inj ((computeMutations_of_other hc hu).symm.trans h)
      exact .kept fun hc' => absurd hc' hc

/-- An update only ever loses its dynamic data. -/
theorem computeMutations_update (hu : c.operation = JSON_OPERATION_UPDATE) (h : computeMutations R c = .ok c') :
    c' = c ∨ c' = c.withDynamicData none := by
  have hne : c.operation ≠ JSON_OPERATION_CREATE := by rw [hu]; decide
  cases computeMutations_mutation h with
  | legacy hc => exact absurd hc hne
  | fresh hc => exact absurd hc hne
  | reset => exact Or.inr rfl
  | kept => exact Or.inl rfl

/-- The legacy subscription has a sequence number that can be read, or none that must be. -/
def SeqHeReadable (l : AuthSubscriptionLegacy) : Prop :=
  ∀ seqHe, l.seqHe = some seqHe → seqHe ≠ SEQHE_INVALID_VALUE → Str.extractHex 64 seqHe ≠ none

theorem legacyDynamicData_ok_iff {l : AuthSubscriptionLegacy} :
    (∃ dynData, legacyDynamicData l = .ok dynData) ↔ SeqHeReadable l := by
  unfold legacyDynamicData SeqHeReadable
  cases l.seqHe with
  | none => simp
  | some seqHe =>
    by_cases hinv : seqHe = SEQHE_INVALID_VALUE
    · simp [hinv]
    · cases hv : Str.extractHex 64 seqHe <;>
        simp [hinv, computeSqnFromSeqHe, fromHexStringToBitset, hv]

theorem legacyDynamicData_error {l : AuthSubscriptionLegacy} {e : Fault} (h : legacyDynamicData l = .error e) :
    e = .uninitialized := by
  unfold legacyDynamicData computeSqnFromSeqHe fromHexStringToBitset at h
  split at h
  · cases h
  · split at h
    · cases h
    · split at h
      · cases h
      · simp only [error_bind] at h
        exact (Except.error.inj h).symm

/-- The resources that the mutations of `c` look up have the type they ask for. -/
structure MutationsTyped (R : RelatedResources) (c : Change) : Prop where
  legacy : c.operation = JSON_OPERATION_CREATE → checkAuthSubscriptionStaticDataUri c.resourcePath = true →
    ∀ r, R[getLegacyPathFromResourcePath c.resourcePath]? = some r → ∃ l, r = .authSubscriptionLegacy l
  own : c.operation = JSON_OPERATION_UPDATE → checkAuthSubscriptionStaticDataUri c.resourcePath = true →
    ∀ r, R[c.resourcePath]? = some r → ∃ a, r = .authSubscription a

/-- The sequence number that the mutations of `c` read can be read. -/
def MutationsReadable (R : RelatedResources) (c : Change) : Prop :=
  c.operation = JSON_OPERATION_CREATE → checkAuthSubscriptionStaticDataUri c.resourcePath = true →
    ∀ l, R[getLegacyPathFromResourcePath c.resourcePath]? = some (.authSubscriptionLegacy l) → SeqHeReadable l

theorem computeMutations_ok (ht : MutationsTyped R c) (hr : MutationsReadable R c) :
    ∃ c', computeMutations R c = .ok c' := by
  by_cases hs : checkAuthSubscriptionStaticDataUri c.resourcePath = true
  case neg => exact ⟨c, computeMutations_of_not_static hs⟩
  by_cases hc : c.operation = JSON_OPERATION_CREATE
  · cases hl : R[getLegacyPathFromResourcePath c.resourcePath]? with
    | none => exact ⟨_, computeMutations_create_none hs hc hl⟩
    | some r =>
      obtain ⟨l, rfl⟩ := ht.legacy hc hs r hl
      obtain ⟨dynData, hd⟩ := legacyDynamicData_ok_iff.mpr (hr hc hs l hl)
      exact ⟨_, by rw [computeMutations_create_legacy hs hc hl, hd]; rfl⟩
  · by_cases hu : c.operation = JSON_OPERATION_UPDATE
    · rw [computeMutations, if_pos hs, if_neg hc, if_pos hu]
      cases hown : R[c.resourcePath]? with
      | none => exact ⟨c, rfl⟩
      | some r =>
        obtain ⟨a, rfl⟩ := ht.own hu hs r hown
        simp only [getAuthSubscriptionResource, ok_bind]
        split <;> exact ⟨_, rfl⟩
    · exact ⟨c, computeMutations_of_other hc hu⟩

/-- With typed resources only an unreadable sequence number stops the mutations. -/
theorem computeMutations_error {e : Fault} (ht : MutationsTyped R c) (h : computeMutations R c = .error e) :
    e = .uninitialized := by
  by_cases hr : MutationsReadable R c
  · obtain ⟨c', hc'⟩ := computeMutations_ok ht hr
    rw [hc'] at h
    cases h
  · simp only [MutationsReadable, not_forall] at hr
    obtain ⟨hc, hs, l, hl, -⟩ := hr
    rw [computeMutations_create_legacy hs hc hl] at h
    cases hd : legacyDynamicData l with
    | ok dynData => rw [hd] at h; cases h
    | error e' =>
      rw [hd] at h
      obtain rfl := Except.error.inj h
      exact legacyDynamicData_error hd

/-- The mutations keep the operation, the path and whether there is static data, with its authentication method. -/
theorem computeMutations_frame (h : computeMutations R c = .ok c') :
    c'.operation = c.operation ∧ c'.resourcePath = c.resourcePath ∧
      c'.authSubscription.authSubscriptionStaticData.map (·.authenticationMethod) =
        c.authSubscription.authSubscriptionStaticData.map (·.authenticationMethod) := by
  cases computeMutations_mutation h with
  | legacy =>
    refine ⟨rfl, rfl, ?_⟩
    rw [Change.mapStaticData_static, Option.map_map]
    rfl
  | fresh => exact ⟨rfl, rfl, rfl⟩
  | reset => exact ⟨rfl, rfl, rfl⟩
  | kept => exact ⟨rfl, rfl, rfl⟩

end Lemmas

end AuthProvValidator
