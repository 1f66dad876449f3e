import AuthProvValidator.Entities.Accepted

/-!
# Creations next to a 4G legacy subscription

* `NextToLegacy R c d l` : `c` is a creation on a static data path, carries `d`, and has the legacy subscription `l`;
* `static_of_mutations` : the static data of a change are filled from the legacy subscription next to it, and stay as
  they are where there is none;
* `forall_static_of_mutations_iff` : when the answered static data have a property;
* `NextToLegacy.conforms` : what the rules make sure of for such a creation.
-/

namespace AuthProvValidator
open Recorder Regex

/-- The change is a creation on a static data path, carries `d`, and has the legacy subscription `l`. -/
structure NextToLegacy (R : RelatedResources) (c : Change) (d : AuthSubscriptionStaticData)
    (l : AuthSubscriptionLegacy) : Prop where
  operation : c.operation = JSON_OPERATION_CREATE
  stored : ∃ x i, IsImsi i ∧ c.resourcePath.cStr = staticDataPath x i ∧
    R[LEGACY_BASE_PATH ++ i]? = some (.authSubscriptionLegacy l)
  static : c.authSubscription.authSubscriptionStaticData = some d

section Mutations
variable {R : RelatedResources} {c c' : Change} {d : AuthSubscriptionStaticData} {l : AuthSubscriptionLegacy}

/-- What the path of static data says, and where its legacy subscription is found. -/
theorem legacy_lookup (h : ∃ x i, IsImsi i ∧ c.resourcePath.cStr = staticDataPath x i ∧
      R[LEGACY_BASE_PATH ++ i]? = some (.authSubscriptionLegacy l)) :
    pathClass c.resourcePath = .imsi ∧ checkAuthSubscriptionStaticDataUri c.resourcePath = true ∧
      R[getLegacyPathFromResourcePath c.resourcePath]? = some (.authSubscriptionLegacy l) := by
  obtain ⟨x, i, hi, hpath, hr⟩ := h
  refine ⟨pathClass_staticDataPath hi hpath, (staticData_imsi_iff.mpr ⟨x, i, hi, hpath⟩).1, ?_⟩
  rw [getLegacyPath_of_cStr_eq hi hpath]
  exact hr

theorem NextToLegacy.lookup (h : NextToLegacy R c d l) :
    pathClass c.resourcePath = .imsi ∧ checkAuthSubscriptionStaticDataUri c.resourcePath = true ∧
      R[getLegacyPathFromResourcePath c.resourcePath]? = some (.authSubscriptionLegacy l) :=
  legacy_lookup h.stored

theorem NextToLegacy.unique {d₂ : AuthSubscriptionStaticData} {l₂ : AuthSubscriptionLegacy} (h : NextToLegacy R c d l)
    (h₂ : NextToLegacy R c d₂ l₂) : d = d₂ ∧ l = l₂ := by
  have hl := h.lookup.2.2.symm.trans h₂.lookup.2.2
  exact ⟨Option.some.inj (h.static.symm.trans h₂.static), Resource.authSubscriptionLegacy.inj (Option.some.inj hl)⟩

theorem nextToLegacy_iff (hclass : pathClass c.resourcePath = .imsi) :
    NextToLegacy R c d l ↔ c.operation = JSON_OPERATION_CREATE ∧
      checkAuthSubscriptionStaticDataUri c.resourcePath = true ∧
      R[getLegacyPathFromResourcePath c.resourcePath]? = some (.authSubscriptionLegacy l) ∧
      c.authSubscription.authSubscriptionStaticData = some d := by
  constructor
  · intro h
    exact ⟨h.operation, h.lookup.2.1, h.lookup.2.2, h.static⟩
  · intro h
    obtain ⟨hop, hs, hl, hd⟩ := h
    obtain ⟨x, i, hi, hpath⟩ := staticDataPath_of_imsi hclass hs
    rw [getLegacyPath_of_cStr_eq hi hpath] at hl
    exact ⟨hop, ⟨x, i, hi, hpath, hl⟩, hd⟩

theorem NextToLegacy.mutations (h : NextToLegacy R c d l) (hmut : computeMutations R c = .ok c') :
    NextToLegacy R c' (fillOptionalAuthSubscriptionStaticAttributes d l) l := by
  obtain ⟨-, hs, hr⟩ := h.lookup
  obtain ⟨hop, hpath, -⟩ := computeMutations_frame hmut
  rw [computeMutations_create_legacy hs h.operation hr] at hmut
  refine ⟨hop.trans h.operation, hpath ▸ h.stored, ?_⟩
  cases hd : legacyDynamicData l with
  | error e =>
    rw [hd] at hmut
    cases hmut
  | ok dynData =>
    rw [hd] at hmut
    obtain rfl := Except.ok.inj hmut
    rw [Change.mapStaticData_static, Change.withDynamicData_static, h.static, Option.map_some]

theorem NextToLegacy.of_mutations {d' : AuthSubscriptionStaticData} (h : NextToLegacy R c' d' l)
    (hmut : computeMutations R c = .ok c') :
    ∃ d, NextToLegacy R c d l ∧ d' = fillOptionalAuthSubscriptionStaticAttributes d l := by
  obtain ⟨hop, hpath, hstatic⟩ := computeMutations_frame hmut
  rw [h.static] at hstatic
  cases hd : c.authSubscription.authSubscriptionStaticData with
  | none =>
    rw [hd] at hstatic
    cases hstatic
  | some d =>
    have hc : NextToLegacy R c d l := ⟨hop ▸ h.operation, hpath ▸ h.stored, hd⟩
    exact ⟨d, hc, Option.some.inj (h.static.symm.trans (hc.mutations hmut).static)⟩

theorem NextToLegacy.conforms (h : NextToLegacy R c d l) (hconforms : Conforms R c) :
    l.akaType = some AKATYPE_ALLOWED_VALUE ∧ AgreesWithLegacy d l ∧
      ∀ t, d.authenticationManagementField = some t →
        checkPatternOnData authenticationManagementFieldRegex t = true := by
  obtain ⟨hclass, -, hr⟩ := h.lookup
  obtain ⟨hfirst, hfurther⟩ := hconforms
  unfold FirstRules at hfirst
  unfold FurtherRules at hfurther
  simp only [hclass, h.operation, if_true] at hfirst hfurther
  obtain ⟨l', hl', haka, hagrees⟩ := hfurther _ hr
  obtain rfl := Resource.authSubscriptionLegacy.inj hl'
  refine ⟨haka, hagrees d h.static, fun t ht => ?_⟩
  have hrule := (hfirst.static d h.static).authenticationManagementField
  rw [ht] at hrule
  exact hrule.1

/-- **The static data that a change is answered with.** -/
theorem static_of_mutations (hclass : pathClass c.resourcePath = .imsi)
    (hd : c.authSubscription.authSubscriptionStaticData = some d) (hmut : computeMutations R c = .ok c') :
    (∃ l, NextToLegacy R c d l ∧
        c'.authSubscription.authSubscriptionStaticData = some (fillOptionalAuthSubscriptionStaticAttributes d l)) ∨
      (∀ l, ¬ NextToLegacy R c d l) ∧ c'.authSubscription.authSubscriptionStaticData = some d := by
  cases computeMutations_mutation hmut with
  | legacy hc hs hl =>
    refine Or.inl ⟨_, (nextToLegacy_iff hclass).mpr ⟨hc, hs, hl, hd⟩, ?_⟩
    rw [Change.mapStaticData_static, Change.withDynamicData_static, hd, Option.map_some]
  | fresh hc hs hl =>
    refine Or.inr ⟨fun l h => ?_, hd⟩
    have hstored := h.lookup.2.2
    rw [hl] at hstored
    cases hstored
  | reset hu =>
    refine Or.inr ⟨fun l h => ?_, hd⟩
    exact update_ne_create hu h.operation
  | kept hnot =>
    refine Or.inr ⟨fun l h => ?_, hd⟩
    exact hnot h.operation h.lookup.2.1

/-- The answered static data have a property exactly when those of the change have it, once they are filled where there
is a legacy subscription. -/
theorem forall_static_of_mutations_iff {Q : AuthSubscriptionStaticData → Prop}
    (hclass : pathClass c.resourcePath = .imsi) (hmut : computeMutations R c = .ok c') :
    (∀ d', c'.authSubscription.authSubscriptionStaticData = some d' → Q d') ↔
      ∀ d, c.authSubscription.authSubscriptionStaticData = some d →
        (∀ l, NextToLegacy R c d l → Q (fillOptionalAuthSubscriptionStaticAttributes d l)) ∧
        ((∀ l, ¬ NextToLegacy R c d l) → Q d) := by
  cases hd : c.authSubscription.authSubscriptionStaticData with
  | none =>
    obtain ⟨-, -, hstatic⟩ := computeMutations_frame hmut
    rw [hd, Option.map_none, Option.map_eq_none_iff] at hstatic
    rw [hstatic]
    exact iff_of_true nofun nofun
  | some d =>
    simp only [Option.some.injEq, forall_eq']
    rcases static_of_mutations hclass hd hmut with ⟨l, hnext, hd'⟩ | ⟨hnone, hd'⟩
    · rw [hd']
      simp only [Option.some.injEq, forall_eq']
      constructor
      · intro hQ
        refine ⟨fun l₂ hnext₂ => ?_, fun hnone => absurd hnext (hnone l)⟩
        obtain ⟨-, rfl⟩ := hnext.unique hnext₂
        exact hQ
      · intro hQ
        exact hQ.1 l hnext
    · rw [hd']
      simp only [Option.some.injEq, forall_eq']
      constructor
      · intro hQ
        exact ⟨fun l hnext => absurd hnext (hnone l), fun _ => hQ⟩
      · intro hQ
        exact hQ.2 hnone

end Mutations

end AuthProvValidator
