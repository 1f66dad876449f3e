import Mathlib.Data.List.Forall2
import AuthProvValidator.Entities.Formats
import AuthProvValidator.Entities.Method
import AuthProvValidator.Entities.NextToLegacy
import AuthProvValidator.Properties.DynamicData

/-!
# The mutations only add

* `OnlyAdds R c c'` : `c'` has everything that `c` has. Attributes are added to a creation with a legacy subscription,
  dynamic data to a creation of static data that had none;
* `applyValidationRulesMethod_onlyAdds` : the method keeps the changes and the related resources of its object, and what
  it answers only adds to a change of the request.
-/

namespace AuthProvValidator
open Recorder

/-- The static data keep what is defined; `encTopcKey` is never added. -/
structure StaticOnlyAdds (d d' : AuthSubscriptionStaticData) : Prop where
  authenticationMethod : d'.authenticationMethod = d.authenticationMethod
  vendorSpecific : d'.vendorSpecific = d.vendorSpecific
  encTopcKey : d'.encTopcKey = d.encTopcKey
  attributes : List.Forall₂ (fun attr attr' => ∀ t, attr = some t → attr' = some t) d.attributes d'.attributes

/-- There is a legacy subscription for the IMSI of the change. -/
def HasLegacy (R : RelatedResources) (c : Change) : Prop :=
  ∃ x i l, IsImsi i ∧ c.resourcePath.cStr = staticDataPath x i ∧
    R[LEGACY_BASE_PATH ++ i]? = some (.authSubscriptionLegacy l)

structure OnlyAdds (R : RelatedResources) (c c' : Change) : Prop where
  operation : c'.operation = c.operation
  resourcePath : c'.resourcePath = c.resourcePath
  noStatic : c.authSubscription.authSubscriptionStaticData = none →
    c'.authSubscription.authSubscriptionStaticData = none
  static : ∀ d, c.authSubscription.authSubscriptionStaticData = some d →
    ∃ d', c'.authSubscription.authSubscriptionStaticData = some d' ∧ StaticOnlyAdds d d'
  addedStatic : c'.authSubscription.authSubscriptionStaticData ≠ c.authSubscription.authSubscriptionStaticData →
    c.operation = JSON_OPERATION_CREATE ∧ HasLegacy R c
  addedDynamic : c'.authSubscription.authSubscriptionDynamicData ≠ c.authSubscription.authSubscriptionDynamicData →
    c.operation = JSON_OPERATION_CREATE ∧ checkAuthSubscriptionStaticDataUri c.resourcePath = true ∧
      c.authSubscription.authSubscriptionDynamicData = none

section Mutations
variable {R : RelatedResources} {c c' : Change} {d : AuthSubscriptionStaticData} {l : AuthSubscriptionLegacy}

theorem fillOptionalAttribute_keeps {attr attrLegacy : Option Str} :
    ∀ t, attr = some t → fillOptionalAttribute attr attrLegacy = some t := by
  intro t ht
  rw [fillOptionalAttribute, ht, Option.some_or]

theorem staticOnlyAdds_refl : StaticOnlyAdds d d := ⟨rfl, rfl, rfl, List.forall₂_same.mpr fun _ _ _ ht => ht⟩

theorem staticOnlyAdds_fill : StaticOnlyAdds d (fillOptionalAuthSubscriptionStaticAttributes d l) := by
  refine ⟨rfl, rfl, rfl, ?_⟩
  have hkeeps : ∀ {attr attrLegacy : Option Str}, ∀ t, attr = some t → fillOptionalAttribute attr attrLegacy = some t :=
    fillOptionalAttribute_keeps
  exact .cons hkeeps (.cons hkeeps (.cons hkeeps (.cons hkeeps (.cons hkeeps (.cons hkeeps
    (.cons (fun _ ht => ht) (.cons hkeeps (.cons hkeeps .nil))))))))

theorem onlyAdds_refl : OnlyAdds R c c :=
  ⟨rfl, rfl, fun h => h, fun d hd => ⟨d, hd, staticOnlyAdds_refl⟩, fun h => absurd rfl h, fun h => absurd rfl h⟩

/-- **The mutations of a change without dynamic data only add to it.** -/
theorem onlyAdds_of_mutations (hclass : pathClass c.resourcePath = .imsi)
    (hdynamic : c.operation = JSON_OPERATION_CREATE ∨ c.operation = JSON_OPERATION_UPDATE →
      c.authSubscription.authSubscriptionDynamicData = none)
    (hmut : computeMutations R c = .ok c') : OnlyAdds R c c' := by
  cases computeMutations_mutation hmut with
  | legacy hc hs hl =>
    have hlegacy : HasLegacy R c := by
      obtain ⟨x, i, hi, hpath⟩ := staticDataPath_of_imsi hclass hs
      rw [getLegacyPath_of_cStr_eq hi hpath] at hl
      exact ⟨x, i, _, hi, hpath, hl⟩
    refine ⟨rfl, rfl, fun hnone => ?_, fun d hd => ?_, fun _ => ⟨hc, hlegacy⟩, fun _ => ⟨hc, hs, hdynamic (Or.inl hc)⟩⟩
    · rw [Change.mapStaticData_static, Change.withDynamicData_static, hnone, Option.map_none]
    · rw [Change.mapStaticData_static, Change.withDynamicData_static, hd, Option.map_some]
      exact ⟨_, rfl, staticOnlyAdds_fill⟩
  | fresh hc hs =>
    exact ⟨rfl, rfl, fun hnone => hnone, fun d hd => ⟨d, hd, staticOnlyAdds_refl⟩, fun h => absurd rfl h,
      fun _ => ⟨hc, hs, hdynamic (Or.inl hc)⟩⟩
  | reset hu =>
    refine ⟨rfl, rfl, fun hnone => hnone, fun d hd => ⟨d, hd, staticOnlyAdds_refl⟩, fun h => absurd rfl h, fun h => ?_⟩
    exact absurd (hdynamic (Or.inr hu)).symm h
  | kept => exact onlyAdds_refl

end Mutations

/-- **The method keeps the changes and the related resources of its object, and every change that it answers only adds
to one of the request.** -/
theorem applyValidationRulesMethod_onlyAdds (data data' : ValidationData) (verdict : ValidationResponse)
    (h : applyValidationRulesMethod.run data = .ok (verdict, data')) :
    data'.changes = data.changes ∧ data'.relatedResources = data.relatedResources ∧
      ∃ added, data'.response.changes = data.response.changes ++ added ∧
        ∀ c' ∈ added, ∃ c ∈ data.changes, OnlyAdds data.relatedResources c c' := by
  rw [applyValidationRulesMethod_run] at h
  cases hrun : applyValidationRules data with
  | error e =>
    rw [hrun] at h
    cases h
  | ok o =>
    rw [hrun] at h
    obtain ⟨rfl, rfl⟩ := Prod.mk.inj (Except.ok.inj h)
    obtain ⟨⟨run, E⟩, hloop, hret⟩ := bind_eq_ok.mp hrun
    obtain rfl := Except.ok.inj hret
    obtain ⟨added, hadded, haccepted⟩ := accepted_of_added hloop
    obtain ⟨added', hadded', hsource⟩ := source_of_added hloop
    obtain rfl := List.append_cancel_left (hadded.symm.trans hadded')
    refine ⟨rfl, rfl, added, hadded, fun c' hmem => ?_⟩
    by_cases hop : c'.operation = JSON_OPERATION_CREATE ∨ c'.operation = JSON_OPERATION_UPDATE
    · obtain ⟨pre, c, post, hsplit, hacc⟩ := haccepted c' hmem hop
      have hop' := (computeMutations_frame hacc.mutations).1
      have hcommon := fun hop => (hacc.conforms.common hacc.imsi hop).dynamic
      exact ⟨c, by simp [hsplit], onlyAdds_of_mutations hacc.imsi hcommon hacc.mutations⟩
    · obtain ⟨c, hc, ⟨hclass, hmut⟩ | ⟨rfl, -⟩⟩ := hsource c' hmem
      · have hop' := (computeMutations_frame hmut).1
        rw [hop'] at hop
        exact ⟨c, hc, onlyAdds_of_mutations hclass (fun h => absurd h hop) hmut⟩
      · exact ⟨c', hc, onlyAdds_refl⟩

theorem applyValidationRulesMethod_onlyAdds_example :
    ∃ verdict data', applyValidationRulesMethod.run creationWithSeqHe = .ok (verdict, data') ∧
      data'.changes = creationWithSeqHe.changes ∧ data'.relatedResources = creationWithSeqHe.relatedResources ∧
      ∃ added, data'.response.changes = creationWithSeqHe.response.changes ++ added ∧
        ∀ c' ∈ added, ∃ c ∈ creationWithSeqHe.changes, OnlyAdds creationWithSeqHe.relatedResources c c' := by
  obtain ⟨o, hrules, -⟩ := exists_outcome creationWithSeqHe (fun o => o.response.changes.length) (a := 1) (by decide)
  have hrun : applyValidationRulesMethod.run creationWithSeqHe =
      .ok (o.verdict, { creationWithSeqHe with response := o.response }) := by
    rw [applyValidationRulesMethod_run, hrules]
    rfl
  exact ⟨_, _, hrun, applyValidationRulesMethod_onlyAdds _ _ _ hrun⟩

end AuthProvValidator
