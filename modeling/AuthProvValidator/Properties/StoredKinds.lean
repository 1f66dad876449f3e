import AuthProvValidator.Entities.Faults
import AuthProvValidator.Ports.Parsed

/-!
# Parser and rules agree on the related resources

The parser chooses the type of a related resource by the shape of its path, and also builds paths out of names in the
request; the rules build the paths they look up out of the path of a change. No path that is looked up for one type has
the shape of another type.

* `Parsed.typedLookups` : after a parse without errors every lookup finds the type it asks for;
* `applyValidationRules_typed` : so no run breaks off at a resource of another type, or at one without static data.
-/

namespace AuthProvValidator
open Recorder

section Lookups
variable {p q x : Str} {r : Resource} {data : ValidationData} {c : Change}

theorem StoredAs.authSubscription (h : StoredAs p r) (hp : p = SUBSCRIBERS ++ q)
    (hj : ¬ Str.endsWith p JSON_PROV_JOURNAL = true) :
    ∃ a old, r = .authSubscription a ∧ a.authSubscriptionStaticData = some old := by
  cases r with
  | authSubscription a =>
    obtain ⟨hstatic, -⟩ := h
    obtain ⟨old, hold⟩ := Option.isSome_iff_exists.mp hstatic
    exact ⟨a, old, rfl, hold⟩
  | provJournal j => exact absurd h hj
  | authSubscriptionLegacy l =>
    obtain ⟨y, hy⟩ := h
    exact absurd (hp.symm.trans hy) subscribers_ne_legacy

theorem StoredAs.legacy (h : StoredAs (getLegacyPathFromResourcePath p) r) : ∃ l, r = .authSubscriptionLegacy l := by
  cases r with
  | authSubscription a =>
    obtain ⟨-, y, hy⟩ := h
    have hlegacy : LEGACY_BASE_PATH = LEGACY ++ "IMSI=".toList := by decide
    rw [getLegacyPathFromResourcePath, hlegacy, List.append_assoc] at hy
    rcases hy with hy | ⟨child, hy⟩
    · rw [authSubscriptionPath, List.append_assoc] at hy
      exact absurd hy.symm subscribers_ne_legacy
    · rw [← authSubscriptionChild_eq] at hy
      exact absurd hy.symm subscribers_ne_legacy
  | provJournal j => exact absurd h not_endsWith_legacyPath
  | authSubscriptionLegacy l => exact ⟨l, rfl⟩

theorem StoredAs.journal (h : StoredAs (buildProvJournalResourcePathFromMscId (getMscId p)) r) :
    ∃ j, r = .provJournal j := by
  cases r with
  | authSubscription a =>
    obtain ⟨-, y, hy⟩ := h
    rcases hy with hy | ⟨child, hy⟩
    · have hends : Str.endsWith (buildProvJournalResourcePathFromMscId (getMscId p)) JSON_PROV_JOURNAL = true := by
        refine List.isSuffixOf_iff_suffix.mpr (List.IsSuffix.trans ?_ (List.suffix_append _ PROV_JOURNAL))
        decide
      rw [hy] at hends
      exact absurd hends not_endsWith_authSubscriptionPath
    · exact absurd hy provJournalPath_ne_child
  | provJournal j => exact ⟨j, rfl⟩
  | authSubscriptionLegacy l =>
    obtain ⟨y, hy⟩ := h
    rw [buildProvJournalResourcePathFromMscId, List.append_assoc] at hy
    exact absurd hy subscribers_ne_legacy

theorem getBasePath_of_imsi (hc : c.Readable) (hclass : pathClass c.resourcePath = .imsi) :
    ∃ x d, IsImsi d ∧
      (getBasePath c.resourcePath = authSubscriptionPath x ∨ getBasePath c.resourcePath = imsiPath x d) := by
  obtain ⟨x, d, hd, hp⟩ := pathClass_eq_imsi_iff.mp hclass
  rw [hc] at hp
  refine ⟨x, d, hd, ?_⟩
  rcases hp with hp | hp
  · left
    rw [hp, imsiPath, getBasePath_addSuffixToPath (slash_not_mem_imsi hd)]
  · right
    rw [hp, staticDataPath, getBasePath_addSuffixToPath slash_not_mem_staticData]

/-- **Every lookup finds the type it asks for.** -/
theorem Parsed.typedLookups (h : Parsed data) (hc : c ∈ data.changes) : TypedLookups data.relatedResources c where
  legacy := fun r hr => (h.stored _ r hr).legacy
  journal := fun r hr => (h.stored _ r hr).journal
  base := fun hclass r hr => by
    obtain ⟨x, d, hd, hbase | hbase⟩ := getBasePath_of_imsi (h.readable c hc) hclass
    · rw [hbase] at hr
      exact (h.stored _ r hr).authSubscription (List.append_assoc _ _ _) not_endsWith_authSubscriptionPath
    · rw [hbase] at hr
      exact (h.stored _ r hr).authSubscription (imsiChild_eq x d).symm (not_endsWith_imsiPath hd)
  own := fun hclass hs r hr => by
    obtain ⟨x, d, hd, hp⟩ := staticDataPath_of_imsi hclass hs
    rw [h.readable c hc] at hp
    rw [hp] at hr
    obtain ⟨a, -, ha, -⟩ := (h.stored _ r hr).authSubscription (staticDataPath_eq x d) not_endsWith_staticDataPath
    exact ⟨a, ha⟩

end Lookups

/-- **After a parse without errors no run breaks off at a resource of another type than the one it asks for, nor at a
stored subscription without static data; what it looks up has the type it asks for.** -/
theorem applyValidationRules_typed (decode : Str → Str) (doc : Option Json) (data : ValidationData)
    (h : getValidationData decode doc = .ok data) (herrors : data.response.errors = []) :
    (∀ c ∈ data.changes, TypedLookups data.relatedResources c) ∧ applyValidationRules data ≠ .error .badGet ∧
      applyValidationRules data ≠ .error (.badOptionalAccess .relatedStaticData) := by
  have hparsed := parsed_of_getValidationData h herrors
  have htyped : ∀ c ∈ data.changes, TypedLookups data.relatedResources c := fun c hc => hparsed.typedLookups hc
  have hfault : ∀ f, applyValidationRules data = .error f →
      f ≠ .badGet ∧ f ≠ .badOptionalAccess .relatedStaticData := by
    intro f hf
    rcases bind_eq_error.mp hf with hrun | ⟨r, -, hret⟩
    · obtain ⟨pre, c, post, run, E, -, -, hbreak⟩ := validateChanges_error htyped hrun
      cases hbreak with
      | outOfRange => exact ⟨nofun, nofun⟩
      | uninitialized => exact ⟨nofun, nofun⟩
      | changeStaticData hE hc => exact ⟨nofun, nofun⟩
    · cases hret
  exact ⟨htyped, fun h => (hfault _ h).1 rfl, fun h => (hfault _ h).2 rfl⟩

/-- An update of a stored child of an `authSubscription` resource, next to a legacy subscription. -/
def updateDocument : Json := .obj [
  (JSON_CHANGES, .arr [.obj [
    (JSON_OPERATION, .str JSON_OPERATION_UPDATE),
    (JSON_RESOURCE_PATH, .str (staticDataPath "a" "12345")),
    (JSON_DATA, .obj [(JSON_AUTHENTICATION_METHOD, .str JSON_5G_AKA)])]]),
  (JSON_RELATED_RESOURCES, .obj [
    (authSubscriptionPath "a", .obj [("imsi-12345", .obj [
      (JSON_AUTH_SUBSCRIPTION_STATIC_DATA, .obj [(JSON_AUTHENTICATION_METHOD, .str JSON_5G_AKA)])])]),
    (LEGACY_BASE_PATH ++ "12345", .obj [])])]

theorem updateDocument_answered :
    ∃ data o, getValidationData id (some updateDocument) = .ok data ∧ data.response.errors = [] ∧
      applyValidationRules data = .ok o ∧ data.changes.length = 1 := exists_answered _ _ (by decide)

theorem applyValidationRules_typed_example :
    ∃ data, getValidationData id (some updateDocument) = .ok data ∧ data.changes.length = 1 ∧
      (∀ c ∈ data.changes, TypedLookups data.relatedResources c) ∧ applyValidationRules data ≠ .error .badGet ∧
      applyValidationRules data ≠ .error (.badOptionalAccess .relatedStaticData) := by
  obtain ⟨data, o, hdata, herrors, -, hlength⟩ := updateDocument_answered
  exact ⟨data, hdata, hlength, applyValidationRules_typed id (some updateDocument) data hdata herrors⟩

end AuthProvValidator
