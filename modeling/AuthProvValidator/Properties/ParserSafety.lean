import AuthProvValidator.Ports.WellTyped

/-!
# The parser and the assertions of rapidjson

The members of a change are read behind a look at their type. The related resources, which the schema leaves open, are
not always: a value that is no object is walked as one, an identity is read as a text, and `AKAALGIND` is read after a
look at `VNUMBER`.

* `ConformsToSchema` : the request schema;
* `getValidationData_safe` : no assertion fails exactly when the changes stop the parser or the related resources are
  well typed.
-/

namespace AuthProvValidator
open Recorder Json

structure SchemaChange (ms : List (Str × Json)) : Prop where
  required : (find ms JSON_OPERATION).isSome = true ∧ (find ms JSON_RESOURCE_PATH).isSome = true
  operation : ∀ m ∈ ms, m.1 = JSON_OPERATION → ∃ s, m.2 = str s ∧ isOperation s = true
  resourcePath : ∀ m ∈ ms, m.1 = JSON_RESOURCE_PATH → m.2.isString = true
  data : ∀ m ∈ ms, m.1 = JSON_DATA → m.2.isObject = true

/-- The root object of a request as the schema has it. -/
structure ConformsToSchema (ms : List (Str × Json)) : Prop where
  changes : ∀ m ∈ ms, m.1 = JSON_CHANGES → ∃ vs, m.2 = arr vs ∧ ∀ v ∈ vs, ∃ cs, v = obj cs ∧ SchemaChange cs
  relatedResources : ∀ m ∈ ms, m.1 = JSON_RELATED_RESOURCES → m.2.isObject = true

/-- A request is read without a failed assertion exactly when it is rejected for its changes, or its related resources
have the shapes that their paths call for. -/
theorem getValidationData_safe (decode : Str → Str) (ms : List (Str × Json)) :
    (∀ a, getValidationData decode (some (obj ms)) ≠ .error (.assertion a)) ↔
      ¬ ChangesRead ms ∨ RelatedWellTyped ms := by
  have hreturns : Returns (getRelatedResources decode (obj ms)) ↔ RelatedWellTyped ms := returns_getRelatedResources
  rw [← returns_getChangesToValidate, ← hreturns]
  constructor
  · intro hsafe
    by_contra hnot
    obtain ⟨hchanges, hrelated⟩ := not_or.mp hnot
    obtain ⟨changes, es, hrun⟩ := not_not.mp hchanges []
    cases hr : (getRelatedResources decode (obj ms)).run es with
    | ok r => exact hrelated (returns_of_run oblivious_getRelatedResources hr)
    | error stop =>
      obtain ⟨a, rfl⟩ := fails_getRelatedResources es stop hr
      exact hsafe a (bind_eq_error.mpr (Or.inr ⟨_, hrun, bind_eq_error.mpr (Or.inl hr)⟩))
  · intro hshape a hassertion
    rcases bind_eq_error.mp hassertion with hchanges | ⟨⟨changes, es⟩, hchanges, hrest⟩
    · obtain ⟨text, htext⟩ := fails_getChangesToValidate [] _ hchanges
      cases htext
    · rcases hshape with hnot | hrelated
      · exact hnot (returns_of_run oblivious_getChangesToValidate hchanges)
      · rcases bind_eq_error.mp hrest with hfail | ⟨r, -, hret⟩
        · exact (hrelated.fails (P := fun _ => False)) es _ hfail
        · cases hret

def documentWithoutVNumber : List (Str × Json) := [
  (JSON_RELATED_RESOURCES, .obj [(LEGACY_BASE_PATH ++ "12345", .obj [(JSON_AKA_ALG_IND, .int 1)])])]

theorem documentWithoutVNumber_conforms : ConformsToSchema documentWithoutVNumber where
  changes := by
    intro m hm hname
    rw [List.mem_singleton.mp hm] at hname
    exact absurd hname (by decide)
  relatedResources := by
    intro m hm _
    rw [List.mem_singleton.mp hm]
    rfl

/-- `VNUMBER` is read although it is not there. -/
theorem documentWithoutVNumber_asserts :
    ¬ ∀ (decode : Str → Str) (ms : List (Str × Json)), ConformsToSchema ms →
      ∀ a, getValidationData decode (some (obj ms)) ≠ .error (.assertion a) := by
  intro h
  apply h id documentWithoutVNumber documentWithoutVNumber_conforms .missingMember
  have hstop : (match getValidationData id (some (obj documentWithoutVNumber)) with
      | .error stop => some stop
      | .ok _ => none) = some (.assertion .missingMember) := by decide
  split at hstop
  · rename_i stop hrun
    rw [hrun, Option.some.inj hstop]
  · cases hstop

end AuthProvValidator
