import AuthProvValidator.Ports.JsonConstants
import AuthProvValidator.Ports.Value

/-!
# The schema of the interface

* `Schema`, `Schema.accepts` : the part of OpenAPI schemas that the interface uses, and the documents that have one;
* `Schema.accepts_property`, `Schema.accepts_array`, `Schema.accepts_oneOf` : the documents of each kind;
* `requestSchema`, `responseSchema` : `schema/authprovvalidator.yaml`.

Names may repeat in an object; every member of a name has the schema of that property then.
-/

namespace AuthProvValidator
open Json

/-- `property` adds one to an object schema. Further members are always allowed. -/
inductive Schema where
  | string
  | oneOf (values : List Str)
  | object
  | array (items : Schema)
  | property (name : Str) (required : Bool) (value rest : Schema)

namespace Schema

def accepts : Schema → Json → Bool
  | string, v => v.isString
  | oneOf values, v =>
      match v with
      | .str s => values.contains s
      | _ => false
  | object, v => v.isObject
  | array items, v =>
      match v with
      | .arr vs => vs.all items.accepts
      | _ => false
  | property name required value rest, v =>
      match v with
      | .obj ms => (!required || (find ms name).isSome) && (ms.all fun m => m.1 != name || value.accepts m.2) &&
          rest.accepts v
      | _ => false

section Lemmas
variable {name : Str} {required : Bool} {items value rest : Schema} {values : List Str} {v : Json}
  {ms : List (Str × Json)}

@[simp] theorem accepts_object : object.accepts v = v.isObject := by rw [accepts]

@[simp] theorem accepts_string : string.accepts v = v.isString := by rw [accepts]

theorem accepts_oneOf : (oneOf values).accepts v = true ↔ ∃ s, v = .str s ∧ s ∈ values := by
  cases v <;> simp [accepts]

theorem accepts_array : (array items).accepts v = true ↔ ∃ vs, v = .arr vs ∧ ∀ w ∈ vs, items.accepts w = true := by
  cases v <;> simp [accepts]

theorem accepts_property :
    (property name required value rest).accepts (.obj ms) = true ↔ (required = true → (find ms name).isSome = true) ∧
      (∀ m ∈ ms, m.1 = name → value.accepts m.2 = true) ∧ rest.accepts (.obj ms) = true := by
  rw [accepts, Bool.and_eq_true, Bool.and_eq_true, Bool.or_eq_true, List.all_eq_true, and_assoc]
  refine and_congr ?_ (and_congr_left' (forall₂_congr fun m _ => ?_))
  · cases required <;> simp
  · rw [Bool.or_eq_true, bne_iff_ne]
    constructor
    · intro h hname
      exact h.resolve_left (not_not_intro hname)
    · intro h
      by_cases hname : m.1 = name
      · exact Or.inr (h hname)
      · exact Or.inl hname

theorem isObject_of_accepts_property (h : (property name required value rest).accepts v = true) :
    ∃ ms, v = .obj ms := by
  cases v with
  | obj ms => exact ⟨ms, rfl⟩
  | _ => simp [accepts] at h

end Lemmas

end Schema

/-! ## `schema/authprovvalidator.yaml` -/

open Schema

def changeSchema : Schema :=
  property JSON_OPERATION true (oneOf [JSON_OPERATION_CREATE, JSON_OPERATION_DELETE, JSON_OPERATION_UPDATE])
    (property JSON_RESOURCE_PATH true string (property JSON_DATA false object object))

def errorSchema : Schema :=
  property JSON_ERROR_MESSAGE true string (property JSON_ERROR_DETAILS false object object)

def requestSchema : Schema :=
  property JSON_CHANGES false (array changeSchema) (property JSON_RELATED_RESOURCES false object object)

/-- The response bodies by their status. -/
def responseSchema (status : Nat) : Option Schema :=
  if status = 200 then some (property JSON_CHANGES false (array changeSchema) object)
  else if status = 409 ∨ status = 422 then some (property JSON_ERRORS false (array errorSchema) object)
  else if status ∈ [400, 408, 413, 414, 415, 429, 500, 503] then some errorSchema
  else none

end AuthProvValidator
