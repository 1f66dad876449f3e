import AuthProvValidator.Entities.Paths

/-!
# Writing a response

`ValidatorRapidJsonEncoder`: the errors of a response or, when there are none, its changes as a document. A creation is
written as two changes, the second one for its dynamic data.

* `holdsErrors_validatorResponseToJson` : a response is written with an `errors` array exactly when it has errors;
* `writtenChanges_validatorResponseToJson` : without errors, with the changes in order.
-/

namespace AuthProvValidator

def strToJson (str : Str) (keyName : Str) : List (Str × Json) := if str.isEmpty then [] else [(keyName, .str str.cStr)]

def optionalStrToJson (str : Option Str) (keyName : Str) : List (Str × Json) :=
  match str with
  | some s => strToJson s keyName
  | none => []

def vendorSpecificToJson (vendorSpecific : VendorSpecific) : List (Str × Json) :=
  vendorSpecific.toList.map fun m => (m.1.cStr, m.2)

/-- The attributes that a change is answered with. `encTopcKey` is not among them. -/
def authSubscriptionStaticDataToJson (a : AuthSubscription) : List (Str × Json) :=
  match a.authSubscriptionStaticData with
  | some d =>
      vendorSpecificToJson d.vendorSpecific
        ++ strToJson d.authenticationMethod JSON_AUTHENTICATION_METHOD
        ++ optionalStrToJson d.encPermanentKey JSON_ENC_PERMANENT_KEY
        ++ optionalStrToJson d.authenticationManagementField JSON_AUTHENTICATION_MANAGEMENT_FIELD
        ++ optionalStrToJson d.algorithmId JSON_ALGORITHM_ID
        ++ optionalStrToJson d.a4KeyInd JSON_A4_KEY_IND
        ++ optionalStrToJson d.a4Ind JSON_A4_IND
        ++ optionalStrToJson d.encOpcKey JSON_ENC_OPC_KEY
        ++ optionalStrToJson d.a4KeyV JSON_A4_KEY_V
        ++ optionalStrToJson d.akaAlgorithmInd JSON_AKA_ALGORITHM_IND
  | none => []

def lastIndexesToJson (lastIndexesList : Option LastIndexesList) : Json :=
  match lastIndexesList with
  | some l => .obj (l.toList.map fun m => (m.1.cStr, .int m.2))
  | none => .obj []

def authSubscriptionDynamicDataToJson (a : AuthSubscription) : List (Str × Json) :=
  match a.authSubscriptionDynamicData with
  | some d =>
      optionalStrToJson d.sqnScheme JSON_SQN_SCHEME ++ optionalStrToJson d.sqn JSON_SQN
        ++ [(JSON_LAST_INDEXES_LIST, lastIndexesToJson d.lastIndexesList)]
  | none => []

def errorDetailsToJson (details : ErrorDetails) : Json := .obj (details.toList.map fun m => (m.1.cStr, .str m.2.cStr))

def errorToJson (e : Error) : Json :=
  .obj [(JSON_ERROR_MESSAGE, .str e.errorMessage.cStr), (JSON_ERROR_DETAILS, errorDetailsToJson e.errorDetails)]

def operationToJson (operation resourcePath : Str) : List (Str × Json) :=
  [(JSON_OPERATION, .str operation.cStr), (JSON_RESOURCE_PATH, .str resourcePath.cStr)]

/-- A change of the response; a creation is followed by one for its dynamic data. -/
def changeToJson (c : Change) : List Json :=
  let isAuthSubscription := Str.hasInfix c.resourcePath JSON_AUTH_SUBSCRIPTION
  let staticData := if isAuthSubscription then authSubscriptionStaticDataToJson c.authSubscription else []
  let dynamicData := if isAuthSubscription then authSubscriptionDynamicDataToJson c.authSubscription else []
  let change := operationToJson c.operation c.resourcePath
    ++ if c.operation = JSON_OPERATION_DELETE then [] else [(JSON_DATA, .obj staticData)]
  if c.operation = JSON_OPERATION_CREATE then
    let dynResourcePath := createPathFromBasePath c.resourcePath JSON_AUTH_SUBSCRIPTION_DYNAMIC_DATA
    [.obj change, .obj (operationToJson c.operation dynResourcePath ++ [(JSON_DATA, .obj dynamicData)])]
  else [.obj change]

def validatorResponseToJson (response : Response) : Json :=
  if !response.errors.isEmpty then .obj [(JSON_ERRORS, .arr (response.errors.map errorToJson))]
  else if !response.changes.isEmpty then .obj [(JSON_CHANGES, .arr (response.changes.flatMap changeToJson))]
  else .obj []

def errorResponseToJson (e : Error) : Json := errorToJson e

def Json.HoldsErrors (body : Json) : Prop := ∃ ms es, body = .obj ms ∧ find ms JSON_ERRORS = some (.arr es)

theorem holdsErrors_validatorResponseToJson {response : Response} :
    (validatorResponseToJson response).HoldsErrors ↔ response.errors ≠ [] := by
  unfold validatorResponseToJson Json.HoldsErrors
  cases response.errors with
  | cons e es => exact iff_of_true ⟨_, _, rfl, by simp [Json.find]; rfl⟩ (List.cons_ne_nil e es)
  | nil =>
    refine iff_of_false ?_ (not_not_intro rfl)
    rintro ⟨ms, es, hbody, hfind⟩
    split at hbody
    · rename_i h
      simp at h
    · split at hbody
      · obtain rfl := Json.obj.inj hbody
        rw [Json.find, List.lookup_cons, show (JSON_ERRORS == JSON_CHANGES) = false by decide] at hfind
        cases hfind
      · obtain rfl := Json.obj.inj hbody
        cases hfind

/-- The elements of the `changes` array of a document, if there is one. -/
def Json.writtenChanges : Json → List Json
  | .obj ms =>
      match find ms JSON_CHANGES with
      | some (.arr vs) => vs
      | _ => []
  | _ => []

theorem writtenChanges_validatorResponseToJson {response : Response} (h : response.errors = []) :
    (validatorResponseToJson response).writtenChanges = response.changes.flatMap changeToJson := by
  rw [validatorResponseToJson, h]
  cases response.changes with
  | nil => rfl
  | cons c cs =>
    show (Json.obj [(JSON_CHANGES, .arr ((c :: cs).flatMap changeToJson))]).writtenChanges = _
    rw [Json.writtenChanges, Json.find_cons, if_pos rfl]

section Changes
variable {c : Change} {p : Str}

def Change.writtenStaticData (c : Change) : List (Str × Json) :=
  if Str.hasInfix c.resourcePath JSON_AUTH_SUBSCRIPTION then authSubscriptionStaticDataToJson c.authSubscription else []

def Change.writtenDynamicData (c : Change) : List (Str × Json) :=
  if Str.hasInfix c.resourcePath JSON_AUTH_SUBSCRIPTION then authSubscriptionDynamicDataToJson c.authSubscription
  else []

theorem changeToJson_eq :
    changeToJson c = .obj (operationToJson c.operation c.resourcePath ++
        if c.operation = JSON_OPERATION_DELETE then [] else [(JSON_DATA, .obj c.writtenStaticData)]) ::
      if c.operation = JSON_OPERATION_CREATE then
        [.obj (operationToJson c.operation
            (createPathFromBasePath c.resourcePath JSON_AUTH_SUBSCRIPTION_DYNAMIC_DATA) ++
          [(JSON_DATA, .obj c.writtenDynamicData)])]
      else [] := by
  rw [changeToJson, Change.writtenStaticData, Change.writtenDynamicData]
  by_cases hc : c.operation = JSON_OPERATION_CREATE
  · rw [if_pos hc, if_pos hc]
  · rw [if_neg hc, if_neg hc]

theorem hasInfix_of_staticDataUri (h : checkAuthSubscriptionStaticDataUri p = true) :
    Str.hasInfix p JSON_AUTH_SUBSCRIPTION = true := by
  rw [Str.hasInfix_iff]
  obtain ⟨x, y, hp⟩ := checkAuthSubscriptionStaticDataUri_iff.mp h
  refine List.IsInfix.trans ?_ (Str.cStr_prefix p).isInfix
  rw [hp]
  exact ⟨SUBSCRIBERS ++ x ++ ['/'], '/' :: (y ++ STATIC_DATA), by
    simp [addSuffixToPath, authSubscriptionPath, AUTH_SUBSCRIPTION_eq]⟩

end Changes

end AuthProvValidator
