import AuthProvValidator.Entities.Rules
import AuthProvValidator.Ports.Value

/-!
# Reading a request

`ValidatorRapidJsonParser`: a document becomes the changes and the related resources of a `ValidationData`. The errors
it records are the log of a `Recorder`, as in the rules; it stops at a failed rapidjson assertion or with the text of
`setParsingError`.

* `getChangesToValidate`, `getRelatedResources`, `getValidationData` : the three passes;
* `getAuthSubscription` and below : one kind of value each.

The text of the request is parsed by rapidjson; a document is `none` where that fails. `decodeFromBase64` comes from a
library and is a parameter.
-/

namespace AuthProvValidator
open Regex Regex.Expr Recorder Json

/-- How the parser stops: an assertion of rapidjson fails, or the request is not of the expected form. -/
inductive ParseStop where
  | assertion (a : Assertion)
  | parsingError (text : Str)
deriving DecidableEq

abbrev Parse := Recorder ParseStop Error

def setParsingError {α : Type} (text : Str) : Parse α := fail (.parsingError text)

def setEmptyFieldError {α : Type} (field : Str) : Parse α := setParsingError ("Field:[" ++ field ++ "] is empty")

def access {α : Type} (x : Except Assertion α) : Parse α := liftM (x.mapError ParseStop.assertion)

/-! ## The texts of errors -/

def unfoundMandatoryFieldError (field : Str) : Str := "Mandatory field:[" ++ field ++ "] not found"

def unfoundMandatoryChildError (field parent : Str) : Str :=
  "Mandatory field:[" ++ field ++ "] not found as child of:[" ++ parent ++ "]"

def notObjectFieldError (field : Str) : Str := "Field:[" ++ field ++ "] is not an object"

def notStringFieldError (field : Str) : Str := "Field:[" ++ field ++ "] is not string"

/-! ## Subscriptions -/

/-- `^vendorSpecific-(.*?)` -/
def VENDOR_SPECIFIC_REGEXP : Expr := cat [bol, lit ("vendorSpecific-" : Str), group 1 lazyAny]

def isVendorSpecific (vs : Str) : Bool := (VENDOR_SPECIFIC_REGEXP.fullMatch vs.cStr).isSome

def getVendorSpecific (attrData : Json) : Except Assertion VendorSpecific := do
  let ms ← attrData.members
  return ms.foldl
    (fun vendorSpecific m =>
      let attrName := m.1.cStr
      if isVendorSpecific attrName then vendorSpecific.insertIfNew attrName m.2 else vendorSpecific)
    ∅

/-- A text that may be there: an error is recorded when it is not a text. -/
def readString (json : Json) (name resourcePath : Str) : Parse (Option Str) := do
  if ← access (json.hasMember name) then
    let value ← access (json.index name)
    if value.isString then
      let text ← access value.getString
      return some text
    else
      addConstraintViolation resourcePath (notStringFieldError name)
      return none
  else return none

/-- `authenticationMethod` must be there; it stays empty when it is not. -/
def readAuthenticationMethod (json : Json) (resourcePath : Str) : Parse Str := do
  if ← access (json.hasMember JSON_AUTHENTICATION_METHOD) then
    let text ← readString json JSON_AUTHENTICATION_METHOD resourcePath
    return text.getD []
  else
    addConstraintViolation resourcePath
      (unfoundMandatoryChildError JSON_AUTHENTICATION_METHOD JSON_AUTH_SUBSCRIPTION_STATIC_DATA)
    return []

def getAuthSubscriptionStaticData (json : Json) (resourcePath : Str) : Parse AuthSubscriptionStaticData := do
  let vendorSpecific ← access (getVendorSpecific json)
  let authenticationMethod ← readAuthenticationMethod json resourcePath
  let encPermanentKey ← readString json JSON_ENC_PERMANENT_KEY resourcePath
  let authenticationManagementField ← readString json JSON_AUTHENTICATION_MANAGEMENT_FIELD resourcePath
  let algorithmId ← readString json JSON_ALGORITHM_ID resourcePath
  let a4KeyInd ← readString json JSON_A4_KEY_IND resourcePath
  let a4Ind ← readString json JSON_A4_IND resourcePath
  let encOpcKey ← readString json JSON_ENC_OPC_KEY resourcePath
  let encTopcKey ← readString json JSON_ENC_TOPC_KEY resourcePath
  let a4KeyV ← readString json JSON_A4_KEY_V resourcePath
  let akaAlgorithmInd ← readString json JSON_AKA_ALGORITHM_IND resourcePath
  return { authenticationMethod, encPermanentKey, authenticationManagementField, algorithmId, a4KeyInd, a4Ind,
           encOpcKey, encTopcKey, a4KeyV, akaAlgorithmInd, vendorSpecific }

/-- The integers of `lastIndexes`; other values are errors and left out. The name of a member is always a text. -/
def getLastIndexesList (resourcePath : Str) : List (Str × Json) → LastIndexesList → Parse LastIndexesList
  | [], lastIndexesList => return lastIndexesList
  | v :: vs, lastIndexesList => do
      if v.2.isInt then
        let value ← access v.2.getInt
        getLastIndexesList resourcePath vs (lastIndexesList.insertIfNew v.1.cStr value)
      else
        addConstraintViolation resourcePath ("value not integer in \"" ++ JSON_LAST_INDEXES_LIST ++ "\"")
        getLastIndexesList resourcePath vs lastIndexesList

def readLastIndexes (json : Json) (resourcePath : Str) : Parse (Option LastIndexesList) := do
  if ← access (json.hasMember JSON_LAST_INDEXES_LIST) then
    let value ← access (json.index JSON_LAST_INDEXES_LIST)
    if value.isObject then
      let ms ← access value.members
      let lastIndexesList ← getLastIndexesList resourcePath ms ∅
      return some lastIndexesList
    else
      addConstraintViolation resourcePath (notObjectFieldError JSON_LAST_INDEXES_LIST)
      return none
  else return none

def getAuthSubscriptionDynamicData (json : Json) (resourcePath : Str) : Parse AuthSubscriptionDynamicData := do
  let sqnScheme ← readString json JSON_SQN_SCHEME resourcePath
  let sqn ← readString json JSON_SQN resourcePath
  let lastIndexesList ← readLastIndexes json resourcePath
  return { sqnScheme, sqn, lastIndexesList }

def AuthSubscription.setStaticData (a : AuthSubscription) (d : AuthSubscriptionStaticData) : AuthSubscription :=
  { a with authSubscriptionStaticData := some d }

def AuthSubscription.setDynamicData (a : AuthSubscription) (d : AuthSubscriptionDynamicData) : AuthSubscription :=
  { a with authSubscriptionDynamicData := some d }

def readDynamicData (attrData : Json) (authSubscription : AuthSubscription) (resourcePath : Str) :
    Parse AuthSubscription := do
  if ← access (attrData.hasMember JSON_AUTH_SUBSCRIPTION_DYNAMIC_DATA) then
    let dynamicJson ← access (attrData.index JSON_AUTH_SUBSCRIPTION_DYNAMIC_DATA)
    if dynamicJson.isObject then
      let dynamicData ← getAuthSubscriptionDynamicData dynamicJson resourcePath
      return authSubscription.setDynamicData dynamicData
    else
      addConstraintViolation resourcePath (notObjectFieldError JSON_AUTH_SUBSCRIPTION_DYNAMIC_DATA)
      return authSubscription
  else return authSubscription

/-- Static data, which must be there, and dynamic data. -/
def getAuthSubscription (attrData : Json) (authSubscription : AuthSubscription) (resourcePath : Str) :
    Parse AuthSubscription := do
  if ← access (attrData.hasMember JSON_AUTH_SUBSCRIPTION_STATIC_DATA) then
    let staticJson ← access (attrData.index JSON_AUTH_SUBSCRIPTION_STATIC_DATA)
    if staticJson.isObject then
      let staticData ← getAuthSubscriptionStaticData staticJson resourcePath
      readDynamicData attrData (authSubscription.setStaticData staticData) resourcePath
    else
      addConstraintViolation resourcePath (notObjectFieldError JSON_AUTH_SUBSCRIPTION_STATIC_DATA)
      return authSubscription
  else
    addConstraintViolation resourcePath (unfoundMandatoryFieldError JSON_AUTH_SUBSCRIPTION_STATIC_DATA)
    return authSubscription

/-! ## Changes -/

def Change.setOperation (c : Change) (operation : Str) : Change := { c with operation }

def Change.setResourcePath (c : Change) (resourcePath : Str) : Change := { c with resourcePath }

def Change.setAuthSubscription (c : Change) (authSubscription : AuthSubscription) : Change :=
  { c with authSubscription }

def isOperation (operation : Str) : Bool :=
  operation == JSON_OPERATION_CREATE || operation == JSON_OPERATION_UPDATE || operation == JSON_OPERATION_DELETE

def getOperation (value : Json) : Parse Str := do
  if !value.isString then setParsingError (JSON_OPERATION ++ " is not string")
  else
    let operation ← access value.getString
    if operation.isEmpty then setEmptyFieldError JSON_OPERATION
    else if !isOperation operation then
      setParsingError "operation value is not allowed. It should be either: CREATE, UPDATE or DELETE"
    else return operation

def getResourcePath (value : Json) : Parse Str := do
  if !value.isString then setParsingError (JSON_RESOURCE_PATH ++ " is not string")
  else
    let resourcePath ← access value.getString
    if resourcePath.isEmpty then setEmptyFieldError JSON_RESOURCE_PATH
    else return resourcePath

def getData (attrData : Json) (change : Change) : Parse AuthSubscription := do
  if !attrData.isObject then setParsingError (JSON_DATA ++ " is not an object")
  else if checkAuthSubscriptionUri change.resourcePath then
    getAuthSubscription attrData change.authSubscription change.resourcePath
  else if checkAuthSubscriptionStaticDataUri change.resourcePath then
    let staticData ← getAuthSubscriptionStaticData attrData change.resourcePath
    return change.authSubscription.setStaticData staticData
  else return change.authSubscription

def getChangeMember (change : Change) (member : Str × Json) : Parse Change := do
  let attr := member.1.cStr
  if attr = JSON_OPERATION then
    let operation ← getOperation member.2
    return change.setOperation operation
  else if attr = JSON_RESOURCE_PATH then
    let resourcePath ← getResourcePath member.2
    return change.setResourcePath resourcePath
  else if attr = JSON_DATA then
    let authSubscription ← getData member.2 change
    return change.setAuthSubscription authSubscription
  else return change

def getChange (attributes : Json) : Parse Change := do
  if !attributes.isObject then setParsingError "change is not an object"
  else
    let ms ← access attributes.members
    ms.foldlM getChangeMember {}

def getChangesToValidate (rJsonDoc : Json) : Parse (List Change) := do
  if ← access (rJsonDoc.hasMember JSON_CHANGES) then
    let changesList ← access (rJsonDoc.index JSON_CHANGES)
    if !changesList.isArray then setParsingError (JSON_CHANGES ++ " is not a list")
    else
      let changes ← access changesList.elements
      changes.mapM getChange
  else return []

/-! ## Journals and legacy subscriptions -/

/-- A group of four characters is read as its second half and then its first. -/
def swapHalves : Str → Str
  | c0 :: c1 :: c2 :: c3 :: rest => c2 :: c3 :: c0 :: c1 :: swapHalves rest
  | _ => []

section Groups
variable {str : Str}

theorem eq_nil_of_groups (h : 4 ∣ str.length) (hshort : ∀ c0 c1 c2 c3 rest, str ≠ c0 :: c1 :: c2 :: c3 :: rest) :
    str = [] := by
  match str, h, hshort with
  | [], _, _ => rfl
  | [_], h, _ => exact absurd h (show ¬ 4 ∣ 1 by decide)
  | [_, _], h, _ => exact absurd h (show ¬ 4 ∣ 2 by decide)
  | [_, _, _], h, _ => exact absurd h (show ¬ 4 ∣ 3 by decide)
  | a :: b :: c :: d :: rest, _, hshort => exact absurd rfl (hshort a b c d rest)

theorem groups_tail {c0 c1 c2 c3 : Char} (h : 4 ∣ (c0 :: c1 :: c2 :: c3 :: str).length) : 4 ∣ str.length := by
  simp only [List.length_cons] at h
  omega

theorem perm_swapHalves (h : 4 ∣ str.length) : (swapHalves str).Perm str := by
  induction str using swapHalves.induct with
  | case1 c0 c1 c2 c3 rest ih =>
    have hgroup : ([c2, c3] ++ [c0, c1]).Perm ([c0, c1] ++ [c2, c3]) := List.perm_append_comm
    exact hgroup.append (ih (groups_tail h))
  | case2 str hshort =>
    rw [eq_nil_of_groups h hshort]
    exact List.Perm.refl []

end Groups

/-- The octets of an LDAP text in order; zeroes fill the text up to groups of four. -/
def sortLDAPoctetString (str : Str) : Str :=
  let L := str.length
  swapHalves (if L % 4 ≠ 0 then List.replicate (4 - L % 4) '0' ++ str else str)

variable (decodeFromBase64 : Str → Str)

/-- A text that may be there; anything else gives the empty text. -/
def getStringMember (attrData : Json) (key : Str) (reverseOrderLDAP isBase64Encoded : Bool) : Except Assertion Str := do
  if ← attrData.hasMember key then
    let value ← attrData.index key
    if value.isString then
      let readenStr ← value.getString
      let decodedStr := if isBase64Encoded then decodeFromBase64 readenStr else readenStr
      return if reverseOrderLDAP then sortLDAPoctetString decodedStr else decodedStr
    else return []
  else return []

def nonEmpty (text : Str) : Option Str := if text.isEmpty then none else some text

/-- A text under its own name or, where that is empty, base64 encoded under another one. -/
def getStringOrBase64 (attrData : Json) (key keyBase64 : Str) (reverseOrderLDAP : Bool) :
    Except Assertion (Option Str) := do
  let text ← getStringMember decodeFromBase64 attrData key reverseOrderLDAP false
  if text.isEmpty then
    let decoded ← getStringMember decodeFromBase64 attrData keyBase64 reverseOrderLDAP true
    return nonEmpty decoded
  else return some text

def getIntMember (attrData : Json) (key : Str) : Except Assertion (Option Int) := do
  if ← attrData.hasMember key then
    let value ← attrData.index key
    if value.isInt then
      let n ← value.getInt
      return some n
    else return none
  else return none

/-- `AKAALGIND` is read when `VNUMBER` is an integer. -/
def getAkaAlgInd (attrData : Json) : Except Assertion (Option Int) := do
  if ← attrData.hasMember JSON_AKA_ALG_IND then
    let vNumber ← attrData.index JSON_VNUMBER
    if vNumber.isInt then
      let value ← attrData.index JSON_AKA_ALG_IND
      let n ← value.getInt
      return some n
    else return none
  else return none

def getAuthSubscriptionLegacy (attrData : Json) : Except Assertion AuthSubscriptionLegacy := do
  let fSetInd ← getIntMember attrData JSON_F_SET_IND
  let eki ← getStringOrBase64 decodeFromBase64 attrData JSON_EKI JSON_EKI_BASE64 false
  let kind ← getIntMember attrData JSON_KIND
  let a4Ind ← getIntMember attrData JSON_A4_IND_LEGACY
  let amfValue ← getIntMember attrData JSON_AMF_VALUE
  let eopc ← getStringOrBase64 decodeFromBase64 attrData JSON_EOPC JSON_EOPC_BASE64 false
  let seqHe ← getStringOrBase64 decodeFromBase64 attrData JSON_SEQ_HE JSON_SEQ_HE_BASE64 true
  let akaType ← getIntMember attrData JSON_AKA_TYPE
  let vNumber ← getIntMember attrData JSON_VNUMBER
  let akaAlgInd ← getAkaAlgInd attrData
  return { fSetInd, eki, kind, a4Ind, amfValue, eopc, seqHe, akaType, vNumber, akaAlgInd }

/-- The texts of a list; other elements are left out. -/
def getStrings : List Json → Except Assertion (List Str)
  | [] => return []
  | v :: vs => do
      if v.isString then
        let text ← v.getString
        let texts ← getStrings vs
        return text :: texts
      else getStrings vs

def getStringList (attrData : Json) (key : Str) : Except Assertion (List Str) := do
  if ← attrData.hasMember key then
    let value ← attrData.index key
    if value.isArray then
      let vs ← value.elements
      getStrings vs
    else return []
  else return []

/-- A text that is read without a look at its type; empty where it is missing. -/
def getStringUnchecked (v : Json) (key : Str) : Except Assertion Str := do
  let ms ← v.members
  match find ms key with
  | some value => value.getString
  | none => return []

def getSubsId (v : Json) : Except Assertion SubscriberIdentitiesId := do
  let id ← getStringUnchecked v JSON_SUBS_ID
  let idPrefix ← getStringUnchecked v JSON_SUBS_PREFIX
  return { id, idPrefix }

/-- The identities of a list; elements that are no objects are left out. -/
def getSubsIds : List Json → Except Assertion (List SubscriberIdentitiesId)
  | [] => return []
  | v :: vs => do
      if v.isObject then
        let subsId ← getSubsId v
        let subsIds ← getSubsIds vs
        return subsId :: subsIds
      else getSubsIds vs

def getSubsIdList (attrData : Json) : Except Assertion (List SubscriberIdentitiesId) := do
  if ← attrData.hasMember JSON_SUBS_ID_LIST then
    let value ← attrData.index JSON_SUBS_ID_LIST
    if value.isArray then
      let vs ← value.elements
      getSubsIds vs
    else return []
  else return []

def getProvJournal (attrData : Json) : Except Assertion ProvJournal := do
  let text := fun key => getStringMember decodeFromBase64 attrData key false false
  let notifRef ← text JSON_NOTIF_REF
  let imsi ← text JSON_IMSI_TYPE
  let imsiMask ← text JSON_IMSI_MASK
  let imsiExtMask ← text JSON_IMSI_EXT_MASK
  let msisdn ← text JSON_MSISDN
  let msisdnMask ← text JSON_MSISDN_MASK
  let msisdnExtMask ← text JSON_MSISDN_EXT_MASK
  let imsiAux ← text JSON_IMSI_AUX
  let imsiAuxMask ← text JSON_IMSI_AUX_MASK
  let imsiAuxExtMask ← text JSON_IMSI_AUX_EXT_MASK
  let impi ← text JSON_IMPI
  let impiMask ← text JSON_IMPI_MASK
  let impiExtMask ← text JSON_IMPI_EXT_MASK
  let secImpi ← text JSON_SEC_IMPI
  let impiAux ← text JSON_IMPI_AUX
  let username ← text JSON_USERNAME
  let usernameMask ← text JSON_USERNAME_MASK
  let usernameExtMask ← text JSON_USERNAME_EXT_MASK
  let imsiChoStatus ← getIntMember attrData JSON_IMSICHO_STATUS
  let imsiExpiryDate ← text JSON_IMSI_EXPIRY_DATE
  let imsiChoExec ← text JSON_IMSICHO_EXEC
  let impuChoIds ← getStringList attrData JSON_IMPUCHO_IDS
  let mscIdAux ← text JSON_MSC_ID_AUX
  let notifInfo ← text JSON_NOTIF_INFO
  let ueFunctionMask ← text JSON_UE_FUNCTION_MASK
  let extIdList ← getStringList attrData JSON_EXT_ID_LIST
  let nai ← text JSON_NAI
  let naiMask ← text JSON_NAI_MASK
  let naiExtMask ← text JSON_NAI_EXT_MASK
  let subsIdList ← getSubsIdList attrData
  return { notifRef, imsi, imsiMask, imsiExtMask, msisdn, msisdnMask, msisdnExtMask, imsiAux, imsiAuxMask,
           imsiAuxExtMask, impi, impiMask, impiExtMask, secImpi, impiAux, username, usernameMask, usernameExtMask,
           imsiChoStatus, imsiExpiryDate, imsiChoExec, impuChoIds, mscIdAux, notifInfo, ueFunctionMask, extIdList,
           nai, naiMask, naiExtMask, subsIdList }

/-! ## Related resources -/

/-- The children of an `authSubscription` resource, each under the path with its name. -/
def getChildSubscriptions (resourcePath : Str) : RelatedResources → List (Str × Json) → Parse RelatedResources
  | relatedResources, [] => return relatedResources
  | relatedResources, m :: ms => do
      let fullResourcePath := addSuffixToPath resourcePath m.1.cStr
      let authSubscription ← getAuthSubscription m.2 {} fullResourcePath
      getChildSubscriptions resourcePath
        (relatedResources.insertIfNew fullResourcePath (.authSubscription authSubscription)) ms

/-- A subscription with static data, or an object of such subscriptions. -/
def getSubscriptions (resourcePath : Str) (ids : Json) (relatedResources : RelatedResources) :
    Parse RelatedResources := do
  if ← access (ids.hasMember JSON_AUTH_SUBSCRIPTION_STATIC_DATA) then
    let authSubscription ← getAuthSubscription ids {} resourcePath
    return relatedResources.insertIfNew resourcePath (.authSubscription authSubscription)
  else
    let ms ← access ids.members
    getChildSubscriptions resourcePath relatedResources ms

/-- One member of the related resources; the type of what is stored is chosen by its path. -/
def getRelatedResource (relatedResources : RelatedResources) (member : Str × Json) : Parse RelatedResources := do
  let resourcePath := member.1.cStr
  if checkAuthSubscriptionUri resourcePath then getSubscriptions resourcePath member.2 relatedResources
  else if Str.endsWith resourcePath JSON_PROV_JOURNAL then
    let provJournal ← access (getProvJournal decodeFromBase64 member.2)
    return relatedResources.insertIfNew resourcePath (.provJournal provJournal)
  else if checkAuthSubscriptionLegacyUri resourcePath then
    let authSubscriptionLegacy ← access (getAuthSubscriptionLegacy decodeFromBase64 member.2)
    return relatedResources.insertIfNew resourcePath (.authSubscriptionLegacy authSubscriptionLegacy)
  else return relatedResources

def getRelatedResources (rJsonDoc : Json) : Parse RelatedResources := do
  if ← access (rJsonDoc.hasMember JSON_RELATED_RESOURCES) then
    let resourcesList ← access (rJsonDoc.index JSON_RELATED_RESOURCES)
    let ms ← access resourcesList.members
    ms.foldlM (getRelatedResource decodeFromBase64) ∅
  else return ∅

/-- Read a document, `none` where the text was no JSON. -/
def getValidationData : Option Json → Except ParseStop ValidationData
  | none => .error (.parsingError "wrong json format")
  | some rJsonDoc => do
      let (changes, errors) ← (getChangesToValidate rJsonDoc).run []
      let (relatedResources, errors) ← (getRelatedResources decodeFromBase64 rJsonDoc).run errors
      return { changes, relatedResources, response := { errors } }

end AuthProvValidator
