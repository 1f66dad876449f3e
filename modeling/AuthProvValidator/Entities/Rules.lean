import AuthProvValidator.Base.Recorder
import AuthProvValidator.Entities.Paths

/-!
# The validation rules

The checks that `ValidationData` makes on one change. `response.errors` is the log of a `Recorder`: `addError` appends
to it and `hasErrors` looks at all of it, so also at what earlier changes of the request have left there.

The rules for the five attributes that an AKA method requires are one function, `checkAttribute`; so are the two that
only have a pattern, `checkOptionalPattern`. `encOpcKey` and `akaAlgorithmInd` have rules of their own. The comparisons
with a stored subscription are lists of checks, all of which are made (`Recorder.all`).
-/

namespace AuthProvValidator
open Regex Regex.Expr Recorder

abbrev Rules := Recorder Fault Error

/-! ## Constants of `ValidationData.hpp` -/

def CONSTRAINT_VIOLATION : Str := "Constraint Violation"
def UNPROCESSABLE_ENTITY : Str := "Unprocessable entity"

/-- `^[A-Fa-f0-9]*$` -/
def encPermanentKeyRegex : Expr := cat [bol, star Str.isHexDigit, eol]

/-- `^[A-Fa-f0-9]{4}$` -/
def authenticationManagementFieldRegex : Expr := cat [bol, between 4 4 Str.isHexDigit, eol]

/-- `^[0-9]+$` -/
def algorithmIdRegex : Expr := cat [bol, plus Str.isDecDigit, eol]

/-- `^[0-9]+$` -/
def a4KeyIndRegex : Expr := cat [bol, plus Str.isDecDigit, eol]

/-- `^[0-9]+$` -/
def a4IndRegex : Expr := cat [bol, plus Str.isDecDigit, eol]

/-- `^[A-Fa-f0-9]*$` -/
def encOpcKeyRegex : Expr := cat [bol, star Str.isHexDigit, eol]

/-- `^[0-9]$|^[1-2][0-9]$|^[3][0-1]$` -/
def a4KeyVRegex : Expr :=
  alt (cat [bol, between 1 1 Str.isDecDigit, eol])
    (alt (cat [bol, between 1 1 (fun c => '1' ≤ c && c ≤ '2'), between 1 1 Str.isDecDigit, eol])
      (cat [bol, lit ['3'], between 1 1 (fun c => '0' ≤ c && c ≤ '1'), eol]))

/-- `^[0-2]$` -/
def akaAlgorithmIndRegex : Expr := cat [bol, between 1 1 (fun c => '0' ≤ c && c ≤ '2'), eol]

def A4_KEY_IND_MIN : Int := 0
def A4_KEY_IND_MAX : Int := 511
def A4_IND_MIN : Int := 0
def A4_IND_MAX : Int := 2
def MIN_ALGORITHM_ID : Int := 0
def MAX_ALGORITHM_ID : Int := 15
def LENGTH_ENC_PERMANENT_KEY : Nat := 32
def TEST_ALGORITHM_ID : Int := 1
def AKATYPE_ALLOWED_VALUE : Int := 1
def POS_AUC_IN_IMSI_MASK : Nat := 4

/-! ## Pure checks -/

/-- `std::stoi` gives a number within the bounds; an exception counts as out of range. -/
def checkInRange (min max : Int) (text : Str) : Bool :=
  match Str.stoi text with
  | some value => min ≤ value && value ≤ max
  | none => false

def checkA4IndInRange (a4ind : Str) : Bool := checkInRange A4_IND_MIN A4_IND_MAX a4ind

def checkA4KeyIndInRange (a4keyind : Str) : Bool := checkInRange A4_KEY_IND_MIN A4_KEY_IND_MAX a4keyind

def checkAlgorithmIdInRange (algorithm : Str) : Bool := checkInRange MIN_ALGORITHM_ID MAX_ALGORITHM_ID algorithm

def checkAlgorithmIdIsMillenage (algorithm : Str) : Bool :=
  match Str.stoi algorithm with
  | some value => MIN_ALGORITHM_ID ≤ value && value ≤ MAX_ALGORITHM_ID && value != TEST_ALGORITHM_ID
  | none => false

/-- The `bitNumber`-th character from the end is a one; before the start of the mask there is nothing to read. -/
def checkBitIsSet (bitMask : Str) (bitNumber : Nat) : Except Fault Bool :=
  match bitMask.reverse[bitNumber]? with
  | some it => .ok (it == '1')
  | none => .error .outOfRange

def fromHexStringToUnsignedInt (str : Str) : Except Fault Nat :=
  match Str.extractHex 32 str with
  | some value => .ok value
  | none => .error .uninitialized

/-- `boost::get` of a resource for each of its three types. -/
def getAuthSubscriptionResource : Resource → Except Fault AuthSubscription
  | .authSubscription a => .ok a
  | _ => .error .badGet

def getProvJournalResource : Resource → Except Fault ProvJournal
  | .provJournal j => .ok j
  | _ => .error .badGet

def getAuthSubscriptionLegacyResource : Resource → Except Fault AuthSubscriptionLegacy
  | .authSubscriptionLegacy l => .ok l
  | _ => .error .badGet

/-- `value()` of an optional static data. -/
def staticDataValue (read : OptionalRead) : Option AuthSubscriptionStaticData → Except Fault AuthSubscriptionStaticData
  | some d => .ok d
  | none => .error (.badOptionalAccess read)

/-! ## Errors -/

def addError {φ : Type} (message : Str) (args : List (Str × Str)) : Recorder φ Error Unit :=
  record (composeError message args)

def hasErrors : Rules Bool := return !(← recorded).isEmpty

/-- Every rule names the resource path of the change and describes what is wrong with it. -/
def constraintViolation (resourcePath description : Str) : Error :=
  composeError CONSTRAINT_VIOLATION [("resource_path", resourcePath), ("description", description)]

def unprocessableEntity (resourcePath description : Str) : Error :=
  composeError UNPROCESSABLE_ENTITY [("resource_path", resourcePath), ("description", description)]

def addConstraintViolation {φ : Type} (resourcePath description : Str) : Recorder φ Error Unit :=
  addError CONSTRAINT_VIOLATION [("resource_path", resourcePath), ("description", description)]

def addUnprocessableEntity {φ : Type} (resourcePath description : Str) : Recorder φ Error Unit :=
  addError UNPROCESSABLE_ENTITY [("resource_path", resourcePath), ("description", description)]

theorem addConstraintViolation_eq {φ : Type} (p description : Str) :
    (addConstraintViolation p description : Recorder φ Error Unit) = record (constraintViolation p description) := rfl

theorem addUnprocessableEntity_eq {φ : Type} (p description : Str) :
    (addUnprocessableEntity p description : Recorder φ Error Unit) = record (unprocessableEntity p description) := rfl

def reject (resourcePath description : Str) : Rules Bool := do
  addConstraintViolation resourcePath description
  return false

def inStaticData (attrName : Str) (what : String) : Str :=
  "\"" ++ attrName ++ "\" in \"" ++ JSON_AUTH_SUBSCRIPTION_STATIC_DATA ++ "\" " ++ what

def dynamicDataDescription : Str := "\"" ++ JSON_AUTH_SUBSCRIPTION_DYNAMIC_DATA ++ "\" can not be created or updated"

/-! ## The common rules -/

/-- An attribute with a pattern and a further check, which an AKA method without 4G legacy requires. -/
def checkAttribute (attrName : Str) (pattern : Expr) (further : Str → Bool) (furtherText : String)
    (resourcePath : Str) (required : Bool) : Option Str → Rules Unit
  | some value =>
      if !checkPatternOnData pattern value then
        addConstraintViolation resourcePath (inStaticData attrName "has invalid value")
      else if !further value then addConstraintViolation resourcePath (inStaticData attrName furtherText)
      else pure ()
  | none =>
      if required then
        addConstraintViolation resourcePath
          (inStaticData attrName "has not been defined with an AKA authentication method")
      else pure ()

def checkEncPermanentKey : Str → Bool → Option Str → Rules Unit :=
  checkAttribute JSON_ENC_PERMANENT_KEY encPermanentKeyRegex (fun value => value.length == LENGTH_ENC_PERMANENT_KEY)
    "has invalid size"

/-- The management field has a pattern only. -/
def checkAuthenticationManagementField : Str → Bool → Option Str → Rules Unit :=
  checkAttribute JSON_AUTHENTICATION_MANAGEMENT_FIELD authenticationManagementFieldRegex (fun _ => true) ""

def checkAlgorithmId : Str → Bool → Option Str → Rules Unit :=
  checkAttribute JSON_ALGORITHM_ID algorithmIdRegex checkAlgorithmIdInRange "has invalid value"

def checkA4KeyInd : Str → Bool → Option Str → Rules Unit :=
  checkAttribute JSON_A4_KEY_IND a4KeyIndRegex checkA4KeyIndInRange "has invalid value"

def checkA4Ind : Str → Bool → Option Str → Rules Unit :=
  checkAttribute JSON_A4_IND a4IndRegex checkA4IndInRange "has invalid value"

/-- `encOpcKey` needs an `algorithmId`, which must be a MILLENAGE one where it is a number at all. -/
def checkEncOpcKey (resourcePath : Str) (algorithmId : Option Str) : Option Str → Rules Unit
  | some value =>
      let notMillenage := addConstraintViolation resourcePath
        (inStaticData JSON_ENC_OPC_KEY "must not be present as \"" ++ JSON_ALGORITHM_ID
          ++ "\" is not MILLENAGE (0,2-15)")
      if !checkPatternOnData encOpcKeyRegex value then
        addConstraintViolation resourcePath (inStaticData JSON_ENC_OPC_KEY "has invalid value")
      else
        match algorithmId with
        | none => notMillenage
        | some algorithm =>
            if checkPatternOnData algorithmIdRegex algorithm then
              if !checkAlgorithmIdIsMillenage algorithm then notMillenage else pure ()
            else pure ()
  | none => pure ()

def checkOptionalPattern (attrName : Str) (pattern : Expr) (resourcePath : Str) : Option Str → Rules Unit
  | some value =>
      if !checkPatternOnData pattern value then
        addConstraintViolation resourcePath (inStaticData attrName "has invalid value")
      else pure ()
  | none => pure ()

def checkA4KeyV : Str → Option Str → Rules Unit := checkOptionalPattern JSON_A4_KEY_V a4KeyVRegex

def checkAkaAlgorithmIndPattern : Str → Option Str → Rules Unit :=
  checkOptionalPattern JSON_AKA_ALGORITHM_IND akaAlgorithmIndRegex

variable (relatedResources : RelatedResources)

/-- The mask of the journal says that the subscriber is defined in the AuC; an empty one does not. -/
def isDefinedInAuC (journal : ProvJournal) : Except Fault Bool :=
  if journal.imsiMask.isEmpty then .ok false else checkBitIsSet journal.imsiMask POS_AUC_IN_IMSI_MASK

def checkJournal (resourcePath : Str) (definedInAuC : Bool) : Rules Unit :=
  if !definedInAuC then
    addConstraintViolation resourcePath
      ("It is not allowed to create or update a subscriber with \"" ++ JSON_AKA_ALGORITHM_IND ++ "\" in \""
        ++ JSON_AUTH_SUBSCRIPTION_STATIC_DATA ++ "\" if not defined in AuC")
  else pure ()

/-- `akaAlgorithmInd` needs a journal that says the subscriber is defined in the AuC. Where there is no journal the code
of the validation becomes 422. -/
def checkDefinedInAuC (resourcePath : Str) : Rules Nat := do
  let mscId := getMscId resourcePath
  match relatedResources[buildProvJournalResourcePathFromMscId mscId]? with
  | some resource =>
      let journal ← getProvJournalResource resource
      let definedInAuC ← isDefinedInAuC journal
      checkJournal resourcePath definedInAuC
      return HTTP_CONFLICT
  | none =>
      addUnprocessableEntity resourcePath
        ("provJournal for subscriber mscId=" ++ mscId
          ++ " not included. Needed to check if user is defined in AuC when attribute \"" ++ JSON_AKA_ALGORITHM_IND
          ++ "\" is present")
      return HTTP_UNPROCESSABLE_ENTITY

def checkAuthenticationMethod (resourcePath : Str) (isAuthenticationMethodValid : Bool) : Rules Unit :=
  if !isAuthenticationMethodValid then
    addConstraintViolation resourcePath (inStaticData JSON_AUTHENTICATION_METHOD "has not the valid format")
  else pure ()

def isAuthenticationMethodAKA (d : AuthSubscriptionStaticData) : Bool :=
  d.authenticationMethod == JSON_5G_AKA || d.authenticationMethod == JSON_EAP_AKA_PRIME

/-- An AKA method without 4G legacy requires five attributes. -/
def isRequired (resourcePath : Str) (d : AuthSubscriptionStaticData) : Bool :=
  let has4GLegacy := relatedResources.contains (getLegacyPathFromResourcePath resourcePath)
  isAuthenticationMethodAKA d && !has4GLegacy

def attributeChecks (resourcePath : Str) (d : AuthSubscriptionStaticData) : List (Rules Unit) :=
  let required := isRequired relatedResources resourcePath d
  [ checkAuthenticationMethod resourcePath (isAuthenticationMethodAKA d),
    checkEncPermanentKey resourcePath required d.encPermanentKey,
    checkAuthenticationManagementField resourcePath required d.authenticationManagementField,
    checkAlgorithmId resourcePath required d.algorithmId,
    checkA4KeyInd resourcePath required d.a4KeyInd,
    checkA4Ind resourcePath required d.a4Ind,
    checkEncOpcKey resourcePath d.algorithmId d.encOpcKey,
    checkA4KeyV resourcePath d.a4KeyV ]

def checkAkaAlgorithmInd (resourcePath : Str) : Option Str → Rules Nat
  | some value => do
      checkAkaAlgorithmIndPattern resourcePath (some value)
      checkDefinedInAuC relatedResources resourcePath
  | none => return HTTP_CONFLICT

/-- The rules for the static data of a change, if it has any. They give the code of a validation that fails. -/
def checkForCommonStaticDataRules (resourcePath : Str) : Option AuthSubscriptionStaticData → Rules Nat
  | some d => do
      each (attributeChecks relatedResources resourcePath d)
      checkAkaAlgorithmInd relatedResources resourcePath d.akaAlgorithmInd
  | none => return HTTP_CONFLICT

def checkNoDynamicData (resourcePath : Str) (dynamicData : Option AuthSubscriptionDynamicData) : Rules Unit :=
  if dynamicData.isSome then addConstraintViolation resourcePath dynamicDataDescription else pure ()

/-- The common rules up to the look at the errors: the static data, then that there is no dynamic data. -/
def checkForCommonRules (change : Change) : Rules Nat := do
  let code ← checkForCommonStaticDataRules relatedResources change.resourcePath
    change.authSubscription.authSubscriptionStaticData
  checkNoDynamicData change.resourcePath change.authSubscription.authSubscriptionDynamicData
  return code

def checkForCommonAuthSubscriptionRules (change : Change) : Rules ValidationResponse := do
  let code ← checkForCommonRules relatedResources change
  if ← hasErrors then return ⟨false, code⟩
  else return ⟨true, HTTP_OK⟩

/-! ## The rules for a creation -/

/-- The error of the three overloads of `checkOptionalAttributeWithLegacy`: for two texts, for a text and an `int` in
decimal, for two `unsigned int`s. -/
def legacyMismatch (resourcePath attrName attrLegacyName : Str) : Rules Bool :=
  reject resourcePath
    ("\"" ++ attrName ++ "\" is not equal to \"" ++ attrLegacyName ++ "\" attribute of 4G legacy subscription")

def checkOptionalAttributeWithLegacy (attr attrLegacy : Option Str) (resourcePath attrName attrLegacyName : Str) :
    Rules Bool :=
  match attr, attrLegacy with
  | some a, some l => if a ≠ l then legacyMismatch resourcePath attrName attrLegacyName else pure true
  | _, _ => pure true

def checkOptionalAttributeWithLegacyInt (attr : Option Str) (attrLegacy : Option Int)
    (resourcePath attrName attrLegacyName : Str) : Rules Bool :=
  checkOptionalAttributeWithLegacy attr (attrLegacy.map Str.to_string) resourcePath attrName attrLegacyName

/-- `(unsigned int)` of an `int`. -/
def toUnsigned (n : Int) : Nat := (n % 2 ^ 32).toNat

def checkOptionalAttributeWithLegacyUnsigned (attr : Nat) (attrLegacy : Option Int)
    (resourcePath attrName attrLegacyName : Str) : Rules Bool :=
  match attrLegacy with
  | some l => if attr ≠ toUnsigned l then legacyMismatch resourcePath attrName attrLegacyName else pure true
  | none => pure true

def checkAkaType (resourcePath : Str) : Option Int → Rules Bool
  | none => reject resourcePath ("\"" ++ JSON_AKA_TYPE ++ "\" for 4G legacy subscription is not defined")
  | some value =>
      if value ≠ AKATYPE_ALLOWED_VALUE then
        reject resourcePath ("\"" ++ JSON_AKA_TYPE ++ "\" for 4G legacy subscription has an invalid value")
      else pure true

/-- The management field is a hexadecimal text, `AMFVALUE` an integer. -/
def checkAuthenticationManagementFieldWithLegacy (attr : Option Str) (attrLegacy : Option Int) (resourcePath : Str) :
    Rules Bool :=
  match attr with
  | some text => do
      let value ← fromHexStringToUnsignedInt text
      checkOptionalAttributeWithLegacyUnsigned value attrLegacy resourcePath JSON_AUTHENTICATION_MANAGEMENT_FIELD
        JSON_AMF_VALUE
  | none => return true

/-- Each attribute that is defined must equal its counterpart in the legacy subscription. -/
def legacyChecks (resourcePath : Str) (d : AuthSubscriptionStaticData) (l : AuthSubscriptionLegacy) :
    List (Rules Bool) := [
  checkOptionalAttributeWithLegacy d.encPermanentKey l.eki resourcePath JSON_ENC_PERMANENT_KEY JSON_EKI,
  checkOptionalAttributeWithLegacyInt d.a4KeyInd l.kind resourcePath JSON_A4_KEY_IND JSON_KIND,
  checkOptionalAttributeWithLegacyInt d.a4Ind l.a4Ind resourcePath JSON_A4_IND JSON_A4_IND_LEGACY,
  checkOptionalAttributeWithLegacyInt d.algorithmId l.fSetInd resourcePath JSON_ALGORITHM_ID JSON_F_SET_IND,
  checkAuthenticationManagementFieldWithLegacy d.authenticationManagementField l.amfValue resourcePath,
  checkOptionalAttributeWithLegacy d.encOpcKey l.eopc resourcePath JSON_ENC_OPC_KEY JSON_EOPC,
  checkOptionalAttributeWithLegacyInt d.akaAlgorithmInd l.akaAlgInd resourcePath JSON_AKA_ALGORITHM_IND
    JSON_AKA_ALG_IND]

def checkForLegacyAuthSubscriptionRules (change : Change) : Rules Bool := do
  match relatedResources[getLegacyPathFromResourcePath change.resourcePath]? with
  | some resource =>
      let l ← getAuthSubscriptionLegacyResource resource
      all (checkAkaType change.resourcePath l.akaType ::
        match change.authSubscription.authSubscriptionStaticData with
        | some d => legacyChecks change.resourcePath d l
        | none => [])
  | none => return true

/-- Further rules are only looked at when the common rules leave no error. -/
def checkForCommonRulesThen (change : Change) (further : Rules Bool) : Rules ValidationResponse := do
  let resp ← checkForCommonAuthSubscriptionRules relatedResources change
  let ret ← if resp.validation then further else pure false
  return ⟨ret, if ret then HTTP_OK else max resp.code HTTP_CONFLICT⟩

def checkForCreationAuthSubscription (change : Change) : Rules ValidationResponse :=
  checkForCommonRulesThen relatedResources change (checkForLegacyAuthSubscriptionRules relatedResources change)

/-! ## The rules for an update -/

/-- An attribute that cannot be modified: present on both sides with one value, or on none. -/
def optionalAttributeHasChanged (newValue oldValue : Option Str) (resourcePath attrName : Str) : Rules Bool :=
  let modified := reject resourcePath (inStaticData attrName "cannot be modified")
  if (newValue.isSome && !oldValue.isSome) || (!newValue.isSome && oldValue.isSome) then modified
  else
    match newValue, oldValue with
    | some new, some old => if new ≠ old then modified else pure true
    | _, _ => pure true

def unmodifiedChecks (resourcePath : Str) (new old : AuthSubscriptionStaticData) : List (Rules Bool) := [
  optionalAttributeHasChanged new.encPermanentKey old.encPermanentKey resourcePath JSON_ENC_PERMANENT_KEY,
  optionalAttributeHasChanged new.algorithmId old.algorithmId resourcePath JSON_ALGORITHM_ID,
  optionalAttributeHasChanged new.a4KeyInd old.a4KeyInd resourcePath JSON_A4_KEY_IND,
  optionalAttributeHasChanged new.a4Ind old.a4Ind resourcePath JSON_A4_IND,
  optionalAttributeHasChanged new.encOpcKey old.encOpcKey resourcePath JSON_ENC_OPC_KEY,
  optionalAttributeHasChanged new.a4KeyV old.a4KeyV resourcePath JSON_A4_KEY_V]

def checkForUpdateAuthSubscriptionRules (change : Change) : Rules Bool := do
  let new ← staticDataValue .changeStaticData change.authSubscription.authSubscriptionStaticData
  match relatedResources[getBasePath change.resourcePath]? with
  | some resource =>
      let related ← getAuthSubscriptionResource resource
      let old ← staticDataValue .relatedStaticData related.authSubscriptionStaticData
      all (unmodifiedChecks change.resourcePath new old)
  | none => return true

def hasRelatedResource (path : Str) : Bool := relatedResources.contains path

def checkForUpdateAuthSubscription (change : Change) : Rules ValidationResponse :=
  let path := change.resourcePath
  let basePath := getBasePath path
  if !hasRelatedResource relatedResources basePath then do
    addUnprocessableEntity path ("There is no associated relatedResource: " ++ basePath)
    return ⟨false, HTTP_UNPROCESSABLE_ENTITY⟩
  else checkForCommonRulesThen relatedResources change (checkForUpdateAuthSubscriptionRules relatedResources change)

end AuthProvValidator
