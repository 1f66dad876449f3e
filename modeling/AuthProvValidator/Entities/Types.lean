import AuthProvValidator.Ports.Value
import Std.Data.ExtTreeMap.Lemmas

/-!
# Entities

The data of a validation request and of its response (`types.hpp`). A `std::map` is an `ExtTreeMap`: keys are unique,
the iteration is in key order, two maps with the same entries are equal. `std::map::insert` and `emplace` leave a key
that is already there alone, which is `insertIfNew`.
-/

namespace AuthProvValidator

abbrev VendorSpecific := Std.ExtTreeMap Str Json

structure AuthSubscriptionStaticData where
  authenticationMethod : Str := []
  encPermanentKey : Option Str := none
  authenticationManagementField : Option Str := none
  algorithmId : Option Str := none
  a4KeyInd : Option Str := none
  a4Ind : Option Str := none
  encOpcKey : Option Str := none
  encTopcKey : Option Str := none
  a4KeyV : Option Str := none
  akaAlgorithmInd : Option Str := none
  vendorSpecific : VendorSpecific := ∅

abbrev LastIndexesList := Std.ExtTreeMap Str Int

structure AuthSubscriptionDynamicData where
  sqnScheme : Option Str := none
  sqn : Option Str := none
  lastIndexesList : Option LastIndexesList := none

structure AuthSubscription where
  authSubscriptionStaticData : Option AuthSubscriptionStaticData := none
  authSubscriptionDynamicData : Option AuthSubscriptionDynamicData := none

structure Change where
  operation : Str := []
  resourcePath : Str := []
  authSubscription : AuthSubscription := {}

structure SubscriberIdentitiesId where
  id : Str := []
  idPrefix : Str := []

/-- The provisioning journal of a subscriber. `imsiChoStatus` is left uninitialised when the request has none. -/
structure ProvJournal where
  notifRef : Str := []
  imsi : Str := []
  imsiMask : Str := []
  imsiExtMask : Str := []
  msisdn : Str := []
  msisdnMask : Str := []
  msisdnExtMask : Str := []
  imsiAux : Str := []
  imsiAuxMask : Str := []
  imsiAuxExtMask : Str := []
  impi : Str := []
  impiMask : Str := []
  impiExtMask : Str := []
  secImpi : Str := []
  impiAux : Str := []
  username : Str := []
  usernameMask : Str := []
  usernameExtMask : Str := []
  imsiChoStatus : Option Int := none
  imsiExpiryDate : Str := []
  imsiChoExec : Str := []
  impuChoIds : List Str := []
  mscIdAux : Str := []
  notifInfo : Str := []
  ueFunctionMask : Str := []
  extIdList : List Str := []
  nai : Str := []
  naiMask : Str := []
  naiExtMask : Str := []
  subsIdList : List SubscriberIdentitiesId := []

structure AuthSubscriptionLegacy where
  fSetInd : Option Int := none
  eki : Option Str := none
  kind : Option Int := none
  a4Ind : Option Int := none
  amfValue : Option Int := none
  eopc : Option Str := none
  seqHe : Option Str := none
  akaType : Option Int := none
  vNumber : Option Int := none
  akaAlgInd : Option Int := none

/-- `boost::variant<auth_subscription_t, prov_journal_t, auth_subscription_legacy_t>`. -/
inductive Resource where
  | authSubscription (a : AuthSubscription)
  | provJournal (j : ProvJournal)
  | authSubscriptionLegacy (l : AuthSubscriptionLegacy)

abbrev RelatedResources := Std.ExtTreeMap Str Resource

abbrev ErrorDetails := Std.ExtTreeMap Str Str

structure Error where
  errorMessage : Str
  errorDetails : ErrorDetails

structure Response where
  changes : List Change := []
  errors : List Error := []

structure ValidationData where
  changes : List Change := []
  relatedResources : RelatedResources := ∅
  response : Response := {}

/-- The verdict and the HTTP code: `std::tuple<bool, int>`. -/
structure ValidationResponse where
  validation : Bool
  code : Nat

/-- Where a `std::optional` is read without a check. -/
inductive OptionalRead where
  | changeStaticData
  | relatedStaticData
deriving DecidableEq

/-- How a run of the rules breaks off. `badGet` and `badOptionalAccess` are `boost::bad_get` and
`std::bad_optional_access`; `outOfRange` and `uninitialized` are reads that C++ leaves undefined. -/
inductive Fault where
  | badGet
  | badOptionalAccess (of : OptionalRead)
  | outOfRange
  | uninitialized
deriving DecidableEq

/-- The error that `addError` and `composeError` build. -/
def composeError (message : Str) (args : List (Str × Str)) : Error :=
  ⟨message, args.foldl (fun details i => details.insertIfNew i.1 i.2) ∅⟩

@[simp] theorem composeError_errorMessage (message : Str) (args : List (Str × Str)) :
    (composeError message args).errorMessage = message := rfl

end AuthProvValidator
