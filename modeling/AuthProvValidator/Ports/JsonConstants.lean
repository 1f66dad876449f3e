import AuthProvValidator.Base.Text

/-!
# Member names and values of the JSON interface, HTTP codes

The texts of `JsonConstants.hpp` and the codes of `HTTPcodes.hpp`, under their names there.
-/

namespace AuthProvValidator

/-! ## Request and response -/

def JSON_CHANGES : Str := "changes"
def JSON_RELATED_RESOURCES : Str := "relatedResources"
def JSON_OPERATION : Str := "operation"
def JSON_RESOURCE_PATH : Str := "resource_path"
def JSON_DATA : Str := "data"
def JSON_OPERATION_CREATE : Str := "CREATE"
def JSON_OPERATION_UPDATE : Str := "UPDATE"
def JSON_OPERATION_DELETE : Str := "DELETE"

def JSON_ERRORS : Str := "errors"
def JSON_ERROR_MESSAGE : Str := "errorMessage"
def JSON_ERROR_DETAILS : Str := "errorDetails"

def JSON_AUTH_SUBSCRIPTION : Str := "authSubscription"

/-! ## Static data -/

def JSON_AUTH_SUBSCRIPTION_STATIC_DATA : Str := "authSubscriptionStaticData"
def JSON_AUTHENTICATION_METHOD : Str := "authenticationMethod"
def JSON_ENC_PERMANENT_KEY : Str := "encPermanentKey"
def JSON_AUTHENTICATION_MANAGEMENT_FIELD : Str := "authenticationManagementField"
def JSON_ALGORITHM_ID : Str := "algorithmId"
def JSON_A4_KEY_IND : Str := "a4KeyInd"
def JSON_A4_IND : Str := "a4Ind"
def JSON_ENC_OPC_KEY : Str := "encOpcKey"
def JSON_ENC_TOPC_KEY : Str := "encTopcKey"
def JSON_IMSI : Str := "imsi"
def JSON_A4_KEY_V : Str := "a4KeyV"
def JSON_AKA_ALGORITHM_IND : Str := "akaAlgorithmInd"

def JSON_5G_AKA : Str := "5G_AKA"
def JSON_EAP_AKA_PRIME : Str := "EAP_AKA_PRIME"

/-! ## Dynamic data -/

def JSON_AUTH_SUBSCRIPTION_DYNAMIC_DATA : Str := "authSubscriptionDynamicData"
def JSON_SQN_SCHEME : Str := "sqnScheme"
def JSON_SQN : Str := "sqn"
def JSON_LAST_INDEXES_LIST : Str := "lastIndexes"

/-! ## Provisioning journal -/

def JSON_IMSI_TYPE : Str := "imsi"
def JSON_PROV_JOURNAL : Str := "provJournal"
def JSON_NOTIF_REF : Str := "notifRef"
def JSON_IMSI_MASK : Str := "imsiMask"
def JSON_IMSI_EXT_MASK : Str := "imsiExtMask"
def JSON_MSISDN : Str := "msisdn"
def JSON_MSISDN_MASK : Str := "msisdnMask"
def JSON_MSISDN_EXT_MASK : Str := "msisdnExtMask"
def JSON_IMSI_AUX : Str := "imsiAux"
def JSON_IMSI_AUX_MASK : Str := "imsiAuxMask"
def JSON_IMSI_AUX_EXT_MASK : Str := "imsiAuxExtMask"
def JSON_IMPI : Str := "impi"
def JSON_IMPI_MASK : Str := "impiMask"
def JSON_IMPI_EXT_MASK : Str := "impiExtMask"
def JSON_SEC_IMPI : Str := "secImpi"
def JSON_IMPI_AUX : Str := "impiAux"
def JSON_USERNAME : Str := "username"
def JSON_USERNAME_MASK : Str := "usernameMask"
def JSON_USERNAME_EXT_MASK : Str := "usernameExtMask"
def JSON_IMSICHO_STATUS : Str := "imsiChoStatus"
def JSON_IMSI_EXPIRY_DATE : Str := "imsiExpiryDate"
def JSON_IMSICHO_EXEC : Str := "imsiChoExec"
def JSON_IMPUCHO_IDS : Str := "impuChoIds"
def JSON_MSC_ID_AUX : Str := "mscIdAux"
def JSON_NOTIF_INFO : Str := "notifInfo"
def JSON_UE_FUNCTION_MASK : Str := "ueFunctionMask"
def JSON_EXT_ID_LIST : Str := "extIdList"
def JSON_NAI : Str := "nai"
def JSON_NAI_MASK : Str := "naiMask"
def JSON_NAI_EXT_MASK : Str := "naiExtMask"
def JSON_SUBS_ID_LIST : Str := "subsIdList"
def JSON_SUBS_ID : Str := "id"
def JSON_SUBS_PREFIX : Str := "prefix"

/-! ## 4G legacy subscription -/

def JSON_F_SET_IND : Str := "FSETIND"
def JSON_EKI : Str := "EKI"
def JSON_EKI_BASE64 : Str := "EKI:"
def JSON_KIND : Str := "KIND"
def JSON_A4_IND_LEGACY : Str := "A4IND"
def JSON_AMF_VALUE : Str := "AMFVALUE"
def JSON_EOPC : Str := "EOPC"
def JSON_EOPC_BASE64 : Str := "EOPC:"
def JSON_SEQ_HE : Str := "SEQHE"
def JSON_SEQ_HE_BASE64 : Str := "SEQHE:"
def JSON_AKA_TYPE : Str := "AKATYPE"
def JSON_VNUMBER : Str := "VNUMBER"
def JSON_AKA_ALG_IND : Str := "AKAALGIND"

/-! ## HTTP codes -/

def HTTP_OK : Nat := 200
def HTTP_BAD_REQUEST : Nat := 400
def HTTP_CONFLICT : Nat := 409
def HTTP_UNPROCESSABLE_ENTITY : Nat := 422
def HTTP_INTERNAL_SERVER_ERROR : Nat := 500

end AuthProvValidator
