import AuthProvValidator.Entities.Apply
import AuthProvValidator.Ports.Encoder
import AuthProvValidator.Ports.Parser

/-!
# Answering a request

`handleHttp2Request`: a request body is validated against the interface, read, validated by the rules and answered. The
answer is a status and a document, which is validated against the interface in turn.

The validators of the interface and the JSON parser are libraries, and a base64 decoder is; `Library` holds them.
-/

namespace AuthProvValidator

/-- What the server takes from libraries. A validator gives the reason why it refuses. -/
structure Library where
  validateRequest : Str → Option Str
  validateResponse : Nat → Json → Option Str
  parseJson : Str → Option Json
  decodeFromBase64 : Str → Str

structure Reply where
  status : Nat
  body : Json

/-- A request that is not answered: an assertion of the parser fails or the rules break off. -/
inductive Abort where
  | assertion (a : Assertion)
  | fault (f : Fault)
deriving DecidableEq

variable (lib : Library)

/-- Send a document that the interface allows, else say that it does not. -/
def sendResponse (status : Nat) (json : Json) : Reply :=
  match lib.validateResponse status json with
  | some reason =>
      ⟨HTTP_INTERNAL_SERVER_ERROR, errorResponseToJson (composeError "Malformed response" [("description", reason)])⟩
  | none => ⟨status, json⟩

def answer (reqData : ValidationData) : Except Fault Reply :=
  if !reqData.response.errors.isEmpty then
    return sendResponse lib HTTP_CONFLICT (validatorResponseToJson reqData.response)
  else do
    let outcome ← applyValidationRules reqData
    if !outcome.verdict.validation then
      return sendResponse lib outcome.verdict.code (validatorResponseToJson outcome.response)
    else return sendResponse lib HTTP_OK (validatorResponseToJson outcome.response)

def handleHttp2Request (json : Str) : Except Abort Reply :=
  match lib.validateRequest json with
  | some reason =>
      .ok ⟨HTTP_BAD_REQUEST, errorResponseToJson (composeError "Malformed request" [("description", reason)])⟩
  | none =>
      match getValidationData lib.decodeFromBase64 (lib.parseJson json) with
      | .error (.parsingError text) =>
          .ok (sendResponse lib HTTP_BAD_REQUEST
            (errorResponseToJson (composeError "Malformed request" [("description", text)])))
      | .error (.assertion a) => .error (.assertion a)
      | .ok reqData => (answer lib reqData).mapError Abort.fault

end AuthProvValidator
