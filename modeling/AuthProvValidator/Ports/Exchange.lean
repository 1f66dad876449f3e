import AuthProvValidator.Entities.Context
import AuthProvValidator.Ports.Server

/-!
# Requests and replies on a stream

`ValidatorHttp2AsyncServer` as it talks to a stream of the HTTP/2 library: it reads the request from it and calls
`end` on it.

* `Stream`, `EndCall` : what is read of a stream, and what `end` is called with;
* `Info` : what the validators of the interface are asked about;
* `Exchange` : a computation that calls `end`; it may break off, and the calls before that remain;
* `Exchange.handleHttp2Request` : the handler, with the tracing headers and the documents as texts.

`Services` holds what comes from libraries, and `Headers` is the multimap of headers. The log, to which the handler
writes the anonymized bodies, is left out.
-/

namespace AuthProvValidator

structure Stream (Headers : Type) where
  requestHeaders : Headers
  requestBody : Str
  path : Str
  query : Str
  method : Str

/-- The arguments of a call of `end`. -/
structure EndCall (Headers : Type) where
  status : Nat
  headers : Headers
  body : Str

/-- `httpinfo::Info`. A request has no status code. -/
structure Info (Headers : Type) where
  headers : Headers
  json : Str
  uri : Str
  query : Str
  method : Str
  statusCode : Option Nat := none

structure Services (Headers : Type) where
  validateRequest : Info Headers → Option Str
  validateResponse : Info Headers → Option Str
  parseJson : Str → Option Json
  /-- The text of a document. -/
  str : Json → Str
  decodeFromBase64 : Str → Str

abbrev Exchange (Headers : Type) := ExceptT Abort (StateM (List (EndCall Headers)))

namespace Exchange

variable {Headers : Type}

def endStream (status : Nat) (headers : Headers) (body : Str) : Exchange Headers Unit :=
  modify fun calls => calls ++ [⟨status, headers, body⟩]

variable [Multimap Headers Str Str]

/-- The readiness probe. -/
def handleHttp2RequestHealthy : Exchange Headers Unit := endStream HTTP_OK Multimap.empty []

/-- The names in lower case are made, and the headers are put in as they are. -/
def toHttp2Headers (headers : Headers) : Headers :=
  (Multimap.elements headers).foldl
    (fun http2Headers header =>
      let _headName := Str.to_lower_copy header.1
      Multimap.emplace http2Headers header.1 header.2)
    Multimap.empty

def setHTTPInfoRequest (stream : Stream Headers) : Info Headers where
  headers := toHttp2Headers stream.requestHeaders
  json := stream.requestBody
  uri := stream.path
  query := stream.query
  method := stream.method

def setHTTPInfoResponse (statusCode : Nat) (uri method query bodyResponse : Str) (headers : Headers) :
    Info Headers where
  headers := toHttp2Headers headers
  json := bodyResponse
  uri := uri
  query := query
  method := method
  statusCode := some statusCode

variable (services : Services Headers)

def contentType : Str × Str := ("content-type", "application/json")

def replyHeaders (ctxResponse : Context Headers) : Headers :=
  Multimap.emplace ctxResponse.tracingHeaders contentType.1 contentType.2

def sendUnchecked (ctxResponse : Context Headers) (status : Nat) (json : Str) : Exchange Headers Unit :=
  endStream status (replyHeaders ctxResponse) json

/-- A request that the validator refuses is answered at once. -/
def checkInvalidRequest (ctxResponse : Context Headers) (httpInfo : Info Headers) : Exchange Headers Bool := do
  match services.validateRequest httpInfo with
  | some reason =>
      sendUnchecked ctxResponse HTTP_BAD_REQUEST
        (services.str (errorResponseToJson (composeError "Malformed request" [("description", reason)])))
      return true
  | none => return false

/-- For a response that the validator refuses an internal server error is sent. -/
def checkInvalidResponse (ctxResponse : Context Headers) (httpInfo : Info Headers) : Exchange Headers Bool := do
  match services.validateResponse httpInfo with
  | some reason =>
      sendUnchecked ctxResponse HTTP_INTERNAL_SERVER_ERROR
        (services.str (errorResponseToJson (composeError "Malformed response" [("description", reason)])))
      return true
  | none => return false

def sendResponse (ctxResponse : Context Headers) (stream : Stream Headers) (status : Nat) (json : Str) :
    Exchange Headers Unit := do
  let httpInfoRes := setHTTPInfoResponse status stream.path stream.method stream.query json (replyHeaders ctxResponse)
  if ← checkInvalidResponse services ctxResponse httpInfoRes then return
  else sendUnchecked ctxResponse status json

def answer (contextRequest : Context Headers) (stream : Stream Headers) (reqData : ValidationData) :
    Exchange Headers Unit :=
  if !reqData.response.errors.isEmpty then
    sendResponse services contextRequest stream HTTP_CONFLICT (services.str (validatorResponseToJson reqData.response))
  else
    match applyValidationRules reqData with
    | .ok outcome =>
        if !outcome.verdict.validation then
          sendResponse services contextRequest stream outcome.verdict.code
            (services.str (validatorResponseToJson outcome.response))
        else
          sendResponse services contextRequest stream HTTP_OK (services.str (validatorResponseToJson outcome.response))
    | .error f => throw (.fault f)

def handleHttp2Request (stream : Stream Headers) : Exchange Headers Unit := do
  let httpInfo := setHTTPInfoRequest stream
  let contextRequest := ({} : Context Headers).copyTracingHeaders stream.requestHeaders
  if ← checkInvalidRequest services contextRequest httpInfo then return
  else match getValidationData services.decodeFromBase64 (services.parseJson httpInfo.json) with
    | .error (.parsingError text) =>
        sendResponse services contextRequest stream HTTP_BAD_REQUEST
          (services.str (errorResponseToJson (composeError "Malformed request" [("description", text)])))
    | .error (.assertion a) => throw (.assertion a)
    | .ok reqData => answer services contextRequest stream reqData

end Exchange

end AuthProvValidator
