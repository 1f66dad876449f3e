import AuthProvValidator.Ports.Exchange

/-!
# A request is answered once

* `Services.library` : the libraries as the handler uses them for the request on a stream;
* `handleHttp2Request_ends` : on the stream there is one call of `end`, with the reply of the handler of documents, or
  none where that one breaks off;
* `toHttp2Headers_perm` : the validators are asked about the headers that come in and go out, in an order of the
  library;
* `replyHeaders_exact` : the reply has the content type and one value of each tracing header of the request, each name
  once.
-/

namespace AuthProvValidator
open Exchange

variable {Headers : Type} [Multimap Headers Str Str]

def Stream.context (stream : Stream Headers) : Context Headers :=
  ({} : Context Headers).copyTracingHeaders stream.requestHeaders

/-- What the handler of documents takes from libraries, for the request on a stream: the validators are asked about the
headers that come in, and about those that are sent. -/
def Services.library (services : Services Headers) (stream : Stream Headers) : Library where
  validateRequest := fun json =>
    services.validateRequest ⟨toHttp2Headers stream.requestHeaders, json, stream.path, stream.query,
      stream.method, none⟩
  validateResponse := fun status json =>
    services.validateResponse ⟨toHttp2Headers (replyHeaders stream.context), services.str json, stream.path,
      stream.query, stream.method, some status⟩
  parseJson := services.parseJson
  decodeFromBase64 := services.decodeFromBase64

def Services.endCall (services : Services Headers) (stream : Stream Headers) (reply : Reply) : EndCall Headers :=
  ⟨reply.status, replyHeaders stream.context, services.str reply.body⟩

namespace Exchange

section Runs
variable {services : Services Headers} {stream : Stream Headers} {ctx : Context Headers} {info : Info Headers}
  {status : Nat} {body : Json} {calls calls' : List (EndCall Headers)}

omit [Multimap Headers Str Str] in
theorem run_bind_ok {α β : Type} {x : Exchange Headers α} {f : α → Exchange Headers β} {a : α}
    (h : x.run.run calls = (.ok a, calls')) : (x >>= f).run.run calls = (f a).run.run calls' := by
  rw [ExceptT.run_bind, StateT.run_bind, h]
  rfl

/-- No header is lost or added, and their names are not lowered. -/
theorem toHttp2Headers_perm (headers : Headers) :
    (Multimap.elements (toHttp2Headers headers)).Perm (Multimap.elements headers) := by
  have hperm := Multimap.perm_emplaceAll (Multimap.empty : Headers) (Multimap.elements headers)
  rwa [Multimap.elements_empty, List.append_nil] at hperm

theorem checkInvalidRequest_run_some {reason : Str} (h : services.validateRequest info = some reason) :
    (checkInvalidRequest services ctx info).run.run calls = (.ok true, calls ++ [⟨HTTP_BAD_REQUEST, replyHeaders ctx,
      services.str (errorResponseToJson (composeError "Malformed request" [("description", reason)]))⟩]) := by
  rw [checkInvalidRequest, h]
  rfl

theorem checkInvalidRequest_run_none (h : services.validateRequest info = none) :
    (checkInvalidRequest services ctx info).run.run calls = (.ok false, calls) := by
  rw [checkInvalidRequest, h]
  rfl

theorem checkInvalidResponse_run_some {reason : Str} (h : services.validateResponse info = some reason) :
    (checkInvalidResponse services ctx info).run.run calls = (.ok true, calls ++ [⟨HTTP_INTERNAL_SERVER_ERROR,
      replyHeaders ctx,
      services.str (errorResponseToJson (composeError "Malformed response" [("description", reason)]))⟩]) := by
  rw [checkInvalidResponse, h]
  rfl

theorem checkInvalidResponse_run_none (h : services.validateResponse info = none) :
    (checkInvalidResponse services ctx info).run.run calls = (.ok false, calls) := by
  rw [checkInvalidResponse, h]
  rfl

theorem sendResponse_run : (sendResponse services stream.context stream status (services.str body)).run.run calls =
    (.ok (), calls ++
      [services.endCall stream (AuthProvValidator.sendResponse (services.library stream) status body)]) := by
  rw [sendResponse, AuthProvValidator.sendResponse, setHTTPInfoResponse]
  cases h : (services.library stream).validateResponse status body with
  | some reason =>
    rw [run_bind_ok (checkInvalidResponse_run_some h)]
    rfl
  | none =>
    rw [run_bind_ok (checkInvalidResponse_run_none h)]
    rfl

theorem answer_run {reqData : ValidationData} : (answer services stream.context stream reqData).run.run calls =
    match (AuthProvValidator.answer (services.library stream) reqData).mapError Abort.fault with
    | .ok reply => (.ok (), calls ++ [services.endCall stream reply])
    | .error abort => (.error abort, calls) := by
  rw [answer, AuthProvValidator.answer]
  split
  · exact sendResponse_run
  · cases applyValidationRules reqData with
    | error f => rfl
    | ok outcome =>
      show (if !outcome.verdict.validation then _ else _ : Exchange Headers Unit).run.run calls =
        match Except.mapError Abort.fault (if !outcome.verdict.validation then _ else _) with
        | .ok reply => (.ok (), calls ++ [services.endCall stream reply])
        | .error abort => (.error abort, calls)
      split
      · exact sendResponse_run
      · exact sendResponse_run

end Runs

end Exchange

/-- **The handler ends the stream once, with the reply of the handler of documents; where that one breaks off, so does
it, and the stream is not ended.** -/
theorem handleHttp2Request_ends (services : Services Headers) (stream : Stream Headers)
    (calls : List (EndCall Headers)) :
    (Exchange.handleHttp2Request services stream).run.run calls =
      match handleHttp2Request (services.library stream) stream.requestBody with
      | .ok reply => (.ok (), calls ++ [services.endCall stream reply])
      | .error abort => (.error abort, calls) := by
  rw [Exchange.handleHttp2Request, handleHttp2Request, setHTTPInfoRequest]
  cases h : (services.library stream).validateRequest stream.requestBody with
  | some reason => exact (run_bind_ok (checkInvalidRequest_run_some h)).trans rfl
  | none =>
    refine (run_bind_ok (checkInvalidRequest_run_none h)).trans ?_
    have hread : getValidationData services.decodeFromBase64 (services.parseJson stream.requestBody) =
        getValidationData (services.library stream).decodeFromBase64
          ((services.library stream).parseJson stream.requestBody) := rfl
    rw [if_neg Bool.false_ne_true, hread]
    cases getValidationData (services.library stream).decodeFromBase64
        ((services.library stream).parseJson stream.requestBody) with
    | error stop =>
      cases stop with
      | assertion a => rfl
      | parsingError text => exact sendResponse_run
    | ok reqData => exact answer_run

/-- **The headers of a reply**: the content type, and of each name that is a tracing key the header of the request
that is gone through last. No name comes twice. -/
theorem replyHeaders_exact (stream : Stream Headers) :
    ((Multimap.elements (replyHeaders stream.context)).map Prod.fst).Nodup ∧
      ∀ n v, (n, v) ∈ Multimap.elements (replyHeaders stream.context) ↔ (n, v) = contentType ∨
        Context.isTracingHeader n = true ∧ (Multimap.elements stream.requestHeaders).reverse.lookup n = some v := by
  have htracing : Context.isTracingHeader contentType.1 = false := by decide
  have hperm := Multimap.perm_emplace stream.context.tracingHeaders contentType.1 contentType.2
  constructor
  · -- the content type is no tracing key
    rw [replyHeaders, (hperm.map Prod.fst).nodup_iff, List.map_cons, List.nodup_cons]
    refine ⟨fun hmem => ?_, Context.latest_copyTracingHeaders.nodup⟩
    obtain ⟨header, hheader, hname⟩ := List.mem_map.mp hmem
    have hkey := (Context.mem_copyTracingHeaders.mp hheader).1
    rw [hname, htracing] at hkey
    cases hkey
  · intro n v
    rw [replyHeaders, hperm.mem_iff, List.mem_cons]
    exact or_congr_right Context.mem_copyTracingHeaders

def threeRequestIds : List (Str × Str) := [("x-request-id", "A"), ("x-request-id", "B"), ("x-request-id", "C")]

/-- A library that keeps equal names together may go through the second of three values last. -/
example : Multimap.elements (replyHeaders (Stream.context
    ⟨Multimap.emplaceAll (Multimap.empty : List (Str × Str)) threeRequestIds, [], [], [], []⟩)) =
      ([("x-request-id", "B"), contentType] : List (Str × Str)) := by decide

end AuthProvValidator
