import AuthProvValidator.Ports.Schema
import AuthProvValidator.Ports.Server
import AuthProvValidator.Properties.AnswerReading

/-!
# Replies and the schema

* `requestSchema_accepts_iff` : the request schema as the parser's results use it;
* `Library.FollowsSchema` : validators of the interface that do what the schema says;
* `accepts_validatorResponseToJson` : a response is a document of the schema for its status;
* `handleHttp2Request_follows_schema` : so is every reply, and no reply is an internal server error.
-/

namespace AuthProvValidator
open Recorder Json

/-- The validators accept the requests and the responses of the schema, and no other requests. -/
structure Library.FollowsSchema (lib : Library) : Prop where
  request : ∀ text, lib.validateRequest text = none →
    ∃ doc, lib.parseJson text = some doc ∧ requestSchema.accepts doc = true
  response : ∀ status body schema, responseSchema status = some schema → schema.accepts body = true →
    lib.validateResponse status body = none

def InSchema (status : Nat) (body : Json) : Prop :=
  ∃ schema, responseSchema status = some schema ∧ schema.accepts body = true

/-! ## Requests -/

section Requests
variable {ms : List (Str × Json)} {doc : Json}

theorem oneOf_operations_iff {s : Str} :
    s ∈ [JSON_OPERATION_CREATE, JSON_OPERATION_DELETE, JSON_OPERATION_UPDATE] ↔ isOperation s = true := by
  simp only [isOperation, Bool.or_eq_true, beq_iff_eq, List.mem_cons, List.not_mem_nil, or_false, or_assoc]
  exact or_congr_right or_comm

theorem changeSchema_accepts_iff {v : Json} : changeSchema.accepts v = true ↔ ∃ cs, v = .obj cs ∧ SchemaChange cs := by
  constructor
  · intro h
    obtain ⟨cs, rfl⟩ := Schema.isObject_of_accepts_property h
    rw [changeSchema, Schema.accepts_property, Schema.accepts_property, Schema.accepts_property] at h
    obtain ⟨hop, hoperation, hpath, hresourcePath, -, hdata, -⟩ := h
    refine ⟨cs, rfl, ⟨hop rfl, hpath rfl⟩, fun m hm hname => ?_, fun m hm hname => ?_, fun m hm hname => ?_⟩
    · obtain ⟨s, hs, hmem⟩ := Schema.accepts_oneOf.mp (hoperation m hm hname)
      exact ⟨s, hs, oneOf_operations_iff.mp hmem⟩
    · simpa using hresourcePath m hm hname
    · simpa using hdata m hm hname
  · rintro ⟨cs, rfl, hcs⟩
    rw [changeSchema, Schema.accepts_property, Schema.accepts_property, Schema.accepts_property]
    refine ⟨fun _ => hcs.required.1, fun m hm hname => ?_, fun _ => hcs.required.2, fun m hm hname => ?_,
      fun h => absurd h (by decide), fun m hm hname => ?_, rfl⟩
    · obtain ⟨s, hs, hop⟩ := hcs.operation m hm hname
      exact Schema.accepts_oneOf.mpr ⟨s, hs, oneOf_operations_iff.mpr hop⟩
    · simpa using hcs.resourcePath m hm hname
    · simpa using hcs.data m hm hname

/-- **The documents of the request schema.** -/
theorem requestSchema_accepts_iff : requestSchema.accepts doc = true ↔ ∃ ms, doc = .obj ms ∧ ConformsToSchema ms := by
  constructor
  · intro h
    obtain ⟨ms, rfl⟩ := Schema.isObject_of_accepts_property h
    rw [requestSchema, Schema.accepts_property, Schema.accepts_property] at h
    obtain ⟨-, hchanges, -, hrelated, -⟩ := h
    refine ⟨ms, rfl, fun m hm hname => ?_, fun m hm hname => ?_⟩
    · obtain ⟨vs, hvs, hall⟩ := Schema.accepts_array.mp (hchanges m hm hname)
      exact ⟨vs, hvs, fun v hv => changeSchema_accepts_iff.mp (hall v hv)⟩
    · simpa using hrelated m hm hname
  · rintro ⟨ms, rfl, hms⟩
    rw [requestSchema, Schema.accepts_property, Schema.accepts_property]
    refine ⟨fun h => absurd h (by decide), fun m hm hname => ?_, fun h => absurd h (by decide),
      fun m hm hname => ?_, rfl⟩
    · obtain ⟨vs, hvs, hall⟩ := hms.changes m hm hname
      exact Schema.accepts_array.mpr ⟨vs, hvs, fun v hv => changeSchema_accepts_iff.mpr (hall v hv)⟩
    · simpa using hms.relatedResources m hm hname

end Requests

/-! ## Responses -/

section Responses
variable {c : Change} {response : Response} {status : Nat}

theorem errorSchema_accepts (e : Error) : errorSchema.accepts (errorToJson e) = true := by
  have hnames : JSON_ERROR_MESSAGE ≠ JSON_ERROR_DETAILS := by decide
  rw [errorSchema, errorToJson, Schema.accepts_property, Schema.accepts_property]
  simp only [List.forall_mem_cons, forall_true_left, hnames, hnames.symm, false_implies, List.not_mem_nil, implies_true,
    and_true, true_and]
  exact ⟨rfl, rfl, fun h => absurd h (by decide), rfl, rfl⟩

theorem changeSchema_accepts_entry {operation p : Str} {rest : List (Str × Json)} (hop : isOperation operation = true)
    (hrest : rest = [] ∨ ∃ ms, rest = [(JSON_DATA, .obj ms)]) :
    changeSchema.accepts (.obj (operationToJson operation p ++ rest)) = true := by
  rw [changeSchema_accepts_iff]
  refine ⟨_, rfl, ⟨?_, ?_⟩, fun m hm hname => ?_, fun m hm hname => ?_, fun m hm hname => ?_⟩
  · rw [find_operationToJson]
    rfl
  · rw [find_resourcePath]
    rfl
  all_goals
    simp only [operationToJson, List.cons_append, List.nil_append, List.mem_cons] at hm
    rcases hm with rfl | rfl | hm
  · exact ⟨operation, by rw [cStr_of_isOperation hop], hop⟩
  · exact absurd hname resourcePath_ne_operation
  · rcases hrest with rfl | ⟨ms, rfl⟩
    · exact absurd hm List.not_mem_nil
    · rw [List.mem_singleton.mp hm] at hname
      exact absurd hname data_ne_operation
  · exact absurd hname.symm resourcePath_ne_operation
  · rfl
  · rcases hrest with rfl | ⟨ms, rfl⟩
    · exact absurd hm List.not_mem_nil
    · rw [List.mem_singleton.mp hm] at hname
      exact absurd hname data_ne_resourcePath
  · exact absurd hname.symm data_ne_operation
  · exact absurd hname.symm data_ne_resourcePath
  · rcases hrest with rfl | ⟨ms, rfl⟩
    · exact absurd hm List.not_mem_nil
    · rw [List.mem_singleton.mp hm]
      rfl

theorem changeSchema_accepts_changeToJson (hop : isOperation c.operation = true) :
    ∀ v ∈ changeToJson c, changeSchema.accepts v = true := by
  intro v hv
  rw [changeToJson_eq] at hv
  rcases List.mem_cons.mp hv with rfl | hv
  · apply changeSchema_accepts_entry hop
    split
    · exact Or.inl rfl
    · exact Or.inr ⟨_, rfl⟩
  · split at hv
    · rw [List.mem_singleton.mp hv]
      exact changeSchema_accepts_entry hop (Or.inr ⟨_, rfl⟩)
    · exact absurd hv List.not_mem_nil

theorem accepts_changes (h : ∀ c ∈ response.changes, isOperation c.operation = true) :
    ∀ v ∈ response.changes.flatMap changeToJson, changeSchema.accepts v = true := by
  intro v hv
  obtain ⟨c, hc, hv⟩ := List.mem_flatMap.mp hv
  exact changeSchema_accepts_changeToJson (h c hc) v hv

/-- **A response is written as a document of the schema**, under each status that responses are sent with. -/
theorem accepts_validatorResponseToJson (hstatus : status = 200 ∨ status = 409 ∨ status = 422)
    (h : response.errors = [] → ∀ c ∈ response.changes, isOperation c.operation = true) :
    InSchema status (validatorResponseToJson response) := by
  have hnames : JSON_ERRORS ≠ JSON_CHANGES := by decide
  have herrors : (Schema.array errorSchema).accepts (.arr (response.errors.map errorToJson)) = true := by
    refine Schema.accepts_array.mpr ⟨_, rfl, fun v hv => ?_⟩
    obtain ⟨e, -, rfl⟩ := List.mem_map.mp hv
    exact errorSchema_accepts e
  -- the only member of the document is either of the two
  have hdocument : ∃ ms, validatorResponseToJson response = .obj ms ∧
      (∀ m ∈ ms, m.1 = JSON_ERRORS → (Schema.array errorSchema).accepts m.2 = true) ∧
      ∀ m ∈ ms, m.1 = JSON_CHANGES → (Schema.array changeSchema).accepts m.2 = true := by
    unfold validatorResponseToJson
    split
    · refine ⟨_, rfl, fun m hm _ => ?_, fun m hm hname => ?_⟩
      · rw [List.mem_singleton.mp hm]
        exact herrors
      · rw [List.mem_singleton.mp hm] at hname
        exact absurd hname hnames
    · rename_i hnone
      have hchanges := accepts_changes (h (by simpa using hnone))
      split
      · refine ⟨_, rfl, fun m hm hname => ?_, fun m hm _ => ?_⟩
        · rw [List.mem_singleton.mp hm] at hname
          exact absurd hname.symm hnames
        · rw [List.mem_singleton.mp hm]
          exact Schema.accepts_array.mpr ⟨_, rfl, hchanges⟩
      · exact ⟨[], rfl, fun m hm => absurd hm List.not_mem_nil, fun m hm => absurd hm List.not_mem_nil⟩
  obtain ⟨ms, hms, hmsErrors, hmsChanges⟩ := hdocument
  rw [InSchema, hms]
  rcases hstatus with rfl | rfl | rfl
  · exact ⟨_, rfl, Schema.accepts_property.mpr ⟨fun hreq => absurd hreq (by decide), hmsChanges, rfl⟩⟩
  · exact ⟨_, rfl, Schema.accepts_property.mpr ⟨fun hreq => absurd hreq (by decide), hmsErrors, rfl⟩⟩
  · exact ⟨_, rfl, Schema.accepts_property.mpr ⟨fun hreq => absurd hreq (by decide), hmsErrors, rfl⟩⟩

theorem accepts_errorResponseToJson (e : Error) : InSchema HTTP_BAD_REQUEST (errorResponseToJson e) :=
  ⟨errorSchema, rfl, errorSchema_accepts e⟩

end Responses

/-! ## The codes of the rules -/

section Codes
variable {R : RelatedResources} {c : Change} {cs : List Change} {run run' : Run} {E E' : List Error}

def Run.Coded (run : Run) : Prop := run.code = HTTP_OK ∨ run.code = HTTP_CONFLICT ∨ run.code = HTTP_UNPROCESSABLE_ENTITY

theorem Run.Coded.ranged (h : run.Coded) : run.Ranged := by
  rcases h with h | h | h <;> rw [Run.Ranged, h] <;> decide

theorem Step.coded (h : Step R c run E run' E') (hrun : run.Coded) : run'.Coded := by
  by_cases hreset : Resets c
  · exact Or.inl (h.reset hreset).2
  · by_cases hj : Judges c
    · have hverdict : (verdictOn R c E').code = HTTP_OK ∨ (verdictOn R c E').code = HTTP_CONFLICT ∨
          (verdictOn R c E').code = HTTP_UNPROCESSABLE_ENTITY := by
        unfold verdictOn codeOf
        split_ifs <;> simp
      rw [Run.Coded, (h.judged hj hrun.ranged).2, Run.join]
      -- the larger of two codes is one of them
      rcases Nat.le_total run.code (verdictOn R c E').code with hle | hle
      · rw [Nat.max_eq_right hle]
        exact hverdict
      · rw [Nat.max_eq_left hle]
        exact hrun
    · rw [Run.Coded, (h.kept hj hreset hrun.ranged).2]
      exact hrun

theorem validateChanges_coded (h : (validateChanges R run cs).run E = .ok (run', E')) (hrun : run.Coded) :
    run'.Coded :=
  validateChanges_induct (I := fun run _ => run.Coded) h hrun fun _ _ _ _ _ _ hrun hstep => hstep.coded hrun

end Codes

/-! ## Replies -/

section Replies
variable {lib : Library} {data : ValidationData} {r : Reply} {status : Nat} {body : Json} {ms : List (Str × Json)}

theorem Library.FollowsSchema.sendResponse_eq (h : lib.FollowsSchema) (hbody : InSchema status body) :
    sendResponse lib status body = ⟨status, body⟩ := by
  obtain ⟨schema, hschema, haccepts⟩ := hbody
  rw [sendResponse, h.response status body schema hschema haccepts]

theorem Library.FollowsSchema.answer_inSchema (h : lib.FollowsSchema) (hschema : ConformsToSchema ms)
    (hdata : getValidationData lib.decodeFromBase64 (some (.obj ms)) = .ok data) (hr : answer lib data = .ok r) :
    (r.status = HTTP_OK ∨ r.status = HTTP_CONFLICT ∨ r.status = HTTP_UNPROCESSABLE_ENTITY) ∧
      InSchema r.status r.body := by
  unfold answer at hr
  split at hr
  · rename_i herrors
    have hinSchema : InSchema HTTP_CONFLICT (validatorResponseToJson data.response) :=
      accepts_validatorResponseToJson (Or.inr (Or.inl rfl)) fun hnone => by simp [hnone] at herrors
    rw [h.sendResponse_eq hinSchema] at hr
    obtain rfl := Except.ok.inj hr
    exact ⟨Or.inr (Or.inl rfl), hinSchema⟩
  · rename_i hnone
    have hparse : data.response.errors = [] := by simpa using hnone
    obtain ⟨o, hrun, hsend⟩ := bind_eq_ok.mp hr
    have hcode : o.verdict.code = HTTP_OK ∨ o.verdict.code = HTTP_CONFLICT ∨
        o.verdict.code = HTTP_UNPROCESSABLE_ENTITY := by
      obtain ⟨⟨run, E⟩, hloop, hret⟩ := bind_eq_ok.mp hrun
      obtain rfl := Except.ok.inj hret
      exact validateChanges_coded hloop (Or.inl rfl)
    have hbody : ∀ {status : Nat}, status = HTTP_OK ∨ status = HTTP_CONFLICT ∨ status = HTTP_UNPROCESSABLE_ENTITY →
        InSchema status (validatorResponseToJson o.response) := fun hstatus =>
      accepts_validatorResponseToJson hstatus fun herrors c hc =>
        (answered_of_mem hdata hrun herrors (hschema.complete hdata hparse) c hc).operation
    split at hsend
    · rw [h.sendResponse_eq (hbody hcode)] at hsend
      obtain rfl := Except.ok.inj hsend
      exact ⟨hcode, hbody hcode⟩
    · rw [h.sendResponse_eq (hbody (Or.inl rfl))] at hsend
      obtain rfl := Except.ok.inj hsend
      exact ⟨Or.inl rfl, hbody (Or.inl rfl)⟩

end Replies

/-- **Where the validators follow the schema, so does every reply**: its status is 200, 400, 409 or 422, never that of
an internal server error, and its document has the schema for that status. -/
theorem handleHttp2Request_follows_schema (lib : Library) (h : lib.FollowsSchema) (json : Str) (r : Reply)
    (hr : handleHttp2Request lib json = .ok r) :
    (r.status = HTTP_OK ∨ r.status = HTTP_BAD_REQUEST ∨ r.status = HTTP_CONFLICT ∨
      r.status = HTTP_UNPROCESSABLE_ENTITY) ∧ InSchema r.status r.body := by
  unfold handleHttp2Request at hr
  split at hr
  · obtain rfl := Except.ok.inj hr
    exact ⟨Or.inr (Or.inl rfl), accepts_errorResponseToJson _⟩
  · rename_i haccepted
    obtain ⟨doc, hdoc, haccepts⟩ := h.request json haccepted
    obtain ⟨ms, rfl, hschema⟩ := requestSchema_accepts_iff.mp haccepts
    rw [hdoc] at hr
    split at hr
    · rw [h.sendResponse_eq (accepts_errorResponseToJson _)] at hr
      obtain rfl := Except.ok.inj hr
      exact ⟨Or.inr (Or.inl rfl), accepts_errorResponseToJson _⟩
    · cases hr
    · rename_i data hdata
      cases hanswer : answer lib data with
      | error f =>
        rw [hanswer] at hr
        cases hr
      | ok r' =>
        rw [hanswer] at hr
        obtain rfl := Except.ok.inj hr
        obtain ⟨hstatus, hbody⟩ := h.answer_inSchema hschema hdata hanswer
        refine ⟨?_, hbody⟩
        rcases hstatus with hstatus | hstatus
        · exact Or.inl hstatus
        · exact Or.inr (Or.inr hstatus)

/-- Validators by the schema, and a parser that knows one text. -/
def schemaLibrary (text : Str) (doc : Json) : Library where
  validateRequest := fun t => if t = text ∧ requestSchema.accepts doc = true then none else some "unexpected body"
  validateResponse := fun status body =>
    if (responseSchema status).all (·.accepts body) then none else some "unexpected body"
  parseJson := fun t => if t = text then some doc else none
  decodeFromBase64 := id

theorem followsSchema_schemaLibrary (text : Str) (doc : Json) : (schemaLibrary text doc).FollowsSchema where
  request := fun t ht => by
    simp only [schemaLibrary] at ht ⊢
    split at ht
    · rename_i hboth
      exact ⟨doc, if_pos hboth.1, hboth.2⟩
    · cases ht
  response := fun status body schema hschema haccepts => by
    simp only [schemaLibrary]
    rw [hschema, Option.all_some, if_pos haccepts]

theorem handleHttp2Request_follows_schema_creation :
    ∃ r, handleHttp2Request (schemaLibrary "x" creationEncTopcKey) "x" = .ok r ∧
      (r.status = HTTP_OK ∨ r.status = HTTP_BAD_REQUEST ∨ r.status = HTTP_CONFLICT ∨
        r.status = HTTP_UNPROCESSABLE_ENTITY) ∧ InSchema r.status r.body := by
  obtain ⟨r, hr, -⟩ := exists_of_toOption (x := handleHttp2Request (schemaLibrary "x" creationEncTopcKey) "x")
    (fun r => r.status) (b := HTTP_OK) (by decide)
  exact ⟨r, hr, handleHttp2Request_follows_schema (schemaLibrary "x" creationEncTopcKey)
    (followsSchema_schemaLibrary "x" creationEncTopcKey) "x" r hr⟩

end AuthProvValidator
