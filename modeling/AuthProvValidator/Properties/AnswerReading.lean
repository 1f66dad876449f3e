import AuthProvValidator.Base.Entries
import AuthProvValidator.Properties.Companions
import AuthProvValidator.Properties.MemberOrder
import AuthProvValidator.Properties.ParserSafety

/-!
# Reading a whole answer

The document of a response without errors has the form of a request, and the parser can read it as one.

* `Change.Complete` : a change with an operation and a path, as each change of a request in the schema is;
* `readAgain`, `errorsAgain` : what the parser reads of the one or two elements that a change is written as;
* `getValidationData_answer` : it reads the elements of the whole answer so, in order, and no related resources.
-/

namespace AuthProvValidator
open Recorder Json

structure Change.Complete (c : Change) : Prop where
  operation : isOperation c.operation = true
  resourcePath : c.resourcePath ≠ []

/-- The subscription that is read from the data of a written change. Only the data of static data paths are read. -/
def Change.readBack (c : Change) : AuthSubscription :=
  if c.operation ≠ JSON_OPERATION_DELETE ∧ checkAuthSubscriptionStaticDataUri c.resourcePath = true then
    { authSubscriptionStaticData := some (c.authSubscription.authSubscriptionStaticData.getD {}).written }
  else {}

/-- The changes that are read from what a change is written as. -/
def readAgain (c : Change) : List Change :=
  { c with authSubscription := c.readBack } ::
    if c.operation = JSON_OPERATION_CREATE then
      [{ operation := JSON_OPERATION_CREATE,
         resourcePath := createPathFromBasePath c.resourcePath JSON_AUTH_SUBSCRIPTION_DYNAMIC_DATA }]
    else []

/-- The errors that are recorded: a change without static data is written with empty data, which have no
`authenticationMethod`. -/
def errorsAgain (c : Change) : List Error :=
  if c.operation ≠ JSON_OPERATION_DELETE ∧ checkAuthSubscriptionStaticDataUri c.resourcePath = true ∧
      c.authSubscription.authSubscriptionStaticData.isNone = true then
    [constraintViolation c.resourcePath
      (unfoundMandatoryChildError JSON_AUTHENTICATION_METHOD JSON_AUTH_SUBSCRIPTION_STATIC_DATA)]
  else []

/-! ## Requests in the schema -/

section Schema
variable {c c' : Change} {m : Str × Json} {ms : List (Str × Json)} {operation p : Str} {v : Json} {E E' : List Error}

theorem resourcePath_of_getResourcePath (h : (getResourcePath v).run E = .ok (p, E')) : p ≠ [] := by
  unfold getResourcePath at h
  split at h
  · cases h
  · obtain ⟨text, E₁, -, h⟩ := run_bind_ok.mp h
    split at h
    · cases h
    · rename_i hne
      obtain ⟨rfl, -⟩ := Prod.mk.inj (Except.ok.inj h)
      simpa using hne

theorem getChangeMember_names (h : (getChangeMember c m).run E = .ok (c', E')) :
    (isOperation c'.operation = true ∨ m.1.cStr ≠ JSON_OPERATION ∧ c'.operation = c.operation) ∧
      (c'.resourcePath ≠ [] ∨ m.1.cStr ≠ JSON_RESOURCE_PATH ∧ c'.resourcePath = c.resourcePath) := by
  unfold getChangeMember at h
  dsimp only at h
  split at h
  · rename_i hattr
    obtain ⟨operation, E₁, hop, h⟩ := run_bind_ok.mp h
    obtain ⟨rfl, -⟩ := Prod.mk.inj (Except.ok.inj h)
    refine ⟨Or.inl (isOperation_of_getOperation hop), Or.inr ⟨?_, rfl⟩⟩
    rw [hattr]
    exact resourcePath_ne_operation.symm
  · rename_i hattr
    split at h
    · obtain ⟨path, E₁, hpath, h⟩ := run_bind_ok.mp h
      obtain ⟨rfl, -⟩ := Prod.mk.inj (Except.ok.inj h)
      exact ⟨Or.inr ⟨hattr, rfl⟩, Or.inl (resourcePath_of_getResourcePath hpath)⟩
    · rename_i hpath
      split at h
      · obtain ⟨a, E₁, -, h⟩ := run_bind_ok.mp h
        obtain ⟨rfl, -⟩ := Prod.mk.inj (Except.ok.inj h)
        exact ⟨Or.inr ⟨hattr, rfl⟩, Or.inr ⟨hpath, rfl⟩⟩
      · obtain ⟨rfl, -⟩ := Prod.mk.inj (Except.ok.inj h)
        exact ⟨Or.inr ⟨hattr, rfl⟩, Or.inr ⟨hpath, rfl⟩⟩

/-- Once it is set, or when there is a member that sets it, a change has an operation; and likewise a path. -/
theorem getChangeMembers_names (h : (ms.foldlM getChangeMember c).run E = .ok (c', E')) :
    (isOperation c.operation = true ∨ (∃ m ∈ ms, m.1.cStr = JSON_OPERATION) → isOperation c'.operation = true) ∧
      (c.resourcePath ≠ [] ∨ (∃ m ∈ ms, m.1.cStr = JSON_RESOURCE_PATH) → c'.resourcePath ≠ []) := by
  induction ms generalizing c E with
  | nil =>
    obtain ⟨rfl, -⟩ := Prod.mk.inj (Except.ok.inj h)
    simp
  | cons m ms ih =>
    rw [List.foldlM_cons] at h
    obtain ⟨c₁, E₁, hm, hms⟩ := run_bind_ok.mp h
    obtain ⟨hoperation, hpath⟩ := getChangeMember_names hm
    obtain ⟨ihoperation, ihpath⟩ := ih hms
    simp only [List.exists_mem_cons_iff]
    constructor
    · intro hset
      apply ihoperation
      rcases hoperation with hop | ⟨hne, hkept⟩
      · exact Or.inl hop
      · rw [hkept]
        rcases hset with hset | hset | hset
        · exact Or.inl hset
        · exact absurd hset hne
        · exact Or.inr hset
    · intro hset
      apply ihpath
      rcases hpath with hp | ⟨hne, hkept⟩
      · exact Or.inl hp
      · rw [hkept]
        rcases hset with hset | hset | hset
        · exact Or.inl hset
        · exact absurd hset hne
        · exact Or.inr hset

/-- **The changes of a request in the schema have an operation and a path.** -/
theorem ConformsToSchema.complete {decode : Str → Str} {data : ValidationData} (hschema : ConformsToSchema ms)
    (h : getValidationData decode (some (obj ms)) = .ok data) (herrors : data.response.errors = []) :
    ∀ c ∈ data.changes, c.Complete := by
  obtain ⟨json, hjson, hchanges, -, -⟩ := silent_of_getValidationData h herrors
  obtain rfl := Option.some.inj hjson
  unfold getChangesToValidate at hchanges
  obtain ⟨b, E₁, hb, hchanges⟩ := run_bind_ok.mp hchanges
  obtain ⟨hmember, rfl⟩ := run_access.mp hb
  obtain rfl := Except.ok.inj hmember
  intro c hc
  cases hfind : find ms JSON_CHANGES with
  | none =>
    rw [hfind] at hchanges
    obtain ⟨hnil, -⟩ := Prod.mk.inj (Except.ok.inj hchanges)
    rw [← hnil] at hc
    exact absurd hc List.not_mem_nil
  | some value =>
    obtain ⟨vs, rfl, hvs⟩ := hschema.changes _ (mem_of_find hfind) rfl
    rw [hfind, Option.isSome_some, if_pos rfl] at hchanges
    obtain ⟨w, E₂, hw, hchanges⟩ := run_bind_ok.mp hchanges
    obtain ⟨hindex, rfl⟩ := run_access.mp hw
    rw [index_obj hfind] at hindex
    obtain rfl := Except.ok.inj hindex
    have hmapM : Silent (vs.mapM getChange) data.changes := hchanges
    obtain ⟨v, hv, hread⟩ := mem_of_silent_mapM oblivious_getChange hmapM c hc
    obtain ⟨cs, rfl, hcs⟩ := hvs v hv
    have hfold : (cs.foldlM getChangeMember {}).run [] = .ok (c, []) := hread
    have hnames : ∀ name : Str, name.cStr = name → (find cs name).isSome = true → ∃ m ∈ cs, m.1.cStr = name := by
      intro name hname hsome
      obtain ⟨value, hvalue⟩ := Option.isSome_iff_exists.mp hsome
      exact ⟨_, mem_of_find hvalue, hname⟩
    obtain ⟨hoperation, hpath⟩ := getChangeMembers_names hfold
    exact ⟨hoperation (Or.inr (hnames JSON_OPERATION (by decide) hcs.required.1)),
      hpath (Or.inr (hnames JSON_RESOURCE_PATH (by decide) hcs.required.2))⟩

end Schema

/-! ## Reading one element -/

section Elements
variable {c : Change} {ms rest : List (Str × Json)} {operation p : Str} {E : List Error}

theorem cStr_changeNames : Str.cStr JSON_OPERATION = JSON_OPERATION ∧ Str.cStr JSON_RESOURCE_PATH = JSON_RESOURCE_PATH ∧
    Str.cStr JSON_DATA = JSON_DATA := by decide

theorem getOperation_str (h : isOperation operation = true) :
    (getOperation (.str operation)).run E = .ok (operation, E) := by
  have hne : operation ≠ [] := by
    rintro rfl
    exact absurd h (by decide)
  rw [getOperation]
  refine run_bind_ok.mpr ⟨operation, E, run_access.mpr ⟨?_, rfl⟩, ?_⟩
  · exact congrArg Except.ok (cStr_of_isOperation h)
  · rw [if_neg (by simpa using hne), if_neg (by simpa using h)]
    rfl

theorem getResourcePath_str (h : p.cStr = p) (hne : p ≠ []) : (getResourcePath (.str p)).run E = .ok (p, E) := by
  rw [getResourcePath]
  refine run_bind_ok.mpr ⟨p, E, run_access.mpr ⟨congrArg Except.ok h, rfl⟩, ?_⟩
  rw [if_neg (by simpa using hne)]
  rfl

theorem getChange_operationToJson (hop : isOperation operation = true) (hp : p.cStr = p) (hne : p ≠ []) :
    (getChange (.obj (operationToJson operation p ++ rest))).run E =
      (rest.foldlM getChangeMember { operation, resourcePath := p }).run E := by
  have hoperation : (getChangeMember {} (JSON_OPERATION, .str operation.cStr)).run E = .ok ({ operation }, E) := by
    rw [getChangeMember]
    simp only [cStr_changeNames, if_true, cStr_of_isOperation hop]
    exact run_bind_ok.mpr ⟨operation, E, getOperation_str hop, rfl⟩
  have hpath : (getChangeMember { operation } (JSON_RESOURCE_PATH, .str p.cStr)).run E =
      .ok ({ operation, resourcePath := p }, E) := by
    rw [getChangeMember]
    simp only [cStr_changeNames, resourcePath_ne_operation, if_true, if_false, hp]
    exact run_bind_ok.mpr ⟨p, E, getResourcePath_str hp hne, rfl⟩
  show (((JSON_OPERATION, Json.str operation.cStr) :: (JSON_RESOURCE_PATH, .str p.cStr) :: rest).foldlM getChangeMember
    {}).run E = _
  rw [List.foldlM_cons, StateT.run_bind, hoperation]
  show (((JSON_RESOURCE_PATH, Json.str p.cStr) :: rest).foldlM getChangeMember { operation }).run E = _
  rw [List.foldlM_cons, StateT.run_bind, hpath]
  rfl

theorem getChangeMember_data {a : AuthSubscription} {E' : List Error}
    (hdata : (getData (.obj ms) c).run E = .ok (a, E')) :
    ([(JSON_DATA, Json.obj ms)].foldlM getChangeMember c).run E = .ok ({ c with authSubscription := a }, E') := by
  have hmember : (getChangeMember c (JSON_DATA, .obj ms)).run E = .ok ({ c with authSubscription := a }, E') := by
    rw [getChangeMember]
    simp only [cStr_changeNames, data_ne_operation, data_ne_resourcePath, if_true, if_false]
    exact run_bind_ok.mpr ⟨a, E', hdata, rfl⟩
  rw [List.foldlM_cons]
  exact run_bind_ok.mpr ⟨_, _, hmember, rfl⟩

end Elements

/-! ## Reading the elements of a change -/

structure Change.Answered (c : Change) : Prop extends c.Complete where
  readable : c.Readable
  imsi : c.operation ≠ JSON_OPERATION_DELETE → pathClass c.resourcePath = .imsi
  static : c.operation ≠ JSON_OPERATION_DELETE → ∀ d, c.authSubscription.authSubscriptionStaticData = some d →
    d.vendorSpecific.Named ∧ d.authenticationMethod ≠ []

section Answered
variable {c : Change} {ms : List (Str × Json)} {operation p : Str}

theorem not_checkAuthSubscriptionUri_of_imsi (h : pathClass p = .imsi) : ¬ checkAuthSubscriptionUri p = true := by
  intro huri
  rw [pathClass, if_pos huri] at h
  cases h

/-- Data under other paths than those of subscriptions and of static data are not looked at. -/
theorem getData_ignored (h : ¬ checkAuthSubscriptionUri c.resourcePath = true)
    (hs : ¬ checkAuthSubscriptionStaticDataUri c.resourcePath = true) :
    (getData (.obj ms) c).run [] = .ok (c.authSubscription, []) := by
  rw [getData, if_neg (by simp [isObject]), if_neg h, if_neg hs]
  rfl

theorem companion_ignored (h : pathClass p = .imsi) (hp : p.cStr = p) :
    (createPathFromBasePath p JSON_AUTH_SUBSCRIPTION_DYNAMIC_DATA).cStr =
        createPathFromBasePath p JSON_AUTH_SUBSCRIPTION_DYNAMIC_DATA ∧
      ¬ checkAuthSubscriptionUri (createPathFromBasePath p JSON_AUTH_SUBSCRIPTION_DYNAMIC_DATA) = true ∧
      ¬ checkAuthSubscriptionStaticDataUri (createPathFromBasePath p JSON_AUTH_SUBSCRIPTION_DYNAMIC_DATA) = true := by
  have hdynamic : JSON_AUTH_SUBSCRIPTION_DYNAMIC_DATA ≠ [] ∧ '\x00' ∉ JSON_AUTH_SUBSCRIPTION_DYNAMIC_DATA ∧
      '/' ∉ JSON_AUTH_SUBSCRIPTION_DYNAMIC_DATA := by decide
  -- the path is some base followed by one segment
  obtain ⟨a, s, hs, hpath⟩ : ∃ a s, '/' ∉ s ∧ p = addSuffixToPath a s := by
    obtain ⟨x, d, hd, hpath | hpath⟩ := pathClass_eq_imsi_iff.mp h
    · rw [hp] at hpath
      exact ⟨_, _, slash_not_mem_imsi hd, hpath⟩
    · rw [hp] at hpath
      exact ⟨_, _, slash_not_mem_staticData, hpath⟩
  have hcompanion : createPathFromBasePath p JSON_AUTH_SUBSCRIPTION_DYNAMIC_DATA =
      addSuffixToPath a JSON_AUTH_SUBSCRIPTION_DYNAMIC_DATA := by
    rw [hpath, createPathFromBasePath_addSuffixToPath hs hdynamic.1]
  have hcstr : (addSuffixToPath a JSON_AUTH_SUBSCRIPTION_DYNAMIC_DATA).cStr =
      addSuffixToPath a JSON_AUTH_SUBSCRIPTION_DYNAMIC_DATA := by
    rw [hpath] at hp
    exact cStr_addSuffixToPath hp hdynamic.2.1
  rw [hcompanion]
  refine ⟨hcstr, ?_, ?_⟩
  · rw [checkAuthSubscriptionUri_iff, hcstr]
    rintro ⟨x, hx⟩
    rw [authSubscriptionPath_eq] at hx
    obtain ⟨-, hlast⟩ := addSuffixToPath_inj hdynamic.2.2 slash_not_mem_authSubscription hx
    exact absurd hlast (by decide)
  · rw [checkAuthSubscriptionStaticDataUri_iff, hcstr]
    rintro ⟨x, y, hx⟩
    rw [STATIC_DATA_eq, ← addSuffixToPath, addSuffixToPath_assoc] at hx
    obtain ⟨-, hlast⟩ := addSuffixToPath_inj hdynamic.2.2 slash_not_mem_staticData hx
    exact absurd hlast (by decide)

theorem Change.Answered.getData_run (h : c.Answered) (hop : c.operation ≠ JSON_OPERATION_DELETE) :
    (getData (.obj c.writtenStaticData) { operation := c.operation, resourcePath := c.resourcePath }).run [] =
      .ok (c.readBack, errorsAgain c) := by
  have huri := not_checkAuthSubscriptionUri_of_imsi (h.imsi hop)
  by_cases hs : checkAuthSubscriptionStaticDataUri c.resourcePath = true
  · rw [getData, if_neg (by simp [isObject]), if_neg huri, if_pos hs, Change.writtenStaticData,
      if_pos (hasInfix_of_staticDataUri hs), Change.readBack, if_pos ⟨hop, hs⟩, errorsAgain]
    cases hd : c.authSubscription.authSubscriptionStaticData with
    | none =>
      rw [if_pos ⟨hop, hs, rfl⟩, authSubscriptionStaticDataToJson, hd]
      exact run_bind_ok.mpr ⟨_, _, getAuthSubscriptionStaticData_run, rfl⟩
    | some d =>
      obtain ⟨hnamed, hmethod⟩ := h.static hop d hd
      rw [if_neg (by simp)]
      exact run_bind_ok.mpr ⟨_, _, getAuthSubscriptionStaticData_written hd hnamed hmethod, rfl⟩
  · rw [Change.readBack, if_neg fun h => hs h.2, errorsAgain, if_neg fun h => hs h.2.1]
    exact getData_ignored huri hs

/-- A change is read from the first element that it is written as. -/
theorem Change.Answered.getChange_run (h : c.Answered) :
    (getChange (.obj (operationToJson c.operation c.resourcePath ++
        if c.operation = JSON_OPERATION_DELETE then [] else [(JSON_DATA, .obj c.writtenStaticData)]))).run [] =
      .ok ({ c with authSubscription := c.readBack }, errorsAgain c) := by
  rw [getChange_operationToJson h.operation h.readable h.resourcePath]
  by_cases hop : c.operation = JSON_OPERATION_DELETE
  · rw [if_pos hop, Change.readBack, if_neg fun h => h.1 hop, errorsAgain, if_neg fun h => h.1 hop]
    rfl
  · rw [if_neg hop]
    exact getChangeMember_data (h.getData_run hop)

/-- The companion of a creation is read from the second one. -/
theorem Change.Answered.getChange_companion (h : c.Answered) (hop : c.operation = JSON_OPERATION_CREATE) :
    (getChange (.obj (operationToJson c.operation
        (createPathFromBasePath c.resourcePath JSON_AUTH_SUBSCRIPTION_DYNAMIC_DATA) ++
          [(JSON_DATA, .obj ms)]))).run [] =
      .ok ({ operation := JSON_OPERATION_CREATE,
             resourcePath := createPathFromBasePath c.resourcePath JSON_AUTH_SUBSCRIPTION_DYNAMIC_DATA }, []) := by
  have hclass := h.imsi (by rw [hop]; exact create_ne_delete)
  obtain ⟨hcstr, huri, hs⟩ := companion_ignored hclass h.readable
  have hne : createPathFromBasePath c.resourcePath JSON_AUTH_SUBSCRIPTION_DYNAMIC_DATA ≠ [] := by
    rw [createPathFromBasePath, if_neg (by decide), addSuffixToPath]
    simp
  rw [getChange_operationToJson h.operation hcstr hne, hop]
  exact getChangeMember_data (getData_ignored huri hs)

theorem Change.Answered.getChanges_run (h : c.Answered) :
    ((changeToJson c).mapM getChange).run [] = .ok (readAgain c, errorsAgain c) := by
  rw [changeToJson_eq, List.mapM_cons, readAgain]
  refine run_bind_ok.mpr ⟨_, _, h.getChange_run, ?_⟩
  by_cases hop : c.operation = JSON_OPERATION_CREATE
  · rw [if_pos hop, if_pos hop]
    refine run_bind_ok.mpr ⟨_, errorsAgain c, ?_, rfl⟩
    rw [List.mapM_cons]
    refine run_bind_ok.mpr ⟨_, errorsAgain c, ?_, rfl⟩
    exact (oblivious_getChange _).run_ok.mpr ⟨[], h.getChange_companion hop, (List.append_nil _).symm⟩
  · rw [if_neg hop, if_neg hop]
    rfl

end Answered

/-! ## Reading the document -/

section Document
variable {decode : Str → Str} {doc : Option Json} {data : ValidationData} {o : Outcome}

/-- The changes of an answer, where the changes of the request have an operation and a path. -/
theorem answered_of_mem (h : getValidationData decode doc = .ok data) (hrun : applyValidationRules data = .ok o)
    (herrors : o.response.errors = []) (hcomplete : ∀ c ∈ data.changes, c.Complete) :
    ∀ c' ∈ o.response.changes, c'.Answered := by
  obtain ⟨hparse, hconform⟩ := conforms_of_errors_nil hrun herrors
  have hparser := fromParser_of_getValidationData h hparse
  have hreadable := readable_answered h hparse hrun
  obtain ⟨-, -, -, -, hempty⟩ := silent_of_getValidationData h hparse
  obtain ⟨⟨run, E⟩, hloop, hret⟩ := bind_eq_ok.mp hrun
  obtain rfl := Except.ok.inj hret
  obtain ⟨added, hadded, hsource⟩ := source_of_added hloop
  intro c' hmem
  have hread := (hreadable c' hmem).2
  rw [hadded, hempty, List.nil_append] at hmem
  obtain ⟨c, hc, ⟨hclass, hmut⟩ | ⟨rfl, hdel⟩⟩ := hsource c' hmem
  · obtain ⟨hop, hpath, -⟩ := computeMutations_frame hmut
    obtain ⟨hoperation, hne⟩ := hcomplete c hc
    have hcomplete' : c'.Complete := by
      constructor
      · rw [hop]
        exact hoperation
      · rw [hpath]
        exact hne
    have hclass' : pathClass c'.resourcePath = .imsi := by
      rw [hpath]
      exact hclass
    refine ⟨hcomplete', hread, fun _ => hclass', fun hdel => ?_⟩
    have hop' : c.operation = JSON_OPERATION_CREATE ∨ c.operation = JSON_OPERATION_UPDATE := by
      rw [hop] at hdel
      simp only [isOperation, Bool.or_eq_true, beq_iff_eq] at hoperation
      rcases hoperation with hoperation | hoperation
      · exact hoperation
      · exact absurd hoperation hdel
    have hacc : Accepted data.relatedResources [] c c' :=
      ⟨fun b hb => absurd hb List.not_mem_nil, hconform c hc, hclass, hmut⟩
    exact fromParser_answered (hparser c hc) ((hconform c hc).common hclass hop') hacc
  · exact ⟨hcomplete c' hc, hread, fun hne => absurd hdel hne, fun hne => absurd hdel hne⟩

/-- Answered changes are read from their document one after another. -/
theorem getChangesToValidate_answer {response : Response} (herrors : response.errors = [])
    (h : ∀ c ∈ response.changes, c.Answered) :
    (getChangesToValidate (validatorResponseToJson response)).run [] =
      .ok (response.changes.flatMap readAgain, response.changes.flatMap errorsAgain) := by
  have hread := run_mapM_flatMap oblivious_getChange fun c hc => (h c hc).getChanges_run
  rw [validatorResponseToJson, herrors]
  cases hchanges : response.changes with
  | nil => rfl
  | cons c cs =>
    rw [hchanges] at hread
    exact hread

end Document

/-- **The answer to a request in the schema is read by the parser**: its changes in order, their static data as they
were written, each creation followed by an empty one for its dynamic data. The only errors are for changes without
static data. -/
theorem getValidationData_answer (decode decode' : Str → Str) (ms : List (Str × Json)) (data : ValidationData)
    (o : Outcome) (hschema : ConformsToSchema ms) (h : getValidationData decode (some (.obj ms)) = .ok data)
    (hrun : applyValidationRules data = .ok o) (herrors : o.response.errors = []) :
    getValidationData decode' (some (validatorResponseToJson o.response)) =
      .ok { changes := o.response.changes.flatMap readAgain, relatedResources := ∅,
            response := { errors := o.response.changes.flatMap errorsAgain } } := by
  obtain ⟨hparse, -⟩ := conforms_of_errors_nil hrun herrors
  have hanswered := answered_of_mem h hrun herrors (hschema.complete h hparse)
  rw [getValidationData]
  refine bind_eq_ok.mpr ⟨_, getChangesToValidate_answer herrors hanswered, ?_⟩
  -- an answer has no related resources
  have hrelated : ∀ E, (getRelatedResources decode' (validatorResponseToJson o.response)).run E = .ok (∅, E) := by
    intro E
    rw [validatorResponseToJson, herrors]
    cases o.response.changes with
    | nil => rfl
    | cons c cs =>
      show (getRelatedResources decode' (.obj [(JSON_CHANGES, .arr ((c :: cs).flatMap changeToJson))])).run E = _
      have hfind : find [(JSON_CHANGES, Json.arr ((c :: cs).flatMap changeToJson))] JSON_RELATED_RESOURCES = none := by
        have hne : JSON_RELATED_RESOURCES ≠ JSON_CHANGES := by decide
        rw [find_cons, if_neg hne]
        rfl
      rw [getRelatedResources, hasMember_obj, hfind]
      rfl
  exact bind_eq_ok.mpr ⟨_, hrelated _, rfl⟩

theorem conforms_creationDocument (static legacy : List (Str × Json)) :
    ∃ ms, creationDocument static legacy = .obj ms ∧ ConformsToSchema ms := by
  have hnames : JSON_CHANGES ≠ JSON_RELATED_RESOURCES ∧ JSON_OPERATION ≠ JSON_RESOURCE_PATH ∧
      JSON_OPERATION ≠ JSON_DATA ∧ JSON_RESOURCE_PATH ≠ JSON_DATA := by decide
  refine ⟨_, rfl, ?_, ?_⟩
  · simp only [List.forall_mem_cons, forall_true_left, hnames.1.symm, false_implies, List.not_mem_nil, implies_true,
      and_true]
    refine ⟨_, rfl, fun v hv => ⟨_, List.mem_singleton.mp hv, ?_⟩⟩
    constructor
    · exact ⟨rfl, rfl⟩
    · simp only [List.forall_mem_cons, hnames.2.1.symm, hnames.2.2.1.symm, forall_true_left, false_implies,
        List.not_mem_nil, implies_true, and_true]
      exact ⟨JSON_OPERATION_CREATE, rfl, rfl⟩
    · simp only [List.forall_mem_cons, hnames.2.1, hnames.2.2.2.symm, forall_true_left, false_implies,
        List.not_mem_nil, implies_true, and_true, true_and]
      rfl
    · simp only [List.forall_mem_cons, hnames.2.2.1, hnames.2.2.2, forall_true_left, false_implies,
        List.not_mem_nil, implies_true, and_true, true_and]
      rfl
  · simp only [List.forall_mem_cons, forall_true_left, hnames.1, false_implies, List.not_mem_nil, implies_true,
      and_true, true_and]
    rfl

theorem getValidationData_answer_creation :
    ∃ ms data o, creationEncTopcKey = .obj ms ∧ getValidationData id (some (.obj ms)) = .ok data ∧
      applyValidationRules data = .ok o ∧
      getValidationData id (some (validatorResponseToJson o.response)) =
        .ok { changes := o.response.changes.flatMap readAgain, relatedResources := ∅,
              response := { errors := o.response.changes.flatMap errorsAgain } } := by
  obtain ⟨data, o, hdata, -, hrun, ho⟩ := creationEncTopcKey_answered
  simp only [Bool.and_eq_true, List.isEmpty_iff] at ho
  obtain ⟨ms, hms, hschema⟩ : ∃ ms, creationEncTopcKey = .obj ms ∧ ConformsToSchema ms := conforms_creationDocument _ _
  rw [hms] at hdata
  exact ⟨ms, data, o, hms, hdata, hrun, getValidationData_answer id id ms data o hschema hdata hrun ho.1.1⟩

end AuthProvValidator
