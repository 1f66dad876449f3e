import AuthProvValidator.Properties.RoundTrip

/-!
# The companions of answered creations

A creation is written as two changes: itself, and one for its dynamic data under a path that is made by cutting the last
segment of its own. That is right for a static data path; a creation on a private identity path is accepted as well, and
what is cut off there is the IMSI.

* `WrittenInOrder cs vs` : the elements `vs` are the changes `cs` in order, each creation followed by the one for the
  dynamic data of the same subscriber and IMSI;
* `applyValidationRules_companions` : the changes of a response without errors are written so exactly when no creation
  of the request is on a private identity path.
-/

namespace AuthProvValidator
open Recorder Json

/-- `/subscribers/x/authSubscription/imsi-d/authSubscriptionDynamicData` -/
def dynamicDataPath (x d : Str) : Str := addSuffixToPath (imsiPath x d) JSON_AUTH_SUBSCRIPTION_DYNAMIC_DATA

/-- The path names the subscriber `x` and the IMSI `d`. -/
structure NamesImsi (p x d : Str) : Prop where
  imsi : IsImsi d
  path : p = imsiPath x d ∨ p = staticDataPath x d

def IsEntry (v : Json) (operation resourcePath : Str) : Prop :=
  ∃ ms, v = .obj ms ∧ find ms JSON_OPERATION = some (.str operation) ∧
    find ms JSON_RESOURCE_PATH = some (.str resourcePath)

/-- The elements are the changes in order, each creation followed by the one for its dynamic data. -/
inductive WrittenInOrder : List Change → List Json → Prop where
  | nil : WrittenInOrder [] []
  | creation {c : Change} {cs : List Change} {v w : Json} {vs : List Json} {x d : Str}
      (hop : c.operation = JSON_OPERATION_CREATE) (hnames : NamesImsi c.resourcePath x d)
      (hv : IsEntry v c.operation c.resourcePath) (hw : IsEntry w JSON_OPERATION_CREATE (dynamicDataPath x d))
      (hvs : WrittenInOrder cs vs) : WrittenInOrder (c :: cs) (v :: w :: vs)
  | other {c : Change} {cs : List Change} {v : Json} {vs : List Json} (hop : c.operation ≠ JSON_OPERATION_CREATE)
      (hv : IsEntry v c.operation c.resourcePath) (hvs : WrittenInOrder cs vs) : WrittenInOrder (c :: cs) (v :: vs)

section Companions
variable {c : Change} {cs : List Change} {v w : Json} {vs : List Json} {operation resourcePath p x d : Str}
  {ms : List (Str × Json)}

theorem writtenInOrder_creation_iff (hop : c.operation = JSON_OPERATION_CREATE) :
    WrittenInOrder (c :: cs) (v :: w :: vs) ↔ IsEntry v c.operation c.resourcePath ∧
      (∃ x d, NamesImsi c.resourcePath x d ∧ IsEntry w JSON_OPERATION_CREATE (dynamicDataPath x d)) ∧
      WrittenInOrder cs vs := by
  constructor
  · intro h
    cases h with
    | creation _ hnames hv hw hvs => exact ⟨hv, ⟨_, _, hnames, hw⟩, hvs⟩
    | other hne => exact absurd hop hne
  · intro h
    obtain ⟨hv, ⟨x, d, hnames, hw⟩, hvs⟩ := h
    exact .creation hop hnames hv hw hvs

theorem writtenInOrder_other_iff (hop : c.operation ≠ JSON_OPERATION_CREATE) :
    WrittenInOrder (c :: cs) (v :: vs) ↔ IsEntry v c.operation c.resourcePath ∧ WrittenInOrder cs vs := by
  constructor
  · intro h
    cases h with
    | creation hcreate => exact absurd hcreate hop
    | other _ hv hvs => exact ⟨hv, hvs⟩
  · intro h
    exact .other hop h.1 h.2

theorem find_operationToJson :
    find (operationToJson operation p ++ ms) JSON_OPERATION = some (.str operation.cStr) := by
  rw [find_append, operationToJson, find_cons, if_pos rfl, Option.some_or]

theorem find_resourcePath : find (operationToJson operation p ++ ms) JSON_RESOURCE_PATH = some (.str p.cStr) := by
  have hne : JSON_RESOURCE_PATH ≠ JSON_OPERATION := by decide
  rw [find_append, operationToJson, find_cons, if_neg hne, find_cons, if_pos rfl, Option.some_or]

theorem isEntry_operationToJson_iff (hop : operation.cStr = operation) :
    IsEntry (.obj (operationToJson operation p ++ ms)) operation resourcePath ↔ p.cStr = resourcePath := by
  constructor
  · intro h
    obtain ⟨ms', hms, -, hfind⟩ := h
    obtain rfl := Json.obj.inj hms
    rw [find_resourcePath] at hfind
    exact Json.str.inj (Option.some.inj hfind)
  · intro h
    refine ⟨_, rfl, ?_, ?_⟩
    · rw [find_operationToJson, hop]
    · rw [find_resourcePath, h]

/-- The companion of the change has the path of its dynamic data. -/
def CompanionRight (c : Change) : Prop :=
  ∃ x d, NamesImsi c.resourcePath x d ∧
    (createPathFromBasePath c.resourcePath JSON_AUTH_SUBSCRIPTION_DYNAMIC_DATA).cStr = dynamicDataPath x d

/-- Changes are written in order exactly when every creation has the right companion. -/
theorem writtenInOrder_flatMap_iff (h : ∀ c ∈ cs, c.operation.cStr = c.operation ∧ c.Readable) :
    WrittenInOrder cs (cs.flatMap changeToJson) ↔ ∀ c ∈ cs, c.operation = JSON_OPERATION_CREATE → CompanionRight c := by
  induction cs with
  | nil => exact iff_of_true .nil fun c hc => absurd hc List.not_mem_nil
  | cons c cs ih =>
    rw [List.forall_mem_cons] at h
    obtain ⟨⟨hc, hpath⟩, hcs⟩ := h
    have hentry := fun ms => (@isEntry_operationToJson_iff _ _ _ ms hc).mpr hpath
    rw [List.flatMap_cons, changeToJson_eq, List.forall_mem_cons, List.cons_append]
    by_cases hop : c.operation = JSON_OPERATION_CREATE
    · rw [if_pos hop, List.singleton_append, writtenInOrder_creation_iff hop, ih hcs]
      have hcompanion : (∃ x d, NamesImsi c.resourcePath x d ∧ IsEntry (.obj (operationToJson c.operation
          (createPathFromBasePath c.resourcePath JSON_AUTH_SUBSCRIPTION_DYNAMIC_DATA) ++
            [(JSON_DATA, .obj c.writtenDynamicData)])) JSON_OPERATION_CREATE (dynamicDataPath x d)) ↔
          CompanionRight c := by
        rw [← hop]
        exact exists_congr fun x => exists_congr fun d => and_congr_right fun _ => isEntry_operationToJson_iff hc
      rw [hcompanion]
      exact ⟨fun h => ⟨fun _ => h.2.1, h.2.2⟩, fun h => ⟨hentry _, h.1 hop, h.2⟩⟩
    · rw [if_neg hop, List.nil_append, writtenInOrder_other_iff hop, ih hcs]
      exact ⟨fun h => ⟨fun hcreate => absurd hcreate hop, h.2⟩, fun h => ⟨hentry _, h.2⟩⟩

theorem createPathFromBasePath_addSuffixToPath {a s t : Str} (hs : '/' ∉ s) (ht : t ≠ []) :
    createPathFromBasePath (addSuffixToPath a s) t = addSuffixToPath a t := by
  rw [createPathFromBasePath, getBasePath_addSuffixToPath hs]
  exact if_neg (by simpa using ht)

theorem cStr_addSuffixToPath {a s t : Str} (h : (addSuffixToPath a s).cStr = addSuffixToPath a s) (ht : '\x00' ∉ t) :
    (addSuffixToPath a t).cStr = addSuffixToPath a t := by
  have ha : '\x00' ∉ a := fun hmem => by
    apply Str.nul_not_mem_cStr (addSuffixToPath a s)
    rw [h]
    exact List.mem_append_left _ hmem
  apply Str.cStr_eq_self
  rw [addSuffixToPath, List.mem_append, List.mem_cons, not_or, not_or]
  exact ⟨ha, by decide, ht⟩

/-- **The companion of an accepted creation is right exactly when it is not on a private identity path.** -/
theorem companionRight_iff (hp : c.Readable) (hclass : pathClass c.resourcePath = .imsi) :
    CompanionRight c ↔ ∀ x d, IsImsi d → c.resourcePath ≠ imsiPath x d := by
  have hdynamic : JSON_AUTH_SUBSCRIPTION_DYNAMIC_DATA ≠ [] ∧ '\x00' ∉ JSON_AUTH_SUBSCRIPTION_DYNAMIC_DATA ∧
      '/' ∉ JSON_AUTH_SUBSCRIPTION_DYNAMIC_DATA := by decide
  obtain ⟨x, d, hd, hpath⟩ := pathClass_eq_imsi_iff.mp hclass
  rw [hp] at hpath
  have hread := hp
  unfold Change.Readable at hread
  rcases hpath with hpath | hpath
  · refine iff_of_false (fun h => ?_) fun h => h x d hd hpath
    obtain ⟨y, e, hnames, hcompanion⟩ := h
    rw [hpath, imsiPath] at hread hcompanion
    rw [createPathFromBasePath_addSuffixToPath (slash_not_mem_imsi hd) hdynamic.1,
      cStr_addSuffixToPath hread hdynamic.2.1] at hcompanion
    obtain ⟨hbase, -⟩ := addSuffixToPath_inj hdynamic.2.2 hdynamic.2.2 hcompanion
    exact imsiPath_ne_authSubscriptionPath hnames.imsi hbase.symm
  · refine iff_of_true ⟨x, d, ⟨hd, Or.inr hpath⟩, ?_⟩ fun y e he heq => ?_
    · rw [hpath, staticDataPath] at hread ⊢
      rw [createPathFromBasePath_addSuffixToPath slash_not_mem_staticData hdynamic.1,
        cStr_addSuffixToPath hread hdynamic.2.1, dynamicDataPath]
    · rw [hpath, staticDataPath] at heq
      exact imsiPath_ne_staticData he heq.symm

end Companions

/-! ## The texts of an answer -/

section Texts
variable {c c' : Change} {decode : Str → Str} {doc : Option Json} {data : ValidationData}

theorem cStr_of_isOperation {operation : Str} (h : isOperation operation = true) : operation.cStr = operation := by
  simp only [isOperation, Bool.or_eq_true, beq_iff_eq] at h
  rcases h with (rfl | rfl) | rfl
  · decide
  · decide
  · decide

theorem isOperation_of_getOperation {v : Json} {operation : Str} {E E' : List Error}
    (h : (getOperation v).run E = .ok (operation, E')) : isOperation operation = true := by
  unfold getOperation at h
  split at h
  · cases h
  · obtain ⟨text, E₁, -, h⟩ := run_bind_ok.mp h
    split at h
    · cases h
    · split at h
      · cases h
      · rename_i hop
        obtain ⟨rfl, -⟩ := Prod.mk.inj (Except.ok.inj h)
        simpa using hop

theorem operation_of_getChangeMember {m : Str × Json} {E E' : List Error} (hc : c.operation.cStr = c.operation)
    (h : (getChangeMember c m).run E = .ok (c', E')) : c'.operation.cStr = c'.operation := by
  unfold getChangeMember at h
  dsimp only at h
  split at h
  · obtain ⟨operation, E₁, hop, h⟩ := run_bind_ok.mp h
    obtain ⟨rfl, -⟩ := Prod.mk.inj (Except.ok.inj h)
    exact cStr_of_isOperation (isOperation_of_getOperation hop)
  · split at h
    · obtain ⟨path, E₁, -, h⟩ := run_bind_ok.mp h
      obtain ⟨rfl, -⟩ := Prod.mk.inj (Except.ok.inj h)
      exact hc
    · split at h
      · obtain ⟨a, E₁, -, h⟩ := run_bind_ok.mp h
        obtain ⟨rfl, -⟩ := Prod.mk.inj (Except.ok.inj h)
        exact hc
      · obtain ⟨rfl, -⟩ := Prod.mk.inj (Except.ok.inj h)
        exact hc

theorem readable_answered {o : Outcome} (h : getValidationData decode doc = .ok data)
    (herrors : data.response.errors = []) (hrun : applyValidationRules data = .ok o) :
    ∀ c' ∈ o.response.changes, c'.operation.cStr = c'.operation ∧ c'.Readable := by
  obtain ⟨json, -, hchanges, -, hempty⟩ := silent_of_getValidationData h herrors
  have hstart : Str.cStr (Change.operation {}) = Change.operation {} := rfl
  have hoperations := forall_of_getChangesToValidate hstart
    (fun c m c' E E' hc hturn => operation_of_getChangeMember hc hturn) hchanges
  have hpaths := (parsed_of_getValidationData h herrors).readable
  obtain ⟨⟨run, E⟩, hloop, hret⟩ := bind_eq_ok.mp hrun
  obtain rfl := Except.ok.inj hret
  obtain ⟨added, hadded, hsource⟩ := source_of_added hloop
  intro c' hmem
  rw [hadded, hempty, List.nil_append] at hmem
  obtain ⟨c, hc, ⟨-, hmut⟩ | ⟨rfl, -⟩⟩ := hsource c' hmem
  · obtain ⟨hop, hpath, -⟩ := computeMutations_frame hmut
    refine ⟨by rw [hop]; exact hoperations c hc, ?_⟩
    unfold Change.Readable
    rw [hpath]
    exact hpaths c hc
  · exact ⟨hoperations _ hc, hpaths _ hc⟩

end Texts

/-- **The changes of a response without errors are written in order, each creation with its companion, exactly when no
creation of the request is on a private identity path.** -/
theorem applyValidationRules_companions (decode : Str → Str) (doc : Option Json) (data : ValidationData) (o : Outcome)
    (h : getValidationData decode doc = .ok data) (hrun : applyValidationRules data = .ok o)
    (herrors : o.response.errors = []) :
    WrittenInOrder o.response.changes (validatorResponseToJson o.response).writtenChanges ↔
      ∀ c ∈ data.changes, c.operation = JSON_OPERATION_CREATE → ∀ x d, IsImsi d → c.resourcePath ≠ imsiPath x d := by
  obtain ⟨hparse, hconform⟩ := conforms_of_errors_nil hrun herrors
  have hpaths := (parsed_of_getValidationData h hparse).readable
  have hanswered := forall_answered_parsed_iff h hparse hrun
    (Q := fun c' => c'.operation = JSON_OPERATION_CREATE → CompanionRight c')
    (P := fun c => c.operation = JSON_OPERATION_CREATE → CompanionRight c) fun pre c c' _ hacc _ => by
      obtain ⟨hop, hpath, -⟩ := computeMutations_frame hacc.mutations
      rw [CompanionRight, CompanionRight, hop, hpath]
  rw [everyAccepted_iff hconform] at hanswered
  rw [writtenChanges_validatorResponseToJson herrors, writtenInOrder_flatMap_iff (readable_answered h hparse hrun)]
  constructor
  · intro hall c hc hop x d hd hpath
    have hread := hpaths c hc
    have hclass : pathClass c.resourcePath = .imsi :=
      pathClass_eq_imsi_iff.mpr ⟨x, d, hd, Or.inl (hread.trans hpath)⟩
    have hright := hanswered.mp (fun c' hc' _ => hall c' hc') c hc hclass (Or.inl hop) hop
    exact (companionRight_iff hread hclass).mp hright x d hd hpath
  · intro hnone c' hc' hop
    refine hanswered.mpr (fun c hc hclass _ hop => ?_) c' hc' (Or.inl hop) hop
    exact (companionRight_iff (hpaths c hc) hclass).mpr (hnone c hc hop)

def creationOfPrivateIdentity : Json := .obj [
  (JSON_CHANGES, .arr [.obj [
    (JSON_OPERATION, .str JSON_OPERATION_CREATE),
    (JSON_RESOURCE_PATH, .str (imsiPath "a" "12345"))]])]

theorem creationOfPrivateIdentity_answered :
    ∃ data o, getValidationData id (some creationOfPrivateIdentity) = .ok data ∧ data.response.errors = [] ∧
      applyValidationRules data = .ok o ∧ (o.response.errors.isEmpty &&
        (o.response.changes.map fun c' => (c'.operation, c'.resourcePath)) ==
          [(JSON_OPERATION_CREATE, imsiPath "a" "12345")]) = true := exists_answered _ _ (by decide)

theorem creationOfPrivateIdentity_companion :
    ¬ ∀ (decode : Str → Str) (doc : Option Json) (data : ValidationData) (o : Outcome),
      getValidationData decode doc = .ok data → applyValidationRules data = .ok o → o.response.errors = [] →
      WrittenInOrder o.response.changes (validatorResponseToJson o.response).writtenChanges := by
  intro h
  obtain ⟨data, o, hdata, hparse, hrun, ho⟩ := creationOfPrivateIdentity_answered
  simp only [Bool.and_eq_true, List.isEmpty_iff, beq_iff_eq] at ho
  obtain ⟨herrors, hchanges⟩ := ho
  obtain ⟨c', hmem, hc'⟩ := exists_mem_of_map_eq_singleton hchanges
  obtain ⟨hop, hpath⟩ := Prod.mk.inj hc'
  have hwritten := h id _ data o hdata hrun herrors
  have hreadable := readable_answered hdata hparse hrun
  rw [writtenChanges_validatorResponseToJson herrors, writtenInOrder_flatMap_iff hreadable] at hwritten
  have himsi : IsImsi "12345" := by decide
  have hclass : pathClass c'.resourcePath = .imsi :=
    pathClass_eq_imsi_iff.mpr ⟨"a", "12345", himsi, Or.inl ((hreadable c' hmem).2.trans hpath)⟩
  exact (companionRight_iff (hreadable c' hmem).2 hclass).mp (hwritten c' hmem hop) "a" "12345" himsi hpath

theorem applyValidationRules_companions_example :
    ∃ data o, getValidationData id (some creationOfPrivateIdentity) = .ok data ∧ applyValidationRules data = .ok o ∧
      o.response.errors = [] ∧
      (WrittenInOrder o.response.changes (validatorResponseToJson o.response).writtenChanges ↔
        ∀ c ∈ data.changes, c.operation = JSON_OPERATION_CREATE →
          ∀ x d, IsImsi d → c.resourcePath ≠ imsiPath x d) := by
  obtain ⟨data, o, hdata, -, hrun, ho⟩ := creationOfPrivateIdentity_answered
  simp only [Bool.and_eq_true, List.isEmpty_iff] at ho
  have herrors := ho.1
  exact ⟨data, o, hdata, hrun, herrors,
    applyValidationRules_companions id (some creationOfPrivateIdentity) data o hdata hrun herrors⟩

end AuthProvValidator
