import AuthProvValidator.Base.Stops
import AuthProvValidator.Entities.Apply
import AuthProvValidator.Ports.Parser

/-!
# What a parsed request is like

The functions of the parser never look at the errors so far (`oblivious_*`), so what they give can be said of each of
them alone.

* `StoredAs p r` : `r` is what the parser stores under a path of the shape of `p`;
* `parsed_of_getValidationData` : a request read without an error has every related resource stored under a path of its
  type and every subscription with its static data (`Stored`), and its paths have no NUL (`Change.Readable`).
-/

namespace AuthProvValidator
open Recorder Json

section Oblivious
variable {p : Str} {json : Json} {a : AuthSubscription} {c : Change} {R : RelatedResources} {decode : Str → Str}

theorem oblivious_access {α : Type} (x : Except Assertion α) : Oblivious (access x) := oblivious_lift _

theorem run_access {α : Type} {x : Except Assertion α} {a : α} {E E' : List Error} :
    (access x).run E = .ok (a, E') ↔ x = .ok a ∧ E' = E := by
  cases x with
  | error e => exact iff_of_false nofun nofun
  | ok b =>
    simp only [access, Except.mapError, run_lift_ok, Except.ok.injEq, Prod.mk.injEq]
    exact and_congr_right fun _ => eq_comm

theorem oblivious_readString {name : Str} : Oblivious (readString json name p) := by
  refine (oblivious_access _).bind fun b => Oblivious.ite ?_ (oblivious_pure _)
  exact (oblivious_access _).bind fun value =>
    ((oblivious_access _).bind fun _ => oblivious_pure _).ite ((oblivious_record _).bind fun _ => oblivious_pure _)

theorem oblivious_readAuthenticationMethod : Oblivious (readAuthenticationMethod json p) :=
  (oblivious_access _).bind fun _ => (oblivious_readString.bind fun _ => oblivious_pure _).ite
    ((oblivious_record _).bind fun _ => oblivious_pure _)

theorem oblivious_getAuthSubscriptionStaticData : Oblivious (getAuthSubscriptionStaticData json p) :=
  (oblivious_access _).bind fun _ => oblivious_readAuthenticationMethod.bind fun _ => oblivious_readString.bind fun _ =>
    oblivious_readString.bind fun _ => oblivious_readString.bind fun _ => oblivious_readString.bind fun _ =>
    oblivious_readString.bind fun _ => oblivious_readString.bind fun _ => oblivious_readString.bind fun _ =>
    oblivious_readString.bind fun _ => oblivious_readString.bind fun _ => oblivious_pure _

theorem oblivious_getLastIndexesList {ms : List (Str × Json)} (l : LastIndexesList) :
    Oblivious (getLastIndexesList p ms l) := by
  induction ms generalizing l with
  | nil => exact oblivious_pure l
  | cons v vs ih =>
    unfold getLastIndexesList
    exact ((oblivious_access _).bind fun _ => ih _).ite ((oblivious_record _).bind fun _ => ih l)

theorem oblivious_readLastIndexes : Oblivious (readLastIndexes json p) := by
  refine (oblivious_access _).bind fun b => Oblivious.ite ?_ (oblivious_pure _)
  refine (oblivious_access _).bind fun value => Oblivious.ite ?_ ((oblivious_record _).bind fun _ => oblivious_pure _)
  exact (oblivious_access _).bind fun _ => (oblivious_getLastIndexesList _).bind fun _ => oblivious_pure _

theorem oblivious_getAuthSubscriptionDynamicData : Oblivious (getAuthSubscriptionDynamicData json p) :=
  oblivious_readString.bind fun _ => oblivious_readString.bind fun _ => oblivious_readLastIndexes.bind fun _ =>
    oblivious_pure _

theorem oblivious_readDynamicData : Oblivious (readDynamicData json a p) := by
  refine (oblivious_access _).bind fun b => Oblivious.ite ?_ (oblivious_pure _)
  exact (oblivious_access _).bind fun value => Oblivious.ite
    (oblivious_getAuthSubscriptionDynamicData.bind fun _ => oblivious_pure _)
    ((oblivious_record _).bind fun _ => oblivious_pure _)

theorem oblivious_getAuthSubscription : Oblivious (getAuthSubscription json a p) := by
  refine (oblivious_access _).bind fun b => Oblivious.ite ?_ ((oblivious_record _).bind fun _ => oblivious_pure _)
  exact (oblivious_access _).bind fun value => Oblivious.ite
    (oblivious_getAuthSubscriptionStaticData.bind fun _ => oblivious_readDynamicData)
    ((oblivious_record _).bind fun _ => oblivious_pure _)

theorem oblivious_getOperation : Oblivious (getOperation json) :=
  (oblivious_fail _).ite ((oblivious_access _).bind fun _ => (oblivious_fail _).ite
    ((oblivious_fail _).ite (oblivious_pure _)))

theorem oblivious_getResourcePath : Oblivious (getResourcePath json) :=
  (oblivious_fail _).ite ((oblivious_access _).bind fun _ => (oblivious_fail _).ite (oblivious_pure _))

theorem oblivious_getData : Oblivious (getData json c) :=
  (oblivious_fail _).ite (oblivious_getAuthSubscription.ite
    ((oblivious_getAuthSubscriptionStaticData.bind fun _ => oblivious_pure _).ite (oblivious_pure _)))

theorem oblivious_getChangeMember (c : Change) (m : Str × Json) : Oblivious (getChangeMember c m) :=
  (oblivious_getOperation.bind fun _ => oblivious_pure _).ite
    ((oblivious_getResourcePath.bind fun _ => oblivious_pure _).ite
      ((oblivious_getData.bind fun _ => oblivious_pure _).ite (oblivious_pure _)))

theorem oblivious_getChange (json : Json) : Oblivious (getChange json) :=
  (oblivious_fail _).ite ((oblivious_access _).bind fun _ => oblivious_foldlM oblivious_getChangeMember _)

theorem oblivious_getChangesToValidate : Oblivious (getChangesToValidate json) := by
  refine (oblivious_access _).bind fun b => Oblivious.ite ?_ (oblivious_pure _)
  exact (oblivious_access _).bind fun _ => (oblivious_fail _).ite
    ((oblivious_access _).bind fun _ => oblivious_mapM oblivious_getChange)

theorem oblivious_getChildSubscriptions {ms : List (Str × Json)} (R : RelatedResources) :
    Oblivious (getChildSubscriptions p R ms) := by
  induction ms generalizing R with
  | nil => exact oblivious_pure R
  | cons m ms ih => exact oblivious_getAuthSubscription.bind fun _ => ih _

theorem oblivious_getSubscriptions : Oblivious (getSubscriptions p json R) :=
  (oblivious_access _).bind fun _ => (oblivious_getAuthSubscription.bind fun _ => oblivious_pure _).ite
    ((oblivious_access _).bind fun _ => oblivious_getChildSubscriptions R)

theorem oblivious_getRelatedResource (R : RelatedResources) (m : Str × Json) :
    Oblivious (getRelatedResource decode R m) :=
  oblivious_getSubscriptions.ite (((oblivious_access _).bind fun _ => oblivious_pure _).ite
    (((oblivious_access _).bind fun _ => oblivious_pure _).ite (oblivious_pure _)))

theorem oblivious_getRelatedResources : Oblivious (getRelatedResources decode json) :=
  (oblivious_access _).bind fun _ => Oblivious.ite
    ((oblivious_access _).bind fun _ => (oblivious_access _).bind fun _ =>
      oblivious_foldlM oblivious_getRelatedResource _)
    (oblivious_pure _)

end Oblivious

/-! ## What is stored -/

/-- What the parser stores under a path: a subscription with static data under a path of an `authSubscription`
resource or of a child of one, a journal, or a legacy subscription. -/
def StoredAs (p : Str) : Resource → Prop
  | .authSubscription a => a.authSubscriptionStaticData.isSome = true ∧
      ∃ x, p = authSubscriptionPath x ∨ ∃ child, p = addSuffixToPath (authSubscriptionPath x) child
  | .provJournal _ => Str.endsWith p JSON_PROV_JOURNAL = true
  | .authSubscriptionLegacy _ => ∃ y, p = LEGACY ++ y

/-- Everything is stored under a path of its type. -/
def Stored (R : RelatedResources) : Prop := ∀ p r, R[p]? = some r → StoredAs p r

section Stored
variable {p : Str} {json : Json} {a a' : AuthSubscription} {R R' : RelatedResources} {decode : Str → Str}

theorem Stored.insertIfNew (hR : Stored R) {r : Resource} (hr : StoredAs p r) : Stored (R.insertIfNew p r) := by
  intro q s hs
  rw [Std.ExtTreeMap.getElem?_insertIfNew] at hs
  split at hs
  · rename_i hnew
    obtain rfl := Option.some.inj hs
    obtain rfl := Std.LawfulEqCmp.eq_of_compare hnew.1
    exact hr
  · exact hR q s hs

theorem static_of_readDynamicData {E E' : List Error} (h : (readDynamicData json a p).run E = .ok (a', E')) :
    a'.authSubscriptionStaticData = a.authSubscriptionStaticData := by
  obtain ⟨b, E₁, -, h⟩ := run_bind_ok.mp h
  split at h
  · obtain ⟨dynamicJson, E₂, -, h⟩ := run_bind_ok.mp h
    split at h
    · obtain ⟨dynamicData, E₃, -, h⟩ := run_bind_ok.mp h
      obtain ⟨rfl, -⟩ := Prod.mk.inj (Except.ok.inj h)
      rfl
    · obtain ⟨-, E₃, -, h⟩ := run_bind_ok.mp h
      obtain ⟨rfl, -⟩ := Prod.mk.inj (Except.ok.inj h)
      rfl
  · obtain ⟨rfl, -⟩ := Prod.mk.inj (Except.ok.inj h)
    rfl

theorem static_of_silent (h : Silent (getAuthSubscription json a p) a') :
    a'.authSubscriptionStaticData.isSome = true := by
  obtain ⟨b, E₁, hb, h⟩ := run_bind_ok.mp h
  obtain ⟨-, rfl⟩ := run_access.mp hb
  split at h
  · obtain ⟨staticJson, E₂, hs, h⟩ := run_bind_ok.mp h
    obtain ⟨-, rfl⟩ := run_access.mp hs
    split at h
    · obtain ⟨staticData, E₃, -, h⟩ := run_bind_ok.mp h
      rw [static_of_readDynamicData h]
      rfl
    · exact absurd h (not_silent_record_bind (oblivious_pure _))
  · exact absurd h (not_silent_record_bind (oblivious_pure _))

theorem stored_of_getChildSubscriptions {x : Str} {ms : List (Str × Json)} (hR : Stored R)
    (h : Silent (getChildSubscriptions (authSubscriptionPath x) R ms) R') : Stored R' := by
  induction ms generalizing R with
  | nil => exact silent_pure.mp h ▸ hR
  | cons m ms ih =>
    obtain ⟨a, ha, hrest⟩ := (silent_bind fun a => oblivious_getChildSubscriptions _).mp h
    refine ih (hR.insertIfNew ?_) hrest
    exact ⟨static_of_silent ha, x, Or.inr ⟨_, rfl⟩⟩

theorem stored_of_getSubscriptions {x : Str} (hR : Stored R)
    (h : Silent (getSubscriptions (authSubscriptionPath x) json R) R') : Stored R' := by
  obtain ⟨b, E₁, hb, h⟩ := run_bind_ok.mp h
  obtain ⟨-, rfl⟩ := run_access.mp hb
  split at h
  · obtain ⟨a, ha, hrest⟩ := (silent_bind fun a => oblivious_pure _).mp h
    obtain rfl := silent_pure.mp hrest
    apply hR.insertIfNew
    exact ⟨static_of_silent ha, x, Or.inl rfl⟩
  · obtain ⟨ms, E₂, hms, h⟩ := run_bind_ok.mp h
    obtain ⟨-, rfl⟩ := run_access.mp hms
    exact stored_of_getChildSubscriptions hR h

theorem stored_of_getRelatedResource {m : Str × Json} (hR : Stored R)
    (h : Silent (getRelatedResource decode R m) R') : Stored R' := by
  unfold getRelatedResource at h
  dsimp only at h
  split at h
  · rename_i huri
    obtain ⟨x, hx⟩ := checkAuthSubscriptionUri_iff.mp huri
    rw [Str.cStr_cStr] at hx
    rw [hx] at h
    exact stored_of_getSubscriptions hR h
  · split at h
    · rename_i hjournal
      obtain ⟨j, -, hrest⟩ := (silent_bind fun j => oblivious_pure _).mp h
      obtain rfl := silent_pure.mp hrest
      exact hR.insertIfNew hjournal
    · split at h
      · rename_i hlegacy
        obtain ⟨y, -, hy⟩ := checkAuthSubscriptionLegacyUri_iff.mp hlegacy
        rw [Str.cStr_cStr] at hy
        obtain ⟨l, -, hrest⟩ := (silent_bind fun l => oblivious_pure _).mp h
        obtain rfl := silent_pure.mp hrest
        apply hR.insertIfNew
        exact ⟨y, hy⟩
      · exact silent_pure.mp h ▸ hR

theorem stored_of_getRelatedResources (h : Silent (getRelatedResources decode json) R) : Stored R := by
  have hempty : Stored ∅ := fun p r hr => absurd hr (by simp)
  obtain ⟨b, E₁, hb, h⟩ := run_bind_ok.mp h
  obtain ⟨-, rfl⟩ := run_access.mp hb
  split at h
  · obtain ⟨list, E₂, hlist, h⟩ := run_bind_ok.mp h
    obtain ⟨-, rfl⟩ := run_access.mp hlist
    obtain ⟨ms, E₃, hms, h⟩ := run_bind_ok.mp h
    obtain ⟨-, rfl⟩ := run_access.mp hms
    exact silent_foldlM oblivious_getRelatedResource (fun m _ R R' hR hturn => stored_of_getRelatedResource hR hturn)
      hempty h
  · exact silent_pure.mp h ▸ hempty

end Stored

/-! ## A request without an error -/

/-- The path of the change is a text without a NUL. -/
def Change.Readable (c : Change) : Prop := c.resourcePath.cStr = c.resourcePath

/-- What is known of a request that is read without an error. -/
structure Parsed (data : ValidationData) : Prop where
  empty : data.response = {}
  stored : Stored data.relatedResources
  readable : ∀ c ∈ data.changes, c.Readable

section Parsed
variable {c c' : Change} {json : Json} {changes : List Change} {decode : Str → Str} {data : ValidationData}

theorem readable_of_getChangeMember {m : Str × Json} {E E' : List Error} (hc : c.Readable)
    (h : (getChangeMember c m).run E = .ok (c', E')) : c'.Readable := by
  unfold getChangeMember at h
  dsimp only at h
  split at h
  · obtain ⟨operation, E₁, -, hret⟩ := run_bind_ok.mp h
    obtain ⟨rfl, -⟩ := Prod.mk.inj (Except.ok.inj hret)
    exact hc
  · split at h
    · obtain ⟨path, E₁, hpath, hret⟩ := run_bind_ok.mp h
      obtain ⟨rfl, -⟩ := Prod.mk.inj (Except.ok.inj hret)
      unfold getResourcePath at hpath
      split at hpath
      · cases hpath
      · obtain ⟨text, E₂, htext, hrest⟩ := run_bind_ok.mp hpath
        obtain ⟨hget, -⟩ := run_access.mp htext
        split at hrest
        · cases hrest
        · obtain ⟨rfl, -⟩ := Prod.mk.inj (Except.ok.inj hrest)
          unfold getString at hget
          split at hget
          · obtain rfl := Except.ok.inj hget
            exact Str.cStr_cStr _
          · cases hget
    · split at h
      · obtain ⟨a, E₁, -, hret⟩ := run_bind_ok.mp h
        obtain ⟨rfl, -⟩ := Prod.mk.inj (Except.ok.inj hret)
        exact hc
      · obtain ⟨rfl, -⟩ := Prod.mk.inj (Except.ok.inj h)
        exact hc

/-- What holds of an empty change and is kept by every member that is read holds of the changes of a document. -/
theorem forall_of_getChangesToValidate {P : Change → Prop} (hstart : P {})
    (hmember : ∀ c m c' E E', P c → (getChangeMember c m).run E = .ok (c', E') → P c')
    (h : Silent (getChangesToValidate json) changes) : ∀ c ∈ changes, P c := by
  have hchange : ∀ v c, Silent (getChange v) c → P c := by
    intro v c hv
    unfold getChange at hv
    split at hv
    · cases hv
    · obtain ⟨ms, E₁, hms, hv⟩ := run_bind_ok.mp hv
      obtain ⟨-, rfl⟩ := run_access.mp hms
      exact silent_foldlM oblivious_getChangeMember (fun m _ c c' hc hturn => hmember c m c' _ _ hc hturn) hstart hv
  obtain ⟨b, E₁, hb, h⟩ := run_bind_ok.mp h
  obtain ⟨-, rfl⟩ := run_access.mp hb
  split at h
  · obtain ⟨list, E₂, hlist, h⟩ := run_bind_ok.mp h
    obtain ⟨-, rfl⟩ := run_access.mp hlist
    split at h
    · cases h
    · obtain ⟨vs, E₃, hvs, h⟩ := run_bind_ok.mp h
      obtain ⟨-, rfl⟩ := run_access.mp hvs
      intro c hc
      obtain ⟨v, -, hv⟩ := mem_of_silent_mapM oblivious_getChange h c hc
      exact hchange v c hv
  · obtain rfl := silent_pure.mp h
    exact fun c hc => absurd hc List.not_mem_nil

theorem getValidationData_eq_ok (h : getValidationData decode (some json) = .ok data) :
    ∃ es fs, (getChangesToValidate json).run [] = .ok (data.changes, es) ∧
      (getRelatedResources decode json).run [] = .ok (data.relatedResources, fs) ∧
      data.response = { errors := es ++ fs } := by
  obtain ⟨⟨changes, es⟩, hchanges, h⟩ := bind_eq_ok.mp h
  obtain ⟨⟨R, E⟩, hR, h⟩ := bind_eq_ok.mp h
  obtain rfl := Except.ok.inj h
  obtain ⟨fs, hfs, rfl⟩ := oblivious_getRelatedResources.run_ok.mp hR
  exact ⟨es, fs, hchanges, hfs, rfl⟩

theorem silent_of_getValidationData {doc : Option Json} (h : getValidationData decode doc = .ok data)
    (herrors : data.response.errors = []) :
    ∃ json, doc = some json ∧ Silent (getChangesToValidate json) data.changes ∧
      Silent (getRelatedResources decode json) data.relatedResources ∧ data.response = {} := by
  cases doc with
  | none => cases h
  | some json =>
    obtain ⟨es, fs, hchanges, hR, hresponse⟩ := getValidationData_eq_ok h
    rw [hresponse] at herrors
    obtain ⟨rfl, rfl⟩ := List.append_eq_nil_iff.mp herrors
    exact ⟨json, rfl, hchanges, hR, hresponse⟩

/-- **What is known of a request that is read without an error.** -/
theorem parsed_of_getValidationData {doc : Option Json} (h : getValidationData decode doc = .ok data)
    (herrors : data.response.errors = []) : Parsed data := by
  obtain ⟨json, -, hchanges, hR, hresponse⟩ := silent_of_getValidationData h herrors
  have hstart : Change.Readable {} := rfl
  exact ⟨hresponse, stored_of_getRelatedResources hR,
    forall_of_getChangesToValidate hstart (fun c m c' E E' hc => readable_of_getChangeMember hc) hchanges⟩

end Parsed

theorem exists_answered {α : Type} (doc : Json) (f : ValidationData → Outcome → α) {a : α}
    (h : ((getValidationData id (some doc)).toOption.bind fun data =>
      (applyValidationRules data).toOption.map fun o => (data.response.errors.length, f data o)) = some (0, a)) :
    ∃ data o, getValidationData id (some doc) = .ok data ∧ data.response.errors = [] ∧
      applyValidationRules data = .ok o ∧ f data o = a := by
  cases hdata : getValidationData id (some doc) with
  | error e =>
    rw [hdata] at h
    cases h
  | ok data =>
    rw [hdata] at h
    obtain ⟨o, hrun, ho⟩ := exists_of_toOption _ h
    obtain ⟨herrors, ho⟩ := Prod.mk.inj ho
    exact ⟨data, o, rfl, List.length_eq_zero_iff.mp herrors, hrun, ho⟩

end AuthProvValidator
