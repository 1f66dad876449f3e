import AuthProvValidator.Ports.WellTyped
import AuthProvValidator.Properties.Batching

/-!
# Documents with several changes

* `Accepts decode ms l` : the document is read and validated without an error, and answered with the changes `l`;
* `withOnly v ms` : the document with only the change `v`;
* `accepts_iff_each` : a document with changes is accepted exactly when each of its changes is accepted in a document
  of its own with the same related resources, and its answer is the answers to these, in order.
-/

namespace AuthProvValidator
open Recorder Json

/-- The document is read without an error, and validated without an error; `l` are the changes of the response. -/
def Accepts (decode : Str → Str) (ms : List (Str × Json)) (l : List Change) : Prop :=
  ∃ data o, getValidationData decode (some (.obj ms)) = .ok data ∧ data.response.errors = [] ∧
    applyValidationRules data = .ok o ∧ o.response = ⟨l, []⟩

/-- The document with only the change `v`; members of one name are read up to the first. -/
def withOnly (v : Json) (ms : List (Str × Json)) : List (Str × Json) := (JSON_CHANGES, .arr [v]) :: ms

section Documents
variable {decode : Str → Str} {ms : List (Str × Json)} {vs : List Json} {v : Json} {cs l : List Change} {c : Change}
  {R : RelatedResources}

theorem accepts_iff : Accepts decode ms l ↔ ∃ cs R, Silent (getChangesToValidate (obj ms)) cs ∧
    Silent (getRelatedResources decode (obj ms)) R ∧ Answers R cs l := by
  constructor
  · rintro ⟨⟨cs, R, response⟩, o, hdata, herrors, ho, hresponse⟩
    obtain ⟨json, hjson, hchanges, hresources, hempty⟩ := silent_of_getValidationData hdata herrors
    obtain rfl := Option.some.inj hjson
    obtain rfl : response = {} := hempty
    exact ⟨cs, R, hchanges, hresources, o, ho, hresponse⟩
  · rintro ⟨cs, R, hchanges, hresources, o, ho, hresponse⟩
    refine ⟨{ changes := cs, relatedResources := R }, o, ?_, rfl, ho, hresponse⟩
    exact bind_eq_ok.mpr ⟨(cs, []), hchanges, bind_eq_ok.mpr ⟨(R, []), hresources, rfl⟩⟩

theorem silent_getChangesToValidate_iff (hfind : find ms JSON_CHANGES = some (.arr vs)) :
    Silent (getChangesToValidate (obj ms)) cs ↔ List.Forall₂ (fun v c => Silent (getChange v) c) vs cs := by
  have hread : getChangesToValidate (obj ms) = vs.mapM getChange := by
    rw [getChangesToValidate, hasMember_obj, hfind, index_obj hfind]
    rfl
  rw [hread, silent_mapM_iff oblivious_getChange]

theorem forall₂_comp_iff {α β γ : Type} {P : α → β → Prop} {Q : β → γ → Prop} {as : List α} {gs : List γ} :
    List.Forall₂ (fun a g => ∃ b, P a b ∧ Q b g) as gs ↔ ∃ bs, List.Forall₂ P as bs ∧ List.Forall₂ Q bs gs := by
  constructor
  · intro h
    induction h with
    | nil => exact ⟨[], List.Forall₂.nil, List.Forall₂.nil⟩
    | cons hab _ ih =>
      obtain ⟨b, hb, hg⟩ := hab
      obtain ⟨bs, hbs, hgs⟩ := ih
      exact ⟨b :: bs, List.Forall₂.cons hb hbs, List.Forall₂.cons hg hgs⟩
  · rintro ⟨bs, hbs, hgs⟩
    induction hbs generalizing gs with
    | nil =>
      cases hgs
      exact List.Forall₂.nil
    | cons hb _ ih =>
      cases hgs with
      | cons hg hgs => exact List.Forall₂.cons ⟨_, hb, hg⟩ (ih hgs)

/-- A document with changes is accepted when its related resources are read without an error, and so is each change,
which is then accepted. -/
theorem accepts_iff_forall₂ (hfind : find ms JSON_CHANGES = some (.arr vs)) :
    Accepts decode ms l ↔ ∃ R, Silent (getRelatedResources decode (obj ms)) R ∧
      ∃ ls, List.Forall₂ (fun v m => ∃ c, Silent (getChange v) c ∧ AnswerTo R c m) vs ls ∧ l = ls.flatten := by
  rw [accepts_iff]
  simp only [silent_getChangesToValidate_iff hfind, answers_iff_forall₂, forall₂_comp_iff]
  constructor
  · rintro ⟨cs, R, hcs, hR, ls, hls, rfl⟩
    exact ⟨R, hR, ls, ⟨cs, hcs, hls⟩, rfl⟩
  · rintro ⟨R, hR, ls, ⟨cs, hcs, hls⟩, rfl⟩
    exact ⟨cs, R, hcs, hR, ls, hls, rfl⟩

/-- The related resources of a document do not depend on its changes. -/
theorem getRelatedResources_withOnly :
    getRelatedResources decode (obj (withOnly v ms)) = getRelatedResources decode (obj ms) := by
  have hne : JSON_RELATED_RESOURCES ≠ JSON_CHANGES := by decide
  have hfind : find (withOnly v ms) JSON_RELATED_RESOURCES = find ms JSON_RELATED_RESOURCES := by
    rw [withOnly, find_cons, if_neg hne]
  unfold getRelatedResources
  rw [access_member, access_member, hfind]

theorem accepts_withOnly_iff : Accepts decode (withOnly v ms) l ↔
    ∃ R, Silent (getRelatedResources decode (obj ms)) R ∧ ∃ c, Silent (getChange v) c ∧ AnswerTo R c l := by
  have hfind : find (withOnly v ms) JSON_CHANGES = some (.arr [v]) := by
    rw [withOnly, find_cons, if_pos rfl]
  rw [accepts_iff_forall₂ hfind, getRelatedResources_withOnly]
  apply exists_congr
  intro R
  apply and_congr_right
  intro _
  constructor
  · rintro ⟨ls, hls, rfl⟩
    obtain ⟨m, rest, hm, hrest, rfl⟩ := List.forall₂_cons_left_iff.mp hls
    obtain rfl := List.forall₂_nil_left_iff.mp hrest
    rwa [List.flatten_cons, List.flatten_nil, List.append_nil]
  · intro h
    refine ⟨[l], List.Forall₂.cons h List.Forall₂.nil, ?_⟩
    rw [List.flatten_cons, List.flatten_nil, List.append_nil]

end Documents

/-- A document that has changes is accepted exactly when each of them is accepted in a document of its own, with the
same related resources, and its answer then is the answers to these, in order. -/
theorem accepts_iff_each (decode : Str → Str) (ms : List (Str × Json)) (vs : List Json) (l : List Change)
    (hfind : find ms JSON_CHANGES = some (.arr vs)) (hne : vs ≠ []) :
    Accepts decode ms l ↔
      ∃ ls, List.Forall₂ (fun v m => Accepts decode (withOnly v ms) m) vs ls ∧ l = ls.flatten := by
  rw [accepts_iff_forall₂ hfind]
  constructor
  · rintro ⟨R, hR, ls, hls, rfl⟩
    refine ⟨ls, hls.imp fun v m h => ?_, rfl⟩
    exact accepts_withOnly_iff.mpr ⟨R, hR, h⟩
  · rintro ⟨ls, hls, rfl⟩
    -- the first change shows that the related resources are read without an error
    obtain ⟨v, vs, rfl⟩ := List.exists_cons_of_ne_nil hne
    obtain ⟨m, rest, hm, -, -⟩ := List.forall₂_cons_left_iff.mp hls
    obtain ⟨R, hR, -⟩ := accepts_withOnly_iff.mp hm
    refine ⟨R, hR, ls, hls.imp fun v m h => ?_, rfl⟩
    obtain ⟨R', hR', h⟩ := accepts_withOnly_iff.mp h
    obtain ⟨rfl, -⟩ := Prod.mk.inj (Except.ok.inj (hR.symm.trans hR'))
    exact h

def deletionOf (p : Str) : Json := .obj [(JSON_OPERATION, .str JSON_OPERATION_DELETE), (JSON_RESOURCE_PATH, .str p)]

theorem accepts_iff_each_deletions :
    Accepts id [(JSON_CHANGES, .arr [deletionOf "/a", deletionOf "/b"])]
        [{ operation := JSON_OPERATION_DELETE, resourcePath := "/a" },
          { operation := JSON_OPERATION_DELETE, resourcePath := "/b" }] ↔
      ∃ ls, List.Forall₂
        (fun v m => Accepts id (withOnly v [(JSON_CHANGES, .arr [deletionOf "/a", deletionOf "/b"])]) m)
        [deletionOf "/a", deletionOf "/b"] ls ∧
      [{ operation := JSON_OPERATION_DELETE, resourcePath := "/a" },
        { operation := JSON_OPERATION_DELETE, resourcePath := "/b" }] = ls.flatten :=
  accepts_iff_each id _ _ _ rfl (List.cons_ne_nil _ _)

end AuthProvValidator
