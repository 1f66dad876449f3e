import AuthProvValidator.Base.Entries
import AuthProvValidator.Ports.WellTyped

/-!
# What is stored of the related resources

The members of `relatedResources` are read one after the other into a map that keeps what it has. One member stores one
resource, one for each child of a subscriber, or none.

* `storedKeys m` : the keys under which a member stores something;
* `memberEntries`, `getRelatedResources_entries` : the map is filled from what the members give alone;
* `getRelatedResources_first` : a key holds what the first member that stores something under it stores;
* `getRelatedResources_permuted` : so the order of members with distinct keys does not matter.
-/

namespace AuthProvValidator
open Recorder Json Entries

def storedKeys (m : Str × Json) : List Str :=
  let resourcePath := m.1.cStr
  if checkAuthSubscriptionUri resourcePath then
    match m.2 with
    | .obj ms =>
        if (find ms JSON_AUTH_SUBSCRIPTION_STATIC_DATA).isSome then [resourcePath]
        else ms.map fun child => addSuffixToPath resourcePath child.1.cStr
    | _ => []
  else if Str.endsWith resourcePath JSON_PROV_JOURNAL || checkAuthSubscriptionLegacyUri resourcePath then [resourcePath]
  else []

def childEntry (resourcePath : Str) (m : Str × Json) : Parse (Str × Resource) := do
  let fullResourcePath := addSuffixToPath resourcePath m.1.cStr
  let authSubscription ← getAuthSubscription m.2 {} fullResourcePath
  return (fullResourcePath, .authSubscription authSubscription)

def subscriptionEntries (resourcePath : Str) (ids : Json) : Parse (List (Str × Resource)) := do
  if ← access (ids.hasMember JSON_AUTH_SUBSCRIPTION_STATIC_DATA) then
    let authSubscription ← getAuthSubscription ids {} resourcePath
    return [(resourcePath, .authSubscription authSubscription)]
  else
    let ms ← access ids.members
    ms.mapM (childEntry resourcePath)

section Entries
variable (decodeFromBase64 : Str → Str)

def memberEntries (member : Str × Json) : Parse (List (Str × Resource)) := do
  let resourcePath := member.1.cStr
  if checkAuthSubscriptionUri resourcePath then subscriptionEntries resourcePath member.2
  else if Str.endsWith resourcePath JSON_PROV_JOURNAL then
    let provJournal ← access (getProvJournal decodeFromBase64 member.2)
    return [(resourcePath, .provJournal provJournal)]
  else if checkAuthSubscriptionLegacyUri resourcePath then
    let authSubscriptionLegacy ← access (getAuthSubscriptionLegacy decodeFromBase64 member.2)
    return [(resourcePath, .authSubscriptionLegacy authSubscriptionLegacy)]
  else return []

end Entries

section Members
variable {decode : Str → Str} {p : Str} {v : Json} {R : RelatedResources} {m : Str × Json} {ms rs : List (Str × Json)}
  {es : List (Str × Resource)} {E E' : List Error} {e : Str × Resource}

theorem getChildSubscriptions_entries :
    getChildSubscriptions p R ms = ms.mapM (childEntry p) >>= fun es => pure (fill R es) := by
  induction ms generalizing R with
  | nil => rfl
  | cons m ms ih =>
    rw [getChildSubscriptions, List.mapM_cons]
    simp only [childEntry, bind_assoc, pure_bind, ih]
    rfl

theorem getSubscriptions_entries :
    getSubscriptions p v R = subscriptionEntries p v >>= fun es => pure (fill R es) := by
  rw [getSubscriptions, subscriptionEntries, bind_assoc]
  congr 1
  funext b
  cases b with
  | true =>
    simp only [if_true, bind_assoc, pure_bind]
    rfl
  | false =>
    simp only [Bool.false_eq_true, if_false, bind_assoc, getChildSubscriptions_entries]

theorem getRelatedResource_entries :
    getRelatedResource decode R m = memberEntries decode m >>= fun es => pure (fill R es) := by
  unfold getRelatedResource memberEntries
  dsimp only
  split_ifs
  · exact getSubscriptions_entries
  · rw [bind_assoc]
    rfl
  · rw [bind_assoc]
    rfl
  · rfl

theorem foldlM_entries :
    rs.foldlM (getRelatedResource decode) R =
      rs.mapM (memberEntries decode) >>= fun ess => pure (fill R ess.flatten) := by
  induction rs generalizing R with
  | nil => rfl
  | cons m rs ih =>
    rw [List.foldlM_cons, List.mapM_cons, getRelatedResource_entries]
    simp only [bind_assoc, pure_bind, ih, List.flatten_cons, fill_append]

/-- The related resources are filled from the entries of their members. -/
theorem getRelatedResources_entries {top : List (Str × Json)} (h : find top JSON_RELATED_RESOURCES = some (.obj rs)) :
    getRelatedResources decode (obj top) = rs.mapM (memberEntries decode) >>= fun ess => pure (fill ∅ ess.flatten) := by
  rw [getRelatedResources, hasMember_obj, h, index_obj h, ← foldlM_entries]
  rfl

theorem oblivious_childEntry (m : Str × Json) : Oblivious (childEntry p m) :=
  oblivious_getAuthSubscription.bind fun _ => oblivious_pure _

theorem oblivious_memberEntries (m : Str × Json) : Oblivious (memberEntries decode m) := by
  unfold memberEntries subscriptionEntries
  refine Oblivious.ite ?_ (Oblivious.ite ?_ (Oblivious.ite ?_ ?_))
  · refine (oblivious_access _).bind fun b => Oblivious.ite ?_ ?_
    · exact oblivious_getAuthSubscription.bind fun _ => oblivious_pure _
    · exact (oblivious_access _).bind fun _ => oblivious_mapM oblivious_childEntry
  · exact (oblivious_access _).bind fun _ => oblivious_pure _
  · exact (oblivious_access _).bind fun _ => oblivious_pure _
  · exact oblivious_pure _

theorem keys_of_mapM_childEntry (h : (ms.mapM (childEntry p)).run E = .ok (es, E')) :
    es.map Prod.fst = ms.map fun child => addSuffixToPath p child.1.cStr := by
  induction ms generalizing E E' es with
  | nil =>
    obtain ⟨rfl, -⟩ := Prod.mk.inj (Except.ok.inj h)
    rfl
  | cons m ms ih =>
    rw [List.mapM_cons] at h
    obtain ⟨e, E₁, he, h⟩ := run_bind_ok.mp h
    obtain ⟨es', E₂, hes, h⟩ := run_bind_ok.mp h
    obtain ⟨rfl, -⟩ := Prod.mk.inj (Except.ok.inj h)
    obtain ⟨a, E₃, -, hret⟩ := run_bind_ok.mp he
    obtain ⟨rfl, -⟩ := Prod.mk.inj (Except.ok.inj hret)
    rw [List.map_cons, List.map_cons, ih hes]

theorem keys_of_memberEntries (h : (memberEntries decode m).run E = .ok (es, E')) :
    es.map Prod.fst = storedKeys m := by
  unfold memberEntries at h
  unfold storedKeys
  dsimp only at h ⊢
  split_ifs at h with hauth hjournal hlegacy
  · rw [if_pos hauth]
    obtain ⟨b, E₁, hmember, hrest⟩ := run_bind_ok.mp h
    obtain ⟨hb, -⟩ := run_access.mp hmember
    cases hv : m.2 with
    | obj ms =>
      rw [hv] at hrest hb
      obtain rfl := Except.ok.inj hb
      dsimp only
      split at hrest
      · next hstatic =>
        rw [if_pos hstatic]
        obtain ⟨a, E₂, -, hret⟩ := run_bind_ok.mp hrest
        obtain ⟨rfl, -⟩ := Prod.mk.inj (Except.ok.inj hret)
        rfl
      · next hstatic =>
        rw [if_neg hstatic]
        obtain ⟨ms', E₂, hmembers, hchildren⟩ := run_bind_ok.mp hrest
        obtain ⟨hms, -⟩ := run_access.mp hmembers
        obtain rfl := Except.ok.inj hms
        exact keys_of_mapM_childEntry hchildren
    | null | bool | int | double | str | arr =>
      rw [hv] at hb
      cases hb
  · rw [if_neg hauth, hjournal, Bool.true_or, if_pos rfl]
    obtain ⟨j, E₁, -, hret⟩ := run_bind_ok.mp h
    obtain ⟨rfl, -⟩ := Prod.mk.inj (Except.ok.inj hret)
    rfl
  · rw [if_neg hauth, hlegacy, Bool.or_true, if_pos rfl]
    obtain ⟨l, E₁, -, hret⟩ := run_bind_ok.mp h
    obtain ⟨rfl, -⟩ := Prod.mk.inj (Except.ok.inj hret)
    rfl
  · rw [if_neg hauth, if_neg (by simp [hjournal, hlegacy])]
    obtain ⟨rfl, -⟩ := Prod.mk.inj (Except.ok.inj h)
    rfl

end Members

/-! ## What is found under a key -/

section Resources
variable {decode : Str → Str} {top rs rs' : List (Str × Json)} {R : RelatedResources} {E : List Error}

theorem run_getRelatedResources_iff (hfind : find top JSON_RELATED_RESOURCES = some (.obj rs)) :
    (getRelatedResources decode (obj top)).run [] = .ok (R, E) ↔
      ∃ ess, (rs.mapM (memberEntries decode)).run [] = .ok (ess, E) ∧ R = fill ∅ ess.flatten := by
  rw [getRelatedResources_entries hfind]
  constructor
  · intro h
    obtain ⟨ess, E₁, hess, hret⟩ := run_bind_ok.mp h
    obtain ⟨rfl, rfl⟩ := Prod.mk.inj (Except.ok.inj hret)
    exact ⟨ess, hess, rfl⟩
  · rintro ⟨ess, hess, rfl⟩
    exact run_bind_ok.mpr ⟨ess, E, hess, rfl⟩

theorem keys_of_entries {ess : List (List (Str × Resource))}
    (h : (rs.mapM (memberEntries decode)).run [] = .ok (ess, E)) :
    ess.flatten.map Prod.fst = rs.flatMap storedKeys := by
  obtain ⟨es, hes, rfl, -⟩ := (run_mapM_iff oblivious_memberEntries).mp h
  clear h
  induction hes with
  | nil => rfl
  | @cons m r rs es hm _ ih =>
    rw [List.map_cons, List.flatten_cons, List.map_append, ih, List.flatMap_cons, keys_of_memberEntries hm]

end Resources

/-- When the related resources of a request are read, a key holds something exactly when some member stores something
under it, and then what the first such member stores when it is read alone. -/
theorem getRelatedResources_first (decode : Str → Str) (top rs : List (Str × Json)) (R : RelatedResources)
    (E : List Error) (hfind : find top JSON_RELATED_RESOURCES = some (.obj rs))
    (h : (getRelatedResources decode (obj top)).run [] = .ok (R, E)) (k : Str) :
    (R.contains k = true ↔ ∃ m ∈ rs, k ∈ storedKeys m) ∧
      ∀ pre m post, rs = pre ++ m :: post → (∀ b ∈ pre, k ∉ storedKeys b) → k ∈ storedKeys m →
        ∃ R₁ E₁, (getRelatedResource decode ∅ m).run [] = .ok (R₁, E₁) ∧ R[k]? = R₁[k]? := by
  obtain ⟨ess, hess, rfl⟩ := (run_getRelatedResources_iff hfind).mp h
  constructor
  · rw [contains_fill, keys_of_entries hess, List.mem_flatMap]
    simp
  · rintro pre m post rfl hpre hm
    obtain ⟨ess₁, e₁, es, e, ess₂, e₂, hbefore, halone, -, rfl, -⟩ :=
      (run_mapM_split oblivious_memberEntries).mp hess
    refine ⟨fill ∅ es, e, ?_, ?_⟩
    · rw [getRelatedResource_entries]
      exact run_bind_ok.mpr ⟨es, e, halone, rfl⟩
    · -- the members before have no entry of this key, this one has
      have hbefore' : ess₁.flatten.lookup k = none := by
        rw [List.lookup_eq_none_iff]
        intro p hp
        have hkey : p.1 ∈ pre.flatMap storedKeys := by
          rw [← keys_of_entries hbefore]
          exact List.mem_map_of_mem hp
        obtain ⟨b, hb, hkeyb⟩ := List.mem_flatMap.mp hkey
        rw [bne_iff_ne]
        rintro rfl
        exact hpre b hb hkeyb
      have hfound : (es.lookup k).isSome = true := by
        rw [← keys_of_memberEntries halone] at hm
        obtain ⟨p, hp, rfl⟩ := List.mem_map.mp hm
        exact List.lookup_isSome_iff.mpr ⟨p, hp, beq_self_eq_true p.1⟩
      obtain ⟨r, hr⟩ := Option.isSome_iff_exists.mp hfound
      rw [getElem?_fill, getElem?_fill, List.flatten_append, List.flatten_cons, List.lookup_append, List.lookup_append,
        hbefore', hr]
      rfl

/-- Two journals under one path, of which the first has a mask. -/
def twoJournals : List (Str × Json) := [
  (buildProvJournalResourcePathFromMscId "a", .obj [(JSON_IMSI_MASK, .str "10000")]),
  (buildProvJournalResourcePathFromMscId "a", .obj [])]

theorem getRelatedResources_first_twoJournals :
    ∃ R E, (getRelatedResources id (obj [(JSON_RELATED_RESOURCES, .obj twoJournals)])).run [] = .ok (R, E) ∧
      (R.contains (buildProvJournalResourcePathFromMscId "a") = true ↔
        ∃ m ∈ twoJournals, buildProvJournalResourcePathFromMscId "a" ∈ storedKeys m) ∧
      ∀ pre m post, twoJournals = pre ++ m :: post →
        (∀ b ∈ pre, buildProvJournalResourcePathFromMscId "a" ∉ storedKeys b) →
        buildProvJournalResourcePathFromMscId "a" ∈ storedKeys m →
        ∃ R₁ E₁, (getRelatedResource id ∅ m).run [] = .ok (R₁, E₁) ∧
          R[buildProvJournalResourcePathFromMscId "a"]? = R₁[buildProvJournalResourcePathFromMscId "a"]? :=
  ⟨_, _, rfl, getRelatedResources_first id [(JSON_RELATED_RESOURCES, .obj twoJournals)] twoJournals _ _ rfl rfl _⟩

/-- When no two members store something under one key, the order of the members does not matter: in any other order the
same resources are stored, and the same errors are recorded, in another order. -/
theorem getRelatedResources_permuted (decode : Str → Str) (top top' rs rs' : List (Str × Json)) (R : RelatedResources)
    (E : List Error) (hfind : find top JSON_RELATED_RESOURCES = some (.obj rs))
    (hfind' : find top' JSON_RELATED_RESOURCES = some (.obj rs')) (hperm : rs.Perm rs')
    (hkeys : (rs.flatMap storedKeys).Nodup) (h : (getRelatedResources decode (obj top)).run [] = .ok (R, E)) :
    ∃ E', (getRelatedResources decode (obj top')).run [] = .ok (R, E') ∧ E.Perm E' := by
  obtain ⟨ess, hess, rfl⟩ := (run_getRelatedResources_iff hfind).mp h
  obtain ⟨ess', E', hess', hsame, herrors⟩ := run_mapM_perm oblivious_memberEntries hperm hess
  refine ⟨E', (run_getRelatedResources_iff hfind').mpr ⟨ess', hess', ?_⟩, herrors⟩
  rw [← keys_of_entries hess] at hkeys
  exact fill_perm hkeys hsame.flatten

def journalOf (mscId : Str) : Str × Json := (buildProvJournalResourcePathFromMscId mscId, .obj [])

theorem getRelatedResources_permuted_journals :
    ∃ R E E', (getRelatedResources id (obj [(JSON_RELATED_RESOURCES, .obj [journalOf "b", journalOf "a"])])).run [] =
        .ok (R, E') ∧ List.Perm E E' := by
  obtain ⟨E', h⟩ := getRelatedResources_permuted id [(JSON_RELATED_RESOURCES, .obj [journalOf "a", journalOf "b"])]
    [(JSON_RELATED_RESOURCES, .obj [journalOf "b", journalOf "a"])] _ _ _ _ rfl rfl (List.Perm.swap _ _ _)
    (by decide) rfl
  exact ⟨_, _, E', h⟩

end AuthProvValidator
