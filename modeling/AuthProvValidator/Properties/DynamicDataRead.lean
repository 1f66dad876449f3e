import AuthProvValidator.Base.Entries
import AuthProvValidator.Ports.Encoder
import AuthProvValidator.Ports.StaticData

/-!
# Dynamic data that are written and read again

* `AuthSubscriptionDynamicData.FromParser` : what is known of dynamic data that were read;
* `AuthSubscriptionDynamicData.written` : what is left of them when they are written; no list of indexes becomes an
  empty one;
* `getAuthSubscriptionDynamicData_readBack` : dynamic data that were read are written so that they are read again, as
  what is left.
-/

namespace AuthProvValidator
open Recorder Json

/-- The names of a list of indexes have no NUL, and its values are those of an `int`. -/
def LastIndexesList.FromParser (l : LastIndexesList) : Prop :=
  ∀ (k : Str) (v : Int), l[k]? = some v → k.cStr = k ∧ (Json.int v).isInt = true

structure AuthSubscriptionDynamicData.FromParser (d : AuthSubscriptionDynamicData) : Prop where
  sqnScheme : ∀ t, d.sqnScheme = some t → '\x00' ∉ t
  sqn : ∀ t, d.sqn = some t → '\x00' ∉ t
  lastIndexesList : ∀ l, d.lastIndexesList = some l → l.FromParser

def AuthSubscriptionDynamicData.written (d : AuthSubscriptionDynamicData) : AuthSubscriptionDynamicData where
  sqnScheme := writtenText d.sqnScheme
  sqn := writtenText d.sqn
  lastIndexesList := some (d.lastIndexesList.getD ∅)

section Read
variable {json : Json} {p : Str} {E E' : List Error} {d : AuthSubscriptionDynamicData} {l l' : LastIndexesList}
  {ms : List (Str × Json)}

theorem LastIndexesList.FromParser.insertIfNew (h : l.FromParser) {k : Str} {v : Int} (hk : k.cStr = k)
    (hv : (Json.int v).isInt = true) : LastIndexesList.FromParser (l.insertIfNew k v) := by
  intro k' v' h'
  rw [Std.ExtTreeMap.getElem?_insertIfNew] at h'
  split at h'
  · rename_i heq
    obtain rfl := Std.LawfulEqCmp.eq_of_compare heq.1
    rw [← Option.some.inj h']
    exact ⟨hk, hv⟩
  · exact h k' v' h'

theorem fromParser_of_getLastIndexesList (h : (getLastIndexesList p ms l).run E = .ok (l', E')) (hl : l.FromParser) :
    l'.FromParser := by
  induction ms generalizing l E with
  | nil =>
    obtain ⟨rfl, -⟩ := Prod.mk.inj (Except.ok.inj h)
    exact hl
  | cons m ms ih =>
    rw [getLastIndexesList] at h
    split at h
    · rename_i hint
      obtain ⟨value, E₁, hvalue, h⟩ := run_bind_ok.mp h
      obtain ⟨hvalue, -⟩ := run_access.mp hvalue
      obtain ⟨n, hn, hmin, hmax⟩ := isInt_iff.mp hint
      rw [hn, getInt, if_pos (by rw [← hn]; exact hint)] at hvalue
      obtain rfl := Except.ok.inj hvalue
      exact ih h (hl.insertIfNew (Str.cStr_cStr m.1) (by rw [← hn]; exact hint))
    · obtain ⟨-, E₁, -, h⟩ := run_bind_ok.mp h
      exact ih h hl

theorem fromParser_of_readLastIndexes {r : Option LastIndexesList} (h : (readLastIndexes json p).run E = .ok (r, E')) :
    ∀ l, r = some l → l.FromParser := by
  have hempty : LastIndexesList.FromParser ∅ := by
    intro k v hk
    rw [Std.ExtTreeMap.getElem?_empty] at hk
    cases hk
  obtain ⟨b, E₁, -, h⟩ := run_bind_ok.mp h
  split at h
  · obtain ⟨value, E₂, -, h⟩ := run_bind_ok.mp h
    split at h
    · obtain ⟨ms, E₃, -, h⟩ := run_bind_ok.mp h
      obtain ⟨l, E₄, hl, h⟩ := run_bind_ok.mp h
      obtain ⟨rfl, -⟩ := Prod.mk.inj (Except.ok.inj h)
      intro l' hl'
      rw [← Option.some.inj hl']
      exact fromParser_of_getLastIndexesList hl hempty
    · obtain ⟨-, E₃, -, h⟩ := run_bind_ok.mp h
      obtain ⟨rfl, -⟩ := Prod.mk.inj (Except.ok.inj h)
      intro l hl
      cases hl
  · obtain ⟨rfl, -⟩ := Prod.mk.inj (Except.ok.inj h)
    intro l hl
    cases hl

/-- **What is known of dynamic data that were read.** -/
theorem fromParser_of_getAuthSubscriptionDynamicData
    (h : (getAuthSubscriptionDynamicData json p).run E = .ok (d, E')) : d.FromParser := by
  obtain ⟨sqnScheme, E₁, hscheme, h⟩ := run_bind_ok.mp h
  obtain ⟨sqn, E₂, hsqn, h⟩ := run_bind_ok.mp h
  obtain ⟨lastIndexesList, E₃, hlist, h⟩ := run_bind_ok.mp h
  obtain ⟨rfl, -⟩ := Prod.mk.inj (Except.ok.inj h)
  exact ⟨readString_readable hscheme, readString_readable hsqn, fromParser_of_readLastIndexes hlist⟩

end Read

section Written
variable {p : Str} {E : List Error} {d : AuthSubscriptionDynamicData} {a : AuthSubscription} {l acc : LastIndexesList}

theorem getLastIndexesList_run {es : List (Str × Int)} (h : ∀ e ∈ es, e.1.cStr = e.1 ∧ (Json.int e.2).isInt = true) :
    (getLastIndexesList p (es.map fun e => (e.1.cStr, .int e.2)) acc).run E = .ok (Entries.fill acc es, E) := by
  induction es generalizing acc with
  | nil => rfl
  | cons e es ih =>
    rw [List.forall_mem_cons] at h
    obtain ⟨⟨hname, hint⟩, hes⟩ := h
    rw [List.map_cons, getLastIndexesList, if_pos hint]
    refine run_bind_ok.mpr ⟨e.2, E, run_access.mpr ⟨if_pos hint, rfl⟩, ?_⟩
    rw [hname, hname]
    exact ih hes

theorem getLastIndexesList_toList (h : l.FromParser) :
    (getLastIndexesList p (l.toList.map fun e => (e.1.cStr, .int e.2)) ∅).run E = .ok (l, E) := by
  have hrun := @getLastIndexesList_run p E ∅ l.toList fun e he =>
    h e.1 e.2 (Std.ExtTreeMap.mem_toList_iff_getElem?_eq_some.mp he)
  rwa [Entries.fill_toList] at hrun

theorem textMember_of_find {ms : List (Str × Json)} {name : Str} {text : Option Str}
    (h : find ms name = (writtenText text).map Json.str) :
    textMember ms name = writtenText text ∧ notStringErrors ms p [name] = [] := by
  have hcut : (writtenText text).map Str.cStr = writtenText text := by
    cases text with
    | none => rfl
    | some t =>
      rw [writtenText]
      split
      · rfl
      · exact congrArg some (Str.cStr_cStr t)
  constructor
  · rw [textMember, h]
    cases htext : writtenText text with
    | none => rfl
    | some t =>
      rw [htext] at hcut
      exact hcut
  · rw [notStringErrors_eq_nil_iff, List.forall_mem_singleton, TextOrMissing, h]
    intro v hv
    obtain ⟨t, -, rfl⟩ := Option.map_eq_some_iff.mp hv
    rfl

theorem find_dynamicData (h : a.authSubscriptionDynamicData = some d) :
    find (authSubscriptionDynamicDataToJson a) JSON_SQN_SCHEME = (writtenText d.sqnScheme).map Json.str ∧
      find (authSubscriptionDynamicDataToJson a) JSON_SQN = (writtenText d.sqn).map Json.str ∧
      find (authSubscriptionDynamicDataToJson a) JSON_LAST_INDEXES_LIST =
        some (lastIndexesToJson d.lastIndexesList) := by
  have hnames : JSON_SQN_SCHEME ≠ JSON_SQN ∧ JSON_SQN_SCHEME ≠ JSON_LAST_INDEXES_LIST ∧
      JSON_SQN ≠ JSON_LAST_INDEXES_LIST := by decide
  have hnil : ∀ name, find [] name = none := fun _ => rfl
  have hlist : authSubscriptionDynamicDataToJson a =
      optionalStrToJson d.sqnScheme JSON_SQN_SCHEME ++ optionalStrToJson d.sqn JSON_SQN ++
        [(JSON_LAST_INDEXES_LIST, lastIndexesToJson d.lastIndexesList)] := by
    rw [authSubscriptionDynamicDataToJson, h]
  rw [hlist]
  refine ⟨?_, ?_, ?_⟩
  · rw [find_append, find_append, find_optionalStrToJson_self, find_optionalStrToJson_ne hnames.1, find_cons,
      if_neg hnames.2.1, hnil, Option.or_none, Option.or_none]
  · rw [find_append, find_append, find_optionalStrToJson_self, find_optionalStrToJson_ne hnames.1.symm, find_cons,
      if_neg hnames.2.2, hnil, Option.or_none, Option.none_or]
  · rw [find_append, find_append, find_optionalStrToJson_ne hnames.2.1.symm,
      find_optionalStrToJson_ne hnames.2.2.symm, find_cons, if_pos rfl, Option.none_or, Option.none_or]

/-- The list of indexes that is written is read again; an empty one is read where there was none. -/
theorem readLastIndexes_written {ms : List (Str × Json)} (hl : ∀ l, d.lastIndexesList = some l → l.FromParser)
    (hfind : find ms JSON_LAST_INDEXES_LIST = some (lastIndexesToJson d.lastIndexesList)) :
    (readLastIndexes (.obj ms) p).run E = .ok (d.written.lastIndexesList, E) := by
  have hmember : (Json.obj ms).hasMember JSON_LAST_INDEXES_LIST = .ok true := by
    rw [hasMember_obj, hfind]
    rfl
  have hvalue : (Json.obj ms).index JSON_LAST_INDEXES_LIST = .ok (lastIndexesToJson d.lastIndexesList) :=
    index_obj hfind
  refine run_bind_ok.mpr ⟨true, E, run_access.mpr ⟨hmember, rfl⟩, ?_⟩
  refine run_bind_ok.mpr ⟨_, E, run_access.mpr ⟨hvalue, rfl⟩, ?_⟩
  rw [AuthSubscriptionDynamicData.written]
  cases hlist : d.lastIndexesList with
  | none => rfl
  | some l =>
    refine run_bind_ok.mpr ⟨_, E, run_access.mpr ⟨rfl, rfl⟩, ?_⟩
    exact run_bind_ok.mpr ⟨l, E, getLastIndexesList_toList (hl l hlist), rfl⟩

/-- **Dynamic data that are written and read again.** -/
theorem getAuthSubscriptionDynamicData_written (hd : d.FromParser) (h : a.authSubscriptionDynamicData = some d) :
    (getAuthSubscriptionDynamicData (.obj (authSubscriptionDynamicDataToJson a)) p).run E = .ok (d.written, E) := by
  obtain ⟨hscheme, hsqn, hlist⟩ := find_dynamicData h
  obtain ⟨hscheme, hnoScheme⟩ := @textMember_of_find p _ _ _ hscheme
  obtain ⟨hsqn, hnoSqn⟩ := @textMember_of_find p _ _ _ hsqn
  refine run_bind_ok.mpr ⟨_, _, readString_run, ?_⟩
  refine run_bind_ok.mpr ⟨_, _, readString_run, ?_⟩
  rw [hscheme, hnoScheme, hsqn, hnoSqn, List.append_nil, List.append_nil]
  exact run_bind_ok.mpr ⟨_, E, readLastIndexes_written hd.lastIndexesList hlist, rfl⟩

theorem writtenText_eq_self_iff {text : Option Str} (h : ∀ t, text = some t → '\x00' ∉ t) :
    writtenText text = text ↔ text ≠ some [] := by
  rw [writtenText_eq_iff]
  constructor
  · intro hne htext
    exact (hne [] htext).1 rfl
  · intro hne t ht
    constructor
    · intro hnil
      rw [ht, hnil] at hne
      exact hne rfl
    · exact h t ht

theorem written_eq_dynamic_iff (hd : d.FromParser) :
    d.written = d ↔ d.sqnScheme ≠ some [] ∧ d.sqn ≠ some [] ∧ d.lastIndexesList.isSome = true := by
  rw [← writtenText_eq_self_iff hd.sqnScheme, ← writtenText_eq_self_iff hd.sqn]
  cases d with
  | mk sqnScheme sqn lastIndexesList =>
    rw [AuthSubscriptionDynamicData.written, AuthSubscriptionDynamicData.mk.injEq]
    refine and_congr_right fun _ => and_congr_right fun _ => ?_
    cases lastIndexesList with
    | none => exact iff_of_false (Option.some_ne_none _) Bool.false_ne_true
    | some l => exact iff_of_true rfl rfl

theorem written_written_dynamic (hd : d.FromParser) : d.written.written = d.written := by
  have htext : ∀ text : Option Str, (∀ t, text = some t → '\x00' ∉ t) →
      writtenText (writtenText text) = writtenText text := by
    intro text h
    by_cases hempty : text = some []
    · rw [hempty]
      rfl
    · rw [(writtenText_eq_self_iff h).mpr hempty, (writtenText_eq_self_iff h).mpr hempty]
  rw [AuthSubscriptionDynamicData.written, AuthSubscriptionDynamicData.mk.injEq]
  exact ⟨htext _ hd.sqnScheme, htext _ hd.sqn, rfl⟩

end Written

/-- **Dynamic data that were read are written so that they are read again**, without an error: an empty text is left
out, and a list of indexes is always there; the data that are read so stay as they are. -/
theorem getAuthSubscriptionDynamicData_readBack {json : Json} {p : Str} {E E' : List Error} {a : AuthSubscription}
    {d : AuthSubscriptionDynamicData} (h : (getAuthSubscriptionDynamicData json p).run E = .ok (d, E'))
    (ha : a.authSubscriptionDynamicData = some d) :
    (∀ p₁ E₁, (getAuthSubscriptionDynamicData (.obj (authSubscriptionDynamicDataToJson a)) p₁).run E₁ =
        .ok (d.written, E₁)) ∧
      d.written.written = d.written ∧
      (d.written = d ↔ d.sqnScheme ≠ some [] ∧ d.sqn ≠ some [] ∧ d.lastIndexesList.isSome = true) := by
  have hd := fromParser_of_getAuthSubscriptionDynamicData h
  exact ⟨fun _ _ => getAuthSubscriptionDynamicData_written hd ha, written_written_dynamic hd, written_eq_dynamic_iff hd⟩

def SPARSE_DYNAMIC_DATA : AuthSubscriptionDynamicData where
  sqnScheme := some "NON_TIME_BASED"
  sqn := some []
  lastIndexesList := none

theorem getAuthSubscriptionDynamicData_readBack_sparse :
    (getAuthSubscriptionDynamicData (.obj [(JSON_SQN_SCHEME, .str "NON_TIME_BASED"),
        (JSON_LAST_INDEXES_LIST, .obj [])]) []).run [] =
      .ok ({ sqnScheme := some "NON_TIME_BASED", sqn := none, lastIndexesList := some ∅ }, []) := by
  have hread : (getAuthSubscriptionDynamicData (.obj [(JSON_SQN_SCHEME, .str "NON_TIME_BASED"),
      (JSON_SQN, .str [])]) []).run [] = .ok (SPARSE_DYNAMIC_DATA, []) := rfl
  have ha : (AuthSubscription.setDynamicData {} SPARSE_DYNAMIC_DATA).authSubscriptionDynamicData =
      some SPARSE_DYNAMIC_DATA := rfl
  exact (getAuthSubscriptionDynamicData_readBack hread ha).1 [] []

end AuthProvValidator
