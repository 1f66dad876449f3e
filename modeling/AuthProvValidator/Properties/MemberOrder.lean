import AuthProvValidator.Ports.WellTyped

/-!
# The order of the members of a change

The members of a change are read one after the other, and `data` is read by the resource path that the change has by
then.

* `MemberStep` : all that one member does to a change;
* `OrderFree` : members whose order does not matter: no two of them give different texts for one attribute, and there
  are no data under a path that has any;
* `getChangesToValidate_permuted` : the order of the members of a change does not matter exactly then.
-/

namespace AuthProvValidator
open Recorder Json

def DataPath (p : Str) : Prop := checkAuthSubscriptionUri p = true ∨ checkAuthSubscriptionStaticDataUri p = true

def textOf : Json → Str
  | .str s => s.cStr
  | _ => []

/-- The members that are read under a name have one text. -/
def SameText (name : Str) (ms : List (Str × Json)) : Prop :=
  ∀ a ∈ ms, ∀ b ∈ ms, a.1.cStr = name → b.1.cStr = name → textOf a.2 = textOf b.2

structure OrderFree (ms : List (Str × Json)) : Prop where
  operation : SameText JSON_OPERATION ms
  resourcePath : SameText JSON_RESOURCE_PATH ms
  data : ∀ d ∈ ms, ∀ q ∈ ms, d.1.cStr = JSON_DATA → q.1.cStr = JSON_RESOURCE_PATH → ¬ DataPath (textOf q.2)

theorem not_dataPath_nil : ¬ DataPath [] := by
  unfold DataPath
  decide

/-! ## One member -/

/-- All that a member does, from the change `c` and the errors `E` to `c'` and `E'`. -/
structure MemberStep (c : Change) (m : Str × Json) (E : List Error) (c' : Change) (E' : List Error) : Prop where
  operation : c'.operation = if m.1.cStr = JSON_OPERATION then textOf m.2 else c.operation
  resourcePath : c'.resourcePath = if m.1.cStr = JSON_RESOURCE_PATH then textOf m.2 else c.resourcePath
  grows : E <+: E'
  kept : (m.1.cStr = JSON_DATA → ¬ DataPath c.resourcePath) → c'.authSubscription = c.authSubscription ∧ E' = E
  read : m.1.cStr = JSON_DATA → DataPath c.resourcePath →
    E' = E → c'.authSubscription.authSubscriptionStaticData.isSome = true

section Members
variable {c c' : Change} {m : Str × Json} {v : Json} {E E' : List Error} {a : AuthSubscription}

theorem resourcePath_ne_operation : JSON_RESOURCE_PATH ≠ JSON_OPERATION := by decide

theorem data_ne_operation : JSON_DATA ≠ JSON_OPERATION := by decide

theorem data_ne_resourcePath : JSON_DATA ≠ JSON_RESOURCE_PATH := by decide

theorem getOperation_run {operation : Str} (h : (getOperation v).run E = .ok (operation, E')) :
    operation = textOf v ∧ E' = E := by
  unfold getOperation at h
  cases v with
  | str s =>
    obtain ⟨text, E₁, htext, h⟩ := run_bind_ok.mp h
    obtain ⟨hget, rfl⟩ := run_access.mp htext
    obtain rfl := Except.ok.inj hget
    split at h
    · cases h
    · split at h
      · cases h
      · obtain ⟨rfl, rfl⟩ := Prod.mk.inj (Except.ok.inj h)
        exact ⟨rfl, rfl⟩
  | _ => cases h

theorem getResourcePath_run {path : Str} (h : (getResourcePath v).run E = .ok (path, E')) :
    path = textOf v ∧ E' = E := by
  unfold getResourcePath at h
  cases v with
  | str s =>
    obtain ⟨text, E₁, htext, h⟩ := run_bind_ok.mp h
    obtain ⟨hget, rfl⟩ := run_access.mp htext
    obtain rfl := Except.ok.inj hget
    split at h
    · cases h
    · obtain ⟨rfl, rfl⟩ := Prod.mk.inj (Except.ok.inj h)
      exact ⟨rfl, rfl⟩
  | _ => cases h

theorem getData_run (h : (getData v c).run E = .ok (a, E')) :
    (¬ DataPath c.resourcePath → a = c.authSubscription ∧ E' = E) ∧
      (DataPath c.resourcePath → E' = E → a.authSubscriptionStaticData.isSome = true) := by
  unfold getData at h
  unfold DataPath
  split at h
  · cases h
  · split at h
    · rename_i huri
      refine ⟨fun hnot => absurd (Or.inl huri) hnot, fun _ hE => ?_⟩
      obtain ⟨es, hes, rfl⟩ := oblivious_getAuthSubscription.run_ok.mp h
      obtain rfl : es = [] := List.append_cancel_left (hE.trans (List.append_nil E).symm)
      exact static_of_silent hes
    · rename_i huri
      split at h
      · rename_i hstatic
        obtain ⟨d, E₁, -, hret⟩ := run_bind_ok.mp h
        obtain ⟨rfl, -⟩ := Prod.mk.inj (Except.ok.inj hret)
        exact ⟨fun hnot => absurd (Or.inr hstatic) hnot, fun _ _ => rfl⟩
      · rename_i hstatic
        obtain ⟨rfl, rfl⟩ := Prod.mk.inj (Except.ok.inj h)
        exact ⟨fun _ => ⟨rfl, rfl⟩, fun hpath => absurd hpath (not_or.mpr ⟨huri, hstatic⟩)⟩

/-- **Every member is a step.** -/
theorem getChangeMember_step (h : (getChangeMember c m).run E = .ok (c', E')) : MemberStep c m E c' E' := by
  have hgrows : E <+: E' := (oblivious_getChangeMember c m).extends h
  unfold getChangeMember at h
  dsimp only at h
  split at h
  · rename_i hop
    obtain ⟨operation, E₁, hread, hret⟩ := run_bind_ok.mp h
    obtain ⟨rfl, rfl⟩ := getOperation_run hread
    obtain ⟨rfl, rfl⟩ := Prod.mk.inj (Except.ok.inj hret)
    exact ⟨(if_pos hop).symm, (if_neg (hop ▸ resourcePath_ne_operation.symm)).symm, hgrows, fun _ => ⟨rfl, rfl⟩,
      fun hd => absurd (hd.symm.trans hop) data_ne_operation⟩
  · rename_i hop
    split at h
    · rename_i hpath
      obtain ⟨path, E₁, hread, hret⟩ := run_bind_ok.mp h
      obtain ⟨rfl, rfl⟩ := getResourcePath_run hread
      obtain ⟨rfl, rfl⟩ := Prod.mk.inj (Except.ok.inj hret)
      exact ⟨(if_neg hop).symm, (if_pos hpath).symm, hgrows, fun _ => ⟨rfl, rfl⟩,
        fun hd => absurd (hd.symm.trans hpath) data_ne_resourcePath⟩
    · rename_i hpath
      split at h
      · rename_i hdata
        obtain ⟨a, E₁, hread, hret⟩ := run_bind_ok.mp h
        obtain ⟨hkept, hfilled⟩ := getData_run hread
        obtain ⟨rfl, rfl⟩ := Prod.mk.inj (Except.ok.inj hret)
        exact ⟨(if_neg hop).symm, (if_neg hpath).symm, hgrows, fun hnot => hkept (hnot hdata),
          fun _ hp hE => hfilled hp hE⟩
      · rename_i hdata
        obtain ⟨rfl, rfl⟩ := Prod.mk.inj (Except.ok.inj h)
        exact ⟨(if_neg hop).symm, (if_neg hpath).symm, hgrows, fun _ => ⟨rfl, rfl⟩, fun hd => absurd hd hdata⟩

end Members

/-! ## All members -/

section Runs
variable {c c' : Change} {ms : List (Str × Json)} {E E' : List Error} {name t p : Str}

theorem getChange_run {e : List Error} :
    (getChange (obj ms)).run [] = .ok (c, e) ↔ (ms.foldlM getChangeMember {}).run [] = .ok (c, e) := Iff.rfl

theorem foldlM_getChangeMember_cons {m : Str × Json} :
    ((m :: ms).foldlM getChangeMember c).run E = .ok (c', E') ↔
      ∃ c₁ E₁, MemberStep c m E c₁ E₁ ∧ (getChangeMember c m).run E = .ok (c₁, E₁) ∧
        (ms.foldlM getChangeMember c₁).run E₁ = .ok (c', E') := by
  rw [List.foldlM_cons, run_bind_ok]
  constructor
  · intro h
    obtain ⟨c₁, E₁, hm, hms⟩ := h
    exact ⟨c₁, E₁, getChangeMember_step hm, hm, hms⟩
  · intro h
    obtain ⟨c₁, E₁, -, hm, hms⟩ := h
    exact ⟨c₁, E₁, hm, hms⟩

/-- The attribute `get` is set by the members of one name and by no others. -/
def SetBy (name : Str) (get : Change → Str) : Prop :=
  ∀ c m E c' E', MemberStep c m E c' E' → get c' = if m.1.cStr = name then textOf m.2 else get c

theorem setBy_operation : SetBy JSON_OPERATION Change.operation := fun _ _ _ _ _ h => h.operation

theorem setBy_resourcePath : SetBy JSON_RESOURCE_PATH Change.resourcePath := fun _ _ _ _ _ h => h.resourcePath

section Attribute
variable {get : Change → Str}

theorem SetBy.kept (hget : SetBy name get) (hnone : ∀ m ∈ ms, m.1.cStr ≠ name)
    (h : (ms.foldlM getChangeMember c).run E = .ok (c', E')) : get c' = get c := by
  induction ms generalizing c E with
  | nil =>
    obtain ⟨rfl, -⟩ := Prod.mk.inj (Except.ok.inj h)
    rfl
  | cons m ms ih =>
    obtain ⟨c₁, E₁, hstep, -, hms⟩ := foldlM_getChangeMember_cons.mp h
    rw [List.forall_mem_cons] at hnone
    rw [ih hnone.2 hms, hget c m E c₁ E₁ hstep, if_neg hnone.1]

theorem SetBy.stays (hget : SetBy name get) (ht : ∀ m ∈ ms, m.1.cStr = name → textOf m.2 = t)
    (h : (ms.foldlM getChangeMember c).run E = .ok (c', E')) (hc : get c = t) : get c' = t := by
  induction ms generalizing c E with
  | nil =>
    obtain ⟨rfl, -⟩ := Prod.mk.inj (Except.ok.inj h)
    exact hc
  | cons m ms ih =>
    obtain ⟨c₁, E₁, hstep, -, hms⟩ := foldlM_getChangeMember_cons.mp h
    rw [List.forall_mem_cons] at ht
    apply ih ht.2 hms
    rw [hget c m E c₁ E₁ hstep]
    split
    · rename_i hname
      exact ht.1 hname
    · exact hc

theorem SetBy.set (hget : SetBy name get) (ht : ∀ m ∈ ms, m.1.cStr = name → textOf m.2 = t)
    (hsome : ∃ m ∈ ms, m.1.cStr = name) (h : (ms.foldlM getChangeMember c).run E = .ok (c', E')) : get c' = t := by
  induction ms generalizing c E with
  | nil =>
    obtain ⟨m, hm, -⟩ := hsome
    exact absurd hm List.not_mem_nil
  | cons m ms ih =>
    obtain ⟨c₁, E₁, hstep, -, hms⟩ := foldlM_getChangeMember_cons.mp h
    rw [List.forall_mem_cons] at ht
    by_cases hname : m.1.cStr = name
    · apply hget.stays ht.2 hms
      rw [hget c m E c₁ E₁ hstep, if_pos hname]
      exact ht.1 hname
    · obtain ⟨q, hq, hqname⟩ := hsome
      rcases List.mem_cons.mp hq with rfl | hq
      · exact absurd hqname hname
      · exact ih ht.2 ⟨q, hq, hqname⟩ hms

theorem SetBy.last (hget : SetBy name get) {m : Str × Json} (hm : m.1.cStr = name)
    (h : ((ms ++ [m]).foldlM getChangeMember c).run E = .ok (c', E')) : get c' = textOf m.2 := by
  rw [List.foldlM_append] at h
  obtain ⟨c₁, E₁, -, hlast⟩ := run_bind_ok.mp h
  obtain ⟨c₂, E₂, hstep, -, hnil⟩ := foldlM_getChangeMember_cons.mp hlast
  obtain ⟨rfl, -⟩ := Prod.mk.inj (Except.ok.inj hnil)
  rw [hget c₁ m E₁ c₂ E₂ hstep, if_pos hm]

end Attribute

/-- Data are ignored while the path is none that has any. -/
theorem data_ignored (hc : c.resourcePath = [] ∨ c.resourcePath = p)
    (hpath : ∀ m ∈ ms, m.1.cStr = JSON_RESOURCE_PATH → textOf m.2 = p)
    (hdata : ∀ m ∈ ms, m.1.cStr = JSON_DATA → ¬ DataPath p) (h : (ms.foldlM getChangeMember c).run E = .ok (c', E')) :
    c'.authSubscription = c.authSubscription ∧ E' = E := by
  induction ms generalizing c E with
  | nil =>
    obtain ⟨rfl, rfl⟩ := Prod.mk.inj (Except.ok.inj h)
    exact ⟨rfl, rfl⟩
  | cons m ms ih =>
    obtain ⟨c₁, E₁, hstep, -, hms⟩ := foldlM_getChangeMember_cons.mp h
    rw [List.forall_mem_cons] at hpath hdata
    have hnot : m.1.cStr = JSON_DATA → ¬ DataPath c.resourcePath := by
      intro hd
      rcases hc with hc | hc
      · rw [hc]
        exact not_dataPath_nil
      · rw [hc]
        exact hdata.1 hd
    have hc₁ : c₁.resourcePath = [] ∨ c₁.resourcePath = p := by
      rw [hstep.resourcePath]
      split
      · rename_i hname
        exact Or.inr (hpath.1 hname)
      · exact hc
    obtain ⟨ha, rfl⟩ := hstep.kept hnot
    obtain ⟨ha', hE⟩ := ih hc₁ hpath.2 hdata.2 hms
    exact ⟨ha'.trans ha, hE⟩

/-- Data that come last under a path that has any leave static data or an error. -/
theorem data_read {d : Str × Json} (hd : d.1.cStr = JSON_DATA)
    (hpath : ∀ m ∈ ms, m.1.cStr = JSON_RESOURCE_PATH → textOf m.2 = p)
    (hsome : ∃ m ∈ ms, m.1.cStr = JSON_RESOURCE_PATH) (hp : DataPath p)
    (h : ((ms ++ [d]).foldlM getChangeMember c).run [] = .ok (c', [])) :
    c'.authSubscription.authSubscriptionStaticData.isSome = true := by
  rw [List.foldlM_append] at h
  obtain ⟨c₁, E₁, hms, hlast⟩ := run_bind_ok.mp h
  obtain ⟨c₂, E₂, hstep, -, hnil⟩ := foldlM_getChangeMember_cons.mp hlast
  obtain ⟨rfl, rfl⟩ := Prod.mk.inj (Except.ok.inj hnil)
  have hc₁ : c₁.resourcePath = p := setBy_resourcePath.set hpath hsome hms
  exact hstep.read hd (hc₁ ▸ hp) (List.prefix_nil.mp hstep.grows).symm

end Runs

/-! ## Permutations -/

section Permutations
variable {c : Change} {ms ms' : List (Str × Json)} {e : List Error} {name : Str}

theorem SameText.exists_text (h : SameText name ms) :
    ∃ t, (∀ m ∈ ms, m.1.cStr = name → textOf m.2 = t) ∧
      (t = [] ∨ ∃ m ∈ ms, m.1.cStr = name ∧ textOf m.2 = t) := by
  by_cases hsome : ∃ m ∈ ms, m.1.cStr = name
  · obtain ⟨a, ha, hname⟩ := hsome
    exact ⟨textOf a.2, fun m hm hm' => h m hm a ha hm' hname, Or.inr ⟨a, ha, hname, rfl⟩⟩
  · exact ⟨[], fun m hm hm' => absurd ⟨m, hm, hm'⟩ hsome, Or.inl rfl⟩

/-- An attribute does not depend on the order when the members of its name have one text. -/
theorem SetBy.perm {get : Change → Str} {c' : Change} {e' : List Error} (hget : SetBy name get)
    (hsame : SameText name ms) (hperm : ms'.Perm ms) (h : (ms.foldlM getChangeMember {}).run [] = .ok (c, e))
    (h' : (ms'.foldlM getChangeMember {}).run [] = .ok (c', e')) : get c' = get c := by
  obtain ⟨t, ht, -⟩ := hsame.exists_text
  have ht' : ∀ m ∈ ms', m.1.cStr = name → textOf m.2 = t := fun m hm => ht m (hperm.subset hm)
  by_cases hsome : ∃ m ∈ ms, m.1.cStr = name
  · have hsome' : ∃ m ∈ ms', m.1.cStr = name := by
      obtain ⟨m, hm, hname⟩ := hsome
      exact ⟨m, hperm.symm.subset hm, hname⟩
    rw [hget.set ht' hsome' h', hget.set ht hsome h]
  · have hnone : ∀ m ∈ ms, m.1.cStr ≠ name := fun m hm hname => hsome ⟨m, hm, hname⟩
    rw [hget.kept (fun m hm => hnone m (hperm.subset hm)) h', hget.kept hnone h]

/-- The order of the members does not matter: every other order gives the same change and the same errors. -/
def SameInEveryOrder (ms : List (Str × Json)) (c : Change) (e : List Error) : Prop :=
  ∀ ms' : List (Str × Json), ms'.Perm ms → (ms'.foldlM getChangeMember {}).run [] = .ok (c, e)

theorem exists_perm_last {a : Str × Json} (ha : a ∈ ms) : ∃ l, (l ++ [a]).Perm ms ∧ ∀ m ∈ ms, m = a ∨ m ∈ l := by
  obtain ⟨l, r, rfl⟩ := List.mem_iff_append.mp ha
  refine ⟨l ++ r, ?_, fun m hm => ?_⟩
  · rw [List.append_assoc]
    exact List.perm_append_comm.append_left l
  · rcases List.mem_append.mp hm with hm | hm
    · exact Or.inr (List.mem_append_left r hm)
    · rcases List.mem_cons.mp hm with hm | hm
      · exact Or.inl hm
      · exact Or.inr (List.mem_append_right l hm)

theorem SetBy.sameText {get : Change → Str} (hget : SetBy name get) (hall : SameInEveryOrder ms c e) :
    SameText name ms := by
  have hlast : ∀ a ∈ ms, a.1.cStr = name → get c = textOf a.2 := by
    intro a ha hname
    obtain ⟨l, hperm, -⟩ := exists_perm_last ha
    exact hget.last hname (hall (l ++ [a]) hperm)
  intro a ha b hb hna hnb
  rw [← hlast a ha hna, hlast b hb hnb]

/-- And there are no data under a path that has any: before the path they would be ignored, after it they are not. -/
theorem not_dataPath_of_same (hall : SameInEveryOrder ms c e) {d q : Str × Json} (hd : d ∈ ms) (hq : q ∈ ms)
    (hdata : d.1.cStr = JSON_DATA) (hpath : q.1.cStr = JSON_RESOURCE_PATH) : ¬ DataPath (textOf q.2) := by
  intro hp
  have hsame : SameText JSON_RESOURCE_PATH ms := setBy_resourcePath.sameText hall
  have htext : ∀ m ∈ ms, m.1.cStr = JSON_RESOURCE_PATH → textOf m.2 = textOf q.2 := fun m hm hm' =>
    hsame m hm q hq hm' hpath
  -- all data first: they are ignored
  have hfirst := hall _ (List.filter_append_perm (fun m => decide (m.1.cStr = JSON_DATA)) ms)
  rw [List.foldlM_append] at hfirst
  obtain ⟨c₁, E₁, hdatas, hothers⟩ := run_bind_ok.mp hfirst
  have hignored : c₁.authSubscription = {} ∧ E₁ = [] := by
    refine data_ignored (p := []) (Or.inl rfl) (fun m hm hm' => ?_) (fun _ _ _ => not_dataPath_nil) hdatas
    have := of_decide_eq_true (List.mem_filter.mp hm).2
    exact absurd (this.symm.trans hm') data_ne_resourcePath
  have hc₁ : c₁.resourcePath = [] := by
    refine setBy_resourcePath.kept (fun m hm hm' => ?_) hdatas
    have := of_decide_eq_true (List.mem_filter.mp hm).2
    exact absurd (this.symm.trans hm') data_ne_resourcePath
  obtain ⟨hstatic, he⟩ := data_ignored (p := textOf q.2) (Or.inl hc₁)
    (fun m hm hm' => htext m (List.mem_filter.mp hm).1 hm')
    (fun m hm hm' => by simp [hm'] at hm) hothers
  -- these data last: they are read
  obtain ⟨l, hperm, hmem⟩ := exists_perm_last hd
  have hlast := hall (l ++ [d]) hperm
  rw [he, hignored.2] at hlast
  have hql : q ∈ l := by
    rcases hmem q hq with rfl | hql
    · exact absurd (hdata.symm.trans hpath) data_ne_resourcePath
    · exact hql
  have hread := data_read hdata (fun m hm hm' => htext m (hperm.subset (List.mem_append_left _ hm)) hm')
    ⟨q, hql, hpath⟩ hp hlast
  rw [hstatic, hignored.1] at hread
  cases hread

/-- **The order of the members does not matter exactly when they are free of it.** -/
theorem sameInEveryOrder_iff (h : (ms.foldlM getChangeMember {}).run [] = .ok (c, e)) :
    SameInEveryOrder ms c e ↔ OrderFree ms := by
  constructor
  · intro hall
    exact ⟨setBy_operation.sameText hall, setBy_resourcePath.sameText hall,
      fun d hd q hq hdata hpath => not_dataPath_of_same hall hd hq hdata hpath⟩
  · intro hfree ms' hperm
    have hread : ∀ m ∈ ms', MemberRead m := by
      have hreturns := returns_of_run (oblivious_foldlM oblivious_getChangeMember _) h
      have := (returns_foldlM oblivious_getChangeMember (fun _ _ => returns_getChangeMember) ms {}).mp hreturns
      exact fun m hm => this m (hperm.subset hm)
    obtain ⟨c', e', h'⟩ :=
      (returns_foldlM oblivious_getChangeMember (fun _ _ => returns_getChangeMember) ms' {}).mpr hread []
    obtain ⟨p, hp, hpsome⟩ := hfree.resourcePath.exists_text
    have hdata : ∀ m ∈ ms, m.1.cStr = JSON_DATA → ¬ DataPath p := by
      intro m hm hm'
      rcases hpsome with rfl | ⟨q, hq, hpath, rfl⟩
      · exact not_dataPath_nil
      · exact hfree.data m hm q hq hm' hpath
    obtain ⟨ha, rfl⟩ := data_ignored (Or.inl rfl) hp hdata h
    obtain ⟨ha', rfl⟩ := data_ignored (Or.inl rfl) (fun m hm => hp m (hperm.subset hm))
      (fun m hm => hdata m (hperm.subset hm)) h'
    have hop := setBy_operation.perm hfree.operation hperm h h'
    have hpath := setBy_resourcePath.perm hfree.resourcePath hperm h h'
    obtain ⟨operation, path, a⟩ := c
    obtain ⟨operation', path', a'⟩ := c'
    obtain rfl : operation' = operation := hop
    obtain rfl : path' = path := hpath
    obtain rfl : a' = a := ha'.trans ha.symm
    exact h'

end Permutations

/-- **A request whose changes are read gives the same changes and errors for every order of the members of one of them
exactly when that one is free of the order.** -/
theorem getChangesToValidate_permuted (top ms : List (Str × Json)) (pre post : List Json) (changes : List Change)
    (errors : List Error) (hfind : find top JSON_CHANGES = some (arr (pre ++ obj ms :: post)))
    (h : (getChangesToValidate (obj top)).run [] = .ok (changes, errors)) :
    (∀ top' ms' : List (Str × Json), ms'.Perm ms → find top' JSON_CHANGES = some (arr (pre ++ obj ms' :: post)) →
        (getChangesToValidate (obj top')).run [] = .ok (changes, errors)) ↔
      OrderFree ms := by
  have hmapM : ∀ {top ms : List (Str × Json)}, find top JSON_CHANGES = some (arr (pre ++ obj ms :: post)) →
      getChangesToValidate (obj top) = (pre ++ obj ms :: post).mapM getChange := by
    intro top ms hfind
    rw [getChangesToValidate, access_member, hfind]
    rfl
  rw [hmapM hfind] at h
  obtain ⟨cs₁, e₁, c, e, cs₂, e₂, hpre, hc, hpost, rfl, rfl⟩ := (run_mapM_split oblivious_getChange).mp h
  rw [← sameInEveryOrder_iff (getChange_run.mp hc)]
  constructor
  · intro hall ms' hperm
    have hfind' : find [(JSON_CHANGES, arr (pre ++ obj ms' :: post))] JSON_CHANGES =
        some (arr (pre ++ obj ms' :: post)) := List.lookup_cons_self
    have hrun := hall _ ms' hperm hfind'
    rw [hmapM hfind'] at hrun
    obtain ⟨cs₁', e₁', c', e', cs₂', e₂', hpre', hc', hpost', hcs, hes⟩ :=
      (run_mapM_split oblivious_getChange).mp hrun
    obtain ⟨rfl, rfl⟩ := Prod.mk.inj (Except.ok.inj (hpre.symm.trans hpre'))
    obtain ⟨rfl, rfl⟩ := Prod.mk.inj (Except.ok.inj (hpost.symm.trans hpost'))
    obtain ⟨rfl, -⟩ := List.cons.inj (List.append_cancel_left hcs)
    obtain rfl := List.append_cancel_right (List.append_cancel_left hes)
    exact getChange_run.mp hc'
  · intro hsame top' ms' hperm hfind'
    rw [hmapM hfind']
    exact (run_mapM_split oblivious_getChange).mpr ⟨cs₁, e₁, c, e, cs₂, e₂, hpre, hsame ms' hperm, hpost, rfl, rfl⟩

/-- The members of a creation, and the same with the data first. -/
def creationMembers : List (Str × Json) := [
  (JSON_OPERATION, .str JSON_OPERATION_CREATE),
  (JSON_RESOURCE_PATH, .str (staticDataPath "a" "12345")),
  (JSON_DATA, .obj [(JSON_AUTHENTICATION_METHOD, .str JSON_5G_AKA)])]

def creationDataFirst : List (Str × Json) := creationMembers.reverse

def documentOf (ms : List (Str × Json)) : List (Str × Json) := [(JSON_CHANGES, arr [obj ms])]

theorem find_documentOf (ms : List (Str × Json)) :
    find (documentOf ms) JSON_CHANGES = some (arr ([] ++ obj ms :: [])) := List.lookup_cons_self

/-- Data in front of the path are not read. -/
theorem creationDataFirst_ignored :
    ¬ ∀ (top ms : List (Str × Json)) (pre post : List Json) (changes : List Change) (errors : List Error),
      (ms.map Prod.fst).Nodup → find top JSON_CHANGES = some (arr (pre ++ obj ms :: post)) →
      (getChangesToValidate (obj top)).run [] = .ok (changes, errors) →
      ∀ top' ms' : List (Str × Json), ms'.Perm ms → find top' JSON_CHANGES = some (arr (pre ++ obj ms' :: post)) →
        (getChangesToValidate (obj top')).run [] = .ok (changes, errors) := by
  intro h
  have hdata : ∀ ms : List (Str × Json), ∀ b, (((getChangesToValidate (obj (documentOf ms))).run []).toOption.map
      fun r => r.1.map fun c => c.authSubscription.authSubscriptionStaticData.isSome) = some b →
      ∃ r, (getChangesToValidate (obj (documentOf ms))).run [] = .ok r ∧
        (r.1.map fun c => c.authSubscription.authSubscriptionStaticData.isSome) = b :=
    fun ms b => exists_of_toOption _
  obtain ⟨⟨changes, errors⟩, hrun, hread⟩ := hdata creationMembers [true] (by decide)
  obtain ⟨r, hrun', hignored⟩ := hdata creationDataFirst [false] (by decide)
  have hsame := h (documentOf creationMembers) creationMembers [] [] changes errors (by decide)
    (find_documentOf _) hrun (documentOf creationDataFirst) creationDataFirst (List.reverse_perm _) (find_documentOf _)
  rw [hrun'] at hsame
  rw [Except.ok.inj hsame, hread] at hignored
  cases hignored

theorem getChangesToValidate_permuted_example :
    ∃ changes errors, (getChangesToValidate (obj (documentOf creationMembers))).run [] = .ok (changes, errors) ∧
      ((∀ top' ms' : List (Str × Json), ms'.Perm creationMembers →
          find top' JSON_CHANGES = some (arr ([] ++ obj ms' :: [])) →
          (getChangesToValidate (obj top')).run [] = .ok (changes, errors)) ↔
        OrderFree creationMembers) := by
  obtain ⟨⟨changes, errors⟩, hrun, -⟩ := exists_of_toOption
    (x := (getChangesToValidate (obj (documentOf creationMembers))).run []) (fun _ => ()) (b := ()) (by decide)
  exact ⟨changes, errors, hrun, getChangesToValidate_permuted (documentOf creationMembers) creationMembers [] [] changes
    errors (find_documentOf _) hrun⟩

end AuthProvValidator
