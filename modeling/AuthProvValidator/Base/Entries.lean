import Mathlib.Data.List.Perm.Basic
import Std.Data.ExtTreeMap.Lemmas
import AuthProvValidator.Base.Recorder

/-!
# Maps filled from a list, and lists of recording computations

* `Entries.fill m es` : the entries `es` are put into `m` one after the other, and a key that is already there is left
  alone; so the first entry of a key is the one that counts (`getElem?_fill`), and the order of entries with distinct
  keys does not matter (`fill_perm`);
* `run_mapM_iff`, `run_mapM_perm` : a list of computations that do not read the log gives what each of them gives
  alone, so in another order it gives the same in that order.
-/

namespace Entries

variable {α β : Type*} {cmp : α → α → Ordering} [Std.TransCmp cmp] [Std.LawfulEqCmp cmp]

/-- Put the entries into the map, where their key is not there yet. -/
def fill (m : Std.ExtTreeMap α β cmp) (es : List (α × β)) : Std.ExtTreeMap α β cmp :=
  es.foldl (fun m e => m.insertIfNew e.1 e.2) m

variable {m : Std.ExtTreeMap α β cmp} {es es' : List (α × β)} {k : α} {v : β}

omit [Std.LawfulEqCmp cmp] in
theorem fill_append : fill m (es ++ es') = fill (fill m es) es' := List.foldl_append

section Lookup

variable [BEq α] [LawfulBEq α]

/-- With distinct keys, the entries of the list are what is found in it. -/
theorem lookup_eq_some_iff_mem (h : (es.map Prod.fst).Nodup) : es.lookup k = some v ↔ (k, v) ∈ es := by
  induction es with
  | nil => simp
  | cons e es ih =>
    rw [List.map_cons, List.nodup_cons] at h
    rw [List.lookup_cons, List.mem_cons]
    cases hk : k == e.1 with
    | true =>
      have hke := beq_iff_eq.mp hk
      constructor
      · intro hv
        left
        rw [hke, ← Option.some.inj hv]
      · rintro (rfl | hin)
        · rfl
        · have hmem : e.1 ∈ es.map Prod.fst := by
            rw [← hke]
            exact List.mem_map_of_mem hin
          exact absurd hmem h.1
    | false =>
      have hke : k ≠ e.1 := beq_eq_false_iff_ne.mp hk
      rw [ih h.2]
      constructor
      · exact Or.inr
      · rintro (rfl | hin)
        · exact absurd rfl hke
        · exact hin

theorem lookup_perm (h : (es.map Prod.fst).Nodup) (hperm : es.Perm es') (k : α) : es.lookup k = es'.lookup k := by
  have h' : (es'.map Prod.fst).Nodup := (hperm.map Prod.fst).nodup_iff.mp h
  ext v
  rw [lookup_eq_some_iff_mem h, lookup_eq_some_iff_mem h', hperm.mem_iff]

/-- What is in the map counts, then the first entry of the key. -/
theorem getElem?_fill : (fill m es)[k]? = m[k]?.or (es.lookup k) := by
  induction es generalizing m with
  | nil => rw [fill, List.foldl_nil, List.lookup_nil, Option.or_none]
  | cons e es ih =>
    show (fill (m.insertIfNew e.1 e.2) es)[k]? = _
    rw [ih, Std.ExtTreeMap.getElem?_insertIfNew, List.lookup_cons]
    by_cases hk : k = e.1
    · subst hk
      have heq : (e.1 == e.1) = true := beq_self_eq_true e.1
      rw [heq]
      by_cases hmem : e.1 ∈ m
      · obtain ⟨v, hv⟩ := Option.isSome_iff_exists.mp (Std.ExtTreeMap.isSome_getElem?_iff_mem.mpr hmem)
        rw [if_neg (by simp [hmem]), hv]
        rfl
      · have hnone : m[e.1]? = none := Std.ExtTreeMap.getElem?_eq_none hmem
        rw [if_pos ⟨Std.ReflCmp.compare_self, hmem⟩, hnone]
        rfl
    · have hne : (k == e.1) = false := beq_eq_false_iff_ne.mpr hk
      rw [hne, if_neg]
      rintro ⟨heq, -⟩
      exact hk (Std.LawfulEqCmp.eq_of_compare heq).symm

theorem fill_toList (m : Std.ExtTreeMap α β cmp) : fill ∅ m.toList = m := by
  have hnodup : (m.toList.map Prod.fst).Nodup := by
    rw [List.Nodup, List.pairwise_map]
    refine Std.ExtTreeMap.distinct_keys_toList.imp fun h heq => h ?_
    rw [heq]
    exact Std.ReflCmp.compare_self
  apply Std.ExtTreeMap.ext_getElem?
  intro k
  rw [getElem?_fill, Std.ExtTreeMap.getElem?_empty, Option.none_or]
  ext v
  rw [lookup_eq_some_iff_mem hnodup]
  exact Std.ExtTreeMap.mem_toList_iff_getElem?_eq_some

/-- The order of entries with distinct keys does not matter. -/
theorem fill_perm (h : (es.map Prod.fst).Nodup) (hperm : es.Perm es') : fill m es = fill m es' := by
  apply Std.ExtTreeMap.ext_getElem?
  intro k
  rw [getElem?_fill, getElem?_fill, lookup_perm h hperm]

theorem contains_fill : (fill m es).contains k = true ↔ m.contains k = true ∨ k ∈ es.map Prod.fst := by
  rw [Std.ExtTreeMap.contains_eq_isSome_getElem?, Std.ExtTreeMap.contains_eq_isSome_getElem?, getElem?_fill,
    Option.isSome_or, Bool.or_eq_true, List.lookup_isSome_iff, List.mem_map]
  apply or_congr_right
  constructor
  · rintro ⟨e, he, hk⟩
    exact ⟨e, he, (beq_iff_eq.mp hk).symm⟩
  · rintro ⟨e, he, rfl⟩
    exact ⟨e, he, beq_self_eq_true e.1⟩

theorem lookup_filter {p : α → Bool} : (es.filter fun e => p e.1).lookup k = if p k then es.lookup k else none := by
  induction es with
  | nil => rw [List.filter_nil, List.lookup_nil, ite_self]
  | cons e es ih =>
    rw [List.filter_cons, List.lookup_cons]
    by_cases hk : k = e.1
    · rw [beq_iff_eq.mpr hk]
      rw [← hk]
      split
      · rw [List.lookup_cons, beq_iff_eq.mpr hk]
      · rename_i hp
        rw [ih, if_neg hp]
    · rw [beq_eq_false_iff_ne.mpr hk, ← ih]
      split
      · rw [List.lookup_cons, beq_eq_false_iff_ne.mpr hk]
      · rfl

end Lookup

end Entries

namespace Recorder

variable {φ ε α β : Type} {f : α → Recorder φ ε β} {l l' : List α} {bs : List β} {es : List ε}

/-- A list of computations gives and records what each of them does alone. -/
theorem run_mapM_iff (ho : ∀ a, Oblivious (f a)) :
    (l.mapM f).run [] = .ok (bs, es) ↔ ∃ rs : List (β × List ε), List.Forall₂ (fun a r => (f a).run [] = .ok r) l rs ∧
      bs = rs.map Prod.fst ∧ es = (rs.map Prod.snd).flatten := by
  induction l generalizing bs es with
  | nil =>
    constructor
    · intro h
      obtain ⟨rfl, rfl⟩ := Prod.mk.inj (Except.ok.inj h)
      exact ⟨[], List.Forall₂.nil, rfl, rfl⟩
    · rintro ⟨rs, hrs, rfl, rfl⟩
      cases hrs
      rfl
  | cons a l ih =>
    rw [← List.nil_append (a :: l), run_mapM_split ho]
    constructor
    · rintro ⟨bs₁, e₁, b, e, bs₂, e₂, hnil, ha, hl, rfl, rfl⟩
      obtain ⟨rfl, rfl⟩ := Prod.mk.inj (Except.ok.inj hnil)
      obtain ⟨rs, hrs, rfl, rfl⟩ := ih.mp hl
      exact ⟨(b, e) :: rs, List.Forall₂.cons ha hrs, rfl, rfl⟩
    · rintro ⟨rs, hrs, rfl, rfl⟩
      cases hrs with
      | @cons _ r _ rs ha hrs =>
        exact ⟨[], [], r.1, r.2, rs.map Prod.fst, (rs.map Prod.snd).flatten, rfl, ha, ih.mpr ⟨rs, hrs, rfl, rfl⟩,
          rfl, rfl⟩

theorem silent_mapM_iff (ho : ∀ a, Oblivious (f a)) :
    Silent (l.mapM f) bs ↔ List.Forall₂ (fun a b => Silent (f a) b) l bs := by
  induction l generalizing bs with
  | nil =>
    rw [List.forall₂_nil_left_iff]
    exact silent_pure.trans eq_comm
  | cons a l ih =>
    have hrest : ∀ b, Oblivious (l.mapM f >>= fun bs => pure (b :: bs)) := fun b =>
      (oblivious_mapM ho).bind fun bs => oblivious_pure _
    rw [List.mapM_cons, silent_bind hrest, List.forall₂_cons_left_iff]
    apply exists_congr
    intro b
    rw [silent_bind fun bs => oblivious_pure _, ← exists_and_left]
    apply exists_congr
    intro bs'
    rw [ih, silent_pure, eq_comm]

/-- In another order the computations give the same, in that order. -/
theorem run_mapM_perm (ho : ∀ a, Oblivious (f a)) (hperm : l.Perm l') (h : (l.mapM f).run [] = .ok (bs, es)) :
    ∃ bs' es', (l'.mapM f).run [] = .ok (bs', es') ∧ bs.Perm bs' ∧ es.Perm es' := by
  obtain ⟨rs, hrs, rfl, rfl⟩ := (run_mapM_iff ho).mp h
  obtain ⟨rs', hrs', hswap⟩ := List.perm_comp_forall₂ hperm.symm hrs
  refine ⟨rs'.map Prod.fst, (rs'.map Prod.snd).flatten, (run_mapM_iff ho).mpr ⟨rs', hrs', rfl, rfl⟩, ?_, ?_⟩
  · exact hswap.symm.map Prod.fst
  · exact (hswap.symm.map Prod.snd).flatten

theorem run_mapM_flatMap {γ : Type} (ho : ∀ a, Oblivious (f a)) {cs : List γ} {g : γ → List α} {bs : γ → List β}
    {es : γ → List ε} (h : ∀ c ∈ cs, ((g c).mapM f).run [] = .ok (bs c, es c)) :
    ((cs.flatMap g).mapM f).run [] = .ok (cs.flatMap bs, cs.flatMap es) := by
  induction cs with
  | nil => rfl
  | cons c cs ih =>
    rw [List.forall_mem_cons] at h
    rw [List.flatMap_cons, List.mapM_append]
    refine run_bind_ok.mpr ⟨bs c, es c, h.1, run_bind_ok.mpr ⟨cs.flatMap bs, (c :: cs).flatMap es, ?_, rfl⟩⟩
    exact (oblivious_mapM ho).run_ok.mpr ⟨cs.flatMap es, ih h.2, rfl⟩

end Recorder
