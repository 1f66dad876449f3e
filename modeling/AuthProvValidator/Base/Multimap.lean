import Mathlib.Data.List.Nodup
import Mathlib.Data.List.Perm.Basic

/-!
# Multimaps that choose their order

* `Multimap H κ ν` : `H` implements multimaps from `κ` to `ν`; the order in which it goes through the elements is its
  own;
* `set` : the key gets the value, be it new or there already;
* `Latest h es` : the keys in `h` are distinct, and each has its last value in `es`; `set` keeps that (`Latest.set`);
* `perm_emplaceAll` : elements that are put in one after the other are there, in some order.
-/

/-- An implementation of multimaps. Nothing is said of where in its order a new element comes. -/
class Multimap (H : Type) (κ ν : outParam Type) where
  empty : H
  emplace : H → κ → ν → H
  /-- Overwrite the value of an element with this key. -/
  assign : H → κ → ν → H
  /-- The elements, in the order in which they are gone through. -/
  elements : H → List (κ × ν)
  elements_empty : elements empty = []
  perm_emplace (h : H) (k : κ) (v : ν) : (elements (emplace h k v)).Perm ((k, v) :: elements h)
  elements_assign (h : H) (k : κ) (v : ν) : k ∈ (elements h).map Prod.fst →
    ∃ pre w post, elements h = pre ++ (k, w) :: post ∧ elements (assign h k v) = pre ++ (k, v) :: post

namespace Multimap

variable {H κ ν : Type} [Multimap H κ ν] {h : H} {es : List (κ × ν)} {k k' : κ} {v v' : ν}

def emplaceAll (h : H) (es : List (κ × ν)) : H := es.foldl (fun h e => emplace h e.1 e.2) h

theorem perm_emplaceAll (h : H) (es : List (κ × ν)) : (elements (emplaceAll h es)).Perm (es ++ elements h) := by
  induction es generalizing h with
  | nil => exact List.Perm.refl _
  | cons e es ih =>
    have hmiddle : (es ++ e :: elements h).Perm (e :: (es ++ elements h)) := List.perm_middle
    have hput : (es ++ elements (emplace h e.1 e.2)).Perm (es ++ e :: elements h) :=
      (perm_emplace h e.1 e.2).append_left es
    exact (ih _).trans (hput.trans hmiddle)

variable [BEq κ] [LawfulBEq κ]

def contains (h : H) (k : κ) : Bool := (elements h).any fun e => e.1 == k

/-- Give the key this value. -/
def set (h : H) (k : κ) (v : ν) : H := if contains h k then assign h k v else emplace h k v

theorem contains_iff : contains h k = true ↔ k ∈ (elements h).map Prod.fst := by
  simp [contains, List.any_eq_true]

/-- A key that is there keeps its place, a new one gets a place; either way it has the value now. -/
theorem elements_set (h : H) (k : κ) (v : ν) :
    (∃ pre w post, elements h = pre ++ (k, w) :: post ∧ elements (set h k v) = pre ++ (k, v) :: post) ∨
      k ∉ (elements h).map Prod.fst ∧ (elements (set h k v)).Perm ((k, v) :: elements h) := by
  by_cases hk : contains h k = true
  · left
    rw [set, if_pos hk]
    exact elements_assign h k v (contains_iff.mp hk)
  · right
    rw [set, if_neg hk]
    exact ⟨fun hmem => hk (contains_iff.mpr hmem), perm_emplace h k v⟩

theorem nodup_set (hnodup : ((elements h).map Prod.fst).Nodup) : ((elements (set h k v)).map Prod.fst).Nodup := by
  rcases elements_set h k v with ⟨pre, w, post, hold, hnew⟩ | ⟨hfresh, hperm⟩
  · rw [hold, List.map_append, List.map_cons] at hnodup
    rwa [hnew, List.map_append, List.map_cons]
  · rw [(hperm.map Prod.fst).nodup_iff, List.map_cons, List.nodup_cons]
    exact ⟨hfresh, hnodup⟩

theorem mem_set (hnodup : ((elements h).map Prod.fst).Nodup) :
    (k', v') ∈ elements (set h k v) ↔ k' = k ∧ v' = v ∨ k' ≠ k ∧ (k', v') ∈ elements h := by
  -- nothing else has this key
  rcases elements_set h k v with ⟨pre, w, post, hold, hnew⟩ | ⟨hfresh, hperm⟩
  · rw [hold, List.map_append, List.map_cons, List.nodup_middle, List.nodup_cons, ← List.map_append] at hnodup
    have hkey : k ∉ (pre ++ post).map Prod.fst := hnodup.1
    have hrest : ∀ u, (k, u) ∉ pre ++ post := fun u hmem => hkey (List.mem_map_of_mem hmem)
    simp only [List.mem_append, not_or] at hrest
    rw [hold, hnew, List.mem_append, List.mem_append, List.mem_cons, List.mem_cons]
    by_cases hk : k' = k
    · subst hk
      simp [hrest]
    · simp [hk]
  · have hnone : ∀ u, (k, u) ∉ elements h := fun u hmem => hfresh (List.mem_map_of_mem hmem)
    rw [hperm.mem_iff, List.mem_cons, Prod.mk.injEq]
    by_cases hk : k' = k
    · subst hk
      simp [hnone]
    · simp [hk]

/-- The keys are distinct, and each has the last value that the list has for it. -/
structure Latest (h : H) (es : List (κ × ν)) : Prop where
  nodup : ((elements h).map Prod.fst).Nodup
  mem_iff : ∀ k v, (k, v) ∈ elements h ↔ es.reverse.lookup k = some v

omit [LawfulBEq κ] in
theorem latest_empty : Latest (empty : H) [] where
  nodup := by
    rw [elements_empty]
    exact List.nodup_nil
  mem_iff := fun k v => by
    rw [elements_empty]
    exact iff_of_false List.not_mem_nil (Option.some_ne_none v).symm

theorem Latest.set (hlatest : Latest h es) : Latest (set h k v) (es ++ [(k, v)]) where
  nodup := nodup_set hlatest.nodup
  mem_iff := fun k' v' => by
    rw [mem_set hlatest.nodup, List.reverse_append, List.reverse_singleton, List.singleton_append, List.lookup_cons,
      hlatest.mem_iff]
    by_cases hk : k' = k
    · rw [beq_iff_eq.mpr hk]
      simp [hk, eq_comm]
    · rw [beq_eq_false_iff_ne.mpr hk]
      simp [hk]

end Multimap

/-! ## A list as a multimap -/

namespace Multimap

section Lists
variable {κ ν : Type} [BEq κ] [LawfulBEq κ]

/-- An element comes behind the first one with its key, or to the end. -/
def insertBehind : List (κ × ν) → κ → ν → List (κ × ν)
  | [], k, v => [(k, v)]
  | e :: es, k, v => if e.1 == k then e :: (k, v) :: es else e :: insertBehind es k v

/-- The first element with this key gets the value. -/
def overwrite : List (κ × ν) → κ → ν → List (κ × ν)
  | [], _, _ => []
  | e :: es, k, v => if e.1 == k then (k, v) :: es else e :: overwrite es k v

omit [LawfulBEq κ] in
theorem perm_insertBehind (es : List (κ × ν)) (k : κ) (v : ν) : (insertBehind es k v).Perm ((k, v) :: es) := by
  induction es with
  | nil => exact List.Perm.refl _
  | cons e es ih =>
    rw [insertBehind]
    split
    · exact List.Perm.swap (k, v) e es
    · exact (ih.cons e).trans (List.Perm.swap (k, v) e es)

theorem overwrite_split (es : List (κ × ν)) (k : κ) (v : ν) (hk : k ∈ es.map Prod.fst) :
    ∃ pre w post, es = pre ++ (k, w) :: post ∧ overwrite es k v = pre ++ (k, v) :: post := by
  induction es with
  | nil => cases hk
  | cons e es ih =>
    rw [overwrite]
    by_cases he : e.1 = k
    · rw [if_pos (beq_iff_eq.mpr he)]
      exact ⟨[], e.2, es, by rw [← he]; rfl, rfl⟩
    · rw [if_neg fun heq => he (beq_iff_eq.mp heq)]
      obtain ⟨pre, w, post, hes, hnew⟩ := ih ((List.mem_cons.mp hk).resolve_left (Ne.symm he))
      exact ⟨e :: pre, w, post, by rw [hes]; rfl, by rw [hnew]; rfl⟩

/-- Lists that keep the elements of a key together. -/
instance instList : Multimap (List (κ × ν)) κ ν where
  empty := []
  emplace := insertBehind
  assign := overwrite
  elements := id
  elements_empty := rfl
  perm_emplace := perm_insertBehind
  elements_assign := overwrite_split

end Lists

end Multimap
