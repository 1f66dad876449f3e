import AuthProvValidator.Ports.Parser
import Mathlib.Data.List.GetD
import Mathlib.Order.Bounds.Defs

/-!
# The order of LDAP octets

`sortLDAPoctetString` goes through a text with a counter and three saved characters, and gives four characters out at
every fourth step. The counter and the length are `int`s there and natural numbers here: texts are shorter than
`2 ^ 31`.

* `SortState.next`, `sortLDAPoctetStringLoop` : the loop as it is written, from any saved characters;
* `sortLDAPoctetStringLoop_eq` : it computes `sortLDAPoctetString`, which the parser is modelled with;
* `sortLDAPoctetStringLoop_reorders` : it moves the characters of the padded text as `swapIndex` says, and loses none.
-/

namespace AuthProvValidator

/-! ## The loop -/

structure SortState where
  cPrev0 : Char
  cPrev1 : Char
  cPrev2 : Char
  i : Nat
  ordered : Str

def SortState.next (st : SortState) (c : Char) : SortState :=
  let switched :=
    match st.i % 4 with
    | 0 => { st with cPrev0 := c }
    | 1 => { st with cPrev1 := c }
    | 2 => { st with cPrev2 := c }
    | 3 => { st with ordered := st.ordered ++ [st.cPrev2, c, st.cPrev0, st.cPrev1] }
    | _ => st
  { switched with i := switched.i + 1 }

/-- The text with zeroes to the left, up to a multiple of four characters. -/
def fillWithZeroes (str : Str) : Str :=
  let L := str.length
  if L % 4 ≠ 0 then List.replicate (4 - L % 4) '0' ++ str else str

/-- `sortLDAPoctetString`, by its loop. The saved characters are not initialized. -/
def sortLDAPoctetStringLoop (cPrev0 cPrev1 cPrev2 : Char) (str : Str) : Str :=
  let dest := fillWithZeroes str
  (dest.foldl SortState.next ⟨cPrev0, cPrev1, cPrev2, 0, []⟩).ordered

section Loop
variable {st : SortState} {c0 c1 c2 c3 : Char}

theorem SortState.next_group (h : st.i % 4 = 0) :
    (((st.next c0).next c1).next c2).next c3 = ⟨c0, c1, c2, st.i + 4, st.ordered ++ [c2, c3, c0, c1]⟩ := by
  have h1 : (st.i + 1) % 4 = 1 := by omega
  have h2 : (st.i + 1 + 1) % 4 = 2 := by omega
  have h3 : (st.i + 1 + 1 + 1) % 4 = 3 := by omega
  simp only [SortState.next, h, h1, h2, h3]

theorem SortState.ordered_next (h : st.i % 4 ≠ 3) : (st.next c0).ordered = st.ordered := by
  unfold SortState.next
  dsimp only
  split
  · rfl
  · rfl
  · rfl
  · contradiction
  · rfl

theorem SortState.i_next : (st.next c0).i = st.i + 1 := by
  unfold SortState.next
  dsimp only
  split <;> rfl

/-- The loop gives the groups out with their halves swapped, one after the other. -/
theorem ordered_foldl_next (str : Str) (h : st.i % 4 = 0) :
    (str.foldl SortState.next st).ordered = st.ordered ++ swapHalves str := by
  induction str using swapHalves.induct generalizing st with
  | case1 c0 c1 c2 c3 rest ih =>
    have hgroup : (st.i + 4) % 4 = 0 := by omega
    rw [List.foldl_cons, List.foldl_cons, List.foldl_cons, List.foldl_cons, SortState.next_group h, ih hgroup,
      swapHalves, List.append_assoc]
    rfl
  | case2 str hshort =>
    -- fewer than four characters are left
    have hnone : swapHalves str = [] := by
      unfold swapHalves
      split
      · rename_i c0 c1 c2 c3 rest
        exact absurd rfl (hshort c0 c1 c2 c3 rest)
      · rfl
    rw [hnone, List.append_nil]
    rcases str with _ | ⟨a, _ | ⟨b, _ | ⟨c, _ | ⟨d, rest⟩⟩⟩⟩
    · rfl
    · exact SortState.ordered_next (by omega)
    · show ((st.next a).next b).ordered = st.ordered
      rw [SortState.ordered_next (by rw [SortState.i_next]; omega), SortState.ordered_next (by omega)]
    · show (((st.next a).next b).next c).ordered = st.ordered
      rw [SortState.ordered_next (by rw [SortState.i_next, SortState.i_next]; omega),
        SortState.ordered_next (by rw [SortState.i_next]; omega), SortState.ordered_next (by omega)]
    · exact absurd rfl (hshort a b c d rest)

/-- **The loop computes the order of octets that the parser uses.** -/
theorem sortLDAPoctetStringLoop_eq (c0 c1 c2 : Char) (str : Str) :
    sortLDAPoctetStringLoop c0 c1 c2 str = sortLDAPoctetString str :=
  ordered_foldl_next (fillWithZeroes str) rfl

end Loop

/-! ## Groups of four characters -/

/-- Where the character at a position comes from: the other half of its group. -/
def swapIndex (k : Nat) : Nat := if k % 4 < 2 then k + 2 else k - 2

theorem swapIndex_add_four (k : Nat) : swapIndex (k + 4) = swapIndex k + 4 := by
  unfold swapIndex
  split_ifs <;> omega

section Groups
variable {str : Str}

theorem getElem?_swapHalves (h : 4 ∣ str.length) (k : Nat) : (swapHalves str)[k]? = str[swapIndex k]? := by
  induction str using swapHalves.induct generalizing k with
  | case1 c0 c1 c2 c3 rest ih =>
    rw [swapHalves]
    rcases k with _ | _ | _ | _ | k
    · rfl
    · rfl
    · rfl
    · rfl
    · rw [swapIndex_add_four]
      exact ih (groups_tail h) k
  | case2 str hshort =>
    rw [eq_nil_of_groups h hshort]
    rfl

theorem swapHalves_swapHalves (h : 4 ∣ str.length) : swapHalves (swapHalves str) = str := by
  induction str using swapHalves.induct with
  | case1 c0 c1 c2 c3 rest ih => rw [swapHalves, swapHalves, ih (groups_tail h)]
  | case2 str hshort =>
    rw [eq_nil_of_groups h hshort]
    rfl

/-- The padded text has the least number of whole groups that hold the text. -/
theorem isLeast_length_fillWithZeroes (str : Str) :
    IsLeast {m | 4 ∣ m ∧ str.length ≤ m} (fillWithZeroes str).length := by
  unfold fillWithZeroes
  dsimp only
  by_cases hL : str.length % 4 ≠ 0
  · rw [if_pos hL, List.length_append, List.length_replicate]
    refine ⟨⟨by omega, by omega⟩, fun m hm => ?_⟩
    obtain ⟨hdvd, hle⟩ := hm
    omega
  · rw [if_neg hL]
    exact ⟨⟨by omega, le_refl _⟩, fun m hm => hm.2⟩

theorem leftpad_fillWithZeroes (str : Str) : List.leftpad (fillWithZeroes str).length '0' str = fillWithZeroes str := by
  unfold fillWithZeroes List.leftpad
  dsimp only
  split
  · rw [List.length_append, List.length_replicate, Nat.add_sub_cancel]
  · rw [Nat.sub_self]
    rfl

end Groups

/-- **The order of octets.** The text is padded to the left with zeroes to the least multiple of four characters, and
each character is moved to the other half of its group; none is lost, and moving the characters of a text of whole
groups twice gives it back. The loop does so whatever the saved characters are, and is what the parser is modelled
with. -/
theorem sortLDAPoctetStringLoop_reorders (c0 c1 c2 : Char) (s : Str) :
    (∀ t, sortLDAPoctetStringLoop c0 c1 c2 t = sortLDAPoctetString t) ∧
    ∃ n, IsLeast {m | 4 ∣ m ∧ s.length ≤ m} n ∧ (sortLDAPoctetStringLoop c0 c1 c2 s).length = n ∧
      (∀ k, (sortLDAPoctetStringLoop c0 c1 c2 s)[k]? = (List.leftpad n '0' s)[swapIndex k]?) ∧
      (sortLDAPoctetStringLoop c0 c1 c2 s).Perm (List.leftpad n '0' s) ∧
      (4 ∣ s.length → ∀ d0 d1 d2, sortLDAPoctetStringLoop d0 d1 d2 (sortLDAPoctetStringLoop c0 c1 c2 s) = s) := by
  have hleast := isLeast_length_fillWithZeroes s
  have hgroups : 4 ∣ (fillWithZeroes s).length := hleast.1.1
  have hsorted : ∀ d0 d1 d2 t, sortLDAPoctetStringLoop d0 d1 d2 t = swapHalves (fillWithZeroes t) := by
    intro d0 d1 d2 t
    rw [sortLDAPoctetStringLoop_eq]
    rfl
  have hperm := perm_swapHalves hgroups
  refine ⟨sortLDAPoctetStringLoop_eq c0 c1 c2, (fillWithZeroes s).length, hleast, ?_, fun k => ?_, ?_,
    fun hwhole d0 d1 d2 => ?_⟩
  · rw [hsorted, hperm.length_eq]
  · rw [hsorted, leftpad_fillWithZeroes, getElem?_swapHalves hgroups]
  · rw [hsorted, leftpad_fillWithZeroes]
    exact hperm
  · -- a text of whole groups is not padded, neither before nor after
    have hfill : ∀ t : Str, 4 ∣ t.length → fillWithZeroes t = t := by
      intro t ht
      exact if_neg (by omega)
    rw [hsorted, hsorted, hfill s hwhole]
    have hlength : 4 ∣ (swapHalves s).length := by
      rw [(perm_swapHalves hwhole).length_eq]
      exact hwhole
    rw [hfill _ hlength, swapHalves_swapHalves hwhole]

example : sortLDAPoctetStringLoop 'x' 'y' 'z' "23016745AB89" = "0123456789AB".toList := by decide

theorem sortLDAPoctetStringLoop_reorders_example :
    sortLDAPoctetStringLoop 'x' 'y' 'z' (sortLDAPoctetStringLoop 'x' 'y' 'z' "23016745AB89") =
      "23016745AB89".toList := by
  obtain ⟨-, n, -, -, -, -, htwice⟩ := sortLDAPoctetStringLoop_reorders 'x' 'y' 'z' "23016745AB89"
  exact htwice (by decide) 'x' 'y' 'z'

end AuthProvValidator
