import AuthProvValidator.Base.Regex
import Mathlib.Computability.Language
import Mathlib.Data.List.Chain

/-!
# Replacing what an expression reads

An expression without anchors reads the words of a language, and replacing its hits rewrites words of this language
from the left.

* `Reads r X` : the hits of `r` are the words of `X`, wherever they stand;
* `Expr.replace r fmt s` : each hit is replaced, one after the other from the left. An expression that reads the empty
  word replaces nothing where it does;
* `Absent X s` : no word of `X` is part of `s`;
* `Replaces X fmt s out` : words of `X` were replaced in `s`, and where none starts a letter was copied;
* `Replaces.absent_of_masks` : where letters are only overwritten by a mark, no word is left;
* `Replaces.absent_iff_linked` : where words can share their last letter with the next one, none is left exactly when
  no two words were linked so (`Linked X`).
-/

namespace Regex

/-! ## What an expression reads -/

/-- An expression without anchors reads the words of `X`. -/
def Reads (r : Expr) (X : Language Char) : Prop :=
  ∀ p s w t, (∃ h ∈ r.hits p s, h.consumed = w ∧ h.rest = t) ↔ w ∈ X ∧ s = w ++ t

def oneWord (w : List Char) : Language Char := {v | v = w}

def loopWords (lo : Nat) (hi : Option Nat) (cls : Char → Bool) : Language Char :=
  {w | (∀ c ∈ w, cls c = true) ∧ lo ≤ w.length ∧ ∀ m ∈ hi, w.length ≤ m}

section Reads
variable {r t : Expr} {X Y : Language Char} {p : Option Char} {s : List Char}

theorem reads_lit (w : List Char) : Reads (.lit w) (oneWord w) := by
  intro p s v u
  simp only [mem_hits_lit]
  constructor
  · rintro ⟨_, ⟨u', rfl, rfl⟩, rfl, rfl⟩
    exact ⟨rfl, rfl⟩
  · rintro ⟨rfl, rfl⟩
    exact ⟨_, ⟨u, rfl, rfl⟩, rfl, rfl⟩

theorem reads_many (greedy : Bool) (lo : Nat) (hi : Option Nat) (cls : Char → Bool) :
    Reads (.many greedy lo hi cls) (loopWords lo hi cls) := by
  intro p s w u
  simp only [mem_hits_many]
  constructor
  · rintro ⟨_, ⟨w', u', rfl, hcls, hlo, hhi, rfl⟩, rfl, rfl⟩
    exact ⟨⟨hcls, hlo, hhi⟩, rfl⟩
  · rintro ⟨⟨hcls, hlo, hhi⟩, rfl⟩
    exact ⟨_, ⟨w, u, rfl, hcls, hlo, hhi, rfl⟩, rfl, rfl⟩

theorem Reads.seq (hr : Reads r X) (ht : Reads t Y) : Reads (.seq r t) (X * Y) := by
  intro p s w u
  rw [Language.mem_mul]
  constructor
  · rintro ⟨h, hh, rfl, rfl⟩
    obtain ⟨a, ha, b, hb, rfl⟩ := mem_hits_seq.mp hh
    obtain ⟨haX, hs⟩ := (hr p s _ _).mp ⟨a, ha, rfl, rfl⟩
    obtain ⟨hbY, hrest⟩ := (ht _ _ _ _).mp ⟨b, hb, rfl, rfl⟩
    refine ⟨⟨_, haX, _, hbY, rfl⟩, ?_⟩
    rw [hs, hrest, ← List.append_assoc]
    rfl
  · rintro ⟨⟨v, hv, v', hv', rfl⟩, rfl⟩
    obtain ⟨a, ha, hav, harest⟩ := (hr p (v ++ v' ++ u) v (v' ++ u)).mpr ⟨hv, List.append_assoc v v' u⟩
    obtain ⟨b, hb, hbv, hbrest⟩ := (ht (before p a.consumed) a.rest v' u).mpr ⟨hv', harest⟩
    refine ⟨a.followedBy b, mem_hits_seq.mpr ⟨a, ha, b, hb, rfl⟩, ?_, hbrest⟩
    rw [Hit.followedBy, hav, hbv]

theorem Reads.alt (hr : Reads r X) (ht : Reads t Y) : Reads (.alt r t) (X + Y) := by
  intro p s w u
  rw [Language.mem_add]
  simp only [mem_hits_alt, or_and_right, exists_or]
  exact or_congr (hr p s w u) (ht p s w u)

theorem Reads.group (n : Nat) (hr : Reads r X) : Reads (.group n r) X := by
  intro p s w u
  rw [← hr p s w u]
  constructor
  · rintro ⟨h, hh, rfl, rfl⟩
    obtain ⟨a, ha, rfl⟩ := mem_hits_group.mp hh
    exact ⟨a, ha, rfl, rfl⟩
  · rintro ⟨a, ha, rfl, rfl⟩
    exact ⟨_, mem_hits_group.mpr ⟨a, ha, rfl⟩, rfl, rfl⟩

theorem Reads.congr (hr : Reads r X) (h : ∀ w, w ∈ Y ↔ w ∈ X) : Reads r Y := fun p s w u =>
  (hr p s w u).trans (and_congr_left fun _ => (h w).symm)

/-- The whole texts that it accepts are the words. -/
theorem Reads.fullMatch_iff (hr : Reads r X) : (r.fullMatch s).isSome = true ↔ s ∈ X := by
  rw [fullMatch_isSome]
  constructor
  · intro h
    obtain ⟨a, ha, hrest⟩ := h
    obtain ⟨hX, hs⟩ := (hr none s a.consumed []).mp ⟨a, ha, rfl, hrest⟩
    rw [List.append_nil] at hs
    rw [hs]
    exact hX
  · intro h
    obtain ⟨a, ha, -, hrest⟩ := (hr none s s []).mpr ⟨h, (List.append_nil s).symm⟩
    exact ⟨a, ha, hrest⟩

end Reads

/-! ## Replacing from the left -/

/-- The text from a position on, after `skip` characters that were replaced with a hit before. -/
def Expr.replaceFrom (r : Expr) (fmt : List Char → List Char) : Option Char → Nat → List Char → List Char
  | _, _, [] => []
  | _, skip + 1, c :: s => r.replaceFrom fmt (some c) skip s
  | p, 0, c :: s =>
      match (r.hits p (c :: s)).head? with
      | some h =>
          if h.consumed.isEmpty then c :: r.replaceFrom fmt (some c) 0 s
          else fmt h.consumed ++ r.replaceFrom fmt (some c) (h.consumed.length - 1) s
      | none => c :: r.replaceFrom fmt (some c) 0 s

/-- Each hit of `r`, from the left and without overlaps, is replaced by what `fmt` makes of it. -/
def Expr.replace (r : Expr) (fmt : List Char → List Char) (s : List Char) : List Char := r.replaceFrom fmt none 0 s

/-- Words of `X` were replaced from the left; a letter was only copied where no word starts. -/
inductive Replaces {α : Type} (X : Language α) (fmt : List α → List α) : List α → List α → Prop where
  | nil : Replaces X fmt [] []
  | hit {x s out : List α} (hx : x ∈ X) (rest : Replaces X fmt s out) : Replaces X fmt (x ++ s) (fmt x ++ out)
  | copy {a : α} {s out : List α} (hnone : ∀ x ∈ X, ¬ x <+: a :: s) (rest : Replaces X fmt s out) :
      Replaces X fmt (a :: s) (a :: out)

section Replace
variable {r : Expr} {fmt : List Char → List Char} {X : Language Char}

/-- What is skipped does not count. -/
theorem exists_replaceFrom_append (p : Option Char) (x s : List Char) :
    ∃ q, r.replaceFrom fmt p x.length (x ++ s) = r.replaceFrom fmt q 0 s := by
  induction x generalizing p with
  | nil => exact ⟨p, rfl⟩
  | cons c x ih =>
    obtain ⟨q, hq⟩ := ih (some c)
    refine ⟨q, ?_⟩
    rw [List.length_cons, List.cons_append, Expr.replaceFrom]
    exact hq

theorem replaces_replaceFrom (hr : Reads r X) (hne : [] ∉ X) (n : Nat) :
    ∀ p s, s.length ≤ n → Replaces X fmt s (r.replaceFrom fmt p 0 s) := by
  induction n with
  | zero =>
    intro p s hs
    obtain rfl := List.length_eq_zero_iff.mp (by omega : s.length = 0)
    exact .nil
  | succ n ih =>
    intro p s hs
    cases s with
    | nil => exact .nil
    | cons c s =>
      have hlen : s.length ≤ n := by
        rw [List.length_cons] at hs
        omega
      rw [Expr.replaceFrom]
      cases hhead : (r.hits p (c :: s)).head? with
      | none =>
        refine .copy (fun x hx hbegin => ?_) (ih _ s hlen)
        obtain ⟨u, hu⟩ := hbegin
        obtain ⟨h, hh, -⟩ := (hr p (c :: s) x u).mpr ⟨hx, hu.symm⟩
        rw [List.head?_eq_none_iff.mp hhead] at hh
        exact List.not_mem_nil hh
      | some h =>
        obtain ⟨hX, hs'⟩ := (hr p (c :: s) h.consumed h.rest).mp ⟨h, List.mem_of_mem_head? hhead, rfl, rfl⟩
        cases hx : h.consumed with
        | nil =>
          rw [hx] at hX
          exact absurd hX hne
        | cons d x =>
          rw [hx] at hX hs'
          obtain ⟨rfl, hsplit⟩ := List.cons.inj hs'
          obtain ⟨q, hq⟩ := @exists_replaceFrom_append r fmt (some c) x h.rest
          have hrest : h.rest.length ≤ n := by
            have hlength := congrArg List.length hsplit
            simp only [List.append_eq, List.length_append] at hlength
            omega
          have hskip : r.replaceFrom fmt (some c) x.length s = r.replaceFrom fmt q 0 h.rest := by
            rw [← hq, hsplit]
            rfl
          simp only [hx, List.isEmpty_cons, Bool.false_eq_true, if_false, List.length_cons,
            Nat.add_sub_cancel, hskip, hs']
          exact .hit hX (ih q h.rest hrest)

/-- **Replacing the hits of an expression replaces the words that it reads.** -/
theorem replaces_replace (hr : Reads r X) (hne : [] ∉ X) (s : List Char) : Replaces X fmt s (r.replace fmt s) :=
  replaces_replaceFrom hr hne s.length none s (Nat.le_refl _)

end Replace

/-! ## Words that are not there -/

variable {α : Type} {X Y : Language α} {fmt : List α → List α} {s t out u v w : List α} {a b m : α}

/-- No word of `X` is part of the text. -/
def Absent (X : Language α) (s : List α) : Prop := ∀ x ∈ X, ¬ x <:+: s

theorem absent_nil (hne : [] ∉ X) : Absent X [] := by
  intro x hx hpart
  rw [List.infix_nil.mp hpart] at hx
  exact hne hx

theorem absent_cons : Absent X (a :: s) ↔ (∀ x ∈ X, ¬ x <+: a :: s) ∧ Absent X s := by
  unfold Absent
  rw [← forall₂_and]
  refine forall₂_congr fun x _ => ?_
  rw [List.infix_cons_iff, not_or]

theorem Absent.of_append (h : Absent X (u ++ s)) : Absent X s := fun x hx hpart =>
  h x hx (hpart.trans (List.suffix_append u s).isInfix)

theorem Absent.not_prefix (h : Absent X s) : ∀ x ∈ X, ¬ x <+: s := fun x hx hbegin => h x hx hbegin.isInfix

theorem Absent.append_of_heads (h : Absent X s) (hne : [] ∉ X) (hu : ∀ a ∈ u, ∀ x ∈ X, x.head? ≠ some a) :
    Absent X (u ++ s) := by
  induction u with
  | nil => exact h
  | cons a u ih =>
    rw [List.forall_mem_cons] at hu
    rw [List.cons_append, absent_cons]
    refine ⟨fun x hx hbegin => ?_, ih hu.2⟩
    rcases List.prefix_cons_iff.mp hbegin with rfl | ⟨x', rfl, -⟩
    · exact hne hx
    · exact hu.1 _ hx rfl

/-- A text up to a mark that no word has, where each word has a letter that the text has not. -/
theorem Absent.append_mark (h : Absent X s) (hm : ∀ x ∈ X, m ∉ x) (hu : ∀ x ∈ X, ∃ a ∈ x, a ∉ u) :
    Absent X (u ++ m :: s) := by
  induction u with
  | nil =>
    rw [List.nil_append, absent_cons]
    refine ⟨fun x hx hbegin => ?_, h⟩
    obtain ⟨a, ha, -⟩ := hu x hx
    rcases List.prefix_cons_iff.mp hbegin with rfl | ⟨x', rfl, -⟩
    · exact List.not_mem_nil ha
    · exact hm _ hx List.mem_cons_self
  | cons b u ih =>
    have hrest : ∀ x ∈ X, ∃ a ∈ x, a ∉ u := by
      intro x hx
      obtain ⟨a, ha, hnot⟩ := hu x hx
      exact ⟨a, ha, fun hmem => hnot (List.mem_cons_of_mem b hmem)⟩
    rw [List.cons_append, absent_cons]
    refine ⟨fun x hx hbegin => ?_, ih hrest⟩
    obtain ⟨a, ha, hnot⟩ := hu x hx
    rw [← List.cons_append] at hbegin
    -- the word ends before the mark, or has it
    rcases List.prefix_or_prefix_of_prefix hbegin (List.prefix_append (b :: u) (m :: s)) with hshort | hlong
    · exact hnot (hshort.subset ha)
    · obtain ⟨x', rfl⟩ := hlong
      rw [List.prefix_append_right_inj] at hbegin
      rcases List.prefix_cons_iff.mp hbegin with rfl | ⟨x'', rfl, -⟩
      · rw [List.append_nil] at ha
        exact hnot ha
      · exact hm _ hx (List.mem_append_right _ List.mem_cons_self)

theorem Replaces.eq_of_absent (h : Replaces X fmt s out) (hs : Absent X s) : out = s := by
  induction h with
  | nil => rfl
  | hit hx rest ih => exact absurd (List.prefix_append _ _) (hs.not_prefix _ hx)
  | copy hnone rest ih => rw [ih (absent_cons.mp hs).2]

/-! ## Masks -/

/-- Some letters are overwritten by a mark. -/
def Masks (m : α) (s out : List α) : Prop := List.Forall₂ (fun a b => b = a ∨ b = m) s out

/-- What has no mark was there before, in the same place. -/
theorem Masks.prefix_of_prefix (h : Masks m s out) (hw : m ∉ w) (hbegin : w <+: out) : w <+: s := by
  induction h generalizing w with
  | nil => exact hbegin
  | cons hab rest ih =>
    rcases List.prefix_cons_iff.mp hbegin with rfl | ⟨w', rfl, hw'⟩
    · exact List.nil_prefix
    · rw [List.mem_cons, not_or] at hw
      rcases hab with rfl | rfl
      · exact List.cons_prefix_cons.mpr ⟨rfl, ih hw.2 hw'⟩
      · exact absurd rfl hw.1

theorem Masks.refl (s : List α) : Masks m s s := List.forall₂_same.mpr fun _ _ => Or.inl rfl

theorem Masks.mem (h : Masks m s out) (ha : a ∈ out) : a ∈ s ∨ a = m := by
  induction h with
  | nil => exact absurd ha List.not_mem_nil
  | cons hab rest ih =>
    rcases List.mem_cons.mp ha with rfl | ha
    · rcases hab with rfl | rfl
      · exact Or.inl List.mem_cons_self
      · exact Or.inr rfl
    · exact (ih ha).imp_left (List.mem_cons_of_mem _)

theorem Absent.of_masks (h : Absent Y s) (hmasks : Masks m s out) (hY : ∀ y ∈ Y, m ∉ y) : Absent Y out := by
  induction hmasks with
  | nil => exact h
  | cons hab rest ih =>
    rw [absent_cons] at h ⊢
    refine ⟨fun y hy hbegin => ?_, ih h.2⟩
    exact h.1 y hy (Masks.prefix_of_prefix (.cons hab rest) (hY y hy) hbegin)

theorem Replaces.masks (h : Replaces X fmt s out) (hfmt : ∀ x ∈ X, Masks m x (fmt x)) : Masks m s out := by
  induction h with
  | nil => exact .nil
  | hit hx rest ih => exact List.rel_append (hfmt _ hx) ih
  | copy hnone rest ih => exact .cons (Or.inl rfl) ih

/-- **Replacing by masks leaves no word**, where none starts within what a word is replaced by. -/
theorem Replaces.absent_of_masks (h : Replaces X fmt s out) (hne : [] ∉ X) (hm : ∀ x ∈ X, m ∉ x)
    (hfmt : ∀ x ∈ X, Masks m x (fmt x)) (hstart : ∀ x ∈ X, ∀ t, Absent X t → Absent X (fmt x ++ t)) : Absent X out := by
  induction h with
  | nil => exact absent_nil hne
  | hit hx rest ih => exact hstart _ hx _ ih
  | copy hnone rest ih =>
    refine absent_cons.mpr ⟨fun x hx hbegin => ?_, ih⟩
    have hmasks := Replaces.masks (.copy hnone rest) hfmt
    exact hnone x hx (hmasks.prefix_of_prefix (hm x hx) hbegin)

/-- A text that ends in a letter that no word has, and lacks one that each word has, is kept. -/
theorem Replaces.prefix_kept {q d : α} (h : Replaces X fmt s out) (hX : ∀ x ∈ X, d ∈ x ∧ q ∉ x) (hd : d ∉ w)
    (hq : ∀ a, w.getLast? = some a → a = q) (hbegin : w <+: s) : w <+: out := by
  induction h generalizing w with
  | nil => exact hbegin
  | hit hx rest ih =>
    obtain ⟨hdx, hqx⟩ := hX _ hx
    rcases List.prefix_or_prefix_of_prefix hbegin (List.prefix_append _ _) with hshort | hlong
    · cases hlast : w.getLast? with
      | none =>
        rw [List.getLast?_eq_none_iff.mp hlast]
        exact List.nil_prefix
      | some a =>
        have hmem := hshort.subset (List.mem_of_getLast? hlast)
        rw [hq a hlast] at hmem
        exact absurd hmem hqx
    · exact absurd (hlong.subset hdx) hd
  | copy hnone rest ih =>
    rcases List.prefix_cons_iff.mp hbegin with rfl | ⟨w', rfl, hw'⟩
    · exact List.nil_prefix
    · rw [List.mem_cons, not_or] at hd
      refine List.cons_prefix_cons.mpr ⟨rfl, ih hd.2 (fun a ha => hq a ?_) hw'⟩
      rw [List.getLast?_cons, ha]
      rfl

/-- **Words that are framed by a letter that no replaced word has are kept as they are**: none is lost by a mask, and
none is made. -/
theorem Replaces.absent_iff_framed {q d : α} (h : Replaces X fmt s out) (hfmt : ∀ x ∈ X, Masks m x (fmt x))
    (hX : ∀ x ∈ X, d ∈ x ∧ q ∉ x)
    (hY : ∀ y ∈ Y, m ∉ y ∧ d ∉ y ∧ y.head? = some q ∧ y.getLast? = some q) : Absent Y out ↔ Absent Y s := by
  constructor
  · intro hout
    induction h with
    | nil => exact hout
    | hit hx rest ih =>
      have hne : [] ∉ Y := fun hnil => absurd (hY [] hnil).2.2.1 (by simp)
      refine (ih hout.of_append).append_of_heads hne fun a ha y hy hhead => ?_
      rw [(hY y hy).2.2.1] at hhead
      obtain rfl := Option.some.inj hhead
      exact (hX _ hx).2 ha
    | copy hnone rest ih =>
      rw [absent_cons] at hout ⊢
      refine ⟨fun y hy hbegin => ?_, ih hout.2⟩
      obtain ⟨-, hd, -, hlast⟩ := hY y hy
      have hq : ∀ a, y.getLast? = some a → a = q := fun a ha => Option.some.inj (ha.symm.trans hlast)
      exact hout.1 y hy (Replaces.prefix_kept (.copy hnone rest) hX hd hq hbegin)
  · intro hs
    exact hs.of_masks (h.masks hfmt) fun y hy => (hY y hy).1

/-! ## Words that share a letter -/

/-- Two words of `X`, the second of which starts with the last letter of the first. -/
def Linked (X : Language α) : Language α := {y | ∃ v a w, v ++ [a] ∈ X ∧ a :: w ∈ X ∧ y = v ++ a :: w}

section Linked
variable {R : α → α → Prop}

/-- Two texts start with the same two letters, which do not follow each other by `R`. -/
def SameStart (R : α → α → Prop) (x y : List α) : Prop := ∃ a b u v, x = a :: b :: u ∧ y = a :: b :: v ∧ ¬ R a b

theorem Replaces.prefix_iff (h : Replaces X fmt s out) (hstart : ∀ x ∈ X, SameStart R x (fmt x)) (hw : w.IsChain R) :
    w <+: out ↔ w <+: s := by
  induction h generalizing w with
  | nil => exact Iff.rfl
  | hit hx rest ih =>
    obtain ⟨a, b, u, v, hxab, hfab, hR⟩ := hstart _ hx
    rw [hfab, hxab]
    match w, hw with
    | [], _ => exact iff_of_true List.nil_prefix List.nil_prefix
    | [c], _ =>
      simp only [List.cons_append, List.cons_prefix_cons]
      exact and_congr_right fun _ => iff_of_true List.nil_prefix List.nil_prefix
    | c :: d :: w, hw =>
      -- the first two letters would be those of a word
      have hcd : R c d := (List.isChain_cons_cons.mp hw).1
      simp only [List.cons_append, List.cons_prefix_cons]
      apply iff_of_false
      · rintro ⟨rfl, rfl, -⟩
        exact hR hcd
      · rintro ⟨rfl, rfl, -⟩
        exact hR hcd
  | copy hnone rest ih =>
    cases w with
    | nil => exact iff_of_true List.nil_prefix List.nil_prefix
    | cons c w =>
      have htail : w.IsChain R := hw.tail
      rw [List.cons_prefix_cons, List.cons_prefix_cons, ih htail]

theorem Replaces.cons_prefix_iff (h : Replaces X fmt s out) (hstart : ∀ x ∈ X, SameStart R x (fmt x))
    (hw : w.tail.IsChain R) : w <+: a :: out ↔ w <+: a :: s := by
  cases w with
  | nil => exact iff_of_true List.nil_prefix List.nil_prefix
  | cons c w =>
    rw [List.cons_prefix_cons, List.cons_prefix_cons]
    exact and_congr_right fun _ => h.prefix_iff hstart hw

/-- **Words whose letters follow each other by `R` stay absent**, where none starts within what a word is replaced by.
-/
theorem Replaces.absent_of_chain (h : Replaces X fmt s out) (hstart : ∀ x ∈ X, SameStart R x (fmt x))
    (hY : ∀ y ∈ Y, y.IsChain R) (hfmt : ∀ x ∈ X, ∀ t, Absent Y t → Absent Y (fmt x ++ t)) (hs : Absent Y s) :
    Absent Y out := by
  induction h with
  | nil => exact hs
  | hit hx rest ih => exact hfmt _ hx _ (ih hs.of_append)
  | copy hnone rest ih =>
    rw [absent_cons] at hs ⊢
    refine ⟨fun y hy hbegin => ?_, ih hs.2⟩
    exact hs.1 y hy ((Replaces.prefix_iff (.copy hnone rest) hstart (hY y hy)).mp hbegin)

theorem prefix_append_cons : v ++ [a] <+: v ++ a :: s := ⟨s, by rw [List.append_assoc, List.singleton_append]⟩

theorem exists_prefix_of_linked (h : w ∈ Linked X) : ∃ x ∈ X, x <+: w := by
  obtain ⟨v, a, w', hv, -, rfl⟩ := h
  exact ⟨v ++ [a], hv, prefix_append_cons⟩

theorem nil_not_mem_linked : [] ∉ Linked X := by
  intro h
  obtain ⟨v, a, w, -, -, hnil⟩ := h
  exact absurd hnil.symm (List.append_ne_nil_of_right_ne_nil v (List.cons_ne_nil a w))

/-- A word does not start where the first two letters follow each other by `R`. -/
theorem SameStart.not_start {x y : List α} (h : SameStart R x y) (hchain : (b :: (u ++ [a])).IsChain R) :
    ¬ x <+: b :: u ++ a :: s := by
  obtain ⟨c, d, w, -, rfl, -, hR⟩ := h
  intro hbegin
  cases u with
  | nil =>
    simp only [List.nil_append, List.cons_append, List.cons_prefix_cons] at hbegin
    obtain ⟨rfl, rfl, -⟩ := hbegin
    exact hR (List.isChain_cons_cons.mp hchain).1
  | cons e u =>
    simp only [List.cons_append, List.cons_prefix_cons] at hbegin
    obtain ⟨rfl, rfl, -⟩ := hbegin
    exact hR (List.isChain_cons_cons.mp hchain).1

theorem isChain_of_suffix (htail : (v ++ [a]).tail.IsChain R) (hu : u <:+ v) (hne : u ≠ v) : (u ++ [a]).IsChain R := by
  obtain ⟨k, hk⟩ := hu
  cases k with
  | nil => exact absurd hk hne
  | cons d k =>
    rw [← hk] at htail
    simp only [List.cons_append, List.tail_cons, List.append_assoc] at htail
    exact htail.suffix (List.suffix_append k _)

theorem eq_of_starts {x y : List α} (hcode : ∀ x ∈ X, ∀ y ∈ X, x <+: y → x = y) (hx : x ∈ X) (hy : y ∈ X)
    (hxs : x <+: s) (hys : y <+: s) : x = y := by
  rcases List.prefix_or_prefix_of_prefix hxs hys with hle | hle
  · exact hcode _ hx _ hy hle
  · exact (hcode _ hy _ hx hle).symm

theorem absent_linked_append (hcode : ∀ x ∈ X, ∀ y ∈ X, x <+: y → x = y)
    (hstart : ∀ x ∈ X, SameStart R x (fmt x)) (htail : ∀ x ∈ X, x.tail.IsChain R) (hx : v ++ [a] ∈ X) :
    Absent (Linked X) (v ++ a :: s) ↔ (∀ y ∈ X, ¬ y <+: a :: s) ∧ Absent (Linked X) s := by
  constructor
  · intro h
    refine ⟨fun y hy hbegin => ?_, ?_⟩
    · obtain ⟨c, d, w, -, rfl, -⟩ := hstart y hy
      obtain ⟨rfl, hw⟩ := List.cons_prefix_cons.mp hbegin
      refine h.not_prefix (v ++ c :: d :: w) ⟨v, c, d :: w, hx, hy, rfl⟩ ?_
      rw [List.prefix_append_right_inj]
      exact hbegin
    · rw [← List.singleton_append, ← List.append_assoc] at h
      exact h.of_append
  · intro h
    have hlast : Absent (Linked X) (a :: s) := by
      refine absent_cons.mpr ⟨fun z hz hbegin => ?_, h.2⟩
      obtain ⟨y, hy, hyz⟩ := exists_prefix_of_linked hz
      exact h.1 y hy (hyz.trans hbegin)
    -- two linked words cannot start within the word but at its first letter, where the first of them is the word
    have hsuffix : ∀ v', v' <:+ v → Absent (Linked X) (v' ++ a :: s) := by
      intro v' hv'
      induction v' with
      | nil => exact hlast
      | cons b v' ih =>
        rw [List.cons_append]
        refine absent_cons.mpr ⟨fun z hz hbegin => ?_, ih ((List.suffix_cons b v').trans hv')⟩
        obtain ⟨u, c, w, hu, hw, rfl⟩ := hz
        have hfirst : u ++ [c] <+: b :: v' ++ a :: s := prefix_append_cons.trans hbegin
        by_cases hwhole : b :: v' = v
        · have heq : u ++ [c] = v ++ [a] := by
            rw [hwhole] at hfirst
            exact eq_of_starts hcode hu hx hfirst prefix_append_cons
          obtain ⟨rfl, hc⟩ := List.append_inj' heq rfl
          obtain rfl := (List.cons.inj hc).1
          rw [← List.cons_append, hwhole, List.prefix_append_right_inj] at hbegin
          exact h.1 _ hw hbegin
        · exact (hstart _ hu).not_start (isChain_of_suffix (htail _ hx) hv' hwhole) hfirst
    exact hsuffix v (List.suffix_refl v)

/-- **A word is left exactly when two were linked**: the first of them is replaced, and its last letter starts the
second one again. -/
theorem Replaces.absent_iff_linked (h : Replaces X fmt s out) (hcode : ∀ x ∈ X, ∀ y ∈ X, x <+: y → x = y)
    (hstart : ∀ x ∈ X, SameStart R x (fmt x)) (htail : ∀ x ∈ X, x.tail.IsChain R)
    (hlast : ∀ x ∈ X, ∃ v u a, x = v ++ [a] ∧ fmt x = u ++ [a] ∧ ∀ t, Absent X (a :: t) → Absent X (u ++ a :: t)) :
    Absent X out ↔ Absent (Linked X) s := by
  have hne : [] ∉ X := by
    intro hnil
    obtain ⟨a, b, u, v, hcons, -⟩ := hstart [] hnil
    cases hcons
  induction h with
  | nil => exact iff_of_true (absent_nil hne) (absent_nil nil_not_mem_linked)
  | @hit x s out hx rest ih =>
    obtain ⟨v, u, a, rfl, hfmt, habsent⟩ := hlast _ hx
    rw [hfmt, List.append_assoc, List.append_assoc, List.singleton_append, List.singleton_append,
      absent_linked_append hcode hstart htail hx]
    refine Iff.trans ?_ (and_congr_right fun _ => ih)
    have hnext : (∀ y ∈ X, ¬ y <+: a :: out) ↔ ∀ y ∈ X, ¬ y <+: a :: s :=
      forall₂_congr fun y hy => not_congr (rest.cons_prefix_iff hstart (htail y hy))
    rw [← hnext, ← absent_cons]
    constructor
    · intro hout
      exact hout.of_append
    · exact habsent out
  | @copy a s out hnone rest ih =>
    rw [absent_cons, absent_cons]
    refine and_congr (iff_of_true (fun y hy hbegin => ?_) fun z hz hbegin => ?_) ih
    · exact hnone y hy ((rest.cons_prefix_iff hstart (htail y hy)).mp hbegin)
    · obtain ⟨y, hy, hyz⟩ := exists_prefix_of_linked hz
      exact hnone y hy (hyz.trans hbegin)

end Linked

end Regex
