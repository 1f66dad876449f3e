import Mathlib.Data.List.Basic
import Mathlib.Data.List.Infix
import Mathlib.Data.List.TakeWhile

/-!
# Backtracking regular expressions

A Perl-style expression is read as the list of its hits at a position, in the order in which a backtracking matcher
tries them: `alt` tries its left side first, a lazy loop the short readings first, a greedy one the long readings.

* `Expr.hits r p s` : the hits of `r` at the front of `s`, where `p` is the character before `s`;
* `Expr.fullMatch r s` : the first hit that reads all of `s`; `Expr.search r s` : the first hit at the leftmost
  position that has one;
* `mem_hits_*` : what is a hit, constructor by constructor;
* `Accepts r p s` : some hit of `r` reads all of `s`. `accepts_*` take an expression apart from the front, so that the
  texts a pattern accepts come out as an equation between texts (`fullMatch_isSome`);
* `head?_hits_seq`, `head?_hits_lazyGroup` : which hit is the first one.

The anchors stand at the start and the end of a line, so `bol` also matches after a line separator and `eol` before
one. `.` is `many` over all characters, line separators included.
-/

namespace Regex

/-- A Perl-style expression. `many greedy lo hi cls` reads between `lo` and `hi` characters of the class `cls`. -/
inductive Expr where
  | lit (w : List Char)
  | bol
  | eol
  | many (greedy : Bool) (lo : Nat) (hi : Option Nat) (cls : Char → Bool)
  | seq (r t : Expr)
  | alt (r t : Expr)
  | group (n : Nat) (r : Expr)

/-- One way to read the front of a text: what is read, the captured groups and what is left. -/
structure Hit where
  consumed : List Char
  captures : List (Nat × List Char)
  rest : List Char
deriving DecidableEq

def Hit.followedBy (h t : Hit) : Hit := ⟨h.consumed ++ t.consumed, h.captures ++ t.captures, t.rest⟩

/-- The text of group `n`, empty when the group took no part. -/
def Hit.sub (h : Hit) (n : Nat) : List Char := (h.captures.lookup n).getD []

def isSeparator (c : Char) : Bool := c == '\n' || c == '\r' || c == '\x0c'

/-- A position is at a line start: nothing before it, or a separator that is not the first half of `\r\n`. -/
def atLineStart (p : Option Char) (s : List Char) : Bool :=
  match p with
  | none => true
  | some c => isSeparator c && !(c == '\r' && s.head? == some '\n')

/-- A position is at a line end: nothing after it, or a separator that is not the second half of `\r\n`. -/
def atLineEnd (p : Option Char) (s : List Char) : Bool :=
  match s with
  | [] => true
  | c :: _ => isSeparator c && !(p == some '\r' && c == '\n')

def before (p : Option Char) (w : List Char) : Option Char := w.getLast?.or p

/-- The lengths that a loop can read at the front of `s`, shortest first. -/
def loopLengths (lo : Nat) (hi : Option Nat) (cls : Char → Bool) (s : List Char) : List Nat :=
  let run := (s.takeWhile cls).length
  let top := match hi with
    | some hi => min run hi
    | none => run
  List.range' lo (top + 1 - lo)

/-- The hits of an expression at the front of `s`, in backtracking order. -/
def Expr.hits : Expr → Option Char → List Char → List Hit
  | .lit w, _, s => if w.isPrefixOf s then [⟨w, [], s.drop w.length⟩] else []
  | .bol, p, s => if atLineStart p s then [⟨[], [], s⟩] else []
  | .eol, p, s => if atLineEnd p s then [⟨[], [], s⟩] else []
  | .many greedy lo hi cls, _, s =>
      let lengths := loopLengths lo hi cls s
      (if greedy then lengths.reverse else lengths).map fun k => ⟨s.take k, [], s.drop k⟩
  | .seq r t, p, s => (r.hits p s).flatMap fun h => (t.hits (before p h.consumed) h.rest).map h.followedBy
  | .alt r t, p, s => r.hits p s ++ t.hits p s
  | .group n r, p, s => (r.hits p s).map fun h => { h with captures := (n, h.consumed) :: h.captures }

/-- The first hit that reads the whole text. -/
def Expr.fullMatch (r : Expr) (s : List Char) : Option Hit := (r.hits none s).find? fun h => h.rest.isEmpty

/-- The first hit at the leftmost position with a hit, for a text preceded by `p`. -/
def Expr.searchFrom (r : Expr) : Option Char → List Char → Option Hit
  | p, [] => (r.hits p []).head?
  | p, c :: s => (r.hits p (c :: s)).head?.or (r.searchFrom (some c) s)

def Expr.search (r : Expr) (s : List Char) : Option Hit := r.searchFrom none s

def Expr.cat : List Expr → Expr
  | [] => .lit []
  | [r] => r
  | r :: t :: rs => .seq r (cat (t :: rs))

/-- Any number of arbitrary characters, few first: `.*?`. -/
def Expr.lazyAny : Expr := .many false 0 none fun _ => true

/-- Any number of characters of a class, many first: `cls*`. -/
def Expr.star (cls : Char → Bool) : Expr := .many true 0 none cls

/-- At least one character of a class, many first: `cls+`. -/
def Expr.plus (cls : Char → Bool) : Expr := .many true 1 none cls

/-- Between `lo` and `hi` characters of a class, many first: `cls{lo,hi}`. -/
def Expr.between (lo hi : Nat) (cls : Char → Bool) : Expr := .many true lo (some hi) cls

/-! ## What is a hit -/

section Hits
variable {p : Option Char} {s : List Char} {h : Hit}

theorem mem_hits_lit {w : List Char} : h ∈ (Expr.lit w).hits p s ↔ ∃ t, s = w ++ t ∧ h = ⟨w, [], t⟩ := by
  simp only [Expr.hits]
  split
  · rename_i hw
    obtain ⟨t, rfl⟩ := List.isPrefixOf_iff_prefix.mp hw
    simp
  · rename_i hw
    rw [List.isPrefixOf_iff_prefix] at hw
    simp only [List.not_mem_nil, false_iff, not_exists, not_and]
    rintro t rfl
    exact absurd (List.prefix_append w t) hw

theorem mem_hits_bol : h ∈ Expr.bol.hits p s ↔ atLineStart p s = true ∧ h = ⟨[], [], s⟩ := by
  simp only [Expr.hits]
  split <;> simp_all

theorem mem_hits_eol : h ∈ Expr.eol.hits p s ↔ atLineEnd p s = true ∧ h = ⟨[], [], s⟩ := by
  simp only [Expr.hits]
  split <;> simp_all

theorem mem_loopLengths {lo : Nat} {hi : Option Nat} {cls : Char → Bool} {k : Nat} :
    k ∈ loopLengths lo hi cls s ↔ lo ≤ k ∧ k ≤ (s.takeWhile cls).length ∧ ∀ m ∈ hi, k ≤ m := by
  unfold loopLengths
  cases hi with
  | none => simp [List.mem_range'_1]; omega
  | some m => simp [List.mem_range'_1]; omega

/-- A loop reads exactly the stretches of its class whose length is within its bounds. -/
theorem mem_hits_many {greedy : Bool} {lo : Nat} {hi : Option Nat} {cls : Char → Bool} :
    h ∈ (Expr.many greedy lo hi cls).hits p s ↔
      ∃ w t, s = w ++ t ∧ (∀ c ∈ w, cls c = true) ∧ lo ≤ w.length ∧ (∀ m ∈ hi, w.length ≤ m) ∧ h = ⟨w, [], t⟩ := by
  have hmem : h ∈ (Expr.many greedy lo hi cls).hits p s ↔
      ∃ k ∈ loopLengths lo hi cls s, (⟨s.take k, [], s.drop k⟩ : Hit) = h := by
    simp only [Expr.hits]
    cases greedy <;> simp
  rw [hmem]
  constructor
  · rintro ⟨k, hk, rfl⟩
    obtain ⟨hlo, hrun, hhi⟩ := mem_loopLengths.mp hk
    have hlen : (s.take k).length = k := by
      have := (List.takeWhile_sublist cls (l := s)).length_le
      simp; omega
    refine ⟨s.take k, s.drop k, (List.take_append_drop k s).symm, fun c hc => ?_, by omega, by rwa [hlen], rfl⟩
    have htake : s.take k = (s.takeWhile cls).take k := by
      conv_lhs => rw [← List.takeWhile_append_dropWhile (p := cls) (l := s)]
      rw [List.take_append_of_le_length hrun]
    rw [htake] at hc
    exact List.mem_takeWhile_imp (List.mem_of_mem_take hc)
  · rintro ⟨w, t, rfl, hcls, hlo, hhi, rfl⟩
    refine ⟨w.length, mem_loopLengths.mpr ⟨hlo, ?_, hhi⟩, by simp⟩
    rw [List.takeWhile_append_of_pos hcls]
    simp

theorem mem_hits_seq {r t : Expr} :
    h ∈ (Expr.seq r t).hits p s ↔
      ∃ a ∈ r.hits p s, ∃ b ∈ t.hits (before p a.consumed) a.rest, h = a.followedBy b := by
  simp only [Expr.hits, List.mem_flatMap, List.mem_map]
  constructor
  · rintro ⟨a, ha, b, hb, rfl⟩; exact ⟨a, ha, b, hb, rfl⟩
  · rintro ⟨a, ha, b, hb, rfl⟩; exact ⟨a, ha, b, hb, rfl⟩

theorem mem_hits_alt {r t : Expr} : h ∈ (Expr.alt r t).hits p s ↔ h ∈ r.hits p s ∨ h ∈ t.hits p s := by
  simp [Expr.hits]

theorem mem_hits_group {n : Nat} {r : Expr} :
    h ∈ (Expr.group n r).hits p s ↔
      ∃ a ∈ r.hits p s, h = { a with captures := (n, a.consumed) :: a.captures } := by
  simp only [Expr.hits, List.mem_map]
  constructor
  · rintro ⟨a, ha, rfl⟩; exact ⟨a, ha, rfl⟩
  · rintro ⟨a, ha, rfl⟩; exact ⟨a, ha, rfl⟩

/-! A sequence, by what stands in front. -/

section Front
variable {t : Expr}

theorem mem_hits_seq_bol : h ∈ (Expr.seq .bol t).hits none s ↔ h ∈ t.hits none s := by
  simp only [mem_hits_seq, mem_hits_bol]
  constructor
  · rintro ⟨_, ⟨-, rfl⟩, b, hb, rfl⟩
    exact hb
  · intro hh
    exact ⟨⟨[], [], s⟩, ⟨rfl, rfl⟩, h, hh, rfl⟩

theorem mem_hits_seq_lit {w : List Char} :
    h ∈ (Expr.seq (.lit w) t).hits p s ↔
      ∃ u, s = w ++ u ∧ ∃ b ∈ t.hits (before p w) u, h = ⟨w ++ b.consumed, b.captures, b.rest⟩ := by
  simp only [mem_hits_seq, mem_hits_lit]
  constructor
  · rintro ⟨_, ⟨u, rfl, rfl⟩, b, hb, rfl⟩
    exact ⟨u, rfl, b, hb, rfl⟩
  · rintro ⟨u, rfl, b, hb, rfl⟩
    exact ⟨⟨w, [], u⟩, ⟨u, rfl, rfl⟩, b, hb, rfl⟩

theorem mem_hits_seq_many {greedy : Bool} {lo : Nat} {hi : Option Nat} {cls : Char → Bool} :
    h ∈ (Expr.seq (.many greedy lo hi cls) t).hits p s ↔
      ∃ w u, s = w ++ u ∧ ((∀ c ∈ w, cls c = true) ∧ lo ≤ w.length ∧ ∀ m ∈ hi, w.length ≤ m) ∧
        ∃ b ∈ t.hits (before p w) u, h = ⟨w ++ b.consumed, b.captures, b.rest⟩ := by
  simp only [mem_hits_seq, mem_hits_many]
  constructor
  · rintro ⟨_, ⟨w, u, rfl, hcls, hlo, hhi, rfl⟩, b, hb, rfl⟩
    exact ⟨w, u, rfl, ⟨hcls, hlo, hhi⟩, b, hb, rfl⟩
  · rintro ⟨w, u, rfl, ⟨hcls, hlo, hhi⟩, b, hb, rfl⟩
    exact ⟨⟨w, [], u⟩, ⟨w, u, rfl, hcls, hlo, hhi, rfl⟩, b, hb, rfl⟩

theorem mem_hits_seq_group_many {n : Nat} {greedy : Bool} {lo : Nat} {hi : Option Nat} {cls : Char → Bool} :
    h ∈ (Expr.seq (.group n (.many greedy lo hi cls)) t).hits p s ↔
      ∃ w u, s = w ++ u ∧ ((∀ c ∈ w, cls c = true) ∧ lo ≤ w.length ∧ ∀ m ∈ hi, w.length ≤ m) ∧
        ∃ b ∈ t.hits (before p w) u, h = ⟨w ++ b.consumed, (n, w) :: b.captures, b.rest⟩ := by
  simp only [mem_hits_seq, mem_hits_group, mem_hits_many]
  constructor
  · rintro ⟨_, ⟨_, ⟨w, u, rfl, hcls, hlo, hhi, rfl⟩, rfl⟩, b, hb, rfl⟩
    exact ⟨w, u, rfl, ⟨hcls, hlo, hhi⟩, b, hb, rfl⟩
  · rintro ⟨w, u, rfl, ⟨hcls, hlo, hhi⟩, b, hb, rfl⟩
    exact ⟨⟨w, [(n, w)], u⟩, ⟨⟨w, [], u⟩, ⟨w, u, rfl, hcls, hlo, hhi, rfl⟩, rfl⟩, b, hb, rfl⟩

end Front

end Hits

/-! ## Acceptance of a whole text -/

def Accepts (r : Expr) (p : Option Char) (s : List Char) : Prop := ∃ h ∈ r.hits p s, h.rest = []

section Accepts
variable {p : Option Char} {s : List Char} {r t : Expr}

theorem accepts_seq :
    Accepts (.seq r t) p s ↔ ∃ a ∈ r.hits p s, Accepts t (before p a.consumed) a.rest := by
  constructor
  · rintro ⟨h, hh, hr⟩
    obtain ⟨a, ha, b, hb, rfl⟩ := mem_hits_seq.mp hh
    exact ⟨a, ha, b, hb, hr⟩
  · rintro ⟨a, ha, b, hb, hr⟩
    exact ⟨a.followedBy b, mem_hits_seq.mpr ⟨a, ha, b, hb, rfl⟩, hr⟩

theorem accepts_seq_bol : Accepts (.seq .bol t) none s ↔ Accepts t none s := by
  simp only [Accepts, mem_hits_seq_bol]

theorem accepts_seq_lit {w : List Char} :
    Accepts (.seq (.lit w) t) p s ↔ ∃ u, s = w ++ u ∧ Accepts t (before p w) u := by
  constructor
  · rintro ⟨h, hh, hr⟩
    obtain ⟨u, rfl, b, hb, rfl⟩ := mem_hits_seq_lit.mp hh
    exact ⟨u, rfl, b, hb, hr⟩
  · rintro ⟨u, rfl, b, hb, hr⟩
    exact ⟨_, mem_hits_seq_lit.mpr ⟨u, rfl, b, hb, rfl⟩, hr⟩

theorem accepts_seq_many {greedy : Bool} {lo : Nat} {hi : Option Nat} {cls : Char → Bool} :
    Accepts (.seq (.many greedy lo hi cls) t) p s ↔
      ∃ w u, s = w ++ u ∧ ((∀ c ∈ w, cls c = true) ∧ lo ≤ w.length ∧ ∀ m ∈ hi, w.length ≤ m) ∧
        Accepts t (before p w) u := by
  constructor
  · rintro ⟨h, hh, hr⟩
    obtain ⟨w, u, rfl, hw, b, hb, rfl⟩ := mem_hits_seq_many.mp hh
    exact ⟨w, u, rfl, hw, b, hb, hr⟩
  · rintro ⟨w, u, rfl, hw, b, hb, hr⟩
    exact ⟨_, mem_hits_seq_many.mpr ⟨w, u, rfl, hw, b, hb, rfl⟩, hr⟩

theorem accepts_seq_lazyAny :
    Accepts (.seq .lazyAny t) p s ↔ ∃ w u, s = w ++ u ∧ Accepts t (before p w) u := by
  simp [Expr.lazyAny, accepts_seq_many]

theorem accepts_seq_star {cls : Char → Bool} :
    Accepts (.seq (.star cls) t) p s ↔
      ∃ w u, s = w ++ u ∧ (∀ c ∈ w, cls c = true) ∧ Accepts t (before p w) u := by
  simp [Expr.star, accepts_seq_many]

theorem accepts_seq_plus {cls : Char → Bool} :
    Accepts (.seq (.plus cls) t) p s ↔
      ∃ w u, s = w ++ u ∧ ((∀ c ∈ w, cls c = true) ∧ 1 ≤ w.length) ∧ Accepts t (before p w) u := by
  simp [Expr.plus, accepts_seq_many]

theorem accepts_seq_between {lo hi : Nat} {cls : Char → Bool} :
    Accepts (.seq (.between lo hi cls) t) p s ↔
      ∃ w u, s = w ++ u ∧ ((∀ c ∈ w, cls c = true) ∧ lo ≤ w.length ∧ w.length ≤ hi) ∧ Accepts t (before p w) u := by
  simp [Expr.between, accepts_seq_many]

theorem accepts_seq_group {n : Nat} : Accepts (.seq (.group n r) t) p s ↔ Accepts (.seq r t) p s := by
  rw [accepts_seq, accepts_seq]
  constructor
  · rintro ⟨a, ha, ht⟩
    obtain ⟨b, hb, rfl⟩ := mem_hits_group.mp ha
    exact ⟨b, hb, ht⟩
  · rintro ⟨a, ha, ht⟩
    exact ⟨{ a with captures := (n, a.consumed) :: a.captures }, mem_hits_group.mpr ⟨a, ha, rfl⟩, ht⟩

theorem accepts_group {n : Nat} : Accepts (.group n r) p s ↔ Accepts r p s := by
  constructor
  · rintro ⟨h, hh, hr⟩
    obtain ⟨a, ha, rfl⟩ := mem_hits_group.mp hh
    exact ⟨a, ha, hr⟩
  · rintro ⟨a, ha, hr⟩
    exact ⟨{ a with captures := (n, a.consumed) :: a.captures }, mem_hits_group.mpr ⟨a, ha, rfl⟩, hr⟩

theorem accepts_lazyAny : Accepts .lazyAny p s :=
  ⟨⟨s, [], []⟩, mem_hits_many.mpr ⟨s, [], (List.append_nil s).symm, by simp, by simp, by simp, rfl⟩, rfl⟩

theorem accepts_eol : Accepts .eol p s ↔ s = [] := by
  constructor
  · rintro ⟨h, hh, hr⟩
    obtain ⟨-, rfl⟩ := mem_hits_eol.mp hh
    exact hr
  · rintro rfl
    exact ⟨⟨[], [], []⟩, mem_hits_eol.mpr ⟨rfl, rfl⟩, rfl⟩

theorem accepts_alt : Accepts (.alt r t) p s ↔ Accepts r p s ∨ Accepts t p s := by
  constructor
  · rintro ⟨h, hh, hr⟩
    rcases mem_hits_alt.mp hh with ha | hb
    · exact Or.inl ⟨h, ha, hr⟩
    · exact Or.inr ⟨h, hb, hr⟩
  · rintro (⟨h, hh, hr⟩ | ⟨h, hh, hr⟩)
    · exact ⟨h, mem_hits_alt.mpr (Or.inl hh), hr⟩
    · exact ⟨h, mem_hits_alt.mpr (Or.inr hh), hr⟩

end Accepts

theorem mem_of_fullMatch {r : Expr} {s : List Char} {h : Hit} (hm : r.fullMatch s = some h) :
    h ∈ r.hits none s ∧ h.rest = [] := by
  refine ⟨List.mem_of_find?_eq_some hm, ?_⟩
  simpa using List.find?_some hm

theorem fullMatch_isSome {r : Expr} {s : List Char} : (r.fullMatch s).isSome = true ↔ Accepts r none s := by
  simp [Expr.fullMatch, List.find?_isSome, Accepts]

/-! ## The leftmost hit -/

theorem exists_of_searchFrom {r : Expr} {p : Option Char} {s : List Char} {h : Hit}
    (hs : r.searchFrom p s = some h) : ∃ q t, t <:+ s ∧ (r.hits q t).head? = some h := by
  induction s generalizing p with
  | nil => exact ⟨p, [], List.suffix_refl _, hs⟩
  | cons c s ih =>
    rw [Expr.searchFrom] at hs
    cases hf : (r.hits p (c :: s)).head? with
    | some a =>
      rw [hf] at hs
      exact ⟨p, c :: s, List.suffix_refl _, hf.trans hs⟩
    | none =>
      rw [hf, Option.none_or] at hs
      obtain ⟨q, t, ht, hq⟩ := ih hs
      exact ⟨q, t, ht.trans (List.suffix_cons c s), hq⟩

/-- Where the front of the text has a hit, the first one is found. -/
theorem search_of_hits_ne_nil {r : Expr} {s : List Char} (h : r.hits none s ≠ []) :
    r.search s = (r.hits none s).head? := by
  obtain ⟨sm, hsm⟩ := Option.isSome_iff_exists.mp (List.isSome_head?.mpr h)
  unfold Expr.search
  cases s with
  | nil => rfl
  | cons c s => rw [Expr.searchFrom, hsm, Option.some_or]

theorem head?_hits_seq {r t : Expr} {p : Option Char} {s : List Char} :
    ((Expr.seq r t).hits p s).head? =
      (r.hits p s).findSome? fun a => (t.hits (before p a.consumed) a.rest).head?.map a.followedBy := by
  simp only [Expr.hits]
  rw [List.head?_flatMap]
  simp [List.head?_map]

theorem head?_hits_seq_bol {t : Expr} {p : Option Char} {s : List Char} {h : Hit}
    (hh : ((Expr.seq .bol t).hits p s).head? = some h) : (t.hits p s).head? = some h := by
  rw [head?_hits_seq] at hh
  obtain ⟨a, ha, hb⟩ := List.exists_of_findSome?_eq_some hh
  obtain ⟨-, rfl⟩ := mem_hits_bol.mp ha
  obtain ⟨b, hfirst, rfl⟩ := Option.map_eq_some_iff.mp hb
  exact hfirst

theorem head?_hits_seq_lit {w : List Char} {t : Expr} {p : Option Char} {s : List Char} {h : Hit}
    (hh : ((Expr.seq (.lit w) t).hits p s).head? = some h) :
    ∃ u b, s = w ++ u ∧ (t.hits (before p w) u).head? = some b ∧ h = ⟨w ++ b.consumed, b.captures, b.rest⟩ := by
  rw [head?_hits_seq] at hh
  obtain ⟨a, ha, hb⟩ := List.exists_of_findSome?_eq_some hh
  obtain ⟨u, rfl, rfl⟩ := mem_hits_lit.mp ha
  obtain ⟨b, hfirst, rfl⟩ := Option.map_eq_some_iff.mp hb
  exact ⟨u, b, rfl, hfirst, rfl⟩

/-- The first hit of `group n .*?` followed by `t`: the group reads the shortest text that `t` can follow. -/
theorem head?_hits_lazyGroup {n : Nat} {t : Expr} {p : Option Char} {s : List Char} {h : Hit}
    (hh : ((Expr.seq (.group n .lazyAny) t).hits p s).head? = some h) :
    ∃ w u b, s = w ++ u ∧ (t.hits (before p w) u).head? = some b ∧
      h = ⟨w ++ b.consumed, (n, w) :: b.captures, b.rest⟩ ∧
      ∀ v u', s = v ++ u' → v.length < w.length → t.hits (before p v) u' = [] := by
  have hhits : (Expr.group n .lazyAny).hits p s =
      (List.range' 0 (s.length + 1)).map fun k => ⟨s.take k, [(n, s.take k)], s.drop k⟩ := by
    have hall : s.takeWhile (fun _ => true) = s := List.takeWhile_eq_self_iff.mpr (fun _ _ => rfl)
    simp [Expr.hits, Expr.lazyAny, loopLengths, hall]
  rw [head?_hits_seq, hhits, List.findSome?_map] at hh
  obtain ⟨front, k, back, hrange, hk, hfront⟩ := List.findSome?_eq_some_iff.mp hh
  obtain ⟨j, hj, hfr, hback⟩ := List.range'_eq_append_iff.mp hrange
  obtain ⟨rfl, -, -⟩ := List.range'_eq_cons_iff.mp hback.symm
  simp only [Nat.mul_one, Nat.zero_add, Function.comp_apply, Option.map_eq_some_iff] at hk
  obtain ⟨b, hb, rfl⟩ := hk
  refine ⟨s.take j, s.drop j, b, (List.take_append_drop j s).symm, hb, rfl, fun v u' hv hlt => ?_⟩
  have hmem : v.length ∈ front := by
    rw [hfr, List.mem_range'_1]
    simp only [List.length_take] at hlt
    omega
  have hnone := hfront _ hmem
  simp only [Function.comp_apply, Option.map_eq_none_iff, List.head?_eq_none_iff, hv, List.take_left,
    List.drop_left] at hnone
  exact hnone

end Regex
