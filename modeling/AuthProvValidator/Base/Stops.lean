import AuthProvValidator.Base.Recorder

/-!
# How a recorder stops

* `Fails P x` : wherever `x` is started, it only fails with a failure in `P`;
* `Returns x` : `x` does not fail, wherever it is started. What a loop needs to return is what each of its turns needs
  (`returns_foldlM`), if that does not depend on the state that the loop carries;
* `Defined x` : the same for a computation without a log.
-/

namespace Recorder

variable {φ ε α β : Type}

/-! ## The failures of a computation -/

/-- Every failure of `x` satisfies `P`. -/
def Fails (P : φ → Prop) (x : Recorder φ ε α) : Prop := ∀ log f, x.run log = .error f → P f

section Fails
variable {P Q : φ → Prop}

theorem fails_pure (a : α) : Fails P (pure a : Recorder φ ε α) := by
  intro log f h
  cases h

theorem fails_record (e : ε) : Fails P (record e : Recorder φ ε Unit) := by
  intro log f h
  cases h

theorem fails_fail {f : φ} (hf : P f) : Fails P (fail f : Recorder φ ε α) := by
  intro log g h
  obtain rfl := Except.error.inj h
  exact hf

theorem fails_lift {x : Except φ α} (hx : ∀ f, x = .error f → P f) : Fails P (liftM x : Recorder φ ε α) := by
  intro log f h
  cases x with
  | error g => exact hx f (congrArg Except.error (Except.error.inj h))
  | ok a => cases h

theorem fails_ok_bind {a : α} {f : α → Recorder φ ε β} (h : Fails P (f a)) :
    Fails P (liftM (.ok a : Except φ α) >>= f) := fun log g hg => h log g hg

theorem Fails.bind {x : Recorder φ ε α} {f : α → Recorder φ ε β} (hx : Fails P x) (hf : ∀ a, Fails P (f a)) :
    Fails P (x >>= f) := by
  intro log g h
  rcases run_bind_error.mp h with hfail | ⟨a, m, -, hfail⟩
  · exact hx log g hfail
  · exact hf a m g hfail

theorem Fails.ite {c : Prop} [Decidable c] {x y : Recorder φ ε α} (hx : Fails P x) (hy : Fails P y) :
    Fails P (if c then x else y) := by
  split
  · exact hx
  · exact hy

theorem fails_each {xs : List (Recorder φ ε Unit)} (h : ∀ x ∈ xs, Fails P x) : Fails P (each xs) := by
  induction xs with
  | nil => exact fails_pure ()
  | cons x xs ih =>
    rw [List.forall_mem_cons] at h
    exact h.1.bind fun _ => ih h.2

theorem fails_all {xs : List (Recorder φ ε Bool)} (h : ∀ x ∈ xs, Fails P x) : Fails P (all xs) := by
  induction xs with
  | nil => exact fails_pure true
  | cons x xs ih =>
    rw [List.forall_mem_cons] at h
    exact h.1.bind fun _ => (ih h.2).bind fun _ => fails_pure _

theorem fails_foldlM {f : β → α → Recorder φ ε β} {l : List α} (h : ∀ a ∈ l, ∀ b, Fails P (f b a)) (b : β) :
    Fails P (l.foldlM f b) := by
  induction l generalizing b with
  | nil => exact fails_pure b
  | cons a l ih =>
    rw [List.forall_mem_cons] at h
    exact (h.1 b).bind fun b' => ih h.2 b'

theorem fails_mapM {f : α → Recorder φ ε β} {l : List α} (h : ∀ a ∈ l, Fails P (f a)) : Fails P (l.mapM f) := by
  induction l with
  | nil => exact fails_pure []
  | cons a l ih =>
    rw [List.forall_mem_cons] at h
    rw [List.mapM_cons]
    exact h.1.bind fun b => (ih h.2).bind fun bs => fails_pure _

end Fails

/-! ## Computations that return -/

/-- `x` does not fail, wherever it is started. -/
def Returns (x : Recorder φ ε α) : Prop := ∀ log, ∃ a l, x.run log = .ok (a, l)

theorem returns_pure (a : α) : Returns (pure a : Recorder φ ε α) := fun log => ⟨a, log, rfl⟩

theorem returns_record (e : ε) : Returns (record e : Recorder φ ε Unit) := fun log => ⟨(), log ++ [e], rfl⟩

theorem not_returns_fail (f : φ) : ¬ Returns (fail f : Recorder φ ε α) := by
  intro h
  obtain ⟨a, l, hrun⟩ := h []
  cases hrun

theorem returns_lift {x : Except φ α} : Returns (liftM x : Recorder φ ε α) ↔ ∃ a, x = .ok a := by
  cases x with
  | error f => exact iff_of_false (not_returns_fail f) nofun
  | ok a => exact iff_of_true (fun log => ⟨a, log, rfl⟩) ⟨a, rfl⟩

theorem returns_of_run {x : Recorder φ ε α} (ho : Oblivious x) {log l : List ε} {a : α}
    (h : x.run log = .ok (a, l)) : Returns x := by
  obtain ⟨es, hes, -⟩ := ho.run_ok.mp h
  exact fun log' => ⟨a, log' ++ es, ho.run_ok.mpr ⟨es, hes, rfl⟩⟩

theorem Returns.bind {x : Recorder φ ε α} {f : α → Recorder φ ε β} (hx : Returns x) (hf : ∀ a, Returns (f a)) :
    Returns (x >>= f) := by
  intro log
  obtain ⟨a, m, hrun⟩ := hx log
  obtain ⟨b, l, hrest⟩ := hf a m
  exact ⟨b, l, run_bind_ok.mpr ⟨a, m, hrun, hrest⟩⟩

theorem Returns.ite {c : Prop} [Decidable c] {x y : Recorder φ ε α} (hx : c → Returns x) (hy : ¬ c → Returns y) :
    Returns (if c then x else y) := by
  split
  · rename_i hc
    exact hx hc
  · rename_i hc
    exact hy hc

theorem Returns.fails {P : φ → Prop} {x : Recorder φ ε α} (h : Returns x) : Fails P x := by
  intro log f hf
  obtain ⟨a, l, hrun⟩ := h log
  rw [hrun] at hf
  cases hf

/-- Two steps, the second of which needs the same whatever the first one gives. -/
theorem returns_seq {x : Recorder φ ε α} {f : α → Recorder φ ε β} {q : Prop} (ho : ∀ a, Oblivious (f a))
    (hq : ∀ a, Returns (f a) ↔ q) : Returns (x >>= f) ↔ Returns x ∧ q := by
  constructor
  · intro h
    refine ⟨fun log => ?_, ?_⟩
    · obtain ⟨b, l, hrun⟩ := h log
      obtain ⟨a, m, hx, -⟩ := run_bind_ok.mp hrun
      exact ⟨a, m, hx⟩
    · obtain ⟨b, l, hrun⟩ := h []
      obtain ⟨a, m, -, hf⟩ := run_bind_ok.mp hrun
      exact (hq a).mp (returns_of_run (ho a) hf)
  · intro h
    exact h.1.bind fun a => (hq a).mpr h.2

theorem returns_map {x : Recorder φ ε α} {g : α → β} : Returns (x >>= fun a => pure (g a)) ↔ Returns x := by
  rw [returns_seq (q := True) (fun a => oblivious_pure (g a)) fun a => iff_of_true (returns_pure (g a)) trivial,
    and_true]

theorem returns_foldlM {f : β → α → Recorder φ ε β} {q : α → Prop} (ho : ∀ b a, Oblivious (f b a))
    (hq : ∀ b a, Returns (f b a) ↔ q a) (l : List α) (b : β) : Returns (l.foldlM f b) ↔ ∀ a ∈ l, q a := by
  induction l generalizing b with
  | nil => exact iff_of_true (returns_pure b) nofun
  | cons a l ih =>
    rw [List.foldlM_cons, returns_seq (fun b' => oblivious_foldlM ho b') ih, hq, List.forall_mem_cons]

theorem returns_mapM {f : α → Recorder φ ε β} {q : α → Prop} (ho : ∀ a, Oblivious (f a))
    (hq : ∀ a, Returns (f a) ↔ q a) (l : List α) : Returns (l.mapM f) ↔ ∀ a ∈ l, q a := by
  induction l with
  | nil => exact iff_of_true (returns_pure []) nofun
  | cons a l ih =>
    have hrest : ∀ b, Returns (l.mapM f >>= fun bs => (pure (b :: bs) : Recorder φ ε (List β))) ↔ ∀ a ∈ l, q a :=
      fun b => returns_map.trans ih
    rw [List.mapM_cons, returns_seq (fun b => (oblivious_mapM ho).bind fun bs => oblivious_pure _) hrest, hq,
      List.forall_mem_cons]

/-! ## Values that are there -/

/-- A computation without a log that does not fail. -/
def Defined (x : Except φ α) : Prop := ∃ a, x = .ok a

theorem defined_ok (a : α) : Defined (.ok a : Except φ α) := ⟨a, rfl⟩

theorem not_defined_error (f : φ) : ¬ Defined (.error f : Except φ α) := nofun

theorem defined_seq {x : Except φ α} {f : α → Except φ β} {q : Prop} (hq : ∀ a, Defined (f a) ↔ q) :
    Defined (x >>= f) ↔ Defined x ∧ q := by
  cases x with
  | error e => exact iff_of_false (not_defined_error e) fun h => not_defined_error e h.1
  | ok a => exact (hq a).trans (iff_and_self.mpr fun _ => defined_ok a)

theorem Defined.of_bind {x : Except φ α} {f : α → Except φ β} (h : Defined (x >>= f)) : Defined x := by
  cases x with
  | error e => exact absurd h (not_defined_error e)
  | ok a => exact defined_ok a

theorem defined_map {x : Except φ α} {g : α → β} : Defined (x >>= fun a => pure (g a)) ↔ Defined x := by
  cases x with
  | error e => exact iff_of_false (not_defined_error e) (not_defined_error e)
  | ok a => exact iff_of_true (defined_ok (g a)) (defined_ok a)

theorem defined_then {x : Except φ α} {f : α → Except φ β} {q : Prop} (hx : Defined x) (hq : ∀ a, Defined (f a) ↔ q) :
    Defined (x >>= f) ↔ q := (defined_seq hq).trans (and_iff_right hx)

theorem defined_bind {x : Except φ α} {f : α → Except φ β} (hx : Defined x) (hf : ∀ a, Defined (f a)) :
    Defined (x >>= f) := by
  obtain ⟨a, rfl⟩ := hx
  exact hf a

theorem Defined.ite {c : Prop} [Decidable c] {x y : Except φ α} (hx : c → Defined x) (hy : ¬ c → Defined y) :
    Defined (if c then x else y) := by
  split
  · rename_i hc
    exact hx hc
  · rename_i hc
    exact hy hc

end Recorder
