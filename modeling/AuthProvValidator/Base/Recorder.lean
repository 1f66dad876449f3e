import Mathlib.Data.List.Basic

/-!
# Computations that append to a log

A `Recorder φ ε α` returns an `α` and a longer log of `ε`s, or fails with a `φ`.

* `Oblivious x` : `x` never looks at the log it was started from; it behaves the same after every log
  (`Oblivious.run_ok`), and sequences of such computations do too (`Oblivious.bind`);
* `Silent x a` : started from the empty log, `x` returns `a` and records nothing (`silent_bind`);
* `logged x`, `Emits P x` : what `x` records, and that all of it satisfies `P`; `Plain P x` : and that `x` is oblivious;
* `Honest x` : a verdict that is `true` exactly when nothing is recorded; `all` makes a list of such checks;
* `Stage` : what a check in two steps records, when the second step is only made after an empty log.
  `Stage.runAll_eq_iff` says when a list of such checks records what each of them records alone.
-/

/-- A computation that reads and extends a log of `ε`s and may fail with a `φ`. -/
abbrev Recorder (φ ε α : Type) := StateT (List ε) (Except φ) α

namespace Recorder

variable {φ ε α β : Type}

def record (e : ε) : Recorder φ ε Unit := modify fun log => log ++ [e]

def recorded : Recorder φ ε (List ε) := get

def fail (f : φ) : Recorder φ ε α := throw f

@[simp] theorem run_record (e : ε) (log : List ε) :
    (record e : Recorder φ ε Unit).run log = .ok ((), log ++ [e]) := rfl

@[simp] theorem run_recorded (log : List ε) : (recorded : Recorder φ ε (List ε)).run log = .ok (log, log) := rfl

@[simp] theorem run_fail (f : φ) (log : List ε) : (fail f : Recorder φ ε α).run log = .error f := rfl

@[simp] theorem run_lift_ok (a : α) (log : List ε) :
    (liftM (Except.ok a : Except φ α) : Recorder φ ε α).run log = .ok (a, log) := rfl

@[simp] theorem run_lift_error (e : φ) (log : List ε) :
    (liftM (Except.error e : Except φ α) : Recorder φ ε α).run log = .error e := rfl

@[simp] theorem pure_eq_ok (a : α) : (pure a : Except φ α) = .ok a := rfl

@[simp] theorem ok_bind (a : α) (f : α → Except φ β) : ((.ok a : Except φ α) >>= f) = f a := rfl

@[simp] theorem error_bind (e : φ) (f : α → Except φ β) : ((.error e : Except φ α) >>= f) = .error e := rfl

theorem bind_eq_ok {x : Except φ α} {f : α → Except φ β} {b : β} :
    (x >>= f) = .ok b ↔ ∃ a, x = .ok a ∧ f a = .ok b := by
  cases x <;> simp

theorem bind_eq_error {x : Except φ α} {f : α → Except φ β} {e : φ} :
    (x >>= f) = .error e ↔ x = .error e ∨ ∃ a, x = .ok a ∧ f a = .error e := by
  cases x <;> simp

theorem exists_of_toOption {x : Except φ α} (f : α → β) {b : β} (h : x.toOption.map f = some b) :
    ∃ a, x = .ok a ∧ f a = b := by
  cases x with
  | error e => cases h
  | ok a => exact ⟨a, rfl, Option.some.inj h⟩

theorem run_bind_ok {x : Recorder φ ε α} {f : α → Recorder φ ε β} {log l : List ε} {b : β} :
    (x >>= f).run log = .ok (b, l) ↔ ∃ a m, x.run log = .ok (a, m) ∧ (f a).run m = .ok (b, l) := by
  rw [StateT.run_bind, bind_eq_ok, Prod.exists]

theorem run_bind_error {x : Recorder φ ε α} {f : α → Recorder φ ε β} {log : List ε} {e : φ} :
    (x >>= f).run log = .error e ↔
      x.run log = .error e ∨ ∃ a m, x.run log = .ok (a, m) ∧ (f a).run m = .error e := by
  rw [StateT.run_bind, bind_eq_error, Prod.exists]

/-! ## Computations that do not read the log -/

/-- `x` behaves the same after every log: what it records goes behind the log it was started from. -/
def Oblivious (x : Recorder φ ε α) : Prop :=
  ∀ log, x.run log = (x.run []).map fun r => (r.1, log ++ r.2)

theorem Oblivious.run_ok {x : Recorder φ ε α} (hx : Oblivious x) {log l : List ε} {a : α} :
    x.run log = .ok (a, l) ↔ ∃ es, x.run [] = .ok (a, es) ∧ l = log ++ es := by
  rw [hx log]
  cases x.run [] with
  | error e => simp [Except.map]
  | ok r => obtain ⟨b, es⟩ := r; simp [Except.map]; aesop

theorem Oblivious.extends {x : Recorder φ ε α} (hx : Oblivious x) {log l : List ε} {a : α}
    (h : x.run log = .ok (a, l)) : log <+: l := by
  obtain ⟨es, -, rfl⟩ := hx.run_ok.mp h
  exact List.prefix_append log es

theorem oblivious_pure (a : α) : Oblivious (pure a : Recorder φ ε α) := fun log => by simp [Except.map]

theorem oblivious_record (e : ε) : Oblivious (record e : Recorder φ ε Unit) := fun log => by simp [Except.map]

theorem oblivious_fail (f : φ) : Oblivious (fail f : Recorder φ ε α) := fun log => by simp [Except.map]

theorem oblivious_lift (x : Except φ α) : Oblivious (liftM x : Recorder φ ε α) := fun log => by
  cases x <;> simp [Except.map]

theorem Oblivious.bind {x : Recorder φ ε α} {f : α → Recorder φ ε β} (hx : Oblivious x)
    (hf : ∀ a, Oblivious (f a)) : Oblivious (x >>= f) := by
  intro log
  rw [StateT.run_bind, StateT.run_bind, hx log]
  cases x.run [] with
  | error e => rfl
  | ok r =>
    obtain ⟨a, es⟩ := r
    show (f a).run (log ++ es) = ((f a).run es).map _
    rw [hf a (log ++ es), hf a es]
    cases (f a).run [] with
    | error e => rfl
    | ok q => simp [Except.map, List.append_assoc]

theorem Oblivious.ite {c : Prop} [Decidable c] {x y : Recorder φ ε α} (hx : Oblivious x) (hy : Oblivious y) :
    Oblivious (if c then x else y) := by
  split
  · exact hx
  · exact hy

theorem Oblivious.map {x : Recorder φ ε α} {f : α → β} (hx : Oblivious x) : Oblivious (f <$> x) := by
  rw [map_eq_pure_bind]
  exact hx.bind fun a => oblivious_pure (f a)

/-! ## Silent runs -/

/-- From the empty log, `x` returns `a` and records nothing. -/
def Silent (x : Recorder φ ε α) (a : α) : Prop := x.run [] = .ok (a, [])

theorem silent_pure {a b : α} : Silent (pure a : Recorder φ ε α) b ↔ a = b := by simp [Silent]

theorem not_silent_record {e : ε} : ¬ Silent (record e : Recorder φ ε Unit) () := by simp [Silent]

/-- A sequence is silent exactly when both parts are. -/
theorem silent_bind {x : Recorder φ ε α} {f : α → Recorder φ ε β} (hf : ∀ a, Oblivious (f a)) {b : β} :
    Silent (x >>= f) b ↔ ∃ a, Silent x a ∧ Silent (f a) b := by
  unfold Silent
  rw [run_bind_ok]
  constructor
  · rintro ⟨a, m, hx, hfa⟩
    have hm : m = [] := List.prefix_nil.mp ((hf a).extends hfa)
    subst hm
    exact ⟨a, hx, hfa⟩
  · rintro ⟨a, hx, hfa⟩
    exact ⟨a, [], hx, hfa⟩

/-- A sequence of checks is silent exactly when all of them are. -/
theorem silent_seq {x : Recorder φ ε Unit} {y : Recorder φ ε β} (hy : Oblivious y) {b : β} :
    Silent (x >>= fun _ => y) b ↔ Silent x () ∧ Silent y b := by
  rw [silent_bind fun _ => hy]
  constructor
  · rintro ⟨⟨⟩, hx, hb⟩; exact ⟨hx, hb⟩
  · rintro ⟨hx, hb⟩; exact ⟨(), hx, hb⟩

/-- What records something is not silent, whatever comes after it. -/
theorem not_silent_record_bind {e : ε} {y : Recorder φ ε β} (hy : Oblivious y) {b : β} :
    ¬ Silent ((record e : Recorder φ ε Unit) >>= fun _ => y) b := by
  rw [silent_seq hy]
  exact fun h => not_silent_record h.1

theorem silent_ite_record {c : Prop} [Decidable c] {e : ε} {x : Recorder φ ε Unit} :
    Silent (if c then record e else x) () ↔ ¬ c ∧ Silent x () := by
  split <;> simp_all [Silent]

/-! ## Loops -/

theorem oblivious_foldlM {f : β → α → Recorder φ ε β} {l : List α} (ho : ∀ b a, Oblivious (f b a)) (b : β) :
    Oblivious (l.foldlM f b) := by
  induction l generalizing b with
  | nil => exact oblivious_pure b
  | cons a l ih => exact (ho b a).bind fun b' => ih b'

theorem oblivious_mapM {f : α → Recorder φ ε β} {l : List α} (ho : ∀ a, Oblivious (f a)) : Oblivious (l.mapM f) := by
  induction l with
  | nil => exact oblivious_pure []
  | cons a l ih =>
    rw [List.mapM_cons]
    exact (ho a).bind fun b => ih.bind fun bs => oblivious_pure _

/-- What every turn of a silent loop keeps, the loop keeps. -/
theorem silent_foldlM {f : β → α → Recorder φ ε β} {l : List α} (ho : ∀ b a, Oblivious (f b a)) {I : β → Prop}
    (hI : ∀ a ∈ l, ∀ b b', I b → Silent (f b a) b' → I b') {b c : β} (hb : I b)
    (h : Silent (l.foldlM f b) c) : I c := by
  induction l generalizing b with
  | nil => exact silent_pure.mp h ▸ hb
  | cons a l ih =>
    rw [List.forall_mem_cons] at hI
    rw [List.foldlM_cons, silent_bind fun b' => oblivious_foldlM ho b'] at h
    obtain ⟨b', hturn, hrest⟩ := h
    exact ih hI.2 (hI.1 b b' hb hturn) hrest

theorem mem_of_silent_mapM {f : α → Recorder φ ε β} {l : List α} (ho : ∀ a, Oblivious (f a)) {bs : List β}
    (h : Silent (l.mapM f) bs) : ∀ b ∈ bs, ∃ a ∈ l, Silent (f a) b := by
  induction l generalizing bs with
  | nil =>
    obtain rfl := silent_pure.mp h
    exact nofun
  | cons a l ih =>
    rw [List.mapM_cons, silent_bind fun b => (oblivious_mapM ho).bind fun bs => oblivious_pure _] at h
    obtain ⟨b, hb, hrest⟩ := h
    obtain ⟨bs', hbs', hpure⟩ := (silent_bind fun bs => oblivious_pure _).mp hrest
    obtain rfl := silent_pure.mp hpure
    intro c hc
    rcases List.mem_cons.mp hc with rfl | hc
    · exact ⟨a, List.mem_cons_self, hb⟩
    · obtain ⟨a', ha', hc'⟩ := ih hbs' c hc
      exact ⟨a', List.mem_cons_of_mem a ha', hc'⟩

theorem run_mapM_split {f : α → Recorder φ ε β} (ho : ∀ a, Oblivious (f a)) {pre post : List α} {v : α} {bs : List β}
    {es : List ε} :
    ((pre ++ v :: post).mapM f).run [] = .ok (bs, es) ↔ ∃ bs₁ e₁ b e bs₂ e₂,
      (pre.mapM f).run [] = .ok (bs₁, e₁) ∧ (f v).run [] = .ok (b, e) ∧ (post.mapM f).run [] = .ok (bs₂, e₂) ∧
      bs = bs₁ ++ b :: bs₂ ∧ es = e₁ ++ (e ++ e₂) := by
  rw [List.mapM_append, List.mapM_cons]
  constructor
  · intro h
    obtain ⟨bs₁, e₁, hpre, h⟩ := run_bind_ok.mp h
    obtain ⟨bs', l₁, hrest, h⟩ := run_bind_ok.mp h
    obtain ⟨rfl, rfl⟩ := Prod.mk.inj (Except.ok.inj h)
    obtain ⟨b, l₂, hv, hrest⟩ := run_bind_ok.mp hrest
    obtain ⟨e, he, rfl⟩ := (ho v).run_ok.mp hv
    obtain ⟨bs₂, l₃, hpost, hrest⟩ := run_bind_ok.mp hrest
    obtain ⟨e₂, he₂, rfl⟩ := (oblivious_mapM ho).run_ok.mp hpost
    obtain ⟨rfl, rfl⟩ := Prod.mk.inj (Except.ok.inj hrest)
    exact ⟨bs₁, e₁, b, e, bs₂, e₂, hpre, he, he₂, rfl, List.append_assoc _ _ _⟩
  · intro h
    obtain ⟨bs₁, e₁, b, e, bs₂, e₂, hpre, hv, hpost, rfl, rfl⟩ := h
    refine run_bind_ok.mpr ⟨bs₁, e₁, hpre, run_bind_ok.mpr ⟨b :: bs₂, e₁ ++ (e ++ e₂), ?_, rfl⟩⟩
    refine run_bind_ok.mpr ⟨b, e₁ ++ e, (ho v).run_ok.mpr ⟨e, hv, rfl⟩, run_bind_ok.mpr ⟨bs₂, _, ?_, rfl⟩⟩
    exact (oblivious_mapM ho).run_ok.mpr ⟨e₂, hpost, (List.append_assoc _ _ _).symm⟩

/-! ## What a run records -/

/-- The entries that `x` records from the empty log, none when it fails. -/
def logged (x : Recorder φ ε α) : List ε :=
  match x.run [] with
  | .ok (_, es) => es
  | .error _ => []

theorem logged_of_run {x : Recorder φ ε α} {a : α} {es : List ε} (h : x.run [] = .ok (a, es)) : x.logged = es := by
  rw [logged, h]

theorem logged_eq_nil_iff {x : Recorder φ ε α} {a : α} {es : List ε} (h : x.run [] = .ok (a, es)) :
    x.logged = [] ↔ Silent x a := by
  rw [logged_of_run h, Silent, h]
  simp

/-- Every entry that `x` records satisfies `P`. -/
def Emits (P : ε → Prop) (x : Recorder φ ε α) : Prop := ∀ a es, x.run [] = .ok (a, es) → ∀ e ∈ es, P e

section Emits
variable {P : ε → Prop}

theorem emits_pure (a : α) : Emits P (pure a : Recorder φ ε α) := by
  intro b es h e he
  simp only [StateT.run_pure, pure_eq_ok, Except.ok.injEq, Prod.mk.injEq] at h
  simp [← h.2] at he

theorem emits_record {e : ε} (he : P e) : Emits P (record e : Recorder φ ε Unit) := by
  intro a es h e' he'
  simp only [run_record, Except.ok.injEq, Prod.mk.injEq] at h
  rw [← h.2, List.nil_append, List.mem_singleton] at he'
  exact he' ▸ he

theorem emits_lift (x : Except φ α) : Emits P (liftM x : Recorder φ ε α) := by
  intro a es h e he
  cases x with
  | error f => simp at h
  | ok b =>
    simp only [run_lift_ok, Except.ok.injEq, Prod.mk.injEq] at h
    simp [← h.2] at he

theorem Emits.bind {x : Recorder φ ε α} {f : α → Recorder φ ε β} (hx : Emits P x) (hf : ∀ a, Emits P (f a))
    (ho : ∀ a, Oblivious (f a)) : Emits P (x >>= f) := by
  intro b es h e he
  obtain ⟨a, m, hxa, hfa⟩ := run_bind_ok.mp h
  obtain ⟨fs, hfs, rfl⟩ := (ho a).run_ok.mp hfa
  rcases List.mem_append.mp he with hm | hm
  · exact hx a m hxa e hm
  · exact hf a b fs hfs e hm

theorem Emits.ite {c : Prop} [Decidable c] {x y : Recorder φ ε α} (hx : Emits P x) (hy : Emits P y) :
    Emits P (if c then x else y) := by
  split
  · exact hx
  · exact hy

end Emits

def each : List (Recorder φ ε Unit) → Recorder φ ε Unit
  | [] => pure ()
  | x :: xs => do
      x
      each xs

theorem oblivious_each {xs : List (Recorder φ ε Unit)} (h : ∀ x ∈ xs, Oblivious x) : Oblivious (each xs) := by
  induction xs with
  | nil => exact oblivious_pure ()
  | cons x xs ih =>
    rw [List.forall_mem_cons] at h
    exact h.1.bind fun _ => ih h.2

theorem emits_each {P : ε → Prop} {xs : List (Recorder φ ε Unit)} (hp : ∀ x ∈ xs, Emits P x)
    (h : ∀ x ∈ xs, Oblivious x) : Emits P (each xs) := by
  induction xs with
  | nil => exact emits_pure ()
  | cons x xs ih =>
    rw [List.forall_mem_cons] at h hp
    exact hp.1.bind (fun _ => ih hp.2 h.2) fun _ => oblivious_each h.2

theorem silent_each {xs : List (Recorder φ ε Unit)} (h : ∀ x ∈ xs, Oblivious x) :
    Silent (each xs) () ↔ ∀ x ∈ xs, Silent x () := by
  induction xs with
  | nil => simp [each, Silent]
  | cons x xs ih =>
    rw [List.forall_mem_cons] at h
    rw [each, silent_seq (oblivious_each h.2), List.forall_mem_cons, ih h.2]

/-! ## Verdicts -/

/-- `x` says `true` exactly when it records nothing. -/
def Honest (x : Recorder φ ε Bool) : Prop := ∀ b es, x.run [] = .ok (b, es) → (b = true ↔ es = [])

/-- All checks are made, whatever the earlier ones say: `ret &= x` for one after the other. -/
def all : List (Recorder φ ε Bool) → Recorder φ ε Bool
  | [] => pure true
  | x :: xs => do
      let ret ← x
      let rest ← all xs
      return ret && rest

theorem oblivious_all {xs : List (Recorder φ ε Bool)} (h : ∀ x ∈ xs, Oblivious x) : Oblivious (all xs) := by
  induction xs with
  | nil => exact oblivious_pure true
  | cons x xs ih =>
    rw [List.forall_mem_cons] at h
    exact h.1.bind fun _ => (ih h.2).bind fun _ => oblivious_pure _

theorem emits_all {P : ε → Prop} {xs : List (Recorder φ ε Bool)} (hp : ∀ x ∈ xs, Emits P x)
    (h : ∀ x ∈ xs, Oblivious x) : Emits P (all xs) := by
  induction xs with
  | nil => exact emits_pure true
  | cons x xs ih =>
    rw [List.forall_mem_cons] at h hp
    exact hp.1.bind (fun _ => (ih hp.2 h.2).bind (fun _ => emits_pure _) fun _ => oblivious_pure _)
      fun _ => (oblivious_all h.2).bind fun _ => oblivious_pure _

theorem honest_all {xs : List (Recorder φ ε Bool)} (hh : ∀ x ∈ xs, Honest x) (h : ∀ x ∈ xs, Oblivious x) :
    Honest (all xs) := by
  induction xs with
  | nil =>
    intro b es hrun
    simp only [all, StateT.run_pure, pure_eq_ok, Except.ok.injEq, Prod.mk.injEq] at hrun
    simp [← hrun.1, ← hrun.2]
  | cons x xs ih =>
    rw [List.forall_mem_cons] at h hh
    intro b es hrun
    obtain ⟨ret, m, hx, hrest⟩ := run_bind_ok.mp hrun
    obtain ⟨rest, l, hxs, hret⟩ := run_bind_ok.mp hrest
    obtain ⟨fs, hfs, rfl⟩ := (oblivious_all h.2).run_ok.mp hxs
    simp only [StateT.run_pure, pure_eq_ok, Except.ok.injEq, Prod.mk.injEq] at hret
    rw [← hret.1, ← hret.2, Bool.and_eq_true, List.append_eq_nil_iff, hh.1 ret m hx, ih hh.2 h.2 rest fs hfs]

/-- All checks pass silently exactly when each of them does. -/
theorem silent_all {xs : List (Recorder φ ε Bool)} (hh : ∀ x ∈ xs, Honest x) (h : ∀ x ∈ xs, Oblivious x) :
    Silent (all xs) true ↔ ∀ x ∈ xs, Silent x true := by
  induction xs with
  | nil => simp [all, Silent]
  | cons x xs ih =>
    rw [List.forall_mem_cons] at h hh
    rw [all, silent_bind fun _ => (oblivious_all h.2).bind fun _ => oblivious_pure _,
      List.forall_mem_cons, ← ih hh.2 h.2]
    constructor
    · rintro ⟨ret, hx, hrest⟩
      obtain ⟨rest, hxs, hret⟩ := (silent_bind fun _ => oblivious_pure _).mp hrest
      rw [silent_pure, Bool.and_eq_true] at hret
      obtain ⟨rfl, rfl⟩ := hret
      exact ⟨hx, hxs⟩
    · rintro ⟨hx, hxs⟩
      exact ⟨true, hx, (silent_bind fun _ => oblivious_pure _).mpr ⟨true, hxs, silent_pure.mpr rfl⟩⟩

/-! ## Plain computations -/

/-- `x` never looks at the log, and every entry that it records satisfies `P`. -/
structure Plain (P : ε → Prop) (x : Recorder φ ε α) : Prop where
  oblivious : Oblivious x
  emits : Emits P x

section Plain
variable {P : ε → Prop}

theorem plain_pure (a : α) : Plain P (pure a : Recorder φ ε α) := ⟨oblivious_pure a, emits_pure a⟩

theorem plain_lift (x : Except φ α) : Plain P (liftM x : Recorder φ ε α) := ⟨oblivious_lift x, emits_lift x⟩

theorem plain_record {e : ε} (he : P e) : Plain P (record e : Recorder φ ε Unit) :=
  ⟨oblivious_record e, emits_record he⟩

theorem Plain.bind {x : Recorder φ ε α} {f : α → Recorder φ ε β} (hx : Plain P x) (hf : ∀ a, Plain P (f a)) :
    Plain P (x >>= f) :=
  ⟨hx.oblivious.bind fun a => (hf a).oblivious, hx.emits.bind (fun a => (hf a).emits) fun a => (hf a).oblivious⟩

theorem Plain.ite {c : Prop} [Decidable c] {x y : Recorder φ ε α} (hx : Plain P x) (hy : Plain P y) :
    Plain P (if c then x else y) := ⟨hx.oblivious.ite hy.oblivious, hx.emits.ite hy.emits⟩

theorem plain_each {xs : List (Recorder φ ε Unit)} (h : ∀ x ∈ xs, Plain P x) : Plain P (each xs) :=
  ⟨oblivious_each fun x hx => (h x hx).oblivious,
    emits_each (fun x hx => (h x hx).emits) fun x hx => (h x hx).oblivious⟩

theorem plain_all {xs : List (Recorder φ ε Bool)} (h : ∀ x ∈ xs, Plain P x) : Plain P (all xs) :=
  ⟨oblivious_all fun x hx => (h x hx).oblivious,
    emits_all (fun x hx => (h x hx).emits) fun x hx => (h x hx).oblivious⟩

theorem Plain.logged {x : Recorder φ ε α} (h : Plain P x) : ∀ e ∈ x.logged, P e := by
  intro e he
  unfold Recorder.logged at he
  split at he
  · next a es hrun => exact h.emits a es hrun e he
  · cases he

end Plain

end Recorder

/-! ## Checks whose second step waits for an empty log -/

/-- What a check records: `always`, and `gated` only when the log is still empty after that. -/
structure Stage (ε : Type) where
  always : List ε
  gated : List ε

namespace Stage

variable {ε : Type}

/-- The entries recorded after a log. -/
def findings (s : Stage ε) (log : List ε) : List ε :=
  if log ++ s.always = [] then s.gated else s.always

/-- The entries recorded when the check is made alone. -/
def alone (s : Stage ε) : List ε := s.findings []

/-- The log after a list of checks. -/
def runAll (log : List ε) (stages : List (Stage ε)) : List ε :=
  stages.foldl (fun log s => log ++ s.findings log) log

/-- The second step finds something although the first does not. -/
def Hidden (s : Stage ε) : Prop := s.always = [] ∧ s.gated ≠ []

theorem findings_nil (s : Stage ε) : s.findings [] = s.alone := rfl

theorem findings_of_ne_nil {log : List ε} (s : Stage ε) (h : log ≠ []) : s.findings log = s.always := by
  simp [findings, h]

theorem runAll_cons (log : List ε) (s : Stage ε) (stages : List (Stage ε)) :
    runAll log (s :: stages) = runAll (log ++ s.findings log) stages := rfl

theorem runAll_of_ne_nil {log : List ε} (h : log ≠ []) (stages : List (Stage ε)) :
    runAll log stages = log ++ stages.flatMap always := by
  induction stages generalizing log with
  | nil => simp [runAll]
  | cons s stages ih =>
    rw [runAll_cons, findings_of_ne_nil s h, ih (by simp [h]), List.flatMap_cons, List.append_assoc]

theorem alone_of_always_ne_nil {s : Stage ε} (h : s.always ≠ []) : s.alone = s.always := by
  simp [alone, findings, h]

theorem alone_eq_nil_iff (s : Stage ε) : s.alone = [] ↔ s.always = [] ∧ s.gated = [] := by
  unfold alone findings
  split <;> simp_all

theorem length_always_le_alone (s : Stage ε) : s.always.length ≤ s.alone.length := by
  by_cases h : s.always = []
  · simp [h]
  · exact Nat.le_of_eq (congrArg List.length (alone_of_always_ne_nil h)).symm

theorem always_eq_alone_iff (s : Stage ε) : s.always = s.alone ↔ ¬ s.Hidden := by
  unfold Hidden
  by_cases h : s.always = []
  · simp [alone, findings, h, eq_comm]
  · simp [alone_of_always_ne_nil h, h]

/-- No stage records more in context than alone, so equal totals mean equal parts. -/
theorem flatMap_always_eq_iff (stages : List (Stage ε)) :
    stages.flatMap always = stages.flatMap alone ↔ ∀ s ∈ stages, ¬ s.Hidden := by
  constructor
  · intro h
    have hlen : ∀ l : List (Stage ε), (l.flatMap always).length ≤ (l.flatMap alone).length := by
      intro l
      induction l with
      | nil => simp
      | cons s l ih =>
        have := s.length_always_le_alone
        simp only [List.flatMap_cons, List.length_append]
        omega
    induction stages with
    | nil => simp
    | cons s stages ih =>
      simp only [List.flatMap_cons] at h
      have hle := hlen stages
      have hs := s.length_always_le_alone
      have htot := congrArg List.length h
      simp only [List.length_append] at htot
      obtain ⟨heq, hrest⟩ := List.append_inj h (by omega)
      intro t ht
      rcases List.mem_cons.mp ht with rfl | ht
      · exact (always_eq_alone_iff _).mp heq
      · exact ih hrest t ht
  · intro h
    exact List.flatMap_congr fun s hs => (always_eq_alone_iff s).mpr (h s hs)

/-- **A list of checks records what each of them records alone exactly when no check that finds something only in
its second step comes after a check that finds something.** -/
theorem runAll_eq_iff (stages : List (Stage ε)) :
    runAll [] stages = stages.flatMap alone ↔
      ∀ pre s post, stages = pre ++ s :: post → (∃ t ∈ pre, t.alone ≠ []) → ¬ s.Hidden := by
  induction stages with
  | nil => simp [runAll]
  | cons s stages ih =>
    rw [runAll_cons, List.nil_append, findings_nil, List.flatMap_cons]
    by_cases hs : s.alone = []
    · rw [hs, List.nil_append, ih]
      constructor
      · intro h pre t post heq hpre
        cases pre with
        | nil => simp at hpre
        | cons u pre =>
          rw [List.cons_append, List.cons.injEq] at heq
          obtain ⟨rfl, heq⟩ := heq
          apply h pre t post heq
          obtain ⟨v, hv, hne⟩ := hpre
          rcases List.mem_cons.mp hv with rfl | hv
          · exact absurd hs hne
          · exact ⟨v, hv, hne⟩
      · intro h pre t post heq hpre
        obtain ⟨v, hv, hne⟩ := hpre
        exact h (s :: pre) t post (by rw [heq]; rfl) ⟨v, List.mem_cons_of_mem _ hv, hne⟩
    · rw [runAll_of_ne_nil hs, List.append_cancel_left_eq, flatMap_always_eq_iff]
      constructor
      · intro h pre t post heq hpre
        cases pre with
        | nil => simp at hpre
        | cons u pre =>
          rw [List.cons_append, List.cons.injEq] at heq
          exact h t (by rw [heq.2]; simp)
      · intro h t ht
        obtain ⟨pre, post, rfl⟩ := List.append_of_mem ht
        exact h (s :: pre) t post rfl ⟨s, by simp, hs⟩

end Stage
