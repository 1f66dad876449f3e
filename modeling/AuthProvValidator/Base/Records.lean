import AuthProvValidator.Base.Recorder

/-!
# What a computation records

What a long computation records is put together from what its parts record, with one rule for each way to build a
`Recorder`.

* `Records x es Q` : whenever `x` returns, it has put `es` behind the log, and what it returns satisfies `Q`;
* `Records.bind`, `records_mapM`, `records_foldlM` : the parts record one after the other;
* `sweep next g` : the entries of a loop whose turns depend on what earlier elements have left behind, and when there
  are none (`sweep_eq_nil_iff`).
-/

namespace Recorder

variable {φ ε α β σ : Type}

/-- Whenever `x` returns, it has put `es` behind the log, and what it returns satisfies `Q`. -/
def Records (x : Recorder φ ε α) (es : List ε) (Q : α → Prop) : Prop :=
  ∀ log a l, x.run log = .ok (a, l) → l = log ++ es ∧ Q a

/-- The entries of a loop: an element `a` that is reached with `s` gives `g s a`, and leaves `next s a`. -/
def sweep (next : σ → α → σ) (g : σ → α → List ε) : σ → List α → List ε
  | _, [] => []
  | s, a :: l => g s a ++ sweep next g (next s a) l

section Rules
variable {x : Recorder φ ε α} {es fs : List ε} {Q Q' : α → Prop} {S : β → Prop}

theorem Records.mono (hx : Records x es Q) (h : ∀ a, Q a → Q' a) : Records x es Q' := by
  intro log a l hrun
  obtain ⟨hl, ha⟩ := hx log a l hrun
  exact ⟨hl, h a ha⟩

theorem records_pure {a : α} (h : Q a) : Records (pure a : Recorder φ ε α) [] Q := by
  intro log b l hrun
  obtain ⟨rfl, rfl⟩ := Prod.mk.inj (Except.ok.inj hrun)
  exact ⟨(List.append_nil _).symm, h⟩

theorem records_record (e : ε) : Records (record e : Recorder φ ε Unit) [e] fun _ => True := by
  intro log a l hrun
  obtain ⟨-, rfl⟩ := Prod.mk.inj (Except.ok.inj hrun)
  exact ⟨rfl, trivial⟩

theorem records_fail {f : φ} : Records (fail f : Recorder φ ε α) es Q := by
  intro log a l hrun
  cases hrun

theorem records_of_run {a : α} (h : ∀ log, x.run log = .ok (a, log ++ es)) (ha : Q a) : Records x es Q := by
  intro log b l hrun
  obtain ⟨rfl, rfl⟩ := Prod.mk.inj (Except.ok.inj ((h log).symm.trans hrun))
  exact ⟨rfl, ha⟩

theorem records_lift (y : Except φ α) : Records (liftM y : Recorder φ ε α) [] fun a => y = .ok a := by
  cases y with
  | error f => exact records_fail
  | ok a => exact records_pure rfl

theorem Records.bind {f : α → Recorder φ ε β} (hx : Records x es Q) (hf : ∀ a, Q a → Records (f a) fs S) :
    Records (x >>= f) (es ++ fs) S := by
  intro log b l hrun
  obtain ⟨a, m, hxrun, hfrun⟩ := run_bind_ok.mp hrun
  obtain ⟨rfl, ha⟩ := hx log a m hxrun
  obtain ⟨rfl, hb⟩ := hf a ha _ b l hfrun
  exact ⟨List.append_assoc _ _ _, hb⟩

theorem Records.seq {f : α → Recorder φ ε β} (hx : Records x [] Q) (hf : ∀ a, Q a → Records (f a) fs S) :
    Records (x >>= f) fs S := hx.bind hf

theorem Records.ret {f : α → β} (hx : Records x es Q) (hf : ∀ a, Q a → S (f a)) :
    Records (x >>= fun a => pure (f a)) es S := by
  have hbind : Records (x >>= fun a => pure (f a)) (es ++ []) S := hx.bind fun a ha => records_pure (hf a ha)
  rwa [List.append_nil] at hbind

end Rules

section Loops
variable {l : List α}

theorem records_mapM {f : α → Recorder φ ε β} {g : α → List ε} {S : β → Prop}
    (h : ∀ a ∈ l, Records (f a) (g a) S) : Records (l.mapM f) (l.flatMap g) fun bs => ∀ b ∈ bs, S b := by
  induction l with
  | nil => exact records_pure fun b hb => absurd hb List.not_mem_nil
  | cons a l ih =>
    rw [List.forall_mem_cons] at h
    rw [List.mapM_cons, List.flatMap_cons]
    refine h.1.bind fun b hb => (ih h.2).ret fun bs hbs => ?_
    rw [List.forall_mem_cons]
    exact ⟨hb, hbs⟩

/-- A loop that is followed by what earlier elements have left behind. -/
theorem records_foldlM {f : β → α → Recorder φ ε β} {next : σ → α → σ} {g : σ → α → List ε} {Q : σ → β → Prop}
    (h : ∀ s b a, Q s b → Records (f b a) (g s a) (Q (next s a))) {s : σ} {b : β} (hb : Q s b) :
    Records (l.foldlM f b) (sweep next g s l) (Q (l.foldl next s)) := by
  induction l generalizing s b with
  | nil => exact records_pure hb
  | cons a l ih =>
    rw [List.foldlM_cons]
    exact (h s b a hb).bind fun b' hb' => ih hb'

/-- Nothing is recorded exactly when no element gives an entry, each with what those before it have left behind. -/
theorem sweep_eq_nil_iff {next : σ → α → σ} {g : σ → α → List ε} {s : σ} :
    sweep next g s l = [] ↔ ∀ pre a post, l = pre ++ a :: post → g (pre.foldl next s) a = [] := by
  induction l generalizing s with
  | nil =>
    refine iff_of_true rfl fun pre a post hsplit => ?_
    cases pre <;> cases hsplit
  | cons a l ih =>
    rw [sweep, List.append_eq_nil_iff, ih]
    constructor
    · intro h pre b post hsplit
      cases pre with
      | nil =>
        obtain ⟨rfl, -⟩ := List.cons.inj hsplit
        exact h.1
      | cons c pre =>
        obtain ⟨rfl, hrest⟩ := List.cons.inj hsplit
        exact h.2 pre b post hrest
    · intro h
      constructor
      · exact h [] a l rfl
      · intro pre b post hsplit
        exact h (a :: pre) b post (by rw [hsplit]; rfl)

end Loops

end Recorder
