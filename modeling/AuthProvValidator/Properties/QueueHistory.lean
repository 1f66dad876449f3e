import Mathlib.Data.Multiset.AddSub
import AuthProvValidator.Entities.LockQueue

/-!
# What the threads see of the queue

The queue is compared with one that nobody can interrupt: `Log` keeps every item ever pushed and how many of
them have been taken, and each call takes effect in one step between its call and its return.

* `lockQueue_refines`, `lockQueue_traces` : the calls and returns of any run are those of a run of the log, so
  items are taken in the order in which they were pushed, each of them once;
* `brought_eq_takenAway_add_queue` : what `push` has been called with is what `pop` has returned, what is in the queue
  and what the threads are about to push or to return.
-/

open Finset

namespace AuthProvValidator.LockQueue

variable {ι α : Type*}

/-! ## A queue nobody can interrupt -/

/-- Where a call stands for an observer: made, or carried out. -/
inductive Phase (α : Type*)
  | idle
  | called (c : Call α)
  | answered (r : Answer α)

/-- All items ever pushed, the number of those taken, and where each thread's call stands. -/
structure Log (ι α : Type*) where
  pushed : List α
  taken : Nat
  phase : ι → Phase α

variable [DecidableEq ι]

def Log.goto (a : Log ι α) (i : ι) (p : Phase α) : Log ι α := { a with phase := Function.update a.phase i p }

theorem Log.goto_phase (a : Log ι α) (i j : ι) (p : Phase α) :
    (a.goto i p).phase j = if j = i then p else a.phase j := Function.update_apply a.phase i p j

/-- A call is made, carried out in one step, and returns. -/
inductive Log.Step (A : Call α → Prop) (a : Log ι α) : Option (Event ι α) → Log ι α → Prop
  | call {i : ι} {c : Call α} (hi : a.phase i = .idle) (hc : A c) :
      Log.Step A a (some (.call i c)) (a.goto i (.called c))
  | push {i : ι} {item : α} (hi : a.phase i = .called (.push item)) :
      Log.Step A a none ({ a with pushed := a.pushed ++ [item] }.goto i (.answered .done))
  | pop {i : ι} {val : α} (hi : a.phase i = .called (.take .pop)) (hval : a.pushed[a.taken]? = some val) :
      Log.Step A a none ({ a with taken := a.taken + 1 }.goto i (.answered (.taken .pop val)))
  | front {i : ι} {val : α} (hi : a.phase i = .called (.take .front)) (hval : a.pushed[a.taken]? = some val) :
      Log.Step A a none (a.goto i (.answered (.taken .front val)))
  | ret {i : ι} {r : Answer α} (hi : a.phase i = .answered r) :
      Log.Step A a (some (.ret i r)) (a.goto i .idle)

def Log.initial : Log ι α where
  pushed := []
  taken := 0
  phase := fun _ => .idle

/-- The queue whose calls nobody can interrupt. -/
def atomicQueue (ι : Type*) [DecidableEq ι] (A : Call α → Prop) : Machine (Log ι α) (Event ι α) where
  Start := fun a => a = Log.initial
  Step := Log.Step A

/-! ## The queue refines the log -/

/-- `front()` takes effect at `queue_.front()`, `pop()` at `queue_.pop()` and `push()` at `queue_.push(item)`. -/
def Pc.phase : Pc α → Phase α
  | idle => .idle
  | locking c => .called c
  | testing w | waiting w | woken w | reading w => .called (.take w)
  | removing _ => .called (.take .pop)
  | leaving w val => .answered (.taken w val)
  | pushing item => .called (.push item)
  | unlocking | notifying => .answered .done
  | returning r => .answered r

/-- The queue holds what has been pushed and not been taken, and the calls stand at the same place. -/
structure Refines (s : State ι α) (a : Log ι α) : Prop where
  queue : s.queue = a.pushed.drop a.taken
  phase : ∀ i, (s.pc i).phase = a.phase i

omit [DecidableEq ι] in
theorem Refines.head {s : State ι α} {a : Log ι α} (h : Refines s a) :
    s.queue.head? = a.pushed[a.taken]? := by
  rw [h.queue, List.head?_drop]

theorem Refines.goto {s : State ι α} {a : Log ι α} (h : Refines s a) (i : ι) {p : Pc α} {f : Phase α}
    (hp : p.phase = f) : Refines (s.goto i p) (a.goto i f) where
  queue := h.queue
  phase := fun j => by
    rw [State.goto_pc, Log.goto_phase]
    split
    · exact hp
    · exact h.phase j

/-- A thread that goes on without effect stands, for an observer, where it stood. -/
theorem Refines.stutter {s : State ι α} {a : Log ι α} (h : Refines s a) {i : ι} {p : Pc α}
    (hp : p.phase = (s.pc i).phase) : Refines (s.goto i p) a where
  queue := h.queue
  phase := fun j => by
    rw [State.goto_pc]
    split
    · next hj => rw [hp, hj, h.phase i]
    · exact h.phase j

omit [DecidableEq ι] in
theorem Refines.mutex {s : State ι α} {a : Log ι α} (h : Refines s a) (m : Option ι) :
    Refines { s with mutex := m } a := ⟨h.queue, h.phase⟩

omit [DecidableEq ι] in
theorem Refines.push {s : State ι α} {a : Log ι α} (h : Refines s a) (hle : a.taken ≤ a.pushed.length)
    (item : α) :
    Refines { s with queue := s.queue ++ [item] } { a with pushed := a.pushed ++ [item] } where
  queue := by
    show s.queue ++ [item] = (a.pushed ++ [item]).drop a.taken
    rw [List.drop_append_of_le_length hle, h.queue]
  phase := h.phase

omit [DecidableEq ι] in
theorem Refines.pop {s : State ι α} {a : Log ι α} (h : Refines s a) :
    Refines { s with queue := s.queue.tail } { a with taken := a.taken + 1 } where
  queue := by
    show s.queue.tail = a.pushed.drop (a.taken + 1)
    rw [h.queue, List.tail_drop]
  phase := h.phase

/-- What is taken has been pushed. -/
def Log.Sound (a : Log ι α) : Prop := a.taken ≤ a.pushed.length

theorem Log.Sound.step {A : Call α → Prop} {a b : Log ι α} {e : Option (Event ι α)} (ha : a.Sound)
    (hs : Log.Step A a e b) : b.Sound := by
  cases hs with
  | push hi =>
    show a.taken ≤ (a.pushed ++ [_]).length
    rw [List.length_append]
    exact Nat.le_add_right_of_le ha
  | pop hi hval => exact (List.getElem?_eq_some_iff.mp hval).1
  | call | front | ret => exact ha

theorem Refines.move {A : Call α → Prop} {s t : State ι α} {a : Log ι α} {e : Option (Event ι α)}
    (hs : Locked s) (h : Refines s a) (ha : a.Sound) (hm : Move s e t) :
    ∃ b, (atomicQueue ι A).Path a e.toList b ∧ Refines t b ∧ b.Sound := by
  cases hm with
  | @lock i c hi hfree =>
    refine ⟨a, .refl a, (h.mutex _).stutter ?_, ha⟩
    show (Pc.entered c).phase = (s.pc i).phase
    rw [hi]
    cases c <;> rfl
  | @sleep i w hi hempty =>
    refine ⟨a, .refl a, (h.mutex _).stutter ?_, ha⟩
    show (Pc.waiting w).phase = (s.pc i).phase
    rw [hi]
    rfl
  | @pass i w hi hsome =>
    refine ⟨a, .refl a, h.stutter ?_, ha⟩
    rw [hi]
    rfl
  | @relock i w hi hfree =>
    refine ⟨a, .refl a, (h.mutex _).stutter ?_, ha⟩
    show (Pc.testing w).phase = (s.pc i).phase
    rw [hi]
    rfl
  | @read i w val hi hval =>
    cases w with
    | front =>
      have hphase : a.phase i = .called (.take .front) := by rw [← h.phase i, hi]; rfl
      rw [h.head] at hval
      exact ⟨_, .single (.front hphase hval), h.goto i rfl, ha⟩
    | pop =>
      refine ⟨a, .refl a, h.stutter ?_, ha⟩
      rw [hi]
      rfl
  | @remove i val hi hsome =>
    have hphase : a.phase i = .called (.take .pop) := by rw [← h.phase i, hi]; rfl
    have hval : s.queue.head? = some val := by
      have hknows := hs.knows i
      rwa [hi] at hknows
    rw [h.head] at hval
    exact ⟨_, .single (.pop hphase hval), h.pop.goto i rfl, ha.step (A := A) (.pop hphase hval)⟩
  | @leave i w val hi =>
    refine ⟨a, .refl a, (h.mutex _).stutter ?_, ha⟩
    show (Pc.returning (.taken w val)).phase = (s.pc i).phase
    rw [hi]
    rfl
  | @push i item hi =>
    have hphase : a.phase i = .called (.push item) := by rw [← h.phase i, hi]; rfl
    exact ⟨_, .single (.push hphase), (h.push ha item).goto i rfl, ha.step (A := A) (.push hphase)⟩
  | @unlock i hi =>
    refine ⟨a, .refl a, (h.mutex _).stutter ?_, ha⟩
    show (Pc.notifying : Pc α).phase = (s.pc i).phase
    rw [hi]
    rfl
  | @notify i j w hi hj =>
    have hwoken : Refines (s.goto j (.woken w)) a := by
      apply h.stutter
      rw [hj]
      rfl
    refine ⟨a, .refl a, hwoken.stutter ?_, ha⟩
    have hij : i ≠ j := by
      rintro rfl
      rw [hi] at hj
      cases hj
    rw [State.goto_ne s _ hij, hi]
    rfl
  | @notifyNone i hi hnone =>
    refine ⟨a, .refl a, h.stutter ?_, ha⟩
    rw [hi]
    rfl
  | @ret i r hi =>
    have hphase : a.phase i = .answered r := by rw [← h.phase i, hi]; rfl
    exact ⟨_, .single (.ret hphase), h.goto i rfl, ha⟩

theorem lockQueue_refines (A : Call α → Prop) :
    Machine.Simulation (lockQueue ι A) (atomicQueue ι A) fun s a => Refines s a ∧ a.Sound where
  start := by
    rintro s rfl
    exact ⟨Log.initial, rfl, ⟨rfl, fun _ => rfl⟩, Nat.le_refl 0⟩
  step := by
    rintro s e t a hreach ⟨h, ha⟩ hstep
    cases hstep with
    | @call i c hi hc =>
      have hphase : a.phase i = .idle := by rw [← h.phase i, hi]; rfl
      exact ⟨_, .single (.call hphase hc), h.goto i rfl, ha⟩
    | move hm => exact h.move (locked_of_reachable hreach) ha hm
    | @wake i w hi =>
      refine ⟨a, .refl a, h.stutter ?_, ha⟩
      rw [hi]
      rfl

/-- However the threads are interleaved, what they call and what is returned to them is what a queue shows
whose calls are carried out one after the other. -/
theorem lockQueue_traces (A : Call α → Prop) :
    (lockQueue ι A).traces ⊆ (atomicQueue ι A).traces :=
  (lockQueue_refines A).traces_subset

/-! ## No item is lost or doubled -/

def Event.brings : Event ι α → Multiset α
  | call _ (.push item) => {item}
  | _ => 0

def Event.takes : Event ι α → Multiset α
  | ret _ (.taken .pop val) => {val}
  | _ => 0

def brought (es : List (Event ι α)) : Multiset α := (es.map Event.brings).sum

def takenAway (es : List (Event ι α)) : Multiset α := (es.map Event.takes).sum

/-- The item of a call that is neither in the queue nor outside: about to be pushed, or about to be returned by
`pop`. -/
def Phase.inFlight : Phase α → Multiset α
  | called (.push item) => {item}
  | answered (.taken .pop val) => {val}
  | _ => 0

section Conservation

variable [Fintype ι]

def Log.inFlight (a : Log ι α) : Multiset α := ∑ i, (a.phase i).inFlight

theorem Log.inFlight_goto (a : Log ι α) (i : ι) (p : Phase α) :
    (a.goto i p).inFlight + (a.phase i).inFlight = a.inFlight + p.inFlight :=
  sum_update Phase.inFlight a.phase i p

/-- What has been brought has been taken away, is in the queue, or is in the hands of a thread. -/
def Log.Accounts (es : List (Event ι α)) (a : Log ι α) : Prop :=
  brought es = takenAway es + (a.pushed.drop a.taken : List α) + a.inFlight

omit [DecidableEq ι] [Fintype ι] in
theorem brought_append (es fs : List (Event ι α)) : brought (es ++ fs) = brought es + brought fs := by
  rw [brought, List.map_append, List.sum_append]
  rfl

omit [DecidableEq ι] [Fintype ι] in
theorem takenAway_append (es fs : List (Event ι α)) :
    takenAway (es ++ fs) = takenAway es + takenAway fs := by
  rw [takenAway, List.map_append, List.sum_append]
  rfl

/-- A step keeps the account when what the thread held, what it shows to be brought and what was in the queue
make up for what it holds, what it shows to be taken away and what is in the queue afterwards. -/
theorem Log.Accounts.goto {es fs : List (Event ι α)} {a b : Log ι α} (h : a.Accounts es) {i : ι} {p : Phase α}
    (hphase : b.phase = a.phase)
    (hbalance : (a.pushed.drop a.taken : List α) + (brought fs + (a.phase i).inFlight) =
      (b.pushed.drop b.taken : List α) + (takenAway fs + p.inFlight)) :
    (b.goto i p).Accounts (es ++ fs) := by
  have hflight : (b.goto i p).inFlight + (a.phase i).inFlight = a.inFlight + p.inFlight := by
    have hgoto := b.inFlight_goto i p
    rw [hphase] at hgoto
    rw [hgoto, Log.inFlight, hphase, Log.inFlight]
  apply add_right_cancel (b := (a.phase i).inFlight)
  calc brought (es ++ fs) + (a.phase i).inFlight
      = takenAway es + a.inFlight + ((a.pushed.drop a.taken : List α) + (brought fs + (a.phase i).inFlight)) := by
        rw [brought_append, h]
        ac_rfl
    _ = takenAway (es ++ fs) + (b.pushed.drop b.taken : List α) + (a.inFlight + p.inFlight) := by
        rw [hbalance, takenAway_append]
        ac_rfl
    _ = takenAway (es ++ fs) + (b.pushed.drop b.taken : List α) + (b.goto i p).inFlight
        + (a.phase i).inFlight := by
        rw [← hflight]
        ac_rfl

theorem Log.Accounts.step {A : Call α → Prop} {es : List (Event ι α)} {a b : Log ι α}
    {e : Option (Event ι α)} (h : a.Accounts es) (ha : a.Sound) (hs : Log.Step A a e b) :
    b.Accounts (es ++ e.toList) := by
  cases hs with
  | @call i c hi hc =>
    apply h.goto rfl
    rw [hi]
    cases c <;> simp [brought, takenAway, Event.brings, Event.takes, Phase.inFlight]
  | @push i item hi =>
    refine h.goto ?_ ?_
    · rfl
    rw [hi, List.drop_append_of_le_length ha, ← Multiset.coe_add]
    simp [brought, takenAway, Phase.inFlight]
  | @pop i val hi hval =>
    refine h.goto ?_ ?_
    · rfl
    obtain ⟨hlt, hget⟩ := List.getElem?_eq_some_iff.mp hval
    rw [hi, List.drop_eq_getElem_cons hlt, hget, ← Multiset.cons_coe, ← Multiset.singleton_add]
    simp [brought, takenAway, Phase.inFlight, add_comm]
  | @front i val hi hval =>
    apply h.goto rfl
    rw [hi]
    simp [brought, takenAway, Phase.inFlight]
  | @ret i r hi =>
    apply h.goto rfl
    rw [hi]
    cases r with
    | taken w val => cases w <;> simp [brought, takenAway, Event.brings, Event.takes, Phase.inFlight]
    | done => simp [brought, takenAway, Event.brings, Event.takes, Phase.inFlight]

/-- In any run, whatever `push` has been called with has been returned by `pop` once, or is in the queue once, or is
in the hands of one thread, which is about to push it or to return it: nothing is lost, and nothing is returned twice.
-/
theorem brought_eq_takenAway_add_queue {A : Call α → Prop} {es : List (Event ι α)} {s : State ι α}
    (hrun : (lockQueue ι A).Path State.initial es s) :
    brought es = takenAway es + (s.queue : Multiset α) + ∑ i, (s.pc i).phase.inFlight := by
  obtain ⟨j, a, hj, hpath, href, -⟩ := (lockQueue_refines A).path rfl hrun
  have haccount : a.Accounts es ∧ a.Sound := by
    refine Machine.Path.induct (I := fun es a => a.Accounts es ∧ a.Sound) ?_ ?_ hj hpath
    · rintro _ rfl
      refine ⟨?_, Nat.le_refl 0⟩
      simp [Log.Accounts, Log.initial, Log.inFlight, brought, takenAway, Phase.inFlight]
    · rintro es a e b - ⟨h, ha⟩ hstep
      exact ⟨h.step ha hstep, ha.step hstep⟩
  rw [haccount.1, href.queue, Log.inFlight]
  congr 1
  apply Finset.sum_congr rfl
  intro i _
  rw [href.phase i]

end Conservation

/-- A thread waits to pop and gets 7; then 8 is pushed, and 9 is about to be. -/
def threePushes : List (Event Bool Nat) :=
  [.call false (.take .pop), .call true (.push 7), .ret true .done, .ret false (.taken .pop 7), .call true (.push 8),
    .ret true .done, .call true (.push 9)]

theorem brought_eq_takenAway_of_threePushes : ∃ s : State Bool Nat,
    (lockQueue Bool fun _ => True).Path State.initial threePushes s ∧ s.queue = [8] ∧ takenAway threePushes = {7} ∧
      brought threePushes = takenAway threePushes + (s.queue : Multiset Nat) + ∑ i, (s.pc i).phase.inFlight := by
  have hhandover := handover_path (A := fun _ => True) (s := (State.initial : State Bool Nat)) (i := false) (k := true)
    (x := 7) trivial trivial (by decide) rfl rfl rfl rfl
  obtain ⟨s, hpush, hs⟩ := push_path (A := fun _ => True) (s := (State.initial : State Bool Nat)) (k := true)
    (x := 8) trivial rfl rfl
  have hnone : ∀ j w, s.pc j ≠ .waiting w := by
    intro j w hj
    cases j with
    | true =>
      rw [hs.self] at hj
      cases hj
    | false =>
      rw [hs.others false (by decide)] at hj
      cases hj
  have hreturn := Machine.Path.single (S := lockQueue Bool fun _ => True) (Step.move (.notifyNone hs.self hnone))
  have hdone := hreturn.snoc (.move (.ret (State.goto_self _ _ _)))
  have hcall := hdone.snoc (.call (c := .push 9) (State.goto_self _ _ _) trivial)
  have hpath := hhandover.trans (hpush.trans hcall)
  exact ⟨_, hpath, hs.queue, rfl, brought_eq_takenAway_add_queue hpath⟩

end AuthProvValidator.LockQueue
