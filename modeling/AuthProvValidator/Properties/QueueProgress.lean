import Mathlib.Data.Fintype.Basic
import Mathlib.Tactic.FinCases
import AuthProvValidator.Entities.LockQueue

/-!
# What the queue makes its threads wait for

* `exclusive_of_reachable` : one thread at a time touches the queue, and never takes from an empty one;
* `rests_iff_no_move` : the queue comes to a stop only when every thread has left it or waits for an item;
* `queue_eq_nil_of_asleep` : where no thread calls `front`, nobody waits for an item that is there;
* `notification_lost_to_front` : where a thread does, it can use up the notification of an item that it leaves
  behind, and a thread that waits to pop it sleeps on.
-/

open Finset

namespace AuthProvValidator.LockQueue

variable {ι α : Type*} [DecidableEq ι]

/-- In any state that a run can reach, no two threads are between locking and unlocking; a thread at `front()`
finds an item, and one at `pop()` removes the item it has read. -/
theorem exclusive_of_reachable {A : Call α → Prop} {s : State ι α}
    (hs : (lockQueue ι A).Reachable s) :
    (∀ i j, (s.pc i).holds = true → (s.pc j).holds = true → i = j) ∧
      (∀ i w, s.pc i = .reading w → s.queue ≠ []) ∧
        ∀ i val, s.pc i = .removing val → s.queue.head? = some val := by
  have h := locked_of_reachable hs
  refine ⟨?_, ?_, ?_⟩
  · intro i j hi hj
    exact h.unique hi hj
  · intro i w hi
    have hknows := h.knows i
    rwa [hi] at hknows
  · intro i val hi
    have hknows := h.knows i
    rwa [hi] at hknows

theorem exclusive_while_pushing : ∃ s : State Bool Nat,
    (s.pc true = .pushing 7 ∧ s.pc false = .locking (.take .pop)) ∧
      (∀ i j, (s.pc i).holds = true → (s.pc j).holds = true → i = j) ∧
        (∀ i w, s.pc i = .reading w → s.queue ≠ []) ∧
          ∀ i val, s.pc i = .removing val → s.queue.head? = some val := by
  have hpop := reachable_call (α := Nat) (A := fun _ => True) false (c := .take .pop) trivial
  have hpush := hpop.step (.call (i := true) (c := .push 7) rfl trivial)
  have hlock := hpush.step (.move (.lock (State.goto_self _ _ _) rfl))
  exact ⟨_, ⟨rfl, rfl⟩, exclusive_of_reachable hlock⟩

/-! ## When nothing moves -/

theorem Locked.move_of_holds {s : State ι α} (h : Locked s) {i : ι} (hi : (s.pc i).holds = true) :
    ∃ e t, Move s e t := by
  have hknows := h.knows i
  cases hpc : s.pc i with
  | testing w =>
    by_cases hempty : s.queue = []
    · exact ⟨_, _, .sleep hpc hempty⟩
    · exact ⟨_, _, .pass hpc hempty⟩
  | reading w =>
    rw [hpc] at hknows
    have hval : s.queue.head? = some (s.queue.head hknows) := List.head?_eq_some_head hknows
    exact ⟨_, _, .read hpc hval⟩
  | removing val =>
    rw [hpc] at hknows
    refine ⟨_, _, .remove hpc ?_⟩
    intro hempty
    rw [Pc.Knows, hempty] at hknows
    cases hknows
  | leaving w val => exact ⟨_, _, .leave hpc⟩
  | pushing item => exact ⟨_, _, .push hpc⟩
  | unlocking => exact ⟨_, _, .unlock hpc⟩
  | _ => rw [hpc] at hi; cases hi

/-- While a thread is in a method and not asleep there, some thread can go on. -/
theorem Locked.move_of_not_rests {s : State ι α} (h : Locked s) {i : ι} (hi : ¬ (s.pc i).Rests) :
    ∃ e t, Move s e t := by
  cases hm : s.mutex with
  | some j => exact h.move_of_holds ((h.owner j).mpr hm)
  | none =>
    have hfree := h.free hm i
    cases hpc : s.pc i with
    | idle => exact absurd (Or.inl hpc) hi
    | waiting w => exact absurd (Or.inr ⟨w, hpc⟩) hi
    | locking c => exact ⟨_, _, .lock hpc hm⟩
    | woken w => exact ⟨_, _, .relock hpc hm⟩
    | notifying =>
      by_cases hsome : ∃ j w, s.pc j = .waiting w
      · obtain ⟨j, w, hj⟩ := hsome
        exact ⟨_, _, .notify hpc hj⟩
      · exact ⟨_, _, .notifyNone hpc fun j w hj => hsome ⟨j, w, hj⟩⟩
    | returning r => exact ⟨_, _, .ret hpc⟩
    | _ => rw [hpc] at hfree; cases hfree

omit [DecidableEq ι] in
theorem Pc.Rests.not_holds {p : Pc α} (h : p.Rests) : p.holds = false := by
  rcases h with rfl | ⟨w, rfl⟩ <;> rfl

omit [DecidableEq ι] in
theorem Pc.not_rests_of_eq {p q : Pc α} (h : p = q) (hq : ¬ q.Rests) : ¬ p.Rests := by
  rwa [h]

theorem Move.not_rests {s t : State ι α} {e : Option (Event ι α)} (hm : Move s e t) : ∃ i, ¬ (s.pc i).Rests := by
  cases hm with
  | lock hi | sleep hi | pass hi | relock hi | read hi | remove hi | leave hi | push hi | unlock hi
  | notify hi | notifyNone hi | ret hi =>
    refine ⟨_, Pc.not_rests_of_eq hi ?_⟩
    rintro (h | ⟨w, h⟩) <;> cases h

theorem Locked.rests_of_no_move {s : State ι α} (h : Locked s) (hno : ∀ e t, ¬ Move s e t) (i : ι) :
    (s.pc i).Rests := by
  by_contra hi
  obtain ⟨e, t, hm⟩ := h.move_of_not_rests hi
  exact hno e t hm

/-- No deadlock: in every state a run can reach, some thread can go on in the method it is in, unless each of
them is outside every method or waits for an item. -/
theorem rests_iff_no_move {A : Call α → Prop} {s : State ι α}
    (hs : (lockQueue ι A).Reachable s) :
    (∀ i, (s.pc i).Rests) ↔ ∀ e t, ¬ Move s e t := by
  constructor
  · intro hrests e t hm
    obtain ⟨i, hi⟩ := hm.not_rests
    exact hi (hrests i)
  · intro hno i
    exact (locked_of_reachable hs).rests_of_no_move hno i

theorem rests_iff_no_move_while_pushing : ∃ s : State Bool Nat, s.pc true = .pushing 7 ∧
    ((∀ i, (s.pc i).Rests) ↔ ∀ e t, ¬ Move s e t) := by
  have hpush := reachable_call (ι := Bool) (A := fun _ => True) true (c := .push 7) trivial
  have hlock := hpush.step (.move (.lock (State.goto_self _ _ _) rfl))
  exact ⟨_, rfl, rests_iff_no_move hlock⟩

/-! ## Without `front`, nobody misses an item -/

def NoFront : Call α → Prop := fun c => c ≠ .take .front

def Pc.NoFront : Pc α → Prop
  | locking c => LockQueue.NoFront c
  | testing w | waiting w | woken w | reading w => w = .pop
  | _ => True

/-- What a thread will still do for those asleep: it will take an item, or wake one of them. -/
def Pc.watches : Pc α → Nat
  | testing _ | woken _ | reading _ | removing _ | unlocking | notifying => 1
  | _ => 0

variable [Fintype ι]

def State.watchers (s : State ι α) : Nat := ∑ i, (s.pc i).watches

theorem State.watchers_goto (s : State ι α) (i : ι) (p : Pc α) :
    (s.goto i p).watchers + (s.pc i).watches = s.watchers + p.watches := sum_update Pc.watches s.pc i p

/-- No thread calls `front`, and while one sleeps there are as many threads awake as there are items. -/
structure Watched (s : State ι α) : Prop where
  noFront : ∀ i, (s.pc i).NoFront
  watched : (∃ i w, s.pc i = .waiting w) → s.queue.length ≤ s.watchers

/-- A thread goes on: it may take one item less into its care only when the queue has lost one. -/
theorem Watched.goto {s : State ι α} (h : Watched s) {i : ι} {p : Pc α} {q : List α} {m : Option ι}
    (hno : p.NoFront) (hawake : ∀ w, p ≠ .waiting w)
    (hbalance : q.length + (s.pc i).watches ≤ s.queue.length + p.watches) :
    Watched ({ s with queue := q, mutex := m }.goto i p) where
  noFront := fun j => by
    rw [State.goto_pc]
    split
    · exact hno
    · exact h.noFront j
  watched := by
    rintro ⟨j, w, hj⟩
    have hasleep : s.pc j = .waiting w := by
      rw [State.goto_pc] at hj
      split at hj
      · exact absurd hj (hawake w)
      · exact hj
    have hle := h.watched ⟨j, w, hasleep⟩
    have hgoto := State.watchers_goto { s with queue := q, mutex := m } i p
    have hsame : ({ s with queue := q, mutex := m } : State ι α).watchers = s.watchers := rfl
    simp only [State.goto_queue] at hgoto ⊢
    omega

omit [DecidableEq ι] in
theorem Watched.of_empty {s : State ι α} (hno : ∀ i, (s.pc i).NoFront) (hempty : s.queue = []) :
    Watched s where
  noFront := hno
  watched := fun _ => by
    rw [hempty]
    exact Nat.zero_le _

/-- A notification is handed on: the thread woken is awake in place of the one that has woken it. -/
theorem Watched.notify {s : State ι α} (h : Watched s) {i j : ι} {w : Take} (hi : s.pc i = .notifying)
    (hj : s.pc j = .waiting w) : Watched ((s.goto j (.woken w)).goto i (.returning .done)) where
  noFront := fun k => by
    rw [State.goto_pc]
    split
    · trivial
    · rw [State.goto_pc]
      split
      · have hno := h.noFront j
        rw [hj] at hno
        exact hno
      · exact h.noFront k
  watched := by
    intro _
    have hle := h.watched ⟨j, w, hj⟩
    have hij : i ≠ j := by
      rintro rfl
      rw [hi] at hj
      cases hj
    have hwoken := s.watchers_goto j (.woken w)
    have hdone := (s.goto j (.woken w)).watchers_goto i (.returning .done)
    rw [hj] at hwoken
    rw [State.goto_ne s _ hij, hi] at hdone
    simp only [Pc.watches, State.goto_queue] at hwoken hdone ⊢
    omega

theorem Watched.move {s t : State ι α} {e : Option (Event ι α)} (h : Watched s) (hm : Move s e t) :
    Watched t := by
  cases hm with
  | @lock i c hi hfree =>
    have hno := h.noFront i
    rw [hi] at hno
    apply h.goto (q := s.queue)
    · cases c with
      | take w =>
        cases w with
        | front => exact absurd rfl hno
        | pop => rfl
      | push item => trivial
    · intro w hw
      cases c <;> cases hw
    · rw [hi]
      exact Nat.le_add_right _ _
  | @sleep i w hi hempty =>
    apply Watched.of_empty
    · intro j
      rw [State.goto_pc]
      split
      · have hno := h.noFront i
        rwa [hi] at hno
      · exact h.noFront j
    · exact hempty
  | @pass i w hi hsome =>
    have hno : (Pc.reading w : Pc α).NoFront := by
      have htesting := h.noFront i
      rwa [hi] at htesting
    exact h.goto (q := s.queue) (m := s.mutex) hno (by simp) (by rw [hi]; exact Nat.le_refl _)
  | @relock i w hi hfree =>
    have hno : (Pc.testing w : Pc α).NoFront := by
      have hwoken := h.noFront i
      rwa [hi] at hwoken
    exact h.goto (q := s.queue) hno (by simp) (by rw [hi]; exact Nat.le_refl _)
  | @read i w val hi hval =>
    have hno := h.noFront i
    rw [hi] at hno
    -- `front` would go on to return, and no longer look after the item it has seen
    have hw : w = .pop := hno
    subst hw
    exact h.goto (q := s.queue) (m := s.mutex) trivial (by simp [Pc.seen]) (by rw [hi]; exact Nat.le_refl _)
  | @remove i val hi hsome =>
    have hpos := List.length_pos_iff.mpr hsome
    refine h.goto (m := s.mutex) ?_ ?_ ?_
    · trivial
    · simp
    · rw [hi, List.length_tail]
      simp only [Pc.watches]
      omega
  | @leave i w val hi =>
    exact h.goto (q := s.queue) trivial (by simp) (by rw [hi]; exact Nat.le_refl _)
  | @push i item hi =>
    refine h.goto (m := s.mutex) ?_ ?_ ?_
    · trivial
    · simp
    · rw [hi, List.length_append]
      exact Nat.le_refl _
  | @unlock i hi => exact h.goto (q := s.queue) trivial (by simp) (by rw [hi]; exact Nat.le_refl _)
  | @notify i j w hi hj => exact h.notify hi hj
  | @notifyNone i hi hnone =>
    constructor
    · intro j
      rw [State.goto_pc]
      split
      · trivial
      · exact h.noFront j
    · rintro ⟨j, w, hj⟩
      rw [State.goto_pc] at hj
      split at hj
      · cases hj
      · exact absurd hj (hnone j w)
  | @ret i r hi =>
    exact h.goto (q := s.queue) (m := s.mutex) trivial (by simp) (by rw [hi]; exact Nat.le_refl _)

theorem watched_of_reachable {s : State ι α} (hs : (lockQueue ι NoFront).Reachable s) : Watched s := by
  refine Machine.Reachable.induct ?_ ?_ hs
  · rintro s rfl
    exact Watched.of_empty (fun _ => trivial) rfl
  · intro s e t _ h hstep
    cases hstep with
    | @call i c hi hc =>
      exact h.goto (q := s.queue) (m := s.mutex) hc (by simp) (by rw [hi]; exact Nat.le_refl _)
    | move hm => exact h.move hm
    | @wake i w hi =>
      have hno : (Pc.woken w : Pc α).NoFront := by
        have hwaiting := h.noFront i
        rwa [hi] at hwaiting
      exact h.goto (q := s.queue) (m := s.mutex) hno (by simp) (by rw [hi]; exact Nat.le_add_right _ _)

/-- Where the threads only push and pop, no notification is lost: in any state a run can reach, once nothing
moves any more and a thread still waits for an item, there is no item. -/
theorem queue_eq_nil_of_asleep {s : State ι α} (hs : (lockQueue ι NoFront).Reachable s)
    (hno : ∀ e t, ¬ Move s e t) {i : ι} {w : Take} (hi : s.pc i = .waiting w) : s.queue = [] := by
  have hrests := (locked_of_reachable hs).rests_of_no_move hno
  have hzero : s.watchers = 0 := by
    apply Finset.sum_eq_zero
    intro j _
    rcases hrests j with hj | ⟨w', hj⟩ <;> rw [hj] <;> rfl
  have hle := (watched_of_reachable hs).watched ⟨i, w, hi⟩
  rw [hzero] at hle
  exact List.length_eq_zero_iff.mp (Nat.le_zero.mp hle)

/-- A thread waits to pop, is woken by the push of another one, takes the item and waits again. -/
def pushBetweenPops : List (Event Bool Nat) :=
  [.call false (.take .pop), .call true (.push 7), .ret true .done, .ret false (.taken .pop 7),
   .call false (.take .pop)]

theorem queue_eq_nil_of_pops : ∃ s : State Bool Nat,
    (lockQueue Bool NoFront).Path State.initial pushBetweenPops s ∧ s.pc true = .idle ∧ s.pc false = .waiting .pop ∧
      s.queue = [] := by
  have hpop : NoFront (.take .pop : Call Nat) := by simp [NoFront]
  have hpush : NoFront (.push 7 : Call Nat) := by simp [NoFront]
  have hhandover := handover_path (s := State.initial) (i := false) (k := true) hpop hpush (by decide) rfl rfl rfl rfl
  obtain ⟨s, hsleep, hs⟩ := sleep_path (s := State.initial) (i := false) hpop rfl rfl rfl
  have hpath := hhandover.trans hsleep
  have hout : s.pc true = .idle := hs.others true (by decide)
  refine ⟨s, hpath, hout, hs.self, queue_eq_nil_of_asleep ⟨_, _, rfl, hpath⟩ ?_ hs.self⟩
  intro e t hm
  obtain ⟨i, hi⟩ := hm.not_rests
  cases i with
  | true => exact hi (Or.inl hout)
  | false => exact hi (Or.inr ⟨.pop, hs.self⟩)

/-! ## With `front`, a notification can be used up -/

omit [DecidableEq ι] [Fintype ι] in
theorem Locked.mutex_free {s : State ι α} (h : Locked s) (hrests : ∀ i, (s.pc i).Rests) : s.mutex = none := by
  cases hm : s.mutex with
  | none => rfl
  | some i =>
    have hi := (h.owner i).mpr hm
    rw [(hrests i).not_holds] at hi
    cases hi

omit [Fintype ι] in
/-- Where `front` is called too, a notification can be lost: when every thread is outside or asleep, `i` in `front`
and `j` in `pop`, a third one can push an item and wake `i`, which returns what is first in the queue and leaves it
there; then nothing moves any more, and `j` sleeps on beside the item. -/
theorem notification_lost_to_front {A : Call α → Prop} {s : State ι α} {i j k : ι} {item : α}
    (hs : (lockQueue ι A).Reachable s) (hrests : ∀ l, (s.pc l).Rests) (hc : A (.push item))
    (hk : s.pc k = .idle) (hi : s.pc i = .waiting .front) (hj : s.pc j = .waiting .pop) :
    ∃ val t, (s.queue ++ [item]).head? = some val ∧
      (lockQueue ι A).Path s [.call k (.push item), .ret k .done, .ret i (.taken .front val)] t ∧
      (∀ e u, ¬ Move t e u) ∧ t.queue = s.queue ++ [item] ∧ t.pc i = .idle ∧ t.pc j = .waiting .pop := by
  have hne : i ≠ j ∧ i ≠ k ∧ j ≠ k := by
    refine ⟨?_, ?_, ?_⟩ <;> rintro rfl <;> simp_all
  obtain ⟨hij, hik, hjk⟩ := hne
  have hfree := (locked_of_reachable hs).mutex_free hrests
  obtain ⟨t, hpush, ht⟩ := push_path hc hk hfree
  have hasleep : t.pc i = .waiting .front := by rw [ht.others i hik, hi]
  obtain ⟨u, hnotify, hu⟩ := notify_path (A := A) ht.self hasleep
  obtain ⟨val, hval⟩ : ∃ val, (s.queue ++ [item]).head? = some val := by
    rw [List.head?_append]
    cases s.queue with
    | nil => exact ⟨item, rfl⟩
    | cons x xs => exact ⟨x, rfl⟩
  have hhead : u.queue.head? = some val := by rw [hu.queue, ht.queue, hval]
  obtain ⟨v, hfront, hv⟩ := take_path (A := A) hu.woken (hu.mutex.trans ht.mutex) hhead
  refine ⟨val, v, hval, hpush.trans (hnotify.trans hfront), ?_, ?_, hv.self, ?_⟩
  · intro e x hm
    obtain ⟨l, hl⟩ := hm.not_rests
    apply hl
    by_cases hli : l = i
    · rw [hli, hv.self]
      exact Or.inl rfl
    · rw [hv.others l hli]
      by_cases hlk : l = k
      · rw [hlk, hu.notifier]
        exact Or.inl rfl
      · rw [hu.others l hlk hli, ht.others l hlk]
        exact hrests l
  · exact hv.queue.trans (hu.queue.trans ht.queue)
  · rw [hv.others j hij.symm, hu.others j hjk hij.symm, ht.others j hjk, hj]

/-- The first of three threads waits in `front`, the second one in `pop`. -/
theorem notification_lost_between_three : ∃ s : State (Fin 3) Nat, s.queue = [] ∧ s.pc 0 = .waiting .front ∧
    s.pc 1 = .waiting .pop ∧ ∃ val t, (s.queue ++ [7]).head? = some val ∧
      (lockQueue (Fin 3) fun _ => True).Path s [.call 2 (.push 7), .ret 2 .done, .ret 0 (.taken .front val)] t ∧
      (∀ e u, ¬ Move t e u) ∧ t.queue = s.queue ++ [7] ∧ t.pc 0 = .idle ∧ t.pc 1 = .waiting .pop := by
  obtain ⟨s, hfront, hs⟩ := sleep_path (A := fun _ => True) (s := (State.initial : State (Fin 3) Nat)) (i := 0)
    (w := .front) trivial rfl rfl rfl
  have hidle : s.pc 1 = .idle := hs.others 1 (by decide)
  obtain ⟨t, hpop, ht⟩ := sleep_path (A := fun _ => True) (w := .pop) trivial hidle hs.mutex hs.queue
  have hzero : t.pc 0 = .waiting .front := (ht.others 0 (by decide)).trans hs.self
  have htwo : t.pc 2 = .idle := (ht.others 2 (by decide)).trans (hs.others 2 (by decide))
  have hreach : (lockQueue (Fin 3) fun _ => True).Reachable t := ⟨_, _, rfl, hfront.trans hpop⟩
  refine ⟨t, ht.queue, hzero, ht.self, notification_lost_to_front hreach ?_ trivial htwo hzero ht.self⟩
  intro l
  fin_cases l
  · exact Or.inr ⟨.front, hzero⟩
  · exact Or.inr ⟨.pop, ht.self⟩
  · exact Or.inl htwo

end AuthProvValidator.LockQueue
