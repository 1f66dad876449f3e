import Mathlib.Algebra.BigOperators.Group.Finset.Basic
import AuthProvValidator.Base.Transitions

/-!
# The queue between threads

`LockQueue<T>` guards a `std::queue` by a mutex; a condition variable makes `front` and `pop` wait for an
item. The threads `ι` call its methods in any order and are interleaved between any two accesses to the
queue, the mutex and the condition variable.

* `Pc` : where a thread stands in the method it has called;
* `Move` : one step of a thread inside a method;
* `lockQueue ι A` : the queue with threads that make the calls in `A`, which show their calls and
  what these return;
* `Locked` : the thread that may touch the queue is the one that owns the mutex, and what it has seen there
  is still so (`Locked.move`, `locked_of_reachable`);
* `sleep_path`, `take_path`, `push_path`, `notify_path` : calls that nobody interrupts.
-/

namespace AuthProvValidator.LockQueue

/-- The two methods that wait for an item. -/
inductive Take
  | front
  | pop
  deriving DecidableEq

inductive Call (α : Type*)
  | take (w : Take)
  | push (item : α)

inductive Answer (α : Type*)
  | taken (w : Take) (val : α)
  | done

/-- What is seen of the queue from outside. -/
inductive Event (ι α : Type*)
  | call (i : ι) (c : Call α)
  | ret (i : ι) (r : Answer α)

inductive Pc (α : Type*)
  /-- not in a method -/
  | idle
  /-- at `std::unique_lock<std::mutex> mlock(mutex_)` -/
  | locking (c : Call α)
  /-- at `while (queue_.empty())` -/
  | testing (w : Take)
  /-- asleep in `cond_.wait(mlock)`, which has released the mutex -/
  | waiting (w : Take)
  /-- woken in `cond_.wait(mlock)`, about to lock the mutex again -/
  | woken (w : Take)
  /-- at `queue_.front()` -/
  | reading (w : Take)
  /-- at `queue_.pop()`, with the item to return -/
  | removing (val : α)
  /-- at `return`, where the lock is released -/
  | leaving (w : Take) (val : α)
  /-- at `queue_.push(item)` -/
  | pushing (item : α)
  /-- at `mlock.unlock()` -/
  | unlocking
  /-- at `cond_.notify_one()` -/
  | notifying
  /-- out of the method, with its result -/
  | returning (r : Answer α)

variable {ι α : Type*}

namespace Pc

/-- Between taking the lock and releasing it. -/
def holds : Pc α → Bool
  | testing _ | reading _ | removing _ | leaving _ _ | pushing _ | unlocking => true
  | idle | locking _ | waiting _ | woken _ | notifying | returning _ => false

/-- Outside every method, or asleep in one. -/
def Rests (p : Pc α) : Prop := p = idle ∨ ∃ w, p = waiting w

def entered : Call α → Pc α
  | .take w => testing w
  | .push item => pushing item

def seen (val : α) : Take → Pc α
  | .front => leaving .front val
  | .pop => removing val

@[simp] theorem holds_entered (c : Call α) : (entered c).holds = true := by
  cases c <;> rfl

@[simp] theorem holds_seen (val : α) (w : Take) : (seen val w).holds = true := by
  cases w <;> rfl

end Pc

/-- The members of a `LockQueue<T>`, and where each thread stands. -/
@[ext] structure State (ι α : Type*) where
  queue : List α
  mutex : Option ι
  pc : ι → Pc α

variable [DecidableEq ι]

/-- Thread `i` goes on to `p`. -/
def State.goto (s : State ι α) (i : ι) (p : Pc α) : State ι α := { s with pc := Function.update s.pc i p }

@[simp] theorem State.goto_queue (s : State ι α) (i : ι) (p : Pc α) : (s.goto i p).queue = s.queue := rfl

@[simp] theorem State.goto_mutex (s : State ι α) (i : ι) (p : Pc α) : (s.goto i p).mutex = s.mutex := rfl

theorem State.goto_pc (s : State ι α) (i j : ι) (p : Pc α) :
    (s.goto i p).pc j = if j = i then p else s.pc j := Function.update_apply s.pc i p j

@[simp] theorem State.goto_self (s : State ι α) (i : ι) (p : Pc α) : (s.goto i p).pc i = p := by
  rw [State.goto_pc, if_pos rfl]

theorem State.goto_ne (s : State ι α) {i j : ι} (p : Pc α) (h : j ≠ i) : (s.goto i p).pc j = s.pc j := by
  rw [State.goto_pc, if_neg h]

/-- One step of a thread inside a method. -/
inductive Move (s : State ι α) : Option (Event ι α) → State ι α → Prop
  | lock {i : ι} {c : Call α} (hi : s.pc i = .locking c) (hfree : s.mutex = none) :
      Move s none ({ s with mutex := some i }.goto i (.entered c))
  | sleep {i : ι} {w : Take} (hi : s.pc i = .testing w) (hempty : s.queue = []) :
      Move s none ({ s with mutex := none }.goto i (.waiting w))
  | pass {i : ι} {w : Take} (hi : s.pc i = .testing w) (hsome : s.queue ≠ []) :
      Move s none (s.goto i (.reading w))
  | relock {i : ι} {w : Take} (hi : s.pc i = .woken w) (hfree : s.mutex = none) :
      Move s none ({ s with mutex := some i }.goto i (.testing w))
  -- `front()` and `pop()` of an empty `std::queue` are undefined: there is no step for them
  | read {i : ι} {w : Take} {val : α} (hi : s.pc i = .reading w) (hval : s.queue.head? = some val) :
      Move s none (s.goto i (.seen val w))
  | remove {i : ι} {val : α} (hi : s.pc i = .removing val) (hsome : s.queue ≠ []) :
      Move s none ({ s with queue := s.queue.tail }.goto i (.leaving .pop val))
  | leave {i : ι} {w : Take} {val : α} (hi : s.pc i = .leaving w val) :
      Move s none ({ s with mutex := none }.goto i (.returning (.taken w val)))
  | push {i : ι} {item : α} (hi : s.pc i = .pushing item) :
      Move s none ({ s with queue := s.queue ++ [item] }.goto i .unlocking)
  | unlock {i : ι} (hi : s.pc i = .unlocking) :
      Move s none ({ s with mutex := none }.goto i .notifying)
  | notify {i j : ι} {w : Take} (hi : s.pc i = .notifying) (hj : s.pc j = .waiting w) :
      Move s none ((s.goto j (.woken w)).goto i (.returning .done))
  -- nobody to wake: the notification is lost
  | notifyNone {i : ι} (hi : s.pc i = .notifying) (hnone : ∀ j w, s.pc j ≠ .waiting w) :
      Move s none (s.goto i (.returning .done))
  | ret {i : ι} {r : Answer α} (hi : s.pc i = .returning r) :
      Move s (some (.ret i r)) (s.goto i .idle)

/-- A thread calls a method, goes on inside one, or is woken for no reason, as a condition variable may. -/
inductive Step (A : Call α → Prop) (s : State ι α) : Option (Event ι α) → State ι α → Prop
  | call {i : ι} {c : Call α} (hi : s.pc i = .idle) (hc : A c) :
      Step A s (some (.call i c)) (s.goto i (.locking c))
  | move {e : Option (Event ι α)} {t : State ι α} (h : Move s e t) : Step A s e t
  | wake {i : ι} {w : Take} (hi : s.pc i = .waiting w) : Step A s none (s.goto i (.woken w))

/-- `LockQueue() = default`: an empty queue, a free mutex, and no thread in a method. -/
def State.initial : State ι α where
  queue := []
  mutex := none
  pc := fun _ => .idle

/-- The queue, shared by threads that make the calls in `A`. -/
def lockQueue (ι : Type*) [DecidableEq ι] (A : Call α → Prop) : Machine (State ι α) (Event ι α) where
  Start := fun s => s = State.initial
  Step := Step A

theorem sum_update [Fintype ι] {β M : Type*} [AddCommMonoid M] (f : β → M) (g : ι → β) (i : ι) (p : β) :
    ∑ j, f (Function.update g i p j) + f (g i) = ∑ j, f (g j) + f p := by
  have hrest : ∑ j ∈ Finset.univ.erase i, f (Function.update g i p j) = ∑ j ∈ Finset.univ.erase i, f (g j) := by
    apply Finset.sum_congr rfl
    intro j hj
    rw [Function.update_of_ne (Finset.ne_of_mem_erase hj)]
  rw [← Finset.add_sum_erase _ _ (Finset.mem_univ i), hrest, Function.update_self,
    ← Finset.add_sum_erase _ (fun j => f (g j)) (Finset.mem_univ i)]
  ac_rfl

/-! ## Who may touch the queue -/

/-- What a thread has seen of the queue: at `front()` and `pop()` it is not empty, and the item that `pop()`
removes is the one that has been read. -/
def Pc.Knows (q : List α) : Pc α → Prop
  | reading _ => q ≠ []
  | removing val => q.head? = some val
  | _ => True

/-- A thread that does not own the mutex knows nothing of the queue. -/
theorem Pc.knows_of_not_holds {p : Pc α} (h : p.holds = false) (q : List α) : p.Knows q := by
  cases p with
  | reading | removing => cases h
  | _ => trivial

/-- The mutex belongs to the thread between locking and unlocking, and what a thread has seen is still so. -/
structure Locked (s : State ι α) : Prop where
  owner : ∀ i, (s.pc i).holds = true ↔ s.mutex = some i
  knows : ∀ i, (s.pc i).Knows s.queue

omit [DecidableEq ι] in
theorem Locked.unique {s : State ι α} (h : Locked s) {i j : ι} (hi : (s.pc i).holds = true)
    (hj : (s.pc j).holds = true) : i = j := by
  have hown := (h.owner i).mp hi
  rw [(h.owner j).mp hj] at hown
  exact (Option.some.inj hown).symm

omit [DecidableEq ι] in
theorem Locked.initial : Locked (State.initial : State ι α) where
  owner := fun i => by simp [State.initial, Pc.holds]
  knows := fun _ => trivial

theorem Locked.outside {s : State ι α} (h : Locked s) {i : ι} {p : Pc α} (hi : (s.pc i).holds = false)
    (hp : p.holds = false) : Locked (s.goto i p) where
  owner := fun j => by
    rw [State.goto_pc, State.goto_mutex]
    split
    · next hj => rw [hj, ← h.owner i, hi, hp]
    · exact h.owner j
  knows := fun j => by
    rw [State.goto_pc, State.goto_queue]
    split
    · exact Pc.knows_of_not_holds hp s.queue
    · exact h.knows j

/-- One thread goes on while no other one owns the mutex: whether it owns it afterwards is for the place it
has reached to say, and the queue may have changed. -/
theorem Locked.alone {s : State ι α} {i : ι} {p : Pc α} {q : List α} {m : Option ι}
    (hothers : ∀ j, j ≠ i → (s.pc j).holds = false) (howner : m = if p.holds then some i else none)
    (hknows : p.Knows q) : Locked ({ s with queue := q, mutex := m }.goto i p) where
  owner := fun j => by
    rw [State.goto_pc, State.goto_mutex]
    split
    · next hj =>
      subst hj
      cases hp : p.holds <;> simp [howner, hp]
    · next hj =>
      have hji : i ≠ j := fun hij => hj hij.symm
      cases hp : p.holds <;> simp [howner, hp, hothers j hj, hji]
  knows := fun j => by
    rw [State.goto_pc, State.goto_queue]
    split
    · exact hknows
    · next hj => exact Pc.knows_of_not_holds (hothers j hj) q

omit [DecidableEq ι] in
theorem Locked.free {s : State ι α} (h : Locked s) (hfree : s.mutex = none) (j : ι) :
    (s.pc j).holds = false := by
  rw [← Bool.not_eq_true, h.owner j, hfree]
  simp

theorem Locked.acquire {s : State ι α} (h : Locked s) {i : ι} {p : Pc α} (hfree : s.mutex = none)
    (hp : p.holds = true) (hknows : p.Knows s.queue) : Locked ({ s with mutex := some i }.goto i p) := by
  apply Locked.alone (q := s.queue)
  · intro j _
    exact h.free hfree j
  · rw [hp, if_pos rfl]
  · exact hknows

/-- The owner of the mutex goes on, and keeps the mutex or releases it. -/
theorem Locked.proceed {s : State ι α} (h : Locked s) {i : ι} {p : Pc α} {q : List α} {m : Option ι}
    (hi : (s.pc i).holds = true) (howner : m = if p.holds then s.mutex else none) (hknows : p.Knows q) :
    Locked ({ s with queue := q, mutex := m }.goto i p) := by
  apply Locked.alone
  · intro j hji
    rw [← Bool.not_eq_true]
    intro hj
    exact hji (h.unique hj hi)
  · rw [howner, (h.owner i).mp hi]
  · exact hknows

theorem Locked.move {s t : State ι α} {e : Option (Event ι α)} (h : Locked s) (hm : Move s e t) : Locked t := by
  cases hm with
  | @lock i c hi hfree =>
    apply h.acquire hfree (Pc.holds_entered c)
    cases c <;> trivial
  | @sleep i w hi hempty => exact h.proceed (q := s.queue) (by rw [hi]; rfl) rfl trivial
  | @pass i w hi hsome => exact h.proceed (q := s.queue) (m := s.mutex) (by rw [hi]; rfl) rfl hsome
  | @relock i w hi hfree => exact h.acquire hfree rfl trivial
  | @read i w val hi hval =>
    have hi' : (s.pc i).holds = true := by rw [hi]; rfl
    apply h.proceed (q := s.queue) (m := s.mutex) hi'
    · rw [Pc.holds_seen, if_pos rfl]
    · cases w with
      | front => trivial
      | pop => exact hval
  | @remove i val hi hsome => exact h.proceed (m := s.mutex) (by rw [hi]; rfl) rfl trivial
  | @leave i w val hi => exact h.proceed (q := s.queue) (by rw [hi]; rfl) rfl trivial
  | @push i item hi => exact h.proceed (m := s.mutex) (by rw [hi]; rfl) rfl trivial
  | @unlock i hi => exact h.proceed (q := s.queue) (by rw [hi]; rfl) rfl trivial
  | @notify i j w hi hj =>
    have hwoken : Locked (s.goto j (.woken w)) := h.outside (by rw [hj]; rfl) rfl
    apply hwoken.outside _ rfl
    rw [State.goto_pc]
    split
    · rfl
    · rw [hi]
      rfl
  | @notifyNone i hi hnone => exact h.outside (by rw [hi]; rfl) rfl
  | @ret i r hi => exact h.outside (by rw [hi]; rfl) rfl

theorem Locked.step {A : Call α → Prop} {s t : State ι α} {e : Option (Event ι α)} (h : Locked s)
    (hs : Step A s e t) : Locked t := by
  cases hs with
  | call hi hc => exact h.outside (by rw [hi]; rfl) rfl
  | move hm => exact h.move hm
  | wake hi => exact h.outside (by rw [hi]; rfl) rfl

theorem locked_of_reachable {A : Call α → Prop} {s : State ι α}
    (hs : (lockQueue ι A).Reachable s) : Locked s := by
  refine Machine.Reachable.induct ?_ ?_ hs
  · intro s hs
    rw [hs]
    exact Locked.initial
  · intro s e t _ h hstep
    exact h.step hstep

theorem reachable_call {A : Call α → Prop} (i : ι) {c : Call α} (hc : A c) :
    (lockQueue ι A).Reachable (State.initial.goto i (.locking c)) := by
  have hstart : (lockQueue ι A).Reachable State.initial := Machine.Reachable.start rfl
  exact hstart.step (.call rfl hc)

/-! ## Calls that nobody interrupts -/

/-- The state after one thread has gone to `p` and left the mutex free; nothing else has changed but the queue. -/
structure Went (s t : State ι α) (i : ι) (p : Pc α) (q : List α) : Prop where
  queue : t.queue = q
  mutex : t.mutex = none
  self : t.pc i = p
  others : ∀ j, j ≠ i → t.pc j = s.pc j

/-- The state after `k` has woken `i` and returned. -/
structure Woke (s t : State ι α) (k i : ι) (w : Take) : Prop where
  queue : t.queue = s.queue
  mutex : t.mutex = s.mutex
  notifier : t.pc k = .idle
  woken : t.pc i = .woken w
  others : ∀ j, j ≠ k → j ≠ i → t.pc j = s.pc j

/-- What a call that has returned an item leaves in the queue. -/
def Take.leaves (q : List α) : Take → List α
  | front => q
  | pop => q.tail

section Uninterrupted
variable {A : Call α → Prop} {s : State ι α} {i k : ι} {w : Take} {x val : α}

/-- A call of `front` or `pop` on the empty queue, up to where it sleeps. -/
theorem sleep_path (hc : A (.take w)) (hi : s.pc i = .idle) (hfree : s.mutex = none) (hempty : s.queue = []) :
    ∃ t, (lockQueue ι A).Path s [.call i (.take w)] t ∧ Went s t i (.waiting w) [] := by
  have hcall := Machine.Path.single (S := lockQueue ι A) (Step.call hi hc)
  have hlock := hcall.silent (.move (.lock (State.goto_self _ _ _) hfree))
  have hsleep := hlock.silent (.move (.sleep (State.goto_self _ _ _) hempty))
  refine ⟨_, hsleep, hempty, rfl, State.goto_self _ _ _, ?_⟩
  intro j hj
  simp [State.goto_pc, hj]

/-- `front` and `pop`, from where they have been woken. -/
theorem take_path (hi : s.pc i = .woken w) (hfree : s.mutex = none) (hval : s.queue.head? = some val) :
    ∃ t, (lockQueue ι A).Path s [.ret i (.taken w val)] t ∧ Went s t i .idle (w.leaves s.queue) := by
  have hsome : s.queue ≠ [] := by
    intro hempty
    rw [hempty] at hval
    cases hval
  have hlock := Machine.Path.single (S := lockQueue ι A) (Step.move (.relock hi hfree))
  have hpass := hlock.silent (.move (.pass (State.goto_self _ _ _) hsome))
  have hread := hpass.silent (.move (.read (State.goto_self _ _ _) hval))
  cases w with
  | front =>
    have hleave := hread.silent (.move (.leave (State.goto_self _ _ _)))
    have hret := hleave.snoc (.move (.ret (State.goto_self _ _ _)))
    refine ⟨_, hret, rfl, rfl, State.goto_self _ _ _, ?_⟩
    intro j hj
    simp [State.goto_pc, hj]
  | pop =>
    have hremove := hread.silent (.move (.remove (State.goto_self _ _ _) hsome))
    have hleave := hremove.silent (.move (.leave (State.goto_self _ _ _)))
    have hret := hleave.snoc (.move (.ret (State.goto_self _ _ _)))
    refine ⟨_, hret, rfl, rfl, State.goto_self _ _ _, ?_⟩
    intro j hj
    simp [State.goto_pc, hj]

/-- `push`, up to the notification. -/
theorem push_path (hc : A (.push x)) (hk : s.pc k = .idle) (hfree : s.mutex = none) :
    ∃ t, (lockQueue ι A).Path s [.call k (.push x)] t ∧ Went s t k .notifying (s.queue ++ [x]) := by
  have hcall := Machine.Path.single (S := lockQueue ι A) (Step.call hk hc)
  have hlock := hcall.silent (.move (.lock (State.goto_self _ _ _) hfree))
  have hpush := hlock.silent (.move (.push (State.goto_self _ _ _)))
  have hunlock := hpush.silent (.move (.unlock (State.goto_self _ _ _)))
  refine ⟨_, hunlock, rfl, rfl, State.goto_self _ _ _, ?_⟩
  intro j hj
  simp [State.goto_pc, hj]

/-- The notification that wakes a thread, and the return. -/
theorem notify_path (hk : s.pc k = .notifying) (hi : s.pc i = .waiting w) :
    ∃ t, (lockQueue ι A).Path s [.ret k .done] t ∧ Woke s t k i w := by
  have hne : i ≠ k := by
    rintro rfl
    rw [hk] at hi
    cases hi
  have hnotify := Machine.Path.single (S := lockQueue ι A) (Step.move (.notify hk hi))
  have hret := hnotify.snoc (.move (.ret (State.goto_self _ _ _)))
  refine ⟨_, hret, rfl, rfl, State.goto_self _ _ _, ?_, ?_⟩
  · simp [State.goto_pc, hne]
  · intro j hjk hji
    simp [State.goto_pc, hjk, hji]

/-- An item is handed to a thread that waits for it; afterwards everything is as it was. -/
theorem handover_path (hpop : A (.take .pop)) (hpush : A (.push x)) (hik : i ≠ k) (hi : s.pc i = .idle)
    (hk : s.pc k = .idle) (hfree : s.mutex = none) (hempty : s.queue = []) :
    (lockQueue ι A).Path s
      [.call i (.take .pop), .call k (.push x), .ret k .done, .ret i (.taken .pop x)] s := by
  obtain ⟨s₁, hsleep, h₁⟩ := sleep_path hpop hi hfree hempty
  obtain ⟨s₂, hitem, h₂⟩ := push_path hpush ((h₁.others k hik.symm).trans hk) h₁.mutex
  obtain ⟨s₃, hnotify, h₃⟩ := notify_path (A := A) h₂.self ((h₂.others i hik).trans h₁.self)
  have hqueue : s₃.queue = [x] := by rw [h₃.queue, h₂.queue, h₁.queue, List.nil_append]
  have hhead : s₃.queue.head? = some x := by rw [hqueue, List.head?_cons]
  obtain ⟨s₄, htake, h₄⟩ := take_path (A := A) h₃.woken (h₃.mutex.trans h₂.mutex) hhead
  have hpath := hsleep.trans (hitem.trans (hnotify.trans htake))
  have hpc : s₄.pc = s.pc := by
    funext j
    by_cases hji : j = i
    · rw [hji, h₄.self, hi]
    · rw [h₄.others j hji]
      by_cases hjk : j = k
      · rw [hjk, h₃.notifier, hk]
      · rw [h₃.others j hjk hji, h₂.others j hjk, h₁.others j hji]
  have hgone : s₄.queue = s.queue := by
    rw [h₄.queue, hqueue, hempty]
    rfl
  have hsame : s₄ = s := State.ext hgone (h₄.mutex.trans hfree.symm) hpc
  rwa [hsame] at hpath

end Uninterrupted

end AuthProvValidator.LockQueue
