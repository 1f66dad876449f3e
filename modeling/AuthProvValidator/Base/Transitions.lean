import Mathlib.Data.List.Basic
import Mathlib.Data.Set.Basic

/-!
# Transition systems and the traces they show

A `Machine` starts in some of its states and moves between them; a step may show an event.

* `Path s es t` : steps from `s` to `t` that show the events `es`;
* `Reachable`, `Reachable.induct` : what holds at the start and is kept by every step holds in every
  reachable state;
* `traces` : the sequences of events a run from a start state can show;
* `Simulation`, `Simulation.traces_subset` : a system each of whose steps is matched by a path of
  another one shows no trace that the other one does not.
-/

/-- States, and steps between them of which an observer sees at most one event. -/
structure Machine (State Event : Type*) where
  /-- where a run may start -/
  Start : State → Prop
  /-- one step, with what it shows -/
  Step : State → Option Event → State → Prop

namespace Machine

variable {State Event Other : Type*}

/-- `S.Path s es t`: steps lead from `s` to `t`, and the events they show are `es`. -/
inductive Path (S : Machine State Event) : State → List Event → State → Prop
  | refl (s : State) : Path S s [] s
  | snoc {s t u : State} {es : List Event} {e : Option Event} :
      Path S s es t → S.Step t e u → Path S s (es ++ e.toList) u

/-- A run from a start state leads to `s`. -/
def Reachable (S : Machine State Event) (s : State) : Prop := ∃ i es, S.Start i ∧ S.Path i es s

def traces (S : Machine State Event) : Set (List Event) := {es | ∃ i s, S.Start i ∧ S.Path i es s}

variable {S : Machine State Event} {T : Machine Other Event}

theorem Path.single {s t : State} {e : Option Event} (h : S.Step s e t) : S.Path s e.toList t := by
  have hpath := Path.snoc (Path.refl s) h
  rwa [List.nil_append] at hpath

theorem Path.silent {s t u : State} {es : List Event} (hp : S.Path s es t) (h : S.Step t none u) :
    S.Path s es u := by
  have hpath := Path.snoc hp h
  rwa [Option.toList_none, List.append_nil] at hpath

theorem Path.trans {s t u : State} {es fs : List Event} (hst : S.Path s es t) (htu : S.Path t fs u) :
    S.Path s (es ++ fs) u := by
  induction htu with
  | refl => rwa [List.append_nil]
  | snoc _ hstep ih =>
    rw [← List.append_assoc]
    exact Path.snoc ih hstep

theorem Reachable.start {s : State} (h : S.Start s) : S.Reachable s := ⟨s, [], h, Path.refl s⟩

theorem Reachable.path {s t : State} {es : List Event} (hs : S.Reachable s) (hp : S.Path s es t) :
    S.Reachable t := by
  obtain ⟨i, fs, hi, hpath⟩ := hs
  exact ⟨i, fs ++ es, hi, hpath.trans hp⟩

theorem Reachable.step {s t : State} {e : Option Event} (hs : S.Reachable s) (h : S.Step s e t) :
    S.Reachable t := hs.path (Path.single h)

/-- What holds at the start and is kept by every step of a run holds after it, of the state and of what has
been shown. -/
theorem Path.induct {I : List Event → State → Prop} (start : ∀ s, S.Start s → I [] s)
    (step : ∀ es s e t, S.Reachable s → I es s → S.Step s e t → I (es ++ e.toList) t)
    {i s : State} {es : List Event} (hi : S.Start i) (hp : S.Path i es s) : I es s := by
  induction hp with
  | refl => exact start _ hi
  | snoc hp h ih =>
    have hreach := (Reachable.start hi).path hp
    exact step _ _ _ _ hreach ih h

theorem Reachable.induct {I : State → Prop} (start : ∀ s, S.Start s → I s)
    (step : ∀ s e t, S.Reachable s → I s → S.Step s e t → I t) {s : State} (hs : S.Reachable s) : I s := by
  obtain ⟨i, es, hi, hp⟩ := hs
  exact Path.induct (I := fun _ s => I s) start (fun _ s e t => step s e t) hi hp

/-- `S` is simulated by `T` along `R`: whatever `S` does from a reachable state that `R` relates to a state of
`T`, `T` can do in any number of steps, showing the same. -/
structure Simulation (S : Machine State Event) (T : Machine Other Event) (R : State → Other → Prop) : Prop where
  start : ∀ s, S.Start s → ∃ a, T.Start a ∧ R s a
  step : ∀ s e t a, S.Reachable s → R s a → S.Step s e t → ∃ b, T.Path a e.toList b ∧ R t b

/-- Every run of a simulated system is matched by a run of the other that shows the same events. -/
theorem Simulation.path {R : State → Other → Prop} (h : Simulation S T R) {i s : State} {es : List Event}
    (hi : S.Start i) (hp : S.Path i es s) : ∃ j a, T.Start j ∧ T.Path j es a ∧ R s a := by
  induction hp with
  | refl =>
    obtain ⟨a, ha, hr⟩ := h.start _ hi
    exact ⟨a, a, ha, Path.refl a, hr⟩
  | snoc hp hstep ih =>
    obtain ⟨j, a, hj, hja, hr⟩ := ih
    have hreach := (Reachable.start hi).path hp
    obtain ⟨b, hab, hr'⟩ := h.step _ _ _ _ hreach hr hstep
    exact ⟨j, b, hj, hja.trans hab, hr'⟩

theorem Simulation.traces_subset {R : State → Other → Prop} (h : Simulation S T R) : S.traces ⊆ T.traces := by
  rintro es ⟨i, s, hi, hp⟩
  obtain ⟨j, a, hj, hja, -⟩ := h.path hi hp
  exact ⟨j, a, hj, hja⟩

end Machine
