/-
Guarded labelled transition systems. The step function is partial: a label that
is not enabled in a state has no successor. All scheduling and every outcome of
the environment is carried by labels, so a run is a list of labels and can be
evaluated, while invariants are proved once over every reachable state.
-/

import Mathlib.Data.Nat.Init

namespace Netwurk.Transition

structure System (State Label : Type) where
  start : State → Prop
  next : State → Label → Option State

namespace System

variable {State Label : Type} (system : System State Label)

def Enabled (state : State) : Prop :=
  ∃ label after, system.next state label = some after

/-- Replays a schedule; a disabled label stops the replay. -/
def run : State → List Label → Option State
  | state, [] => some state
  | state, label :: rest =>
      match system.next state label with
      | none => none
      | some after => run after rest

/-- States reached by steps that all meet a condition on the state before the
step and on the label taken there. -/
inductive ReachableWithin (allowed : State → Label → Prop) : State → Prop
  | start {state : State} : system.start state → ReachableWithin allowed state
  | step {state after : State} {label : Label} :
      ReachableWithin allowed state → allowed state label →
      system.next state label = some after → ReachableWithin allowed after

def Reachable : State → Prop :=
  system.ReachableWithin fun _ _ => True

inductive Path : State → State → Prop
  | refl (state : State) : Path state state
  | step {state middle after : State} {label : Label} :
      Path state middle → system.next middle label = some after → Path state after

def Along (allowed : State → Label → Prop) : State → List Label → Prop
  | _, [] => True
  | state, label :: rest =>
      allowed state label ∧
        match system.next state label with
        | none => True
        | some after => Along allowed after rest

instance decidableAlong (allowed : State → Label → Prop)
    [decide : ∀ state label, Decidable (allowed state label)] :
    ∀ state labels, Decidable (system.Along allowed state labels)
  | _, [] => isTrue trivial
  | state, label :: rest =>
      match decide state label, h : system.next state label with
      | isFalse violated, _ => isFalse fun along => violated along.1
      | isTrue met, none => isTrue (by rw [Along, h]; exact ⟨met, trivial⟩)
      | isTrue met, some after =>
          match decidableAlong allowed after rest with
          | isFalse violated => isFalse (by rw [Along, h]; exact fun along => violated along.2)
          | isTrue along => isTrue (by rw [Along, h]; exact ⟨met, along⟩)

variable {system}

theorem ReachableWithin.reachable {allowed : State → Label → Prop} {state : State}
    (reached : system.ReachableWithin allowed state) : system.Reachable state := by
  induction reached with
  | start initial => exact .start initial
  | step _ _ taken ih => exact .step ih trivial taken

theorem ReachableWithin.invariant {allowed : State → Label → Prop} {holds : State → Prop}
    (initially : ∀ state, system.start state → holds state)
    (preserved : ∀ state label after, system.ReachableWithin allowed state → holds state →
      allowed state label → system.next state label = some after → holds after)
    {state : State} (reached : system.ReachableWithin allowed state) : holds state := by
  induction reached with
  | start initial => exact initially _ initial
  | step before condition taken ih => exact preserved _ _ _ before ih condition taken

theorem Reachable.within {allowed : State → Label → Prop}
    (always : ∀ state label, system.Reachable state → allowed state label) {state : State}
    (reached : system.Reachable state) : system.ReachableWithin allowed state := by
  induction reached with
  | start initial => exact .start initial
  | step before _ taken ih => exact .step ih (always _ _ before) taken

theorem ReachableWithin.take {allowed : State → Label → Prop} {state after : State}
    (reached : system.ReachableWithin allowed state) (label : Label)
    (condition : allowed state label) (taken : system.next state label = some after) :
    system.ReachableWithin allowed after :=
  .step reached condition taken

theorem Reachable.begin {state : State} (initial : system.start state) :
    system.Reachable state :=
  ReachableWithin.start initial

theorem Reachable.next {state after : State} {label : Label}
    (reached : system.Reachable state) (taken : system.next state label = some after) :
    system.Reachable after :=
  ReachableWithin.step reached trivial taken

/-- The induction rule: what holds at the start and is kept by every step from
a reachable state holds in every reachable state. -/
theorem Reachable.invariant {holds : State → Prop}
    (initially : ∀ state, system.start state → holds state)
    (preserved : ∀ state label after, system.Reachable state → holds state →
      system.next state label = some after → holds after)
    {state : State} (reached : system.Reachable state) : holds state :=
  ReachableWithin.invariant initially
    (fun state label after before held _ taken =>
      preserved state label after before held taken) reached

theorem run_cons {state after : State} {label : Label} {rest : List Label}
    (ran : system.run state (label :: rest) = some after) :
    ∃ middle, system.next state label = some middle ∧ system.run middle rest = some after := by
  unfold run at ran
  cases taken : system.next state label with
  | none =>
      rw [taken] at ran
      contradiction
  | some middle =>
      rw [taken] at ran
      exact ⟨middle, rfl, ran⟩

theorem Reachable.of_run {labels : List Label} {state after : State}
    (reached : system.Reachable state) (ran : system.run state labels = some after) :
    system.Reachable after := by
  induction labels generalizing state with
  | nil =>
      cases ran
      exact reached
  | cons label rest ih =>
      obtain ⟨middle, taken, remaining⟩ := run_cons ran
      exact ih (reached.next taken) remaining

theorem Path.trans {first middle last : State}
    (front : system.Path first middle) (back : system.Path middle last) :
    system.Path first last := by
  induction back with
  | refl => exact front
  | step _ taken ih => exact .step ih taken

theorem Path.of_run {labels : List Label} {state after : State}
    (ran : system.run state labels = some after) : system.Path state after := by
  induction labels generalizing state with
  | nil =>
      cases ran
      exact .refl _
  | cons label rest ih =>
      obtain ⟨middle, taken, remaining⟩ := run_cons ran
      exact (Path.step (.refl state) taken).trans (ih remaining)

theorem Path.take {state middle after : State} (path : system.Path state middle) (label : Label)
    (taken : system.next middle label = some after) : system.Path state after :=
  .step path taken

theorem Reachable.of_path {state after : State}
    (reached : system.Reachable state) (path : system.Path state after) :
    system.Reachable after := by
  induction path with
  | refl => exact reached
  | step _ taken ih => exact ih.next taken

/-- A relation between two states that is reflexive and extended by each step
from a reachable state relates the ends of every path. -/
theorem Path.invariant (holds : State → Prop) {state after : State}
    (reached : system.Reachable state) (initially : holds state)
    (preserved : ∀ before label later, system.Reachable before → holds before →
      system.next before label = some later → holds later)
    (path : system.Path state after) : holds after := by
  induction path with
  | refl => exact initially
  | step front taken ih => exact preserved _ _ _ (reached.of_path front) ih taken

/-- A property that a step from a reachable state keeps exactly when the step
meets a condition holds after a run exactly when every step of the run does. -/
theorem run_iff_along (holds : State → Prop) {allowed : State → Label → Prop}
    (exact : ∀ state label after, system.Reachable state →
      system.next state label = some after → (holds after ↔ holds state ∧ allowed state label))
    {labels : List Label} {state after : State} (reached : system.Reachable state)
    (ran : system.run state labels = some after) :
    holds after ↔ holds state ∧ system.Along allowed state labels := by
  induction labels generalizing state with
  | nil =>
      cases ran
      simp [Along]
  | cons label rest ih =>
      obtain ⟨middle, taken, remaining⟩ := run_cons ran
      rw [ih (reached.next taken) remaining, exact state label middle reached taken, Along, taken,
        and_assoc]

theorem ReachableWithin.of_run {allowed : State → Label → Prop} {labels : List Label}
    {state after : State} (reached : system.ReachableWithin allowed state)
    (along : system.Along allowed state labels)
    (ran : system.run state labels = some after) : system.ReachableWithin allowed after := by
  induction labels generalizing state with
  | nil =>
      cases ran
      exact reached
  | cons label rest ih =>
      obtain ⟨middle, taken, remaining⟩ := run_cons ran
      rw [Along, taken] at along
      exact ih (reached.take label along.1 taken) along.2 remaining

/-! ### Bounded runs -/

theorem no_infinite_run (measure : State → Nat)
    (decreases : ∀ state label after, system.next state label = some after →
      measure after < measure state)
    (states : Nat → State) :
    ¬ ∀ time, ∃ label, system.next (states time) label = some (states (time + 1)) := by
  intro forever
  have bounded : ∀ time, time + measure (states time) ≤ measure (states 0) := by
    intro time
    induction time with
    | zero => simp
    | succ time ih =>
        obtain ⟨label, taken⟩ := forever time
        have shorter := decreases _ _ _ taken
        omega
  have impossible := bounded (measure (states 0) + 1)
  omega

theorem exists_end (measure : State → Nat)
    (decreases : ∀ state label after, system.next state label = some after →
      measure after < measure state)
    (state : State) : ∃ after, system.Path state after ∧ ¬ system.Enabled after := by
  induction size : measure state using Nat.strongRecOn generalizing state with
  | ind size ih =>
      by_cases enabled : system.Enabled state
      · obtain ⟨label, middle, taken⟩ := enabled
        have less := decreases _ _ _ taken
        obtain ⟨after, path, ended⟩ := ih _ (size ▸ less) middle rfl
        exact ⟨after, ((Path.refl state).step taken).trans path, ended⟩
      · exact ⟨state, .refl state, enabled⟩

/-- If every step but the exempt ones decreases a measure, the exempt steps of an
infinite run do not come to an end. -/
theorem exempt_infinitely_often (exempt : Label → Prop) (measure : State → Nat)
    (decreases : ∀ state label after, system.Reachable state →
      system.next state label = some after → ¬ exempt label → measure after < measure state)
    (states : Nat → State) (labels : Nat → Label) (reached : system.Reachable (states 0))
    (forever : ∀ time, system.next (states time) (labels time) = some (states (time + 1)))
    (bound : Nat) : ∃ time, bound ≤ time ∧ exempt (labels time) := by
  apply Classical.byContradiction
  intro none_later
  have reachedAt : ∀ time, system.Reachable (states time) := by
    intro time
    induction time with
    | zero => exact reached
    | succ time ih => exact ih.next (forever time)
  have bounded : ∀ more, more + measure (states (bound + more)) ≤ measure (states bound) := by
    intro more
    induction more with
    | zero => simp
    | succ more ih =>
        have counted : ¬ exempt (labels (bound + more)) := fun met =>
          none_later ⟨_, Nat.le_add_right _ _, met⟩
        have shorter := decreases _ _ _ (reachedAt _) (forever (bound + more)) counted
        rw [← Nat.add_assoc]
        omega
  have impossible := bounded (measure (states bound) + 1)
  omega

end System

/-! ### Refinement -/

/-- Each step of the concrete system is a step of the abstract one or leaves
the abstract view as it was. -/
structure Refinement {Concrete Abstract ConcreteLabel AbstractLabel : Type}
    (concrete : System Concrete ConcreteLabel) (abstract : System Abstract AbstractLabel)
    (view : Concrete → Abstract) : Prop where
  start : ∀ state, concrete.start state → abstract.start (view state)
  step : ∀ state label after, concrete.Reachable state →
    concrete.next state label = some after →
      view after = view state ∨ ∃ action, abstract.next (view state) action = some (view after)

theorem Refinement.reachable {Concrete Abstract ConcreteLabel AbstractLabel : Type}
    {concrete : System Concrete ConcreteLabel} {abstract : System Abstract AbstractLabel}
    {view : Concrete → Abstract} (refines : Refinement concrete abstract view)
    {state : Concrete} (reached : concrete.Reachable state) :
    abstract.Reachable (view state) := by
  induction reached with
  | start initial => exact .begin (refines.start _ initial)
  | step before _ taken ih =>
      rcases refines.step _ _ _ before taken with same | ⟨action, moved⟩
      · rw [same]
        exact ih
      · exact ih.next moved

theorem Refinement.trans {Concrete Middle Abstract ConcreteLabel MiddleLabel AbstractLabel : Type}
    {concrete : System Concrete ConcreteLabel} {middle : System Middle MiddleLabel}
    {abstract : System Abstract AbstractLabel} {view : Concrete → Middle}
    {further : Middle → Abstract} (first : Refinement concrete middle view)
    (second : Refinement middle abstract further) :
    Refinement concrete abstract fun state => further (view state) where
  start := fun state initial => second.start _ (first.start state initial)
  step := by
    intro state label after reached taken
    rcases first.step state label after reached taken with same | ⟨action, moved⟩
    · exact .inl (congrArg further same)
    · exact second.step _ action _ (first.reachable reached) moved

end Netwurk.Transition
