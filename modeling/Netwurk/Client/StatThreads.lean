/-
The three stat threads on the histogram they share without a lock. An update is
two steps here, the read of a cell and the write of its successor, and the
threads are interleaved in any order.
-/

import Netwurk.Client.Pipeline
import Netwurk.Histogram.Updates

namespace Netwurk.Client

open Transition Counters Histogram

/-- `held` is the cell a thread has read and not yet written, with the value read. -/
structure StatThreads where
  histogram : Histogram
  waiting : Fin 3 → List String
  held : Fin 3 → Option (Fin 30 × Int)

namespace StatThreads

/-- The read of `hist [row][bin]` comes last in what precedes the write. A response
that makes `stoi` throw ends the process, and `quit` ends the thread. -/
def next (state : StatThreads) : Counters.Label (Fin 3) → Option StatThreads
  | .read i =>
      match state.held i, state.waiting i with
      | none, response :: rest =>
          if response = "quit" then
            some { state with waiting := Function.update state.waiting i [] }
          else
            match locate state.histogram.map (updateKey i) response with
            | .found cell map =>
                some
                  { histogram := { state.histogram with map := map }
                    waiting := Function.update state.waiting i rest
                    held := Function.update state.held i
                      (some (cell, state.histogram.hist cell)) }
            | .throws _ _ => none
            | .undefined => none
      | _, _ => none
  | .write i =>
      match state.held i with
      | some (cell, value) =>
          some { state with
            histogram :=
              { state.histogram with
                hist := Function.update state.histogram.hist cell (increment value) }
            held := Function.update state.held i none }
      | none => none

def initial (responses : Fin 3 → List String) : StatThreads :=
  { histogram := fresh
    waiting := responses
    held := fun _ => none }

/-- The responses of each thread in the order it pops them. -/
def updating (responses : Fin 3 → List String) : System StatThreads (Counters.Label (Fin 3)) where
  start := fun state => state = initial responses
  next := next

def Finished (state : StatThreads) : Prop :=
  ∀ i, state.held i = none ∧ state.waiting i = []

instance (state : StatThreads) : Decidable state.Finished :=
  inferInstanceAs (Decidable (∀ i, state.held i = none ∧ state.waiting i = []))

def pairs (responses : Fin 3 → List String) (i : Fin 3) : List (String × String) :=
  (responses i).map fun response => (updateKey i, response)

/-! ### The counters behind the threads -/

def target (i : Fin 3) (response : String) : Option (Fin 30) :=
  match locate fresh.map (updateKey i) response with
  | .found cell _ => some cell
  | .throws _ _ => none
  | .undefined => none

def targets (responses : Fin 3 → List String) (i : Fin 3) : List (Fin 30) :=
  (responses i).filterMap (target i)

def view (state : StatThreads) : Threads (Fin 3) (Fin 30) :=
  { counters := state.histogram.hist
    ahead := targets state.waiting
    held := state.held }

theorem locate_reply (i : Fin 3) {response : String} (reply : Reply response) :
    ∃ bin : Fin 10, locate fresh.map (updateKey i) response =
      .found (cell (patsBuffs i).row bin) fresh.map := by
  obtain ⟨value, small, number⟩ := reply.value
  rw [updateKey_eq_key]
  exact ⟨_, locate_of_value (patsBuffs i).subscript_key small number⟩

theorem target_reply (i : Fin 3) {response : String} (reply : Reply response) :
    ∃ bin : Fin 10, target i response = some (cell (patsBuffs i).row bin) := by
  obtain ⟨bin, found⟩ := locate_reply i reply
  refine ⟨bin, ?_⟩
  rw [target, found]

variable {responses : Fin 3 → List String}

theorem apart_targets (replies : ∀ i, ∀ response ∈ responses i, Reply response) :
    Apart (targets responses) := by
  have inRow : ∀ i cell_, cell_ ∈ targets responses i →
      ∃ bin : Fin 10, cell_ = cell (patsBuffs i).row bin := by
    intro i cell_ member
    obtain ⟨response, inside, found⟩ := List.mem_filterMap.mp member
    obtain ⟨bin, own⟩ := target_reply i (replies i response inside)
    rw [own] at found
    exact ⟨bin, (Option.some.inj found).symm⟩
  intro i other index mine theirs
  obtain ⟨bin, here⟩ := inRow i index mine
  obtain ⟨otherBin, there⟩ := inRow other index theirs
  have rows := (cell_injective (here.symm.trans there)).1
  exact patsBuffs_injective (Patient.row_injective rows)

structure Standard (state : StatThreads) : Prop where
  map : state.histogram.map = fresh.map
  replies : ∀ i, ∀ response ∈ state.waiting i, Reply response

theorem targets_update (waiting : Fin 3 → List String) (i : Fin 3) (rest : List String) :
    targets (Function.update waiting i rest) =
      Function.update (targets waiting) i (rest.filterMap (target i)) := by
  funext other
  unfold targets
  by_cases same : other = i
  · subst same
    rw [Function.update_self, Function.update_self]
  · rw [Function.update_of_ne same, Function.update_of_ne same]

theorem next_view {state after : StatThreads} (standard : state.Standard)
    {label : Counters.Label (Fin 3)} (taken : next state label = some after) :
    after.Standard ∧ Counters.next state.view label = some after.view := by
  cases label with
  | read i =>
      cases held : state.held i with
      | some pair => simp only [next, held, reduceCtorEq] at taken
      | none =>
          cases waits : state.waiting i with
          | nil => simp only [next, held, waits, reduceCtorEq] at taken
          | cons response rest =>
              have reply := standard.replies i response (by rw [waits]; exact List.mem_cons_self)
              obtain ⟨bin, found⟩ := locate_reply i reply
              have own : target i response = some (cell (patsBuffs i).row bin) := by
                rw [target, found]
              simp only [next, held, waits, if_neg reply.ne_quit, standard.map, found,
                Option.some.injEq] at taken
              subst taken
              refine ⟨⟨rfl, ?_⟩, ?_⟩
              · intro other item member
                change item ∈ Function.update state.waiting i rest other at member
                by_cases same : other = i
                · subst same
                  rw [Function.update_self] at member
                  exact standard.replies other item
                    (by rw [waits]; exact List.mem_cons_of_mem _ member)
                · rw [Function.update_of_ne same] at member
                  exact standard.replies other item member
              · have ahead : targets state.waiting i =
                    cell (patsBuffs i).row bin :: rest.filterMap (target i) := by
                  rw [targets, waits, List.filterMap_cons, own]
                simp only [view, Counters.next, held, ahead, targets_update]
  | write i =>
      cases held : state.held i with
      | none => simp only [next, held, reduceCtorEq] at taken
      | some pair =>
          simp only [next, held, Option.some.injEq] at taken
          subst taken
          refine ⟨⟨standard.map, standard.replies⟩, ?_⟩
          simp only [view, Counters.next, held]

theorem standard_of_reachable (replies : ∀ i, ∀ response ∈ responses i, Reply response)
    {state : StatThreads} (reached : (updating responses).Reachable state) : state.Standard := by
  apply reached.invariant
  · intro begun started
    subst started
    exact ⟨rfl, replies⟩
  · intro before label later _ standard taken
    exact (next_view standard taken).1

theorem refines_increments (replies : ∀ i, ∀ response ∈ responses i, Reply response) :
    Refinement (updating responses) (increments fresh.hist (targets responses)) view where
  start := by
    intro state started
    subst started
    rfl
  step := by
    intro state label after reached taken
    exact .inr ⟨label, (next_view (standard_of_reachable replies reached) taken).2⟩

theorem enabled_of_unfinished (replies : ∀ i, ∀ response ∈ responses i, Reply response)
    {state : StatThreads} (reached : (updating responses).Reachable state)
    (unfinished : ¬ state.Finished) : (updating responses).Enabled state := by
  obtain ⟨i, going⟩ := not_forall.mp unfinished
  have standard := standard_of_reachable replies reached
  cases held : state.held i with
  | some pair =>
      refine ⟨.write i, ?_⟩
      simp only [updating, next, held]
      exact ⟨_, rfl⟩
  | none =>
      cases waits : state.waiting i with
      | nil => exact absurd ⟨held, waits⟩ going
      | cons response rest =>
          have reply := standard.replies i response (by rw [waits]; exact List.mem_cons_self)
          obtain ⟨bin, found⟩ := locate_reply i reply
          refine ⟨.read i, ?_⟩
          simp only [updating, next, held, waits, if_neg reply.ne_quit, standard.map, found]
          exact ⟨_, rfl⟩

theorem applyAll_thread {histogram : Histogram} (standard : histogram.map = fresh.map)
    (i : Fin 3) {waiting : List String} (replies : ∀ response ∈ waiting, Reply response) :
    applyAll histogram (waiting.map fun response => (updateKey i, response)) =
      some { histogram with hist := bumps histogram.hist (waiting.filterMap (target i)) } := by
  induction waiting generalizing histogram with
  | nil => rfl
  | cons response rest ih =>
      obtain ⟨bin, found⟩ := locate_reply i (replies response List.mem_cons_self)
      have own : target i response = some (cell (patsBuffs i).row bin) := by
        rw [target, found]
      rw [List.map_cons, applyAll, update, standard, found, List.filterMap_cons, own]
      have tail := @ih { hist := bump histogram.hist (cell (patsBuffs i).row bin), map := fresh.map }
        rfl fun other member => replies other (List.mem_cons_of_mem _ member)
      rw [← standard] at tail ⊢
      exact tail

theorem applyAll_pairs {histogram : Histogram} (standard : histogram.map = fresh.map)
    (order : List (Fin 3)) (replies : ∀ i, ∀ response ∈ responses i, Reply response) :
    applyAll histogram (order.flatMap (pairs responses)) =
      some { histogram with hist := bumps histogram.hist (order.flatMap (targets responses)) } := by
  induction order generalizing histogram with
  | nil => rfl
  | cons i order ih =>
      rw [List.flatMap_cons, List.flatMap_cons, applyAll_append, pairs,
        applyAll_thread standard i (replies i), bumps_append]
      exact @ih { histogram with hist := bumps histogram.hist (targets responses i) } standard

theorem finished_eq_bumps (replies : ∀ i, ∀ response ∈ responses i, Reply response)
    {state : StatThreads} (reached : (updating responses).Reachable state)
    (finished : state.Finished) {order : List (Fin 3)} (all : order.Perm (List.finRange 3)) :
    state.histogram.hist = bumps fresh.hist (order.flatMap (targets responses)) := by
  have behind := (refines_increments replies).reachable reached
  apply finished_counters (apart_targets replies) behind
  · intro i
    refine ⟨(finished i).1, ?_⟩
    change (state.waiting i).filterMap (target i) = []
    rw [(finished i).2]
    rfl
  · exact all.nodup_iff.mpr (List.nodup_finRange 3)
  · intro i
    exact all.mem_iff.mpr (List.mem_finRange i)

/-- The threads lose no update: every interleaving of their reads and writes ends
with the array that the lists give one after another, in any order. -/
theorem interleaving_loses_nothing (responses : Fin 3 → List String)
    (replies : ∀ i, ∀ response ∈ responses i, Reply response)
    (state : StatThreads) (reached : (updating responses).Reachable state)
    (finished : state.Finished) :
    (∀ order : List (Fin 3), order.Perm (List.finRange 3) → ∃ after,
      applyAll fresh (order.flatMap (pairs responses)) = some after ∧
        state.histogram.hist = after.hist) ∧
      ∀ other, (updating responses).Reachable other → other.Finished →
        other.histogram.hist = state.histogram.hist := by
  constructor
  · intro order all
    exact ⟨_, applyAll_pairs rfl order replies, finished_eq_bumps replies reached finished all⟩
  · intro other reachedOther ended
    rw [finished_eq_bumps replies reachedOther ended (List.Perm.refl _),
      finished_eq_bumps replies reached finished (List.Perm.refl _)]

def fewResponses : Fin 3 → List String := ![["5", "17"], ["5"], ["99"]]

/-- Jane's update lands between the read and the write of John's. -/
def interleaved : List (Counters.Label (Fin 3)) :=
  [.read 0, .read 1, .write 1, .read 2, .write 0, .read 0, .write 2, .write 0]

theorem interleaving_loses_nothing_interleaved :
    ∃ state, (updating fewResponses).run (initial fewResponses) interleaved = some state ∧
      state.histogram.hist (cell Patient.john.row 1) = 1 ∧ ∃ after,
        applyAll fresh ((List.finRange 3).flatMap (pairs fewResponses)) = some after ∧
          state.histogram.hist = after.hist := by
  have ran : ((updating fewResponses).run (initial fewResponses) interleaved).map
      (fun state => (decide state.Finished, state.histogram.hist (cell Patient.john.row 1))) =
        some (true, 1) := by
    decide +kernel
  obtain ⟨state, run, last⟩ := Option.map_eq_some_iff.mp ran
  obtain ⟨finished, counted⟩ := Prod.mk.inj last
  have replies : ∀ i, ∀ response ∈ fewResponses i, serverReplies response = true := by
    decide +kernel
  have result := interleaving_loses_nothing fewResponses
    (fun i response member => serverReplies_iff.mp (replies i response member)) state
    ((System.Reachable.begin rfl).of_run run) (of_decide_eq_true finished)
  exact ⟨state, run, counted, result.1 _ (List.Perm.refl _)⟩

end StatThreads

end Netwurk.Client
