/-
The client over its real buffers: `push` and `pop` run statement by statement
under the mutex and the condition variables of the buffer they are called on.
The threads are those of the client with atomic calls; what they do outside the
buffers is taken over from there.
-/

import Mathlib.Tactic.DeriveFintype
import Netwurk.SafeBuffer.Liveness
import Netwurk.Client.Progress

namespace Netwurk.Client

open Transition RequestChannel SafeBuffer

inductive Caller (w : Nat) where
  | main
  | request (i : Fin 3)
  | quits
  | worker (j : Fin w)
  | stat (i : Fin 3)
deriving DecidableEq, Fintype

def Label.caller {w : Nat} : Label w → Option (Caller w)
  | .main => some .main
  | .request i => some (.request i)
  | .quits => some .quits
  | .worker j => some (.worker j)
  | .stat i => some (.stat i)
  | .recv _ | .act _ _ => none

def Caller.label {w : Nat} : Caller w → Label w
  | .main => .main
  | .request i => .request i
  | .quits => .quits
  | .worker j => .worker j
  | .stat i => .stat i

def Main.settled (main : Main) : Option String → Main
  | none => main
  | some _ =>
      match main with
      | .pushQuit i => .pushQuit (i + 1)
      | main => main

def Pusher.settled (pusher : Pusher) : Option String → Pusher
  | none => pusher
  | some _ =>
      match pusher with
      | .looping k => .looping (k + 1)
      | pusher => pusher

def Worker.settled (worker : Worker) : Option String → Worker
  | none => worker
  | some s =>
      match worker.pc with
      | .popping =>
          { worker with
            pc := .holding s
            popped := worker.popped ++ [s] }
      | .pushing request response =>
          match bufferFor request with
          | none => worker
          | some patient =>
              { worker with
                pc := .popping
                pushes := worker.pushes ++ [(patient, response)] }
      | _ => worker

def StatThread.settled (thread : StatThread) : Option String → StatThread
  | none => thread
  | some s =>
      match thread.pc with
      | .popping => { thread with pc := if s = "quit" then .ended else .updating s }
      | _ => thread

namespace State

variable {config : Config}

/-- The buffers are `request_buffer` and one for each patient. -/
def pending (state : State config) : Caller config.w → Option (Option Patient × Call)
  | .main =>
      match state.main with
      | .pushQuit i =>
          if within : i < 3 then some (some (patsBuffs ⟨i, within⟩), .push "quit") else none
      | _ => none
  | .request i =>
      match state.patientsThread i with
      | .looping k => if k < config.n then some (none, .push (requestFor i)) else none
      | _ => none
  | .quits =>
      match state.quitThread with
      | .looping k => if k < config.w then some (none, .push "quit") else none
      | _ => none
  | .worker j =>
      match (state.workerThreads j).pc with
      | .popping => some (none, .pop)
      | .pushing request response =>
          match bufferFor request with
          | none => none
          | some patient => some (some patient, .push response)
      | _ => none
  | .stat i =>
      match (state.patientsStatThread i).pc with
      | .popping => some (some (patsBuffs i), .pop)
      | _ => none

def settle (state : State config) (results : Caller config.w → Option String) : State config :=
  { state with
    main := state.main.settled (results .main)
    patientsThread := fun i => (state.patientsThread i).settled (results (.request i))
    quitThread := state.quitThread.settled (results .quits)
    workerThreads := fun j => (state.workerThreads j).settled (results (.worker j))
    patientsStatThread := fun i => (state.patientsStatThread i).settled (results (.stat i)) }

def other (state : State config) (label : Label config.w) : Option (State config) :=
  match label.caller with
  | none => state.next label
  | some caller => if state.pending caller = none then state.next label else none

end State

/-- `b` is an `int`. The buffers are not part of the shared state here: those
fields stay as they are at the start. -/
def program (config : Config) (fits : config.b ≤ INT_MAX) :
    Program (State config) (Label config.w) (Caller config.w) (Option Patient) :=
  { begins := (client config).start
    halted := State.crashed
    maxSize := fun buffer => match buffer with
      | none => config.b
      | some _ => (config.b / 3 : Nat)
    capacity := fun buffer => match buffer with
      | none => config.b
      | some _ => config.b / 3
    fits := by
      intro buffer
      unfold INT_MAX at fits
      cases buffer <;> simp only [toSizeT] <;> omega
    pending := State.pending
    settle := State.settle
    other := State.other }

/-! ### Threads outside the buffers -/

namespace State

variable {config : Config}

def withBuffers (state : State config) (request : TracedQueue String config.b)
    (stats : Patient → TracedQueue String (config.b / 3)) : State config :=
  { state with
    requestBuffer := request
    rBuff := stats }

private theorem mainThread_withBuffers {state : State config} (idle : state.pending .main = none)
    (request : TracedQueue String config.b)
    (stats : Patient → TracedQueue String (config.b / 3)) :
    (state.withBuffers request stats).mainThread =
      state.mainThread.map fun after => after.withBuffers request stats := by
  unfold mainThread
  rw [show (state.withBuffers request stats).main = state.main from rfl]
  cases at_ : state.main with
  | createRequest i | createStat i =>
      simp only
      split <;> rfl
  | createWorker i =>
      simp only
      split
      · split <;> rfl
      · rfl
  | joinRequest i | joinStat i | joinWorker i =>
      simp only
      split
      · rw [apply_ite (Option.map _)]
        rfl
      · rfl
  | createQuit | kill | finished => rfl
  | joinQuit =>
      simp only
      rw [apply_ite (Option.map _)]
      rfl
  | pushQuit i =>
      simp only [pending, at_] at idle
      split at idle
      · cases idle
      · rename_i last
        simp only [dif_neg last]
        rfl

private theorem request_withBuffers {state : State config} {i : Fin 3}
    (idle : state.pending (.request i) = none) (request : TracedQueue String config.b)
    (stats : Patient → TracedQueue String (config.b / 3)) :
    (state.withBuffers request stats).requestThreadFunction i =
      (state.requestThreadFunction i).map fun after => after.withBuffers request stats := by
  unfold requestThreadFunction
  rw [show (state.withBuffers request stats).patientsThread = state.patientsThread from rfl]
  cases at_ : state.patientsThread i with
  | notStarted | ended => rfl
  | looping k =>
      simp only [pending, at_] at idle
      split at idle
      · cases idle
      · rename_i last
        simp only [if_neg last]
        rfl

private theorem quits_withBuffers {state : State config} (idle : state.pending .quits = none)
    (request : TracedQueue String config.b)
    (stats : Patient → TracedQueue String (config.b / 3)) :
    (state.withBuffers request stats).requestQuits =
      state.requestQuits.map fun after => after.withBuffers request stats := by
  unfold requestQuits
  rw [show (state.withBuffers request stats).quitThread = state.quitThread from rfl]
  cases at_ : state.quitThread with
  | notStarted | ended => rfl
  | looping k =>
      simp only [pending, at_] at idle
      split at idle
      · cases idle
      · rename_i last
        simp only [if_neg last]
        rfl

private theorem worker_withBuffers {state : State config} {j : Fin config.w}
    (idle : state.pending (.worker j) = none) (request : TracedQueue String config.b)
    (stats : Patient → TracedQueue String (config.b / 3)) :
    (state.withBuffers request stats).workerThreadFunction j =
      (state.workerThreadFunction j).map fun after => after.withBuffers request stats := by
  unfold workerThreadFunction
  rw [show (state.withBuffers request stats).workerThreads = state.workerThreads from rfl,
    show (state.withBuffers request stats).exited = state.exited from rfl]
  cases at_ : (state.workerThreads j).pc with
  | notStarted | ended => simp only [at_, Option.map_none]
  | popping =>
      simp only [pending, at_] at idle
      cases idle
  | holding text =>
      simp only [at_]
      split <;> rfl
  | reading text =>
      simp only [at_]
      split
      · rfl
      · split <;> rfl
  | pushing text response =>
      simp only [pending, at_] at idle
      split at idle
      · rename_i unknown
        simp only [at_, unknown]
        rfl
      · cases idle

private theorem stat_withBuffers {state : State config} {i : Fin 3}
    (idle : state.pending (.stat i) = none) (request : TracedQueue String config.b)
    (stats : Patient → TracedQueue String (config.b / 3)) :
    (state.withBuffers request stats).statThreadFunction i =
      (state.statThreadFunction i).map fun after => after.withBuffers request stats := by
  unfold statThreadFunction
  rw [show (state.withBuffers request stats).patientsStatThread = state.patientsStatThread from rfl,
    show (state.withBuffers request stats).hist = state.hist from rfl]
  cases at_ : (state.patientsStatThread i).pc with
  | notStarted | ended => simp only [at_, Option.map_none]
  | popping =>
      simp only [pending, at_] at idle
      cases idle
  | updating response =>
      simp only [at_]
      split <;> rfl

private theorem serve_withBuffers (state : State config) (connection : Option (Fin config.w))
    (link : Link) (request : TracedQueue String config.b)
    (stats : Patient → TracedQueue String (config.b / 3)) :
    (state.withBuffers request stats).serve connection link =
      (state.serve connection link).withBuffers request stats := by
  cases connection <;> rfl

private theorem link_withBuffers (state : State config) (connection : Option (Fin config.w))
    (request : TracedQueue String config.b)
    (stats : Patient → TracedQueue String (config.b / 3)) :
    (state.withBuffers request stats).link connection = state.link connection := by
  cases connection <;> rfl

/-- Whoever is not at a call neither reads nor changes a buffer. -/
theorem next_withBuffers {state : State config} {label : Label config.w}
    (idle : ∀ caller, label.caller = some caller → state.pending caller = none)
    (request : TracedQueue String config.b)
    (stats : Patient → TracedQueue String (config.b / 3)) :
    (state.withBuffers request stats).next label =
      (state.next label).map fun after => after.withBuffers request stats := by
  unfold next
  rw [show (state.withBuffers request stats).crashed = state.crashed from rfl,
    show (state.withBuffers request stats).exited = state.exited from rfl]
  split
  · rfl
  cases label with
  | main => exact mainThread_withBuffers (idle _ rfl) request stats
  | request i => exact request_withBuffers (idle _ rfl) request stats
  | quits => exact quits_withBuffers (idle _ rfl) request stats
  | worker j => exact worker_withBuffers (idle _ rfl) request stats
  | stat i => exact stat_withBuffers (idle _ rfl) request stats
  | recv connection =>
      simp only [link_withBuffers]
      split
      · rfl
      · split
        · rfl
        · rw [serve_withBuffers]
          rfl
  | act connection trach =>
      simp only [link_withBuffers]
      split
      · rfl
      · split
        · rfl
        · rw [serve_withBuffers]
          rfl

end State

section Calls

variable {config : Config} {fits : config.b ≤ INT_MAX}

def assemble (state : (program config fits).Atomic) : State config :=
  state.shared.withBuffers (state.queue none) fun patient => state.queue (some patient)

private theorem settle_main (state : State config) (result : String) :
    state.settle (Program.single .main result) =
      state.setMain (state.main.settled (some result)) := by
  simp [State.settle, State.setMain, Program.single, Pusher.settled, Worker.settled,
    StatThread.settled]

private theorem settle_request (state : State config) (i : Fin 3) (result : String) :
    state.settle (Program.single (.request i) result) =
      state.setRequest i ((state.patientsThread i).settled (some result)) := by
  simp only [State.settle, State.setRequest, Program.single, reduceCtorEq, if_false]
  congr 1
  funext other
  by_cases same : other = i
  · subst other
    simp
  · simp [same, Pusher.settled]

private theorem settle_quits (state : State config) (result : String) :
    state.settle (Program.single .quits result) =
      { state with quitThread := state.quitThread.settled (some result) } := by
  simp [State.settle, Program.single, Main.settled, Pusher.settled, Worker.settled,
    StatThread.settled]

private theorem settle_worker (state : State config) (j : Fin config.w) (result : String) :
    state.settle (Program.single (.worker j) result) =
      state.setWorker j ((state.workerThreads j).settled (some result)) := by
  simp only [State.settle, State.setWorker, Program.single, reduceCtorEq, if_false]
  congr 1
  funext other
  by_cases same : other = j
  · subst other
    simp
  · simp [same, Worker.settled]

private theorem settle_stat (state : State config) (i : Fin 3) (result : String) :
    state.settle (Program.single (.stat i) result) =
      state.setStat i ((state.patientsStatThread i).settled (some result)) := by
  simp only [State.settle, State.setStat, Program.single, reduceCtorEq, if_false]
  congr 1
  funext other
  by_cases same : other = i
  · subst other
    simp
  · simp [same, StatThread.settled]

private theorem assemble_none (shared : State config)
    (queue : ∀ buffer, TracedQueue String ((program config fits).capacity buffer))
    (after : TracedQueue String ((program config fits).capacity none)) :
    assemble ⟨shared, Function.update queue none after⟩ =
      shared.withBuffers after fun patient => queue (some patient) := by
  have request : Function.update queue none after none = after := Function.update_self _ _ _
  have stats : (fun patient => Function.update queue none after (some patient)) =
      fun patient => queue (some patient) :=
    funext fun patient => Function.update_of_ne (Option.some_ne_none patient) _ _
  exact congrArg₂ shared.withBuffers request stats

private theorem assemble_some (shared : State config)
    (queue : ∀ buffer, TracedQueue String ((program config fits).capacity buffer))
    (patient : Patient) (after : TracedQueue String ((program config fits).capacity (some patient))) :
    assemble ⟨shared, Function.update queue (some patient) after⟩ =
      shared.withBuffers (queue none)
        (Function.update (fun other => queue (some other)) patient after) := by
  have request : Function.update queue (some patient) after none = queue none :=
    Function.update_of_ne (Option.some_ne_none patient).symm _ _
  have stats : (fun other => Function.update queue (some patient) after (some other)) =
      Function.update (fun other => queue (some other)) patient after := by
    funext other
    by_cases same : other = patient
    · subst other
      exact (Function.update_self (some patient) after queue).trans
        (Function.update_self patient after fun place => queue (some place)).symm
    · exact (Function.update_of_ne (fun equal => same (Option.some.inj equal)) after queue).trans
        (Function.update_of_ne same after fun place => queue (some place)).symm
  exact congrArg₂ shared.withBuffers request stats

private theorem next_main {state : (program config fits).Atomic}
    (called : state.shared.pending .main ≠ none) :
    (assemble state).mainThread = (state.call (program config fits) .main).map assemble := by
  unfold State.mainThread Program.Atomic.call
  cases at_ : state.shared.main with
  | pushQuit i =>
      simp only [State.pending, at_] at called
      split at called
      · rename_i within
        have pending : (program config fits).pending state.shared .main =
            some (some (patsBuffs ⟨i, within⟩), .push "quit") := by
          simp only [program, State.pending, at_, dif_pos within]
        rw [pending, show (assemble state).main = .pushQuit i from at_]
        simp only [dif_pos within]
        cases accepted : (state.queue (some (patsBuffs ⟨i, within⟩))).push? "quit" with
        | none =>
            have same : ((assemble state).rBuff (patsBuffs ⟨i, within⟩)).push? "quit" = none :=
              accepted
            simp only [same, Option.map_none]
        | some after =>
            have same : ((assemble state).rBuff (patsBuffs ⟨i, within⟩)).push? "quit" =
                some after := accepted
            simp only [same, Option.map_some, assemble_some]
            simp only [program, settle_main, at_, Main.settled]
            rfl
      · exact absurd rfl called
  | _ =>
      simp only [State.pending, at_] at called
      exact absurd rfl called

private theorem next_request {state : (program config fits).Atomic} {i : Fin 3}
    (called : state.shared.pending (.request i) ≠ none) :
    (assemble state).requestThreadFunction i =
      (state.call (program config fits) (.request i)).map assemble := by
  unfold State.requestThreadFunction Program.Atomic.call
  cases at_ : state.shared.patientsThread i with
  | notStarted | ended =>
      simp only [State.pending, at_] at called
      exact absurd rfl called
  | looping k =>
      simp only [State.pending, at_] at called
      split at called
      · rename_i more
        have pending : (program config fits).pending state.shared (.request i) =
            some (none, .push (requestFor i)) := by
          simp only [program, State.pending, at_, if_pos more]
        rw [pending, show (assemble state).patientsThread i = .looping k from at_]
        simp only [if_pos more]
        cases accepted : (state.queue none).push? (requestFor i) with
        | none =>
            have same : (assemble state).requestBuffer.push? (requestFor i) = none := accepted
            simp only [same, Option.map_none]
        | some after =>
            have same : (assemble state).requestBuffer.push? (requestFor i) = some after := accepted
            simp only [same, Option.map_some, assemble_none]
            simp only [program, settle_request, at_, Pusher.settled]
            rfl
      · exact absurd rfl called

private theorem next_quits {state : (program config fits).Atomic}
    (called : state.shared.pending .quits ≠ none) :
    (assemble state).requestQuits = (state.call (program config fits) .quits).map assemble := by
  unfold State.requestQuits Program.Atomic.call
  cases at_ : state.shared.quitThread with
  | notStarted | ended =>
      simp only [State.pending, at_] at called
      exact absurd rfl called
  | looping k =>
      simp only [State.pending, at_] at called
      split at called
      · rename_i more
        have pending : (program config fits).pending state.shared .quits =
            some (none, .push "quit") := by
          simp only [program, State.pending, at_, if_pos more]
        rw [pending, show (assemble state).quitThread = .looping k from at_]
        simp only [if_pos more]
        cases accepted : (state.queue none).push? "quit" with
        | none =>
            have same : (assemble state).requestBuffer.push? "quit" = none := accepted
            simp only [same, Option.map_none]
        | some after =>
            have same : (assemble state).requestBuffer.push? "quit" = some after := accepted
            simp only [same, Option.map_some, assemble_none]
            simp only [program, settle_quits, at_, Pusher.settled]
            rfl
      · exact absurd rfl called

private theorem next_worker {state : (program config fits).Atomic} {j : Fin config.w}
    (called : state.shared.pending (.worker j) ≠ none) :
    (assemble state).workerThreadFunction j =
      (state.call (program config fits) (.worker j)).map assemble := by
  unfold State.workerThreadFunction Program.Atomic.call
  rw [show (assemble state).workerThreads = state.shared.workerThreads from rfl]
  cases at_ : (state.shared.workerThreads j).pc with
  | popping =>
      have pending : (program config fits).pending state.shared (.worker j) =
          some (none, .pop) := by
        simp only [program, State.pending, at_]
      rw [pending]
      simp only
      cases taken : (state.queue none).pop? with
      | none =>
          have same : (assemble state).requestBuffer.pop? = none := taken
          simp only [same, at_, Option.map_none]
      | some front =>
          obtain ⟨request, after⟩ := front
          have same : (assemble state).requestBuffer.pop? = some (request, after) := taken
          simp only [same, at_, Option.map_some, assemble_none]
          simp only [program, settle_worker, at_, Worker.settled]
          rfl
  | pushing request response =>
      cases chosen : bufferFor request with
      | none =>
          simp only [State.pending, at_, chosen] at called
          exact absurd rfl called
      | some patient =>
          have pending : (program config fits).pending state.shared (.worker j) =
              some (some patient, .push response) := by
            simp only [program, State.pending, at_, chosen]
          rw [pending]
          simp only
          cases accepted : (state.queue (some patient)).push? response with
          | none =>
              have same : ((assemble state).rBuff patient).push? response = none := accepted
              simp only [same, at_, chosen, Option.map_none]
          | some after =>
              have same : ((assemble state).rBuff patient).push? response = some after := accepted
              simp only [same, at_, chosen, Option.map_some, assemble_some]
              simp only [program, settle_worker, at_, chosen, Worker.settled]
              rfl
  | _ =>
      simp only [State.pending, at_] at called
      exact absurd rfl called

private theorem next_stat {state : (program config fits).Atomic} {i : Fin 3}
    (called : state.shared.pending (.stat i) ≠ none) :
    (assemble state).statThreadFunction i =
      (state.call (program config fits) (.stat i)).map assemble := by
  unfold State.statThreadFunction Program.Atomic.call
  rw [show (assemble state).patientsStatThread = state.shared.patientsStatThread from rfl]
  cases at_ : (state.shared.patientsStatThread i).pc with
  | popping =>
      have pending : (program config fits).pending state.shared (.stat i) =
          some (some (patsBuffs i), .pop) := by
        simp only [program, State.pending, at_]
      rw [pending]
      simp only
      cases taken : (state.queue (some (patsBuffs i))).pop? with
      | none =>
          have same : ((assemble state).rBuff (patsBuffs i)).pop? = none := taken
          simp only [same, at_, Option.map_none]
      | some front =>
          obtain ⟨response, after⟩ := front
          have same : ((assemble state).rBuff (patsBuffs i)).pop? = some (response, after) := taken
          simp only [same, at_, Option.map_some, assemble_some]
          simp only [program, settle_stat, at_, StatThread.settled]
          split <;> rfl
  | _ =>
      simp only [State.pending, at_] at called
      exact absurd rfl called

theorem next_call {state : (program config fits).Atomic} {caller : Caller config.w}
    (running : state.shared.crashed = false) (called : state.shared.pending caller ≠ none) :
    (assemble state).next caller.label =
      (state.call (program config fits) caller).map assemble := by
  have alive : (assemble state).crashed = false := running
  unfold State.next
  rw [alive, if_neg Bool.false_ne_true]
  cases caller with
  | main => exact next_main called
  | request i => exact next_request called
  | quits => exact next_quits called
  | worker j => exact next_worker called
  | stat i => exact next_stat called

theorem atomic_next {state after : (program config fits).Atomic}
    {label : Program.AtomicLabel (Label config.w) (Caller config.w)}
    (taken : (program config fits).atomic.next state label = some after) :
    ∃ step, (client config).next (assemble state) step = some (assemble after) := by
  simp only [Program.atomic] at taken
  split at taken
  · contradiction
  rename_i running
  have running : state.shared.crashed = false := Bool.eq_false_iff.mpr running
  cases label with
  | call caller =>
      simp only [Program.Atomic.execute] at taken
      have called : state.shared.pending caller ≠ none := by
        intro absent
        have pending : (program config fits).pending state.shared caller = none := absent
        simp only [Program.Atomic.call, pending] at taken
        contradiction
      refine ⟨caller.label, ?_⟩
      change (assemble state).next caller.label = _
      rw [next_call running called, taken, Option.map_some]
  | other action =>
      simp only [Program.Atomic.execute] at taken
      split at taken <;> cases taken
      rename_i shared moved
      change state.shared.other action = some shared at moved
      have idle : ∀ caller, action.caller = some caller → state.shared.pending caller = none := by
        intro caller acting
        simp only [State.other, acting] at moved
        split at moved
        · assumption
        · contradiction
      have stepped : state.shared.next action = some shared := by
        unfold State.other at moved
        split at moved
        · exact moved
        · rename_i caller acting
          rwa [if_pos (idle caller acting)] at moved
      refine ⟨action, ?_⟩
      change (assemble state).next action = _
      exact (State.next_withBuffers idle _ _).trans (congrArg _ stepped)

theorem atomic_enabled {state : (program config fits).Atomic}
    (enabled : (client config).Enabled (assemble state)) :
    (program config fits).atomic.Enabled state := by
  obtain ⟨label, after, taken⟩ := enabled
  change (assemble state).next label = some after at taken
  have running : state.shared.crashed = false := by
    cases crashed : state.shared.crashed with
    | false => rfl
    | true =>
        have ended : (assemble state).crashed = true := crashed
        simp only [State.next, ended, if_true] at taken
        contradiction
  have execute (label : Program.AtomicLabel (Label config.w) (Caller config.w)) :
      (program config fits).atomic.next state label =
        state.execute (program config fits) label :=
    if_neg (Bool.eq_false_iff.mp running)
  by_cases called : ∃ caller, label.caller = some caller ∧ state.shared.pending caller ≠ none
  · obtain ⟨caller, acting, called⟩ := called
    have same : label = caller.label := by
      cases label <;> cases acting <;> rfl
    rw [same, next_call running called] at taken
    obtain ⟨later, moved, _⟩ := Option.map_eq_some_iff.mp taken
    exact ⟨.call caller, later, (execute _).trans moved⟩
  · have idle : ∀ caller, label.caller = some caller → state.shared.pending caller = none := by
      intro caller acting
      by_contra present
      exact called ⟨caller, acting, present⟩
    have framed := State.next_withBuffers idle (state.queue none)
      fun patient => state.queue (some patient)
    have moved : ∃ later, state.shared.next label = some later := by
      cases stepped : state.shared.next label with
      | some later => exact ⟨later, rfl⟩
      | none =>
          rw [stepped] at framed
          have blocked : (assemble state).next label = none := framed
          rw [taken] at blocked
          cases blocked
    obtain ⟨later, moved⟩ := moved
    have other : (program config fits).other state.shared label = some later := by
      change state.shared.other label = some later
      unfold State.other
      split
      · exact moved
      · rename_i caller acting
        rw [if_pos (idle caller acting)]
        exact moved
    refine ⟨.other label, ⟨later, state.queue⟩, (execute _).trans ?_⟩
    simp only [Program.Atomic.execute, other]

theorem atomic_refines_client :
    Refinement (program config fits).atomic (client config) assemble where
  start := by
    intro state started
    obtain ⟨⟨memory, shared⟩, queues⟩ := started
    refine ⟨memory, ?_⟩
    unfold assemble
    rw [shared, queues]
    rfl
  step := by
    intro before label later _ taken
    exact .inr (atomic_next taken)

end Calls

end Netwurk.Client
