/-
The end of the server and what would end the client early. `!!` is written after
the workers have been joined, so no worker reads from a server that is gone, and
no response that reaches the histogram makes `update` throw.
-/

import Netwurk.Client.Sentinels

namespace Netwurk.Client

open Transition RequestChannel

theorem Main.joinedWorkers_of_killed {main : Main} (w : Nat) (killed : main.killed = true) :
    main.joinedWorkers w = w := by
  cases main with
  | pushQuit | joinStat | finished => rfl
  | _ => cases killed

namespace State

variable {config : Config} {state after : State config}

/-- How far the exchange on the control channel is. -/
def controlPhase (killed : Bool) : Phase := if killed then .left .exit else .idle

structure Controlled (state : State config) : Prop where
  phase : state.chan.At config.Permits [] (controlPhase state.main.killed)
  exited : state.exited = true → state.main.killed = true

theorem Moves.killed {main : Main} (moved : state.Moves main) :
    main.killed = state.main.killed := by
  cases moved with
  | requestsCreated at_ | statsCreated at_ | workersCreated at_ | joinRequest at_
  | requestsJoined at_ | joinQuit at_ | joinWorker at_ | workersJoined at_ | quitsPushed at_
  | joinStat at_ | statsJoined at_ =>
      rw [at_]
      rfl

private theorem control_phase_step (controlled : state.Controlled) (taken : state.Step after) :
    after.chan.At config.Permits [] (controlPhase after.main.killed) := by
  have phase := controlled.phase
  cases taken with
  | moves moved =>
      rw [← moved.killed] at phase
      exact phase
  | kill at_ =>
      rw [at_] at phase
      exact Link.At.leave phase .exit
  | serveControl _ served => exact served.kept phase
  | createRequest at_ | createStat at_ | createWorker at_ | createWorkerFails at_
  | createQuit at_ | pushQuit at_ =>
      rw [at_] at phase
      exact phase
  | _ => exact phase

private theorem control_exited_step (accounted : state.Accounted) (controlled : state.Controlled)
    (taken : state.Step after) : after.exited = true → after.main.killed = true := by
  have exited := controlled.exited
  cases taken with
  | moves moved =>
      rw [← moved.killed] at exited
      exact exited
  | kill => exact fun _ => rfl
  | serveControl _ served =>
      intro ends
      have moved := served.kept controlled.phase
      change state.main.killed = true
      cases killed : state.main.killed with
      | true => rfl
      | false =>
          rw [killed] at moved
          exact absurd (of_decide_eq_true ends) (moved.not_exited Phase.noConfusion)
  | @serveWorker j link _ served =>
      intro ends
      obtain ⟨done, phase, position, stays⟩ := ((accounted.valid j).served served).phase
      exact absurd (of_decide_eq_true ends) (position.not_exited stays)
  | createRequest at_ | createStat at_ | createWorker at_ | createWorkerFails at_
  | createQuit at_ | pushQuit at_ =>
      rw [at_] at exited
      exact exited
  | _ => exact exited

theorem Controlled.step (accounted : state.Accounted) (controlled : state.Controlled)
    (taken : state.Step after) : after.Controlled where
  phase := control_phase_step controlled taken
  exited := control_exited_step accounted controlled taken

theorem controlled_of_reachable (reached : (client config).Reachable state) :
    state.Controlled := by
  apply reached.invariant
  · intro begun initial
    obtain ⟨memory, rfl⟩ := initial
    exact ⟨Link.at_opened _, Bool.noConfusion⟩
  · intro before label later earlier controlled taken
    exact controlled.step (sound_of_reachable earlier).accounted (next_step taken)

/-- While a worker is running the server runs. -/
theorem Controlled.running (controlled : state.Controlled) (joined : state.Joined)
    {j : Fin config.w} (running : (state.workerThreads j).pc.Running) : state.exited = false := by
  apply Bool.eq_false_iff.mpr
  intro exited
  apply joined j _ running
  rw [Main.joinedWorkers_of_killed config.w (controlled.exited exited)]
  exact j.isLt

/-! ### Nothing ends the client early -/

theorem Accounted.permitted_of_pushed (accounted : state.Accounted) {patient : Patient}
    {response : String} (member : response ∈ (state.rBuff patient).pushed)
    (data : response ≠ "quit") : config.Permits response := by
  have total := accounted.pushed patient (fun text => decide (text = response))
    (decide_eq_false (Ne.symm data))
  have present : 0 < (state.rBuff patient).pushed.countP fun text => decide (text = response) :=
    List.countP_pos_iff.mpr ⟨response, member, decide_eq_true rfl⟩
  rw [total] at present
  obtain ⟨j, _, counted⟩ := Finset.exists_ne_zero_of_sum_ne_zero (Nat.ne_of_gt present)
  rw [← Nat.pos_iff_ne_zero] at counted
  have valid := accounted.valid j
  have answered := valid.answered_count patient fun text => decide (text = response)
  have some_answered : 0 < (state.workerThreads j).answered.countP
      (answeredFor patient fun text => decide (text = response)) := by omega
  obtain ⟨exchange, inside, same⟩ := List.countP_pos_iff.mp some_answered
  simp only [answeredFor, Bool.and_eq_true, decide_eq_true_eq] at same
  rw [← same.2]
  exact (valid.exchanged exchange inside).2

structure Alive (state : State config) : Prop where
  running : state.crashed = false
  table : state.hist.map = Histogram.fresh.map

theorem Sound.updating_permitted (sound : state.Sound) {i : Fin 3} {response : String}
    (at_ : (state.patientsStatThread i).pc = .updating response) : config.Permits response := by
  have valid := sound.last.stats i
  have member : response ∈ (state.rBuff (patsBuffs i)).popped ∧ response ≠ "quit" := by
    generalize (state.rBuff (patsBuffs i)).popped = popped at valid
    generalize state.patientsStatThread i = thread at valid at_
    cases valid with
    | updating data more =>
        cases at_
        exact ⟨List.mem_append_right _ List.mem_cons_self, more⟩
    | _ => cases at_
  exact sound.accounted.permitted_of_pushed (TracedQueue.mem_pushed_of_mem_popped member.1)
    member.2

theorem Alive.step (replies : ∀ reply, config.answers reply = true → Reply reply)
    (joined : state.Joined) (sound : state.Sound) (controlled : state.Controlled)
    (alive : state.Alive) (taken : state.Step after) : after.Alive := by
  have counted {i : Fin 3} {response : String}
      (at_ : (state.patientsStatThread i).pc = .updating response) :=
    Histogram.update_reply alive.table (patsBuffs i) (replies _ (sound.updating_permitted at_))
  cases taken with
  | @workerCrash j _ _ at_ _ exited =>
      rw [controlled.running joined (WorkerPc.running_of_reading at_)] at exited
      cases exited
  | statUpdate at_ updated =>
      obtain ⟨bin, _, result⟩ := counted at_
      rw [updateKey_eq_key, result] at updated
      cases updated
      exact ⟨alive.running, alive.table⟩
  | statCrash _ at_ fails =>
      obtain ⟨bin, _, result⟩ := counted at_
      rw [updateKey_eq_key] at fails
      exact absurd result (fails _)
  | _ => exact ⟨alive.running, alive.table⟩

theorem alive_of_reachable (succeeds : config.failing = none)
    (replies : ∀ reply, config.answers reply = true → Reply reply)
    (reached : (client config).Reachable state) : state.Alive := by
  apply reached.invariant
  · intro begun initial
    obtain ⟨memory, rfl⟩ := initial
    exact ⟨rfl, rfl⟩
  · intro before label later earlier alive taken
    exact alive.step replies (inOrder_of_reachable succeeds earlier).joined
      (sound_of_reachable earlier)
      (controlled_of_reachable earlier) (next_step taken)

end State

end Netwurk.Client
