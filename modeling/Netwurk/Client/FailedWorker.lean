/-
The creation of a worker has failed. Main skips the joins of the quit thread and
of the workers, but goes on to stop the server and to close the stat buffers. The
workers that were started keep their work only in runs in which main comes late
to each join that it skips.
-/

import Netwurk.Client.Conservation
import Netwurk.Client.Progress

namespace Netwurk.Client

open Transition RequestChannel

def Main.hired : Main → Bool
  | .createRequest _ | .createStat _ | .createWorker _ => false
  | _ => true

namespace State

variable {config : Config} {state after : State config}

structure Orderly (state : State config) : Prop where
  killed : state.main.killed = true → ∀ j, ¬ (state.workerThreads j).pc.Running
  closed : ∀ patient, "quit" ∈ (state.rBuff patient).pushed →
    ∀ j, ¬ (state.workerThreads j).pc.Running
  served : state.exited = true → ∀ (j : Fin config.w) (request : String),
    (state.workerThreads j).pc ≠ .reading request
  counted : state.main = .finished → ∀ (patient : Patient) (bin : Fin 10),
    state.hist.hist (Histogram.cell patient.row bin) =
      ((∑ j, (state.workerThreads j).answered.countP (answeredFor patient (inBin bin)) : Nat) : Int)

/-- Main does not come past the join of a running worker, whether or not it makes
that join. -/
def Waits (state : State config) (label : Label config.w) : Prop :=
  label = .main → ∀ j : Fin config.w, state.main = .joinWorker j.val →
    ¬ (state.workerThreads j).pc.Running

instance (state : State config) (label : Label config.w) : Decidable (state.Waits label) :=
  inferInstanceAs (Decidable (_ → _))

theorem waits_elsewhere {label : Label config.w}
    (elsewhere : ∀ i, state.main ≠ .joinWorker i) : state.Waits label :=
  fun _ _ at_ => absurd at_ (elsewhere _)

private theorem main_of_worker {j : Fin config.w}
    (taken : state.workerThreadFunction j = some after) : after.main = state.main := by
  unfold workerThreadFunction at taken
  simp only at taken
  repeat' split at taken
  all_goals cases taken
  all_goals rfl

private theorem main_of_stat {i : Fin 3}
    (taken : state.statThreadFunction i = some after) : after.main = state.main := by
  unfold statThreadFunction at taken
  simp only at taken
  repeat' split at taken
  all_goals cases taken
  all_goals rfl

theorem main_of_next {label : Label config.w} (other : label ≠ .main)
    (taken : state.next label = some after) : after.main = state.main := by
  unfold next at taken
  split at taken
  · cases taken
  cases label with
  | main => exact absurd rfl other
  | request i =>
      simp only [requestThreadFunction] at taken
      repeat' split at taken
      all_goals cases taken
      all_goals rfl
  | quits =>
      simp only [requestQuits] at taken
      repeat' split at taken
      all_goals cases taken
      all_goals rfl
  | worker j => exact main_of_worker taken
  | stat i => exact main_of_stat taken
  | recv connection | act connection trach =>
      simp only at taken
      repeat' split at taken
      all_goals cases taken
      all_goals cases connection <;> rfl

/-! ### Runs that wait -/

theorem Steady.step_waits (replies : ∀ reply, config.answers reply = true → Reply reply)
    (steady : state.Steady) {label : Label config.w} (waits : state.Waits label)
    (taken : state.next label = some after) : after.Steady := by
  apply steady.step replies (next_step taken)
  apply steady.joined.step (next_step taken)
  intro j moved passed
  by_cases main : label = .main
  · cases moved with
    | joinWorker at_ => exact waits main j at_
  · cases moved with
    | joinWorker at_ =>
        rw [main_of_next main taken, at_] at passed
        exact absurd (Main.joinWorker.inj passed) (Nat.ne_of_lt (Nat.lt_succ_self _))

theorem steady_of_waits (replies : ∀ reply, config.answers reply = true → Reply reply)
    (reached : (client config).ReachableWithin Waits state) : state.Steady := by
  apply reached.invariant
  · intro begun initial
    obtain ⟨memory, rfl⟩ := initial
    exact (healthy_initial memory).steady
  · intro before label later _ steady waits taken
    exact steady.step_waits replies waits taken

theorem counted_of_waits (replies : ∀ reply, config.answers reply = true → Reply reply)
    (reached : (client config).ReachableWithin Waits state) : state.Counted := by
  apply reached.invariant
  · intro begun initial
    obtain ⟨memory, rfl⟩ := initial
    exact fun patient bin _ => rfl
  · intro before label later earlier counted _ taken
    have steady := steady_of_waits replies earlier
    exact counted.step replies steady.sound steady.alive (next_step taken)

theorem Joined.idle_of_killed (joined : state.Joined) (killed : state.main.killed = true)
    (j : Fin config.w) : ¬ (state.workerThreads j).pc.Running := by
  apply joined j
  rw [Main.joinedWorkers_of_killed config.w killed]
  exact j.isLt

theorem StatsClosed.killed (closed : state.StatsClosed) {patient : Patient}
    (quit : "quit" ∈ (state.rBuff patient).pushed) : state.main.killed = true := by
  obtain ⟨i, rfl⟩ := exists_patsBuffs patient
  have form := closed i
  by_cases pushed : i.val < state.main.pushedQuits
  · generalize state.main = main at pushed
    cases main with
    | pushQuit | joinStat | finished => rfl
    | _ => cases pushed
  · rw [if_neg pushed] at form
    exact absurd quit form.data_of_zero

theorem Steady.orderly (replies : ∀ reply, config.answers reply = true → Reply reply)
    (bound : (config.n : Int) ≤ INT_MAX) (steady : state.Steady) (requested : state.Requested)
    (counted : state.Counted) : state.Orderly where
  killed := steady.joined.idle_of_killed
  closed := fun _ quit => steady.joined.idle_of_killed (steady.closed.killed quit)
  served := by
    intro exited j request reads
    rw [steady.controlled.running steady.joined (WorkerPc.running_of_reading reads)] at exited
    cases exited
  counted := by
    intro finished patient bin
    have joined : state.main.joinedStats = 3 := by
      rw [finished]
      rfl
    have idle := steady.joined.idle_of_killed (by rw [finished]; rfl)
    rw [(counted.cell_eq bound (honest_of_reply replies) steady.sound requested patient bin).1,
      counted_of_idle steady.sound steady.closed idle joined]

/-! ### Main alone -/

private theorem next_main (state : State config) (running : state.crashed = false)
    (taken : state.mainThread = some after) : (client config).next state .main = some after := by
  change state.next .main = some after
  unfold next
  rw [running]
  exact taken

theorem path_killed (running : state.crashed = false) (failed : state.noError = false) {i : Nat}
    (at_ : state.main = .joinWorker i) :
    ∃ later, (client config).Path state later ∧ later.main.killed = true ∧
      later.workerThreads = state.workerThreads := by
  induction rest : config.w - i generalizing state i with
  | zero =>
      have last : ¬ i < config.w := by omega
      have joined : state.mainThread = some (state.setMain .kill) := by
        unfold mainThread
        simp only [at_]
        rw [dif_neg last]
      have written : (state.setMain .kill).mainThread = some
          { state with
            chan := state.chan.cwrite "!!"
            main := .pushQuit 0 } := rfl
      have path : (client config).Path state (state.setMain .kill) :=
        (System.Path.refl state).take .main (next_main state running joined)
      exact ⟨_, path.take .main (next_main _ running written), rfl, rfl⟩
  | succ rest ih =>
      have within : i < config.w := by omega
      have skipped : state.mainThread = some (state.setMain (.joinWorker (i + 1))) := by
        unfold mainThread
        simp only [at_]
        rw [dif_pos within, if_pos fun error_free => by rw [failed] at error_free; cases error_free]
      obtain ⟨later, path, killed, same⟩ :
          ∃ later, (client config).Path (state.setMain (.joinWorker (i + 1))) later ∧
            later.main.killed = true ∧ later.workerThreads = state.workerThreads :=
        ih running failed rfl (by omega)
      have first : (client config).Path state (state.setMain (.joinWorker (i + 1))) :=
        (System.Path.refl state).take .main (next_main state running skipped)
      exact ⟨later, first.trans path, killed, same⟩

private theorem disorderly_of_running (state : State config) (alive : state.crashed = false)
    (failed : state.noError = false) {i : Nat} (at_ : state.main = .joinWorker i)
    {j : Fin config.w} (running : (state.workerThreads j).pc.Running) :
    ∃ later, (client config).Path state later ∧ ¬ later.Orderly := by
  obtain ⟨later, path, killed, same⟩ := path_killed alive failed at_
  refine ⟨later, path, fun orderly => orderly.killed killed j ?_⟩
  rw [same]
  exact running

/-- A step that does not wait lets main go on to a state that is not orderly. -/
theorem disorderly_of_skipped {label : Label config.w} (taken : state.next label = some after)
    (skips : ¬ state.Waits label) :
    ∃ later, (client config).Path after later ∧ ¬ later.Orderly := by
  simp only [Waits, not_forall, not_not] at skips
  obtain ⟨rfl, j, at_, running⟩ := skips
  unfold next at taken
  split at taken
  · cases taken
  rename_i alive
  simp only [mainThread, at_] at taken
  rw [dif_pos j.isLt] at taken
  split at taken
  · rename_i ended
    cases taken
    have failed : state.noError = false := by
      apply Bool.eq_false_iff.mpr
      intro error_free
      exact running.2 (ended error_free)
    exact disorderly_of_running (state.setMain (.joinWorker (j.val + 1)))
      (Bool.eq_false_iff.mpr alive) failed rfl running
  · cases taken

/-- The creation of worker `k` fails, those before it are started. -/
structure Hired (k : Nat) (state : State config) : Prop where
  counter : ∀ i, state.main = .createWorker i → i ≤ k
  started : ∀ j : Fin config.w, j.val < min k (state.main.createdWorkers config.w) →
    (state.workerThreads j).pc ≠ .notStarted
  failed : state.main.hired = true → state.noError = false

private theorem counter_step {k : Nat} (fails : config.failing = some k)
    (hired : state.Hired k) (taken : state.Step after) :
    ∀ i, after.main = .createWorker i → i ≤ k := by
  have counter := hired.counter
  cases taken with
  | moves moved =>
      cases moved with
      | statsCreated =>
          intro i at_
          cases at_
          exact Nat.zero_le k
      | _ =>
          intro i at_
          cases at_
  | @createWorker i at_ _ succeeds =>
      intro next same
      cases same
      have below := counter i at_
      have other : i ≠ k := by
        intro equal
        subst equal
        exact succeeds fails
      omega
  | createRequest | createStat | createWorkerFails | createQuit | kill | pushQuit =>
      intro i at_
      cases at_
  | _ => exact counter

private theorem started_step {k : Nat} (within : k < config.w) (fails : config.failing = some k)
    (hired : state.Hired k) (taken : state.Step after) :
    ∀ j : Fin config.w, j.val < min k (after.main.createdWorkers config.w) →
      (after.workerThreads j).pc ≠ .notStarted := by
  have started := hired.started
  have stays {j : Fin config.w} {worker : Worker} (present : worker.pc ≠ .notStarted) :
      ∀ other : Fin config.w, other.val < min k (state.main.createdWorkers config.w) →
        (Function.update state.workerThreads j worker other).pc ≠ .notStarted :=
    Families.prefix_stays (fun worker : Worker => worker.pc ≠ .notStarted) started
      fun _ => present
  cases taken with
  | moves moved =>
      cases moved with
      | workersCreated at_ last =>
          have below := hired.counter _ at_
          omega
      | requestsCreated at_ | statsCreated at_ | joinRequest at_ | requestsJoined at_
      | joinQuit at_ | joinWorker at_ | workersJoined at_ | quitsPushed at_ | joinStat at_
      | statsJoined at_ =>
          rw [at_] at started
          exact started
  | @createWorker i at_ inside succeeds =>
      intro j below
      change j.val < min k (i + 1) at below
      by_cases last : j = ⟨i, inside⟩
      · subst last
        change (Function.update state.workerThreads _ _ _).pc ≠ .notStarted
        rw [Function.update_self]
        exact WorkerPc.noConfusion
      · have other : j.val ≠ i := fun same => last (Fin.ext same)
        change (Function.update state.workerThreads _ _ _).pc ≠ .notStarted
        rw [Function.update_of_ne last]
        apply started j
        rw [at_]
        change j.val < min k i
        omega
  | @createWorkerFails i at_ _ here =>
      intro j below
      apply started j
      rw [fails] at here
      cases here
      rw [at_]
      change j.val < min k config.w at below
      change j.val < min k k
      omega
  | @workerPop j _ _ at_ | @workerQuit j at_ | @workerRequest j _ at_ | @workerRead j _ _ _ at_
  | @workerPush j _ _ _ _ at_ | @workerDrop j _ _ at_ => exact stays WorkerPc.noConfusion
  | serveWorker =>
      exact Families.prefix_stays (fun worker : Worker => worker.pc ≠ .notStarted) started
        fun same => same
  | createRequest at_ | createStat at_ | createQuit at_ | kill at_ | pushQuit at_ =>
      rw [at_] at started
      exact started
  | _ => exact started

private theorem failed_step {k : Nat} (within : k < config.w) (hired : state.Hired k)
    (taken : state.Step after) : after.main.hired = true → after.noError = false := by
  have failed := hired.failed
  cases taken with
  | moves moved =>
      cases moved with
      | workersCreated at_ last =>
          have below := hired.counter _ at_
          omega
      | requestsCreated at_ | statsCreated at_ | joinRequest at_ | requestsJoined at_
      | joinQuit at_ | joinWorker at_ | workersJoined at_ | quitsPushed at_ | joinStat at_
      | statsJoined at_ =>
          rw [at_] at failed
          exact failed
  | createWorkerFails => exact fun _ => rfl
  | createRequest at_ | createStat at_ | createWorker at_ | createQuit at_ | kill at_
  | pushQuit at_ =>
      rw [at_] at failed
      exact failed
  | _ => exact failed

theorem hired_of_reachable {k : Nat} (within : k < config.w) (fails : config.failing = some k)
    (reached : (client config).Reachable state) : state.Hired k := by
  apply reached.invariant
  · intro begun initial
    obtain ⟨memory, rfl⟩ := initial
    exact ⟨fun i at_ => Main.noConfusion at_,
      fun j below => absurd (Nat.lt_of_lt_of_le below (Nat.min_le_right _ _)) (Nat.not_lt_zero _),
      Bool.noConfusion⟩
  · intro before label later _ hired taken
    have moved := next_step taken
    exact ⟨counter_step fails hired moved, started_step within fails hired moved,
      failed_step within hired moved⟩

theorem Hired.running {k : Nat} (hired : state.Hired k) (sound : state.Sound)
    (past : state.main.hired = true) (early : state.main.createdQuit = false) {j : Fin config.w}
    (below : j.val < k) : (state.workerThreads j).pc.Running := by
  constructor
  · apply hired.started
    have created : state.main.createdWorkers config.w = config.w := by
      generalize state.main = main at past
      cases main with
      | createRequest | createStat | createWorker => cases past
      | _ => rfl
    rw [created]
    exact Nat.lt_min.mpr ⟨below, j.isLt⟩
  · intro ended
    have pushed := sound.quits_pushed
    rw [sound.ordered.quit_created.mpr early, TracedQueue.count_pushed, sound.quits_popped]
      at pushed
    have none_ended := Finset.sum_eq_zero_iff.mp (Nat.eq_zero_of_add_eq_zero_right pushed) j
      (Finset.mem_univ j)
    rw [if_pos (.inl ended)] at none_ended
    cases none_ended

private theorem early_step (elsewhere : state.main ≠ .createQuit)
    (early : state.main.createdQuit = false) (taken : state.Step after) :
    after.main.createdQuit = false := by
  cases taken with
  | moves moved =>
      cases moved with
      | requestsCreated | statsCreated | workersCreated | joinRequest | requestsJoined => rfl
      | joinQuit at_ | joinWorker at_ | workersJoined at_ | quitsPushed at_ | joinStat at_
      | statsJoined at_ =>
          rw [at_] at early
          cases early
  | createRequest | createStat | createWorker | createWorkerFails => rfl
  | createQuit at_ => exact absurd at_ elsewhere
  | kill at_ | pushQuit at_ =>
      rw [at_] at early
      cases early
  | _ => exact early

private theorem reaches_createQuit {k : Nat} (fails : config.failing = some k) (positive : 1 ≤ k)
    (within : k < config.w) (buffers : 3 ≤ config.b)
    (replies : ∀ reply, config.answers reply = true → Reply reply)
    (answer : ∃ trach, config.answers trach = true)
    (reached : (client config).ReachableWithin Waits state)
    (early : state.main.createdQuit = false) :
    ∃ later, (client config).ReachableWithin Waits later ∧ later.main = .createQuit := by
  induction bounded : state.measure using Nat.strong_induction_on generalizing state with
  | _ size ih =>
      by_cases there : state.main = .createQuit
      · exact ⟨state, reached, there⟩
      have steady := steady_of_waits replies reached
      have hired := hired_of_reachable within fails reached.reachable
      have helped : ∀ i, state.main = .joinRequest i →
          ∃ j, (state.workerThreads j).pc.Running := by
        intro i at_
        exact ⟨⟨0, Nat.zero_lt_of_lt within⟩,
          hired.running steady.sound (by rw [at_]; rfl) early positive⟩
      obtain ⟨label, after, taken⟩ := steady.early_progress buffers answer early helped
      have moved := next_step taken
      have waits : state.Waits label := by
        apply waits_elsewhere
        intro i at_
        rw [at_] at early
        cases early
      exact ih after.measure (by rw [← bounded]; exact moved.measure_less)
        (reached.take label waits taken) (early_step there early moved) rfl

/-- Then it goes on to the join of a worker that is running. -/
private theorem reaches_skipped {k : Nat} (fails : config.failing = some k) (positive : 1 ≤ k)
    (within : k < config.w) (buffers : 3 ≤ config.b)
    (replies : ∀ reply, config.answers reply = true → Reply reply)
    (answer : ∃ trach, config.answers trach = true) :
    ∃ state : State config, (client config).Reachable state ∧ state.crashed = false ∧
      state.noError = false ∧ state.main = .joinWorker 0 ∧
      ∃ j, (state.workerThreads j).pc.Running := by
  have begun : (client config).ReachableWithin Waits (initial config fun _ => []) :=
    .start ⟨_, rfl⟩
  obtain ⟨state, reached, at_⟩ :=
    reaches_createQuit fails positive within buffers replies answer begun rfl
  have steady := steady_of_waits replies reached
  have alive := steady.alive.running
  have hired := hired_of_reachable within fails reached.reachable
  have failed := hired.failed (by rw [at_]; rfl)
  have running := hired.running (j := ⟨0, Nat.zero_lt_of_lt within⟩) steady.sound
    (by rw [at_]; rfl) (by rw [at_]; rfl) positive
  have created : state.mainThread = some
      { state with
        quitThread := .looping 0
        main := .joinQuit } := by
    unfold mainThread
    simp only [at_]
  have skipped : ({ state with
        quitThread := .looping 0
        main := .joinQuit } : State config).mainThread = some
      { state with
        quitThread := .looping 0
        main := .joinWorker 0 } := by
    unfold mainThread
    simp only [failed]
    rfl
  have joining := reached.reachable.next (next_main state alive created)
  exact ⟨_, joining.next (next_main _ alive skipped), alive, failed, rfl, _, running⟩

end State

/-- Three workers are asked for and the last is not created. -/
def shortOfOne : Config :=
  { n := 1
    w := 3
    b := 3
    answers := serverReplies
    failing := some 2 }

def firstWorker : Fin shortOfOne.w := ⟨0, by decide⟩

def secondWorker : Fin shortOfOne.w := ⟨1, by decide⟩

def reads (j : Fin shortOfOne.w) (trach : String) : List (Label shortOfOne.w) :=
  [.worker j, .worker j, .recv (some j), .act (some j) trach, .worker j]

/-- While the first worker holds a reply and the second awaits one, main finishes
and the server stops. -/
def abandoningRun : List (Label shortOfOne.w) :=
  List.flatten
    [List.replicate 11 .main,
      [.request 0, .request 1, .request 2, .request 0, .request 1, .request 2],
      reads firstWorker "57", [.worker secondWorker, .worker secondWorker],
      List.replicate 15 .main, [.stat 0, .stat 1, .stat 2], List.replicate 4 .main,
      [.recv none, .act none "57"]]

def waitingRun : List (Label shortOfOne.w) :=
  List.flatten
    [List.replicate 11 .main,
      [.request 0, .request 1, .request 2, .request 0, .request 1, .request 2],
      reads firstWorker "57", [.worker firstWorker],
      reads secondWorker "3", [.worker secondWorker],
      reads secondWorker "99", [.worker secondWorker],
      [.stat 0, .stat 0, .stat 1, .stat 1, .stat 2, .stat 2],
      List.replicate 5 .main, List.replicate 4 .quits,
      [.worker firstWorker, .worker firstWorker, .worker secondWorker, .worker secondWorker],
      List.replicate 10 .main, [.stat 0, .stat 1, .stat 2], List.replicate 4 .main]

/-- After a failed creation the started workers keep their work in every run in
which main comes past no join of a running worker. From any other step main alone
can go on to lose it, and such a step is possible whatever the sizes are. -/
theorem orderly_while_main_waits {config : Config} {k : Nat} (fails : config.failing = some k)
    (positive : 1 ≤ k) (within : k < config.w) (buffers : 3 ≤ config.b)
    (bound : (config.n : Int) ≤ INT_MAX) (server : config.answers = serverReplies) :
    (∀ state, (client config).ReachableWithin State.Waits state → state.Orderly) ∧
    (∀ state label after, (client config).next state label = some after →
      ¬ state.Waits label → ∃ later, (client config).Path after later ∧ ¬ later.Orderly) ∧
    ∃ state, (client config).Reachable state ∧ ¬ state.Orderly := by
  have replies : ∀ reply, config.answers reply = true → Reply reply := by
    rw [server]
    exact fun _ => serverReplies_iff.mp
  have answer : ∃ trach, config.answers trach = true := by
    rw [server]
    exact exists_serverReply
  refine ⟨?_, fun _ _ _ => State.disorderly_of_skipped, ?_⟩
  · intro state reached
    exact (State.steady_of_waits replies reached).orderly replies bound
      (State.requested_of_reachable reached.reachable) (State.counted_of_waits replies reached)
  · obtain ⟨state, reached, alive, failed, at_, j, running⟩ :=
      State.reaches_skipped fails positive within buffers replies answer
    obtain ⟨later, path, disorderly⟩ := State.disorderly_of_running state alive failed at_ running
    exact ⟨later, reached.of_path path, disorderly⟩

theorem orderly_while_main_waits_run :
    ∃ state, (client shortOfOne).run (initial shortOfOne fun _ => []) waitingRun = some state ∧
      state.main = .finished ∧ state.hist.hist (Histogram.cell Patient.joe.row 5) = 1 ∧
      state.Orderly := by
  have ran : ((client shortOfOne).run (initial shortOfOne fun _ => []) waitingRun).map
      (fun state => (state.main, state.hist.hist (Histogram.cell Patient.joe.row 5))) =
        some (.finished, 1) := by
    decide +kernel
  have along : (client shortOfOne).Along State.Waits (initial shortOfOne fun _ => [])
      waitingRun := by
    decide +kernel
  obtain ⟨state, run, last⟩ := Option.map_eq_some_iff.mp ran
  obtain ⟨finished, cell⟩ := Prod.mk.inj last
  have begun : (client shortOfOne).ReachableWithin State.Waits (initial shortOfOne fun _ => []) :=
    .start ⟨_, rfl⟩
  exact ⟨state, run, finished, cell,
    (orderly_while_main_waits rfl (by decide) (by decide) (by decide) (by decide) rfl).1 state
      (begun.of_run along run)⟩

/-- The last print is without a reply that the first worker has read, and the second
awaits a reply although the server is gone. -/
theorem workers_abandoned :
    ∃ state, (client shortOfOne).run (initial shortOfOne fun _ => []) abandoningRun = some state ∧
      state.main = .finished ∧ state.exited = true ∧
      (state.workerThreads firstWorker).answered = [("data Joe Smith", "57")] ∧
      state.hist.hist (Histogram.cell Patient.joe.row 5) = 0 ∧
      (state.workerThreads secondWorker).pc = .reading "data John Smith" ∧ ¬ state.Orderly := by
  have ran : ((client shortOfOne).run (initial shortOfOne fun _ => []) abandoningRun).map
      (fun state => (state.main, state.exited, (state.workerThreads firstWorker).answered,
        state.hist.hist (Histogram.cell Patient.joe.row 5),
        (state.workerThreads secondWorker).pc)) =
      some (.finished, true, [("data Joe Smith", "57")], 0, .reading "data John Smith") := by
    decide +kernel
  obtain ⟨state, run, last⟩ := Option.map_eq_some_iff.mp ran
  simp only [Prod.mk.injEq] at last
  obtain ⟨finished, exited, answered, cell, reading⟩ := last
  exact ⟨state, run, finished, exited, answered, cell, reading,
    fun orderly => orderly.served exited secondWorker _ reading⟩

end Netwurk.Client
