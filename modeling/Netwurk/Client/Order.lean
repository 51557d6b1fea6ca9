/-
What the position of main says about its threads: which have been created, which
have been joined and have therefore ended. Only a failing creation of a worker
makes main skip joins.
-/

import Netwurk.Foundation.Families
import Netwurk.Client.Pipeline

namespace Netwurk.Client

open Transition RequestChannel

namespace Main

def createdRequests : Main → Nat
  | createRequest i => i
  | _ => 3

def createdStats : Main → Nat
  | createRequest _ => 0
  | createStat i => i
  | _ => 3

def createdWorkers (w : Nat) : Main → Nat
  | createRequest _ | createStat _ => 0
  | createWorker i => i
  | _ => w

def joinedRequests : Main → Nat
  | createRequest _ | createStat _ | createWorker _ => 0
  | joinRequest i => i
  | _ => 3

def createdQuit : Main → Bool
  | createRequest _ | createStat _ | createWorker _ | joinRequest _ | createQuit => false
  | _ => true

def joinedQuit : Main → Bool
  | createRequest _ | createStat _ | createWorker _ | joinRequest _ | createQuit | joinQuit =>
      false
  | _ => true

def joinedWorkers (w : Nat) : Main → Nat
  | createRequest _ | createStat _ | createWorker _ | joinRequest _ | createQuit | joinQuit => 0
  | joinWorker i => i
  | _ => w

/-- `!!` has been written. -/
def killed : Main → Bool
  | pushQuit _ | joinStat _ | finished => true
  | _ => false

def pushedQuits : Main → Nat
  | pushQuit i => i
  | joinStat _ | finished => 3
  | _ => 0

def joinedStats : Main → Nat
  | joinStat i => i
  | finished => 3
  | _ => 0

theorem createdWorkers_of_joinedWorkers {main : Main} {w j : Nat}
    (joined : j < main.joinedWorkers w) : main.createdWorkers w = w := by
  cases main with
  | createRequest | createStat | createWorker => cases joined
  | _ => rfl

end Main

def WorkerPc.Running (pc : WorkerPc) : Prop := pc ≠ .notStarted ∧ pc ≠ .ended

instance (pc : WorkerPc) : Decidable pc.Running :=
  inferInstanceAs (Decidable (_ ∧ _))

theorem WorkerPc.running_of_reading {pc : WorkerPc} {request : String}
    (at_ : pc = .reading request) : pc.Running := by
  subst at_
  exact ⟨WorkerPc.noConfusion, WorkerPc.noConfusion⟩

namespace State

variable {config : Config} {state after : State config}

structure Ordered (state : State config) : Prop where
  requests_created : ∀ i, state.patientsThread i = .notStarted ↔
    state.main.createdRequests ≤ i.val
  stats_created : ∀ i, (state.patientsStatThread i).pc = .notStarted ↔
    state.main.createdStats ≤ i.val
  workers_uncreated : ∀ j, state.main.createdWorkers config.w ≤ j.val →
    (state.workerThreads j).pc = .notStarted
  quit_created : state.quitThread = .notStarted ↔ state.main.createdQuit = false
  requests_joined : ∀ i : Fin 3, i.val < state.main.joinedRequests →
    state.patientsThread i = .ended
  stats_joined : ∀ i : Fin 3, i.val < state.main.joinedStats →
    (state.patientsStatThread i).pc = .ended

private theorem requests_created_step (ordered : state.Ordered) (taken : state.Step after) :
    ∀ i, after.patientsThread i = .notStarted ↔ after.main.createdRequests ≤ i.val := by
  have created := ordered.requests_created
  cases taken with
  | moves moved =>
      cases moved with
      | requestsCreated at_ last =>
          intro i
          rw [at_] at created
          change state.patientsThread i = .notStarted ↔ 3 ≤ i.val
          rw [created i]
          simp only [Main.createdRequests]
          omega
      | statsCreated at_ | workersCreated at_ | joinRequest at_ | requestsJoined at_
      | joinQuit at_ | joinWorker at_ | workersJoined at_ | quitsPushed at_ | joinStat at_
      | statsJoined at_ =>
          rw [at_] at created
          exact created
  | createRequest at_ within =>
      rw [at_] at created
      exact Families.border_advances (fun thread : Pusher => thread = .notStarted) within created
        Pusher.noConfusion
  | @request i _ _ at_ | @requestEnds i _ at_ =>
      have present : state.patientsThread i ≠ .notStarted := by
        rw [at_]
        exact Pusher.noConfusion
      exact Families.border_stays (fun thread : Pusher => thread = .notStarted) created
        (iff_of_false Pusher.noConfusion present)
  | createStat at_ | createWorker at_ | createWorkerFails at_ | createQuit at_ | kill at_
  | pushQuit at_ =>
      rw [at_] at created
      exact created
  | _ => exact created

private theorem stats_created_step (ordered : state.Ordered) (taken : state.Step after) :
    ∀ i, (after.patientsStatThread i).pc = .notStarted ↔ after.main.createdStats ≤ i.val := by
  have created := ordered.stats_created
  cases taken with
  | moves moved =>
      cases moved with
      | statsCreated at_ last =>
          intro i
          rw [at_] at created
          change (state.patientsStatThread i).pc = .notStarted ↔ 3 ≤ i.val
          rw [created i]
          simp only [Main.createdStats]
          omega
      | requestsCreated at_ | workersCreated at_ | joinRequest at_ | requestsJoined at_
      | joinQuit at_ | joinWorker at_ | workersJoined at_ | quitsPushed at_ | joinStat at_
      | statsJoined at_ =>
          rw [at_] at created
          exact created
  | createStat at_ within =>
      rw [at_] at created
      exact Families.border_advances (fun thread : StatThread => thread.pc = .notStarted) within created
        StatPc.noConfusion
  | @statPop i _ _ at_ | @statQuit i _ at_ | @statUpdate i _ _ at_ =>
      have present : (state.patientsStatThread i).pc ≠ .notStarted := by
        rw [at_]
        exact StatPc.noConfusion
      exact Families.border_stays (fun thread : StatThread => thread.pc = .notStarted) created
        (iff_of_false StatPc.noConfusion present)
  | createRequest at_ | createWorker at_ | createWorkerFails at_ | createQuit at_ | kill at_
  | pushQuit at_ =>
      rw [at_] at created
      exact created
  | _ => exact created

private theorem workers_uncreated_step (ordered : state.Ordered) (taken : state.Step after) :
    ∀ j, after.main.createdWorkers config.w ≤ j.val →
      (after.workerThreads j).pc = .notStarted := by
  have uncreated := ordered.workers_uncreated
  have updated {j : Fin config.w} {worker : Worker} {border : Nat}
      (border_le : state.main.createdWorkers config.w ≤ border)
      (at_ : (state.workerThreads j).pc ≠ .notStarted ∨ j.val < border) :
      ∀ other : Fin config.w, border ≤ other.val →
        (Function.update state.workerThreads j worker other).pc = .notStarted := by
    intro other later
    have differs : other ≠ j := by
      intro same
      subst same
      rcases at_ with started | before
      · exact started (uncreated other (Nat.le_trans border_le later))
      · omega
    rw [Function.update_of_ne differs]
    exact uncreated other (Nat.le_trans border_le later)
  have started {j : Fin config.w} {pc : WorkerPc} (at_ : (state.workerThreads j).pc = pc)
      (present : pc ≠ .notStarted) {worker : Worker} :
      ∀ other : Fin config.w, state.main.createdWorkers config.w ≤ other.val →
        (Function.update state.workerThreads j worker other).pc = .notStarted :=
    updated (Nat.le_refl _) (.inl (at_ ▸ present))
  cases taken with
  | moves moved =>
      cases moved with
      | statsCreated at_ | requestsCreated at_ | joinRequest at_ | requestsJoined at_
      | joinQuit at_ | joinWorker at_ | workersJoined at_ | quitsPushed at_ | joinStat at_
      | statsJoined at_ =>
          rw [at_] at uncreated
          exact uncreated
      | workersCreated =>
          intro j later
          exact absurd later (Nat.not_le.mpr j.isLt)
  | @createWorker i at_ within =>
      apply updated
      · rw [at_]
        exact Nat.le_succ i
      · exact .inr (Nat.lt_succ_self i)
  | createWorkerFails =>
      intro j later
      exact absurd later (Nat.not_le.mpr j.isLt)
  | workerPop at_ | workerQuit at_ | workerRequest at_ | workerRead at_ | workerPush at_
  | workerDrop at_ => exact started at_ WorkerPc.noConfusion
  | @serveWorker j link =>
      intro other later
      have before := uncreated other later
      by_cases same : other = j
      · subst same
        simpa [setWorker] using before
      · simpa [setWorker, Function.update_of_ne same] using before
  | createRequest at_ | createStat at_ | createQuit at_ | kill at_ | pushQuit at_ =>
      rw [at_] at uncreated
      exact uncreated
  | _ => exact uncreated

private theorem quit_created_step (ordered : state.Ordered) (taken : state.Step after) :
    after.quitThread = .notStarted ↔ after.main.createdQuit = false := by
  have created := ordered.quit_created
  cases taken with
  | moves moved =>
      cases moved with
      | requestsCreated at_ | statsCreated at_ | workersCreated at_ | joinRequest at_
      | requestsJoined at_ | joinQuit at_ | joinWorker at_ | workersJoined at_ | quitsPushed at_
      | joinStat at_ | statsJoined at_ =>
          rw [at_] at created
          exact created
  | createQuit => exact iff_of_false Pusher.noConfusion Bool.noConfusion
  | quit at_ | quitEnds at_ =>
      rw [at_] at created
      have running : state.main.createdQuit ≠ false := fun early =>
        Pusher.noConfusion (created.mpr early)
      exact iff_of_false Pusher.noConfusion running
  | createRequest at_ | createStat at_ | createWorker at_ | createWorkerFails at_ | kill at_
  | pushQuit at_ =>
      rw [at_] at created
      exact created
  | _ => exact created

private theorem requests_joined_step (ordered : state.Ordered) (taken : state.Step after) :
    ∀ i : Fin 3, i.val < after.main.joinedRequests → after.patientsThread i = .ended := by
  have joined := ordered.requests_joined
  cases taken with
  | moves moved =>
      cases moved with
      | @joinRequest i at_ within ended =>
          rw [at_] at joined
          exact Families.prefix_advances (fun thread : Pusher => thread = .ended) within joined
            ended
      | requestsJoined at_ last =>
          rw [at_] at joined
          intro i _
          exact joined i (by simp only [Main.joinedRequests]; omega)
      | requestsCreated at_ | statsCreated at_ | workersCreated at_ | joinQuit at_
      | joinWorker at_ | workersJoined at_ | quitsPushed at_ | joinStat at_ | statsJoined at_ =>
          rw [at_] at joined
          exact joined
  | createRequest at_ =>
      intro i impossible
      simp [setMain, Main.joinedRequests] at impossible
  | @request i _ _ at_ | @requestEnds i _ at_ =>
      have active : state.patientsThread i ≠ .ended := by
        rw [at_]
        exact Pusher.noConfusion
      exact Families.prefix_stays (fun thread : Pusher => thread = .ended) joined
        fun impossible => absurd impossible active
  | createStat at_ | createWorker at_ | createWorkerFails at_ | createQuit at_ | kill at_
  | pushQuit at_ =>
      rw [at_] at joined
      exact joined
  | _ => exact joined

private theorem stats_joined_step (ordered : state.Ordered) (taken : state.Step after) :
    ∀ i : Fin 3, i.val < after.main.joinedStats → (after.patientsStatThread i).pc = .ended := by
  have joined := ordered.stats_joined
  cases taken with
  | moves moved =>
      cases moved with
      | @joinStat i at_ within ended =>
          rw [at_] at joined
          exact Families.prefix_advances (fun thread : StatThread => thread.pc = .ended) within
            joined ended
      | statsJoined at_ last =>
          rw [at_] at joined
          intro i _
          exact joined i (by simp only [Main.joinedStats]; omega)
      | requestsCreated at_ | statsCreated at_ | workersCreated at_ | joinRequest at_
      | requestsJoined at_ | joinQuit at_ | joinWorker at_ | workersJoined at_ | quitsPushed at_ =>
          rw [at_] at joined
          exact joined
  | createStat at_ =>
      intro i impossible
      simp [setMain, Main.joinedStats] at impossible
  | @statPop i _ _ at_ | @statQuit i _ at_ | @statUpdate i _ _ at_ =>
      have active : (state.patientsStatThread i).pc ≠ .ended := by
        rw [at_]
        exact StatPc.noConfusion
      exact Families.prefix_stays (fun thread : StatThread => thread.pc = .ended) joined
        fun impossible => absurd impossible active
  | createRequest at_ | createWorker at_ | createWorkerFails at_ | createQuit at_ | kill at_
  | pushQuit at_ =>
      rw [at_] at joined
      exact joined
  | _ => exact joined

theorem Ordered.step (ordered : state.Ordered) (taken : state.Step after) : after.Ordered where
  requests_created := requests_created_step ordered taken
  stats_created := stats_created_step ordered taken
  workers_uncreated := workers_uncreated_step ordered taken
  quit_created := quit_created_step ordered taken
  requests_joined := requests_joined_step ordered taken
  stats_joined := stats_joined_step ordered taken

/-- No worker that main has come past the join of is running. -/
def Joined (state : State config) : Prop :=
  ∀ j : Fin config.w, j.val < state.main.joinedWorkers config.w →
    ¬ (state.workerThreads j).pc.Running

theorem Joined.step (joined : state.Joined) (taken : state.Step after)
    (waited : ∀ j : Fin config.w, state.Moves (.joinWorker (j.val + 1)) →
      after.main = .joinWorker (j.val + 1) → ¬ (state.workerThreads j).pc.Running) :
    after.Joined := by
  unfold Joined at joined ⊢
  cases taken with
  | moves moved =>
      cases moved with
      | @joinWorker i at_ within ended =>
          rw [at_] at joined
          exact Families.prefix_advances (fun worker : Worker => ¬ worker.pc.Running) within joined
            (waited ⟨i, within⟩ (.joinWorker at_ within ended) rfl)
      | workersJoined at_ last =>
          rw [at_] at joined
          intro j _
          exact joined j (Nat.lt_of_lt_of_le j.isLt (Nat.not_lt.mp last))
      | requestsCreated at_ | statsCreated at_ | workersCreated at_ | joinRequest at_
      | requestsJoined at_ | joinQuit at_ | quitsPushed at_ | joinStat at_ | statsJoined at_ =>
          rw [at_] at joined
          exact joined
  | createWorker at_ =>
      intro j impossible
      simp [setMain, Main.joinedWorkers] at impossible
  | @workerPop j _ _ at_ | @workerQuit j at_ | @workerRequest j _ at_ | @workerRead j _ _ _ at_
  | @workerPush j _ _ _ _ at_ | @workerDrop j _ _ at_ =>
      have running : (state.workerThreads j).pc.Running := by
        rw [at_]
        exact ⟨WorkerPc.noConfusion, WorkerPc.noConfusion⟩
      exact Families.prefix_stays (fun worker : Worker => ¬ worker.pc.Running) joined
        fun impossible => absurd running impossible
  | serveWorker =>
      exact Families.prefix_stays (fun worker : Worker => ¬ worker.pc.Running) joined
        fun same => same
  | createRequest at_ | createStat at_ | createWorkerFails at_ | createQuit at_ | kill at_
  | pushQuit at_ =>
      rw [at_] at joined
      exact joined
  | _ => exact joined

/-! ### Joins that no failure lets main skip -/

structure InOrder (state : State config) : Prop extends state.Ordered where
  error_free : state.noError = true
  workers_created : ∀ j, (state.workerThreads j).pc = .notStarted ↔
    state.main.createdWorkers config.w ≤ j.val
  quit_joined : state.main.joinedQuit = true → state.quitThread = .ended
  workers_joined : ∀ j : Fin config.w, j.val < state.main.joinedWorkers config.w →
    (state.workerThreads j).pc = .ended

theorem InOrder.joined (ordered : state.InOrder) : state.Joined :=
  fun j past running => running.2 (ordered.workers_joined j past)

private theorem InOrder.waited (ordered : state.InOrder) (j : Fin config.w)
    (moved : state.Moves (.joinWorker (j.val + 1))) : ¬ (state.workerThreads j).pc.Running := by
  cases moved with
  | joinWorker _ _ ended => exact fun running => running.2 (ended ordered.error_free)

theorem InOrder.joined_step (ordered : state.InOrder) (taken : state.Step after) : after.Joined :=
  ordered.joined.step taken fun j moved _ => ordered.waited j moved

private theorem error_free_step (succeeds : config.failing = none) (ordered : state.InOrder)
    (taken : state.Step after) : after.noError = true := by
  cases taken with
  | createWorkerFails _ _ fails =>
      rw [succeeds] at fails
      cases fails
  | _ => exact ordered.error_free

private theorem workers_created_step (succeeds : config.failing = none) (ordered : state.InOrder)
    (taken : state.Step after) :
    ∀ j, (after.workerThreads j).pc = .notStarted ↔
      after.main.createdWorkers config.w ≤ j.val := by
  have created := ordered.workers_created
  cases taken with
  | moves moved =>
      cases moved with
      | workersCreated at_ last =>
          intro j
          rw [at_] at created
          change (state.workerThreads j).pc = .notStarted ↔ config.w ≤ j.val
          rw [created j]
          simp only [Main.createdWorkers]
          omega
      | statsCreated at_ | requestsCreated at_ | joinRequest at_ | requestsJoined at_
      | joinQuit at_ | joinWorker at_ | workersJoined at_ | quitsPushed at_ | joinStat at_
      | statsJoined at_ =>
          rw [at_] at created
          exact created
  | createWorker at_ within =>
      rw [at_] at created
      exact Families.border_advances (fun worker : Worker => worker.pc = .notStarted) within
        created WorkerPc.noConfusion
  | createWorkerFails _ _ fails =>
      rw [succeeds] at fails
      cases fails
  | @workerPop j _ _ at_ | @workerQuit j at_ | @workerRequest j _ at_ | @workerRead j _ _ _ at_
  | @workerPush j _ _ _ _ at_ | @workerDrop j _ _ at_ =>
      have present : (state.workerThreads j).pc ≠ .notStarted := by
        rw [at_]
        exact WorkerPc.noConfusion
      exact Families.border_stays (fun worker : Worker => worker.pc = .notStarted) created
        (iff_of_false WorkerPc.noConfusion present)
  | serveWorker =>
      exact Families.border_stays (fun worker : Worker => worker.pc = .notStarted) created Iff.rfl
  | createRequest at_ | createStat at_ | createQuit at_ | kill at_ | pushQuit at_ =>
      rw [at_] at created
      exact created
  | _ => exact created

private theorem quit_joined_step (ordered : state.InOrder) (taken : state.Step after) :
    after.main.joinedQuit = true → after.quitThread = .ended := by
  have joined := ordered.quit_joined
  cases taken with
  | moves moved =>
      cases moved with
      | joinQuit _ ended => exact fun _ => ended ordered.error_free
      | requestsCreated at_ | statsCreated at_ | workersCreated at_ | joinRequest at_
      | requestsJoined at_ | joinWorker at_ | workersJoined at_ | quitsPushed at_ | joinStat at_
      | statsJoined at_ =>
          rw [at_] at joined
          exact joined
  | createQuit => exact Bool.noConfusion
  | quit at_ =>
      intro later
      rw [joined later] at at_
      cases at_
  | quitEnds => exact fun _ => rfl
  | createRequest at_ | createStat at_ | createWorker at_ | createWorkerFails at_ | kill at_
  | pushQuit at_ =>
      rw [at_] at joined
      exact joined
  | _ => exact joined

private theorem workers_joined_step (joined : after.Joined)
    (created : ∀ j, (after.workerThreads j).pc = .notStarted ↔
      after.main.createdWorkers config.w ≤ j.val) :
    ∀ j : Fin config.w, j.val < after.main.joinedWorkers config.w →
      (after.workerThreads j).pc = .ended := by
  intro j past
  by_contra active
  apply joined j past
  refine ⟨?_, active⟩
  rw [Ne, created j, Main.createdWorkers_of_joinedWorkers past]
  exact Nat.not_le.mpr j.isLt

theorem InOrder.step (succeeds : config.failing = none) (ordered : state.InOrder)
    (taken : state.Step after) : after.InOrder where
  toOrdered := ordered.toOrdered.step taken
  error_free := error_free_step succeeds ordered taken
  workers_created := workers_created_step succeeds ordered taken
  quit_joined := quit_joined_step ordered taken
  workers_joined := workers_joined_step (ordered.joined_step taken)
    (workers_created_step succeeds ordered taken)

theorem ordered_initial (memory : Option (Fin config.w) → List Char) :
    (initial config memory).Ordered where
  requests_created := fun _ => iff_of_true rfl (Nat.zero_le _)
  stats_created := fun _ => iff_of_true rfl (Nat.zero_le _)
  workers_uncreated := fun _ _ => rfl
  quit_created := iff_of_true rfl rfl
  requests_joined := fun _ impossible => absurd impossible (Nat.not_lt_zero _)
  stats_joined := fun _ impossible => absurd impossible (Nat.not_lt_zero _)

theorem inOrder_initial (memory : Option (Fin config.w) → List Char) :
    (initial config memory).InOrder where
  toOrdered := ordered_initial memory
  error_free := rfl
  workers_created := fun _ => iff_of_true rfl (Nat.zero_le _)
  quit_joined := Bool.noConfusion
  workers_joined := fun _ impossible => absurd impossible (Nat.not_lt_zero _)

theorem inOrder_of_reachable (succeeds : config.failing = none)
    (reached : (client config).Reachable state) : state.InOrder := by
  apply reached.invariant
  · intro begun initial
    obtain ⟨memory, rfl⟩ := initial
    exact inOrder_initial memory
  · intro before label later _ ordered taken
    exact ordered.step succeeds (next_step taken)

end State

end Netwurk.Client
