/-
The client and its server come to an end. Whoever waits waits for somebody who
can move: the request threads for the workers, the workers for their server
threads and the stat threads, main for the thread it joins.
-/

import Netwurk.Client.Shutdown

namespace Netwurk.Client

open Transition RequestChannel

/-! ### A measure of the work that is left -/

/-- A string to be pushed into the request buffer costs 9, and one less at each
place it passes; main pays for the threads it creates. -/
def Main.cost (config : Config) : Main → Nat
  | createRequest i => (3 - i) * (9 * config.n + 2) + 11 * config.w + 35
  | createStat i => (3 - i) + 11 * config.w + 31
  | createWorker i => (config.w - i) + 10 * config.w + 30
  | joinRequest i => (3 - i) + 10 * config.w + 26
  | createQuit => 10 * config.w + 25
  | joinQuit => config.w + 23
  | joinWorker i => (config.w - i) + 22
  | kill => 21
  | pushQuit i => 3 * (3 - i) + 5
  | joinStat i => (3 - i) + 1
  | finished => 0

def Pusher.cost (total : Nat) : Pusher → Nat
  | .looping i => 9 * (total - i) + 1
  | _ => 0

def WorkerPc.cost : WorkerPc → Nat
  | .holding _ => 7
  | .pushing _ _ => 3
  | _ => 0

def StatPc.cost : StatPc → Nat
  | .updating _ => 1
  | _ => 0

def statusCost : Status → Nat
  | .dispatching => 5
  | _ => 0

def linkCost (link : Link) : Nat :=
  6 * link.toServer.length + statusCost link.session.status + 4 * link.toClient.length

def Worker.cost (worker : Worker) : Nat := worker.pc.cost + linkCost worker.reqChan

namespace State

variable {config : Config} {state after : State config}

def measure (state : State config) : Nat :=
  state.main.cost config + (∑ i, (state.patientsThread i).cost config.n) +
    state.quitThread.cost config.w + 8 * state.requestBuffer.items.length +
    (∑ j, (state.workerThreads j).cost) + linkCost state.chan +
    (∑ patient, 2 * (state.rBuff patient).items.length) +
    (∑ i, (state.patientsStatThread i).pc.cost) + (!state.crashed).toNat

private theorem linkCost_cwrite (link : Link) (msg : String) :
    linkCost (link.cwrite msg) = linkCost link + 6 := by
  simp only [linkCost, Link.cwrite, List.length_append, List.length_singleton]
  omega

private theorem linkCost_cread {link later : Link} {reply : String}
    (taken : link.cread = some (reply, later)) : linkCost later + 4 = linkCost link := by
  unfold Link.cread at taken
  split at taken
  · cases taken
  · rename_i present
    cases taken
    simp only [linkCost, present, List.length_cons]
    omega

private theorem linkCost_served {answers : String → Bool} {link later : Link}
    (served : Served answers link later) : linkCost later < linkCost link := by
  cases served with
  | recv taken =>
      unfold Link.recv at taken
      split at taken
      · rename_i receiving present
        cases taken
        simp only [linkCost, receiving, present, Session.recv, statusCost, List.length_cons]
        omega
      · cases taken
  | act _ taken =>
      unfold Link.act at taken
      split at taken
      · rename_i dispatching
        unfold Session.answer at taken
        cases kind : dispatch link.session.buf with
        | exit | close | data | unknown =>
            simp only [kind] at taken
            cases taken
            simp only [linkCost, dispatching, statusCost, List.length_append,
              List.length_singleton]
            omega
      · cases taken

private theorem moves_cost {main : Main} (moved : state.Moves main) :
    main.cost config < state.main.cost config := by
  cases moved with
  | requestsCreated at_ last | statsCreated at_ last | workersCreated at_ last
  | joinRequest at_ last | requestsJoined at_ last | joinWorker at_ last | workersJoined at_ last
  | quitsPushed at_ last | joinStat at_ last | statsJoined at_ last =>
      rw [at_]
      simp only [Main.cost]
      omega
  | joinQuit at_ =>
      rw [at_]
      simp only [Main.cost]
      omega

private theorem measure_setMain (state : State config) (main : Main) :
    (state.setMain main).measure + state.main.cost config =
      state.measure + main.cost config := by
  simp only [measure, setMain]
  omega

private theorem measure_setRequest (state : State config) (i : Fin 3) (thread : Pusher) :
    (state.setRequest i thread).measure + (state.patientsThread i).cost config.n =
      state.measure + thread.cost config.n := by
  have total := Families.sum_update_add (fun _ (thread : Pusher) => thread.cost config.n)
    state.patientsThread i thread
  simp only [measure, setRequest]
  omega

private theorem measure_setWorker (state : State config) (j : Fin config.w) (worker : Worker) :
    (state.setWorker j worker).measure + (state.workerThreads j).cost =
      state.measure + worker.cost := by
  have total := Families.sum_update_add (fun _ (worker : Worker) => worker.cost)
    state.workerThreads j worker
  simp only [measure, setWorker]
  omega

private theorem measure_setStat (state : State config) (i : Fin 3) (thread : StatThread) :
    (state.setStat i thread).measure + (state.patientsStatThread i).pc.cost =
      state.measure + thread.pc.cost := by
  have total := Families.sum_update_add (fun _ (thread : StatThread) => thread.pc.cost)
    state.patientsStatThread i thread
  simp only [measure, setStat]
  omega

private theorem measure_setBuff (state : State config) (patient : Patient)
    (buff : TracedQueue String (config.b / 3)) :
    (state.setBuff patient buff).measure + 2 * (state.rBuff patient).items.length =
      state.measure + 2 * buff.items.length := by
  have total := Families.sum_update_add
    (fun _ (buff : TracedQueue String (config.b / 3)) => 2 * buff.items.length)
    state.rBuff patient buff
  simp only [measure, setBuff]
  omega

private theorem measure_requestBuffer (state : State config) (buff : TracedQueue String config.b) :
    measure { state with requestBuffer := buff } + 8 * state.requestBuffer.items.length =
      state.measure + 8 * buff.items.length := by
  simp only [measure]
  omega

private theorem measure_quitThread (state : State config) (thread : Pusher) :
    measure { state with quitThread := thread } + state.quitThread.cost config.w =
      state.measure + thread.cost config.w := by
  simp only [measure]
  omega

private theorem measure_chan (state : State config) (link : Link) :
    measure { state with chan := link } + linkCost state.chan =
      state.measure + linkCost link := by
  simp only [measure]
  omega

private theorem measure_crashed (state : State config) (running : state.crashed = false) :
    measure { state with crashed := true } < state.measure := by
  simp [measure, running]

private theorem less_of_change {before after old new : Nat} (change : after + old = before + new)
    (less : new < old) : after < before := by
  omega

private theorem less_of_changes {before middle after old new older newer : Nat}
    (second : after + old = middle + new) (first : middle + older = before + newer)
    (less : new + newer < old + older) : after < before := by
  omega

private theorem pushed_length {capacity : Nat} {queue buff : TracedQueue String capacity}
    {item : String} (pushed : queue.push? item = some buff) :
    buff.items.length = queue.items.length + 1 := by
  rw [(TracedQueue.push?_spec pushed).2.2, List.length_append, List.length_singleton]

private theorem popped_length {capacity : Nat} {queue buff : TracedQueue String capacity}
    {item : String} (popped : queue.pop? = some (item, buff)) :
    queue.items.length = buff.items.length + 1 := by
  rw [(TracedQueue.pop?_spec popped).2.2, List.length_cons]

theorem Step.measure_less (taken : state.Step after) : after.measure < state.measure := by
  cases taken with
  | @moves main moved => exact less_of_change (measure_setMain state main) (moves_cost moved)
  | @createRequest i at_ within =>
      apply less_of_changes (measure_setMain _ _) (measure_setRequest state _ _)
      have next : 3 - i = 3 - (i + 1) + 1 := by omega
      simp only [setRequest, at_, Main.cost, Pusher.cost, next, Nat.succ_mul]
      omega
  | @createStat i at_ within =>
      apply less_of_changes (measure_setMain _ _) (measure_setStat state _ _)
      simp only [setStat, at_, Main.cost, StatPc.cost]
      omega
  | @createWorker i at_ within =>
      apply less_of_changes (measure_setMain _ _) (measure_setWorker state _ _)
      simp only [setWorker, at_, Main.cost, Worker.cost, WorkerPc.cost]
      omega
  | @createWorkerFails i at_ within =>
      apply less_of_change (measure_setMain { state with noError := false } _)
      simp only [at_, Main.cost]
      omega
  | createQuit at_ =>
      apply less_of_changes (measure_setMain { state with quitThread := .looping 0 } _)
        (measure_quitThread state _)
      simp only [at_, Main.cost, Pusher.cost]
      omega
  | kill at_ =>
      apply less_of_changes (measure_setMain { state with chan := state.chan.cwrite "!!" } _)
        (measure_chan state _)
      simp only [at_, Main.cost, linkCost_cwrite]
      omega
  | @pushQuit i buff at_ within pushed =>
      apply less_of_changes (measure_setMain _ _) (measure_setBuff state _ buff)
      have length := pushed_length pushed
      simp only [setBuff, at_, Main.cost]
      omega
  | @request i k buff at_ more pushed =>
      apply less_of_changes (measure_requestBuffer (state.setRequest i (.looping (k + 1))) buff)
        (measure_setRequest state _ _)
      have length := pushed_length pushed
      simp only [setRequest, at_, Pusher.cost]
      omega
  | @requestEnds i k at_ =>
      apply less_of_change (measure_setRequest state _ _)
      simp only [at_, Pusher.cost]
      omega
  | @quit k buff at_ more pushed =>
      apply less_of_changes
        (measure_requestBuffer { state with quitThread := .looping (k + 1) } buff)
        (measure_quitThread state _)
      have length := pushed_length pushed
      simp only [at_, Pusher.cost]
      omega
  | quitEnds at_ =>
      apply less_of_change (measure_quitThread state _)
      simp only [at_, Pusher.cost]
      omega
  | @workerPop j request buff at_ popped =>
      apply less_of_changes (measure_requestBuffer (state.setWorker j _) buff)
        (measure_setWorker state j _)
      have length := popped_length popped
      simp only [setWorker, Worker.cost, at_, WorkerPc.cost]
      omega
  | workerQuit at_ | workerRequest at_ =>
      apply less_of_change (measure_setWorker state _ _)
      simp only [Worker.cost, at_, WorkerPc.cost, linkCost_cwrite]
      omega
  | workerRead at_ read =>
      apply less_of_change (measure_setWorker state _ _)
      have cheaper := linkCost_cread read
      simp only [Worker.cost, at_, WorkerPc.cost]
      omega
  | workerCrash running => exact measure_crashed state running
  | @workerPush j request response patient buff at_ chosen pushed =>
      apply less_of_changes (measure_setWorker (state.setBuff patient buff) j _)
        (measure_setBuff state _ buff)
      have length := pushed_length pushed
      simp only [setBuff, Worker.cost, at_, WorkerPc.cost]
      omega
  | workerDrop at_ =>
      apply less_of_change (measure_setWorker state _ _)
      simp only [Worker.cost, at_, WorkerPc.cost]
      omega
  | @serveWorker j link _ served =>
      apply less_of_change (measure_setWorker state j { state.workerThreads j with reqChan := link })
      have cheaper := linkCost_served served
      simp only [Worker.cost]
      omega
  | @serveControl link _ served =>
      exact less_of_change (measure_chan state link) (linkCost_served served)
  | @statPop i response buff at_ popped | @statQuit i buff at_ popped =>
      apply less_of_changes (measure_setStat (state.setBuff (patsBuffs i) buff) i _)
        (measure_setBuff state _ buff)
      have length := popped_length popped
      simp only [setBuff, at_, StatPc.cost]
      omega
  | @statUpdate i response hist at_ =>
      apply less_of_change (measure_setStat state i ⟨.popping, _⟩)
      simp only [at_, StatPc.cost]
      omega
  | statCrash running => exact measure_crashed state running

/-! ### Who can move -/

/-- What every state satisfies as long as main has not come past the join of a
running worker and the server answers with decimals. -/
structure Steady (state : State config) : Prop where
  sound : state.Sound
  joined : state.Joined
  closed : state.StatsClosed
  controlled : state.Controlled
  alive : state.Alive

theorem Steady.step (replies : ∀ reply, config.answers reply = true → Reply reply)
    (steady : state.Steady) (taken : state.Step after) (joined : after.Joined) :
    after.Steady where
  sound := steady.sound.step taken
  joined := joined
  closed := steady.closed.step (honest_of_reply replies) steady.joined steady.sound.accounted taken
  controlled := steady.controlled.step steady.sound.accounted taken
  alive := steady.alive.step replies steady.joined steady.sound steady.controlled taken

/-- What every state of a client satisfies whose creations succeed and whose
server answers with decimals. -/
structure Healthy (state : State config) : Prop where
  ordered : state.InOrder
  sound : state.Sound
  closed : state.StatsClosed
  controlled : state.Controlled
  alive : state.Alive

theorem Healthy.steady (healthy : state.Healthy) : state.Steady where
  sound := healthy.sound
  joined := healthy.ordered.joined
  closed := healthy.closed
  controlled := healthy.controlled
  alive := healthy.alive

theorem Healthy.step (succeeds : config.failing = none)
    (replies : ∀ reply, config.answers reply = true → Reply reply) (healthy : state.Healthy)
    (taken : state.Step after) : after.Healthy :=
  have steady := healthy.steady.step replies taken (healthy.ordered.joined_step taken)
  { ordered := healthy.ordered.step succeeds taken
    sound := steady.sound
    closed := steady.closed
    controlled := steady.controlled
    alive := steady.alive }

theorem healthy_initial (memory : Option (Fin config.w) → List Char) :
    (initial config memory).Healthy where
  ordered := inOrder_initial memory
  sound := sound_initial memory
  closed := fun _ => .nil "quit"
  controlled := ⟨Link.at_opened _, Bool.noConfusion⟩
  alive := ⟨rfl, rfl⟩

theorem healthy_of_reachable (succeeds : config.failing = none)
    (replies : ∀ reply, config.answers reply = true → Reply reply)
    (reached : (client config).Reachable state) : state.Healthy := by
  apply reached.invariant
  · intro begun initial
    obtain ⟨memory, rfl⟩ := initial
    exact healthy_initial memory
  · intro before label later _ healthy taken
    exact healthy.step succeeds replies (next_step taken)

def CanMove (state : State config) : Prop := ∃ label after, state.next label = some after

private theorem canMove_worker (steady : state.Steady) {j : Fin config.w}
    (moves : ∃ after, state.workerThreadFunction j = some after) : state.CanMove := by
  obtain ⟨after, taken⟩ := moves
  refine ⟨.worker j, after, ?_⟩
  unfold next
  rw [steady.alive.running]
  exact taken

private theorem canMove_stat (steady : state.Steady) {i : Fin 3}
    (moves : ∃ after, state.statThreadFunction i = some after) : state.CanMove := by
  obtain ⟨after, taken⟩ := moves
  refine ⟨.stat i, after, ?_⟩
  unfold next
  rw [steady.alive.running]
  exact taken

private theorem canMove_main (steady : state.Steady)
    (moves : ∃ after, state.mainThread = some after) : state.CanMove := by
  obtain ⟨after, taken⟩ := moves
  refine ⟨.main, after, ?_⟩
  unfold next
  rw [steady.alive.running]
  exact taken

theorem Steady.stat_open (steady : state.Steady) {i : Fin 3}
    (early : state.main.pushedQuits ≤ i.val) : (state.patientsStatThread i).pc ≠ .ended := by
  intro ended
  have form := steady.closed i
  rw [if_neg (Nat.not_lt.mpr early)] at form
  have taken := (steady.sound.last.stats i).sealed
  rw [if_pos ended] at taken
  have member : "quit" ∈ (state.rBuff (patsBuffs i)).popped :=
    List.count_pos_iff.mp (by rw [taken.count]; exact Nat.one_pos)
  exact form.data_of_zero (TracedQueue.mem_pushed_of_mem_popped member)

theorem Steady.stat_moves (steady : state.Steady) {i : Fin 3}
    (present : (state.rBuff (patsBuffs i)).items ≠ [])
    (started : (state.patientsStatThread i).pc ≠ .notStarted)
    (goes_on : (state.patientsStatThread i).pc ≠ .ended) : state.CanMove := by
  cases at_ : (state.patientsStatThread i).pc with
  | notStarted => exact absurd at_ started
  | ended => exact absurd at_ goes_on
  | popping =>
      obtain ⟨response, buff, popped⟩ := TracedQueue.exists_pop? present
      have moves : ∃ after, state.statThreadFunction i = some after := by
        unfold statThreadFunction
        simp only [at_, popped]
        split <;> exact ⟨_, rfl⟩
      exact canMove_stat steady moves
  | updating response =>
      have moves : ∃ after, state.statThreadFunction i = some after := by
        unfold statThreadFunction
        simp only [at_]
        split <;> exact ⟨_, rfl⟩
      exact canMove_stat steady moves

theorem Steady.stat_moves_of_full (buffers : 3 ≤ config.b) (steady : state.Steady) {i : Fin 3}
    (full : ¬ (state.rBuff (patsBuffs i)).items.length < config.b / 3)
    (started : (state.patientsStatThread i).pc ≠ .notStarted)
    (early : state.main.pushedQuits ≤ i.val) : state.CanMove := by
  have present : (state.rBuff (patsBuffs i)).items ≠ [] := by
    intro absent
    rw [absent, List.length_nil] at full
    omega
  exact steady.stat_moves present started (steady.stat_open early)

private theorem createdStats_of_started {main : Main} {w j : Nat}
    (created : j < main.createdWorkers w) : main.createdStats = 3 := by
  cases main with
  | createRequest | createStat => cases created
  | _ => rfl

theorem Steady.stats_started (steady : state.Steady) {j : Fin config.w}
    (started : (state.workerThreads j).pc ≠ .notStarted) (i : Fin 3) :
    (state.patientsStatThread i).pc ≠ .notStarted := by
  intro absent
  have created : j.val < state.main.createdWorkers config.w := by
    by_contra uncreated
    exact started (steady.sound.ordered.workers_uncreated j (Nat.not_lt.mp uncreated))
  have stats := (steady.sound.ordered.stats_created i).mp absent
  rw [createdStats_of_started created] at stats
  exact absurd stats (Nat.not_le.mpr i.isLt)

private theorem reading_moves (answer : ∃ trach, config.answers trach = true)
    (steady : state.Steady) {j : Fin config.w} {request : String}
    (at_ : (state.workerThreads j).pc = .reading request) : state.CanMove := by
  have running := steady.controlled.running steady.joined (WorkerPc.running_of_reading at_)
  obtain ⟨trach, answers⟩ := answer
  have phase : ∃ done, (state.workerThreads j).reqChan.At config.Permits done
      (.waiting request) := by
    have valid := steady.sound.accounted.valid j
    generalize state.workerThreads j = worker at valid at_
    cases valid with
    | reading _ phase =>
        cases at_
        exact ⟨_, phase⟩
    | _ => cases at_
  obtain ⟨done, phase⟩ := phase
  rcases phase.waiting_moves trach with ⟨link, taken⟩ | ⟨link, taken⟩ | ⟨reply, link, taken⟩
  · refine ⟨.recv (some j), state.serve (some j) link, ?_⟩
    simp only [next, steady.alive.running, running, State.link, taken]
    rfl
  · refine ⟨.act (some j) trach, state.serve (some j) link, ?_⟩
    simp only [next, steady.alive.running, running, answers, State.link, taken]
    rfl
  · have moves : ∃ after, state.workerThreadFunction j = some after := by
      unfold workerThreadFunction
      simp only [at_, taken]
      exact ⟨_, rfl⟩
    exact canMove_worker steady moves

theorem Steady.worker_moves (buffers : 3 ≤ config.b)
    (answer : ∃ trach, config.answers trach = true) (steady : state.Steady) {j : Fin config.w}
    (running : (state.workerThreads j).pc.Running)
    (work : (state.workerThreads j).pc = .popping → state.requestBuffer.items ≠ []) :
    state.CanMove := by
  cases at_ : (state.workerThreads j).pc with
  | notStarted => exact absurd at_ running.1
  | ended => exact absurd at_ running.2
  | popping =>
      obtain ⟨request, buff, popped⟩ := TracedQueue.exists_pop? (work at_)
      have moves : ∃ after, state.workerThreadFunction j = some after := by
        unfold workerThreadFunction
        simp only [at_, popped]
        exact ⟨_, rfl⟩
      exact canMove_worker steady moves
  | holding request =>
      have moves : ∃ after, state.workerThreadFunction j = some after := by
        unfold workerThreadFunction
        simp only [at_]
        split <;> exact ⟨_, rfl⟩
      exact canMove_worker steady moves
  | reading request => exact reading_moves answer steady at_
  | pushing request response =>
      obtain ⟨patient, rfl⟩ := (steady.sound.accounted.valid j).known at_
      obtain ⟨i, rfl⟩ := exists_patsBuffs patient
      by_cases room : (state.rBuff (patsBuffs i)).items.length < config.b / 3
      · obtain ⟨buff, pushed⟩ := TracedQueue.exists_push? response room
        have moves : ∃ after, state.workerThreadFunction j = some after := by
          unfold workerThreadFunction
          simp only [at_, bufferFor_key, pushed]
          exact ⟨_, rfl⟩
        exact canMove_worker steady moves
      · apply steady.stat_moves_of_full buffers room (steady.stats_started running.1 i)
        rw [steady.joined.no_quits_pushed running]
        exact Nat.zero_le _

theorem Healthy.running_worker (healthy : state.Healthy) (positive : 0 < config.w)
    (created : state.main.createdWorkers config.w = config.w)
    (missing : state.quitThread.progress config.w < config.w) :
    ∃ j, (state.workerThreads j).pc.Running := by
  by_contra none_running
  have ended : ∀ j, (state.workerThreads j).pc = .ended := by
    intro j
    by_contra active
    apply none_running
    refine ⟨j, ?_, active⟩
    rw [Ne, healthy.ordered.workers_created j, created]
    exact Nat.not_le.mpr j.isLt
  have all := (healthy.sound.drained_of_ended positive ended).1
  omega

private theorem moves_of_full (buffers : 3 ≤ config.b)
    (answer : ∃ trach, config.answers trach = true) (steady : state.Steady)
    (helped : ∃ j, (state.workerThreads j).pc.Running)
    (full : ¬ state.requestBuffer.items.length < config.b) : state.CanMove := by
  obtain ⟨j, running⟩ := helped
  apply steady.worker_moves buffers answer running
  intro _ absent
  rw [absent, List.length_nil] at full
  omega

private theorem request_moves (buffers : 3 ≤ config.b)
    (answer : ∃ trach, config.answers trach = true) (steady : state.Steady) {i : Fin 3}
    (helped : ∃ j, (state.workerThreads j).pc.Running)
    (started : state.patientsThread i ≠ .notStarted)
    (active : state.patientsThread i ≠ .ended) : state.CanMove := by
  cases at_ : state.patientsThread i with
  | notStarted => exact absurd at_ started
  | ended => exact absurd at_ active
  | looping k =>
      by_cases blocked : k < config.n ∧ ¬ state.requestBuffer.items.length < config.b
      · exact moves_of_full buffers answer steady helped blocked.2
      · have moves : ∃ after, state.requestThreadFunction i = some after := by
          unfold requestThreadFunction
          simp only [at_]
          split
          · rename_i more
            have room : state.requestBuffer.items.length < config.b := by
              by_contra full
              exact blocked ⟨more, full⟩
            obtain ⟨buff, pushed⟩ := TracedQueue.exists_push? (requestFor i) room
            simp only [pushed]
            exact ⟨_, rfl⟩
          · exact ⟨_, rfl⟩
        obtain ⟨after, taken⟩ := moves
        refine ⟨.request i, after, ?_⟩
        unfold next
        rw [steady.alive.running]
        exact taken

/-- As long as main has not created the quit thread somebody can move, if there is
a running worker while main joins the request threads. -/
theorem Steady.early_progress (buffers : 3 ≤ config.b)
    (answer : ∃ trach, config.answers trach = true) (steady : state.Steady)
    (early : state.main.createdQuit = false)
    (helped : ∀ i, state.main = .joinRequest i → ∃ j, (state.workerThreads j).pc.Running) :
    state.CanMove := by
  cases at_ : state.main with
  | createRequest i | createStat i | createWorker i | createQuit =>
      apply canMove_main steady
      unfold mainThread
      simp only [at_]
      repeat' split
      all_goals exact ⟨_, rfl⟩
  | joinRequest i =>
      by_cases waits : ∃ within : i < 3, state.patientsThread ⟨i, within⟩ ≠ .ended
      · obtain ⟨within, active⟩ := waits
        apply request_moves buffers answer steady (helped i at_) _ active
        rw [Ne, steady.sound.ordered.requests_created, at_]
        exact Nat.not_le.mpr within
      · apply canMove_main steady
        unfold mainThread
        simp only [at_]
        split
        · rename_i within
          have ended : state.patientsThread ⟨i, within⟩ = .ended := by
            by_contra active
            exact waits ⟨within, active⟩
          rw [if_pos ended]
          exact ⟨_, rfl⟩
        · exact ⟨_, rfl⟩
  | joinQuit | joinWorker i | kill | pushQuit i | joinStat i | finished =>
      rw [at_] at early
      cases early

private theorem quit_moves (buffers : 3 ≤ config.b) (positive : 1 ≤ config.w)
    (answer : ∃ trach, config.answers trach = true) (healthy : state.Healthy)
    (created : state.main.createdWorkers config.w = config.w)
    (started : state.quitThread ≠ .notStarted) (active : state.quitThread ≠ .ended) :
    state.CanMove := by
  cases at_ : state.quitThread with
  | notStarted => exact absurd at_ started
  | ended => exact absurd at_ active
  | looping k =>
      by_cases blocked : k < config.w ∧ ¬ state.requestBuffer.items.length < config.b
      · have helped := healthy.running_worker positive created (by rw [at_]; exact blocked.1)
        exact moves_of_full buffers answer healthy.steady helped blocked.2
      · have moves : ∃ after, state.requestQuits = some after := by
          unfold requestQuits
          simp only [at_]
          split
          · rename_i more
            have room : state.requestBuffer.items.length < config.b := by
              by_contra full
              exact blocked ⟨more, full⟩
            obtain ⟨buff, pushed⟩ := TracedQueue.exists_push? "quit" room
            simp only [pushed]
            exact ⟨_, rfl⟩
          · exact ⟨_, rfl⟩
        obtain ⟨after, taken⟩ := moves
        refine ⟨.quits, after, ?_⟩
        unfold next
        rw [healthy.alive.running]
        exact taken

theorem Healthy.work_of_quits (healthy : state.Healthy) (ended : state.quitThread = .ended)
    {j : Fin config.w} (at_ : (state.workerThreads j).pc = .popping) :
    state.requestBuffer.items ≠ [] := by
  intro absent
  have pushed := healthy.sound.quits_pushed
  have popped := healthy.sound.quits_popped
  rw [TracedQueue.count_pushed, absent, ended] at pushed
  have fewer : (∑ other, if (state.workerThreads other).pc = .ended ∨
      (state.workerThreads other).pc = .holding "quit" then 1 else 0) <
        ∑ _other : Fin config.w, 1 := by
    apply Finset.sum_lt_sum
    · intro other _
      split <;> decide
    · exact ⟨j, Finset.mem_univ j, by simp [at_]⟩
  have workers : ∑ _other : Fin config.w, 1 = config.w :=
    (Finset.card_eq_sum_ones _).symm.trans (Finset.card_fin config.w)
  rw [← popped, workers] at fewer
  simp only [List.count_nil, Pusher.progress] at pushed
  omega

theorem Healthy.joined_worker_moves (buffers : 3 ≤ config.b)
    (answer : ∃ trach, config.answers trach = true) (healthy : state.Healthy)
    (quits : state.quitThread = .ended) {j : Fin config.w}
    (started : (state.workerThreads j).pc ≠ .notStarted)
    (active : (state.workerThreads j).pc ≠ .ended) : state.CanMove :=
  healthy.steady.worker_moves buffers answer ⟨started, active⟩ fun at_ =>
    healthy.work_of_quits quits at_

/-- After its quit has been pushed a stat thread goes on until it has taken it. -/
private theorem closed_stat_moves (healthy : state.Healthy) {i : Fin 3}
    (closed : i.val < state.main.pushedQuits)
    (started : (state.patientsStatThread i).pc ≠ .notStarted)
    (active : (state.patientsStatThread i).pc ≠ .ended) : state.CanMove := by
  by_cases present : (state.rBuff (patsBuffs i)).items = []
  · have form := healthy.closed i
    rw [if_pos closed] at form
    have taken := (healthy.sound.last.stats i).sealed
    rw [if_neg active] at taken
    have total := (state.rBuff (patsBuffs i)).count_pushed "quit"
    rw [form.count, taken.count, present] at total
    cases total
  · exact healthy.steady.stat_moves present started active

theorem Healthy.progress (buffers : 3 ≤ config.b) (positive : 1 ≤ config.w)
    (answer : ∃ trach, config.answers trach = true) (healthy : state.Healthy)
    (unfinished : state.main ≠ .finished) : state.CanMove := by
  have ordered := healthy.ordered
  have stats (created : state.main.createdStats = 3) (i : Fin 3) :
      (state.patientsStatThread i).pc ≠ .notStarted := by
    rw [Ne, ordered.stats_created i, created]
    exact Nat.not_le.mpr i.isLt
  cases at_ : state.main with
  | createRequest i | createStat i | createWorker i | joinRequest i | createQuit =>
      apply healthy.steady.early_progress buffers answer (by rw [at_]; rfl)
      intro i' joins
      apply healthy.running_worker positive (by rw [joins]; rfl)
      rw [ordered.quit_created.mpr (by rw [joins]; rfl)]
      exact positive
  | kill =>
      apply canMove_main healthy.steady
      unfold mainThread
      simp only [at_]
      exact ⟨_, rfl⟩
  | joinQuit =>
      by_cases ended : state.quitThread = .ended
      · apply canMove_main healthy.steady
        unfold mainThread
        simp only [at_]
        rw [if_pos fun _ => ended]
        exact ⟨_, rfl⟩
      · apply quit_moves buffers positive answer healthy (by rw [at_]; rfl) _ ended
        rw [Ne, ordered.quit_created, at_]
        exact Bool.noConfusion
  | joinWorker i =>
      by_cases waits : ∃ within : i < config.w, (state.workerThreads ⟨i, within⟩).pc ≠ .ended
      · obtain ⟨within, active⟩ := waits
        have started : (state.workerThreads ⟨i, within⟩).pc ≠ .notStarted := by
          rw [Ne, ordered.workers_created, at_]
          exact Nat.not_le.mpr within
        have quits := ordered.quit_joined (by rw [at_]; rfl)
        exact healthy.joined_worker_moves buffers answer quits started active
      · apply canMove_main healthy.steady
        unfold mainThread
        simp only [at_]
        split
        · rename_i within
          have ended : (state.workerThreads ⟨i, within⟩).pc = .ended := by
            by_contra active
            exact waits ⟨within, active⟩
          rw [if_pos fun _ => ended]
          exact ⟨_, rfl⟩
        · exact ⟨_, rfl⟩
  | pushQuit i =>
      by_cases full : ∃ within : i < 3,
          ¬ (state.rBuff (patsBuffs ⟨i, within⟩)).items.length < config.b / 3
      · obtain ⟨within, full⟩ := full
        apply healthy.steady.stat_moves_of_full buffers full (stats (by rw [at_]; rfl) _)
        rw [at_]
        exact Nat.le_refl i
      · apply canMove_main healthy.steady
        unfold mainThread
        simp only [at_]
        split
        · rename_i within
          have room : (state.rBuff (patsBuffs ⟨i, within⟩)).items.length < config.b / 3 := by
            by_contra blocked
            exact full ⟨within, blocked⟩
          obtain ⟨buff, pushed⟩ := TracedQueue.exists_push? "quit" room
          simp only [pushed]
          exact ⟨_, rfl⟩
        · exact ⟨_, rfl⟩
  | joinStat i =>
      by_cases waits : ∃ within : i < 3, (state.patientsStatThread ⟨i, within⟩).pc ≠ .ended
      · obtain ⟨within, active⟩ := waits
        apply closed_stat_moves healthy _ (stats (by rw [at_]; rfl) ⟨i, within⟩) active
        rw [at_]
        exact within
      · apply canMove_main healthy.steady
        unfold mainThread
        simp only [at_]
        split
        · rename_i within
          have ended : (state.patientsStatThread ⟨i, within⟩).pc = .ended := by
            by_contra active
            exact waits ⟨within, active⟩
          rw [if_pos ended]
          exact ⟨_, rfl⟩
        · exact ⟨_, rfl⟩
  | finished => exact absurd at_ unfinished

theorem Healthy.served (healthy : state.Healthy) {j : Fin config.w} {request : String}
    (at_ : (state.workerThreads j).pc = .reading request) :
    state.exited = false ∧
      ((state.workerThreads j).reqChan.session.status = .receiving ∨
        (state.workerThreads j).reqChan.session.status = .dispatching) := by
  constructor
  · exact healthy.controlled.running healthy.ordered.joined (WorkerPc.running_of_reading at_)
  · have valid := healthy.sound.accounted.valid j
    generalize state.workerThreads j = worker at valid at_
    cases valid with
    | reading _ phase => exact phase.serving
    | _ => cases at_

end State

theorem exists_serverReply : ∃ trach, serverReplies trach = true :=
  ⟨String.ofList (to_string 0), serverReplies_iff.mpr ⟨0, by decide, rfl⟩⟩

variable {config : Config}

theorem runs_to_completion (succeeds : config.failing = none)
    (server : config.answers = serverReplies) (workers : 1 ≤ config.w) (buffers : 3 ≤ config.b) :
    (∀ state, (client config).Reachable state → state.main ≠ .finished →
      (client config).Enabled state) ∧
    (∀ state label after, (client config).next state label = some after →
      after.measure < state.measure) ∧
    (∀ states : Nat → State config, ¬ ∀ time, ∃ label,
      (client config).next (states time) label = some (states (time + 1))) ∧
    ∀ state, (client config).Reachable state → ∀ (j : Fin config.w) (request : String),
      (state.workerThreads j).pc = .reading request →
        state.exited = false ∧
          ((state.workerThreads j).reqChan.session.status = .receiving ∨
            (state.workerThreads j).reqChan.session.status = .dispatching) := by
  have replies : ∀ reply, config.answers reply = true → Reply reply := by
    rw [server]
    exact fun _ => serverReplies_iff.mp
  have answer : ∃ trach, config.answers trach = true := by
    rw [server]
    exact exists_serverReply
  have decreases : ∀ state label after, (client config).next state label = some after →
      after.measure < state.measure :=
    fun _ _ _ taken => (State.next_step taken).measure_less
  refine ⟨?_, decreases, System.no_infinite_run State.measure decreases, ?_⟩
  · intro state reached unfinished
    exact (State.healthy_of_reachable succeeds replies reached).progress buffers workers answer
      unfinished
  · intro state reached j request at_
    exact (State.healthy_of_reachable succeeds replies reached).served at_

theorem runs_to_completion_wholeRun :
    ∃ state, (client smallest).run (initial smallest fun _ => []) (wholeRun.take 18) = some state ∧
      (state.workerThreads onlyWorker).pc = .reading "data Joe Smith" ∧
      (client smallest).Enabled state ∧ state.exited = false := by
  have ran : ((client smallest).run (initial smallest fun _ => []) (wholeRun.take 18)).map
      (fun state => ((state.workerThreads onlyWorker).pc, state.main)) =
        some (.reading "data Joe Smith", .joinRequest 0) := by
    decide +kernel
  obtain ⟨state, run, last⟩ := Option.map_eq_some_iff.mp ran
  obtain ⟨reading, joining⟩ := Prod.mk.inj last
  have start : (client smallest).start (initial smallest fun _ => []) := ⟨_, rfl⟩
  have reached := (System.Reachable.begin start).of_run run
  have unfinished : state.main ≠ .finished := by
    rw [joining]
    exact Main.noConfusion
  obtain ⟨progress, _, _, served⟩ :=
    @runs_to_completion smallest rfl rfl (by decide) (by decide)
  exact ⟨state, run, reading, progress state reached unfinished,
    (served state reached onlyWorker _ reading).1⟩

end Netwurk.Client
