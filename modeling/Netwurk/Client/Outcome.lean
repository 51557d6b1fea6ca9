/-
Where the runs of the client end, whatever is given on the command line and
whether or not the creation of a worker fails. Main comes to its end or the client
process is ended before that, with one exception: without a single worker the
requests have to fit into the request buffer.
-/

import Netwurk.Client.FailedWorker

namespace Netwurk.Client

open Transition RequestChannel

def Config.started (config : Config) : Nat :=
  match config.failing with
  | none => config.w
  | some k => k

/-- If a creation fails it is that of one of the workers. -/
def Config.FailsWithin (config : Config) : Prop :=
  ∀ k, config.failing = some k → k < config.w

namespace State

variable {config : Config} {state after : State config}

def QuitCounted (state : State config) : Prop :=
  ∀ i, (state.rBuff (patsBuffs i)).pushed.count "quit" =
    if i.val < state.main.pushedQuits then 1 else 0

private theorem Moves.pushedQuits {main : Main} (moved : state.Moves main) (i : Fin 3) :
    i.val < main.pushedQuits ↔ i.val < state.main.pushedQuits := by
  have bound := i.isLt
  cases moved with
  | @quitsPushed i at_ last =>
      rw [at_]
      simp only [Main.pushedQuits]
      omega
  | requestsCreated at_ | statsCreated at_ | workersCreated at_ | joinRequest at_
  | requestsJoined at_ | joinQuit at_ | joinWorker at_ | workersJoined at_ | joinStat at_
  | statsJoined at_ =>
      rw [at_]
      exact Iff.rfl

theorem QuitCounted.step (honest : Honest config) (sound : state.Sound)
    (counted : state.QuitCounted) (taken : state.Step after) : after.QuitCounted := by
  have removed {i : Fin 3} {front : String} {buff : TracedQueue String (config.b / 3)}
      (popped : (state.rBuff (patsBuffs i)).pop? = some (front, buff)) (other : Fin 3) :
      (Function.update state.rBuff (patsBuffs i) buff (patsBuffs other)).pushed.count "quit" =
        if other.val < state.main.pushedQuits then 1 else 0 := by
    by_cases same : other = i
    · subst same
      rw [Function.update_self, (TracedQueue.pop?_spec popped).1]
      exact counted other
    · rw [Function.update_of_ne fun equal => same (patsBuffs_injective equal)]
      exact counted other
  cases taken with
  | moves moved =>
      intro i
      refine (counted i).trans ?_
      simp only [← moved.pushedQuits i]
      rfl
  | @pushQuit i buff at_ within inserted =>
      intro other
      have before := counted other
      rw [at_] at before
      change (Function.update state.rBuff _ buff _).pushed.count "quit" =
        if other.val < i + 1 then 1 else 0
      change _ = if other.val < i then 1 else 0 at before
      by_cases same : other = ⟨i, within⟩
      · subst same
        rw [Function.update_self, (TracedQueue.push?_spec inserted).1, List.count_append, before,
          if_neg (Nat.lt_irrefl i), if_pos (Nat.lt_succ_self i)]
        rfl
      · have differs : other.val ≠ i := fun value => same (Fin.ext value)
        have border : other.val < i + 1 ↔ other.val < i := by omega
        rw [Function.update_of_ne fun equal => same (patsBuffs_injective equal), before]
        simp only [border]
  | @workerPush j request response patient buff at_ chosen inserted =>
      have data := honest response ((sound.accounted.valid j).permitted at_)
      intro other
      change (Function.update state.rBuff patient buff (patsBuffs other)).pushed.count "quit" = _
      by_cases same : patsBuffs other = patient
      · subst same
        rw [Function.update_self, (TracedQueue.push?_spec inserted).1, List.count_append,
          List.count_singleton, if_neg (by simpa using data)]
        exact counted other
      · rw [Function.update_of_ne same]
        exact counted other
  | statPop _ popped | statQuit _ popped => exact removed popped
  | createRequest at_ | createStat at_ | createWorker at_ | createWorkerFails at_
  | createQuit at_ | kill at_ =>
      intro other
      have before := counted other
      rw [at_] at before
      exact before
  | _ => exact counted

structure Unhired (state : State config) : Prop where
  counter : ∀ i, state.main = .createWorker i → i ≤ config.started
  idle : ∀ j : Fin config.w, config.started ≤ j.val →
    (state.workerThreads j).pc = .notStarted

private theorem unhired_update (unhired : state.Unhired) {j : Fin config.w} {worker : Worker}
    (hired : (state.workerThreads j).pc ≠ .notStarted) :
    ∀ other : Fin config.w, config.started ≤ other.val →
      (Function.update state.workerThreads j worker other).pc = .notStarted := by
  intro other beyond
  by_cases same : other = j
  · subst same
    exact absurd (unhired.idle other beyond) hired
  · rw [Function.update_of_ne same]
    exact unhired.idle other beyond

private theorem idle_step (unhired : state.Unhired) (taken : state.Step after) :
    ∀ j : Fin config.w, config.started ≤ j.val → (after.workerThreads j).pc = .notStarted := by
  cases taken with
  | @createWorker i at_ within succeeds =>
      intro other beyond
      change (Function.update state.workerThreads _ _ other).pc = .notStarted
      have bound := unhired.counter i at_
      by_cases same : other = ⟨i, within⟩
      · subst same
        have last : i = config.started := Nat.le_antisymm bound beyond
        unfold Config.started at last
        split at last
        · omega
        · rename_i k failing
          rw [last] at succeeds
          exact absurd failing succeeds
      · rw [Function.update_of_ne same]
        exact unhired.idle other beyond
  | @workerPop j _ _ at_ | @workerQuit j at_ | @workerRequest j _ at_ | @workerRead j _ _ _ at_
  | @workerPush j _ _ _ _ at_ | @workerDrop j _ _ at_ =>
      exact unhired_update unhired (by rw [at_]; exact WorkerPc.noConfusion)
  | @serveWorker j link =>
      intro other beyond
      change (Function.update state.workerThreads j
        { state.workerThreads j with reqChan := link } other).pc = .notStarted
      by_cases same : other = j
      · subst same
        rw [Function.update_self]
        exact unhired.idle other beyond
      · rw [Function.update_of_ne same]
        exact unhired.idle other beyond
  | _ => exact unhired.idle

private theorem started_counter_step (unhired : state.Unhired) (taken : state.Step after) :
    ∀ i, after.main = .createWorker i → i ≤ config.started := by
  cases taken with
  | moves moved =>
      cases moved with
      | statsCreated =>
          intro i at_
          cases at_
          exact Nat.zero_le _
      | _ =>
          intro i at_
          cases at_
  | @createWorker i at_ inside succeeds =>
      intro next same
      cases same
      have bound := unhired.counter i at_
      have other : i ≠ config.started := by
        intro last
        unfold Config.started at last
        split at last
        · omega
        · rename_i k failing
          rw [last] at succeeds
          exact succeeds failing
      omega
  | createRequest | createStat | createWorkerFails | createQuit | kill | pushQuit =>
      intro i at_
      cases at_
  | _ => exact unhired.counter

/-- The histogram's table, the histogram before the first count, the end of the
server, and who can be to blame for a crash. -/
structure Lasting (state : State config) : Prop where
  quits : state.QuitCounted
  unhired : state.Unhired
  table : state.hist.map = Histogram.fresh.map
  untouched : (∀ i, (state.patientsStatThread i).counted = []) → state.hist = .fresh
  exits : state.chan.session.status = .exited → state.exited = true
  blamed : state.crashed = true → 0 < config.started

private theorem table_step (replies : ∀ reply, config.answers reply = true → Reply reply)
    (sound : state.Sound) (lasting : state.Lasting) (taken : state.Step after) :
    after.hist.map = Histogram.fresh.map := by
  cases taken with
  | @statUpdate i response hist at_ updated =>
      obtain ⟨bin, _, result⟩ := Histogram.update_reply lasting.table (patsBuffs i)
        (replies _ (sound.updating_permitted at_))
      rw [updateKey_eq_key, result] at updated
      cases updated
      exact lasting.table
  | _ => exact lasting.table

private theorem untouched_step (lasting : state.Lasting) (taken : state.Step after) :
    (∀ i, (after.patientsStatThread i).counted = []) → after.hist = .fresh := by
  have kept {i : Fin 3} {thread : StatThread}
      (same : thread.counted = (state.patientsStatThread i).counted)
      (none_counted : ∀ other,
        (Function.update state.patientsStatThread i thread other).counted = []) :
      state.hist = .fresh := by
    apply lasting.untouched
    intro other
    have counted := none_counted other
    by_cases here : other = i
    · subst here
      rwa [Function.update_self, same] at counted
    · rwa [Function.update_of_ne here] at counted
  cases taken with
  | @statUpdate i response hist at_ updated =>
      intro none_counted
      have counted := none_counted i
      change (Function.update state.patientsStatThread i _ i).counted = [] at counted
      rw [Function.update_self] at counted
      exact absurd counted (List.append_ne_nil_of_right_ne_nil _ (List.cons_ne_nil _ _))
  | createStat | statPop | statQuit => exact kept rfl
  | _ => exact lasting.untouched

private theorem exits_step (lasting : state.Lasting) (taken : state.Step after) :
    after.chan.session.status = .exited → after.exited = true := by
  cases taken with
  | serveControl => exact fun ended => decide_eq_true ended
  | serveWorker running =>
      intro ended
      have exited := lasting.exits ended
      rw [running] at exited
      cases exited
  | _ => exact lasting.exits

private theorem blamed_step (replies : ∀ reply, config.answers reply = true → Reply reply)
    (sound : state.Sound) (lasting : state.Lasting) (taken : state.Step after) :
    after.crashed = true → 0 < config.started := by
  cases taken with
  | @workerCrash j _ _ at_ =>
      intro _
      by_contra nobody
      have idle := lasting.unhired.idle j (by omega)
      rw [at_] at idle
      cases idle
  | @statCrash i response _ at_ fails =>
      obtain ⟨bin, _, result⟩ := Histogram.update_reply lasting.table (patsBuffs i)
        (replies _ (sound.updating_permitted at_))
      rw [updateKey_eq_key] at fails
      exact absurd result (fails _)
  | _ => exact lasting.blamed

theorem lasting_of_reachable
    (replies : ∀ reply, config.answers reply = true → Reply reply)
    (reached : (client config).Reachable state) : state.Lasting := by
  apply reached.invariant
  · intro begun initial
    obtain ⟨memory, rfl⟩ := initial
    exact
      { quits := fun _ => rfl
        unhired := ⟨fun _ at_ => Main.noConfusion at_, fun _ _ => rfl⟩
        table := rfl
        untouched := fun _ => rfl
        exits := Status.noConfusion
        blamed := Bool.noConfusion }
  · intro before label later earlier lasting taken
    have sound := sound_of_reachable earlier
    have moved := next_step taken
    exact
      { quits := lasting.quits.step (honest_of_reply replies) sound moved
        unhired := ⟨started_counter_step lasting.unhired moved,
          idle_step lasting.unhired moved⟩
        table := table_step replies sound lasting moved
        untouched := untouched_step lasting moved
        exits := exits_step lasting moved
        blamed := blamed_step replies sound lasting moved }

private theorem moves_main (running : state.crashed = false)
    (moves : ∃ after, state.mainThread = some after) : state.CanMove := by
  obtain ⟨after, taken⟩ := moves
  refine ⟨.main, after, ?_⟩
  unfold next
  rw [running]
  exact taken

private theorem moves_stat (running : state.crashed = false) {i : Fin 3}
    (moves : ∃ after, state.statThreadFunction i = some after) : state.CanMove := by
  obtain ⟨after, taken⟩ := moves
  refine ⟨.stat i, after, ?_⟩
  unfold next
  rw [running]
  exact taken

private theorem stat_goes_on (running : state.crashed = false) {i : Fin 3}
    (started : (state.patientsStatThread i).pc ≠ .notStarted)
    (active : (state.patientsStatThread i).pc ≠ .ended)
    (present : (state.patientsStatThread i).pc = .popping →
      (state.rBuff (patsBuffs i)).items ≠ []) : state.CanMove := by
  apply moves_stat (i := i) running
  cases at_ : (state.patientsStatThread i).pc with
  | notStarted => exact absurd at_ started
  | ended => exact absurd at_ active
  | popping =>
      obtain ⟨response, buff, popped⟩ := TracedQueue.exists_pop? (present at_)
      unfold statThreadFunction
      simp only [at_, popped]
      split <;> exact ⟨_, rfl⟩
  | updating response =>
      unfold statThreadFunction
      simp only [at_]
      split <;> exact ⟨_, rfl⟩

private theorem QuitCounted.active (counted : state.QuitCounted) (sound : state.Sound) {i : Fin 3}
    (unpushed : ¬ i.val < state.main.pushedQuits) : (state.patientsStatThread i).pc ≠ .ended := by
  intro ended
  have pushed := counted i
  rw [if_neg unpushed] at pushed
  have taken := (sound.last.stats i).sealed
  rw [if_pos ended] at taken
  have total := (state.rBuff (patsBuffs i)).count_pushed "quit"
  rw [pushed, taken.count] at total
  omega

private theorem QuitCounted.present (counted : state.QuitCounted) (sound : state.Sound) {i : Fin 3}
    (pushed : i.val < state.main.pushedQuits) (active : (state.patientsStatThread i).pc ≠ .ended) :
    (state.rBuff (patsBuffs i)).items ≠ [] := by
  intro empty
  have closed := counted i
  rw [if_pos pushed] at closed
  have taken := (sound.last.stats i).sealed
  rw [if_neg active] at taken
  have total := (state.rBuff (patsBuffs i)).count_pushed "quit"
  rw [closed, taken.count, empty] at total
  cases total

theorem Lasting.late_moves (buffers : 3 ≤ config.b) (lasting : state.Lasting)
    (sound : state.Sound) (running : state.crashed = false)
    (alone : state.noError = false ∨ config.w = 0) (late : state.main.createdQuit = true)
    (unfinished : state.main ≠ .finished) : state.CanMove := by
  have ordered := sound.ordered
  have stats (created : state.main.createdStats = 3) (i : Fin 3) :
      (state.patientsStatThread i).pc ≠ .notStarted := by
    rw [Ne, ordered.stats_created i, created]
    exact Nat.not_le.mpr i.isLt
  cases at_ : state.main with
  | createRequest | createStat | createWorker | joinRequest | createQuit =>
      rw [at_] at late
      cases late
  | finished => exact absurd at_ unfinished
  | joinQuit =>
      by_cases ended : state.noError = true → state.quitThread = .ended
      · apply moves_main running
        unfold mainThread
        simp only [at_]
        rw [if_pos ended]
        exact ⟨_, rfl⟩
      · have nobody : config.w = 0 := by
          rcases alone with failed | nobody
          · exact absurd (fun error_free => by rw [failed] at error_free; cases error_free) ended
          · exact nobody
        cases quits : state.quitThread with
        | notStarted =>
            have uncreated := ordered.quit_created.mp quits
            rw [at_] at uncreated
            cases uncreated
        | ended => exact absurd (fun _ => quits) ended
        | looping k =>
            have last : ¬ k < config.w := by omega
            have ends : state.requestQuits = some { state with quitThread := .ended } := by
              unfold requestQuits
              simp only [quits]
              exact if_neg last
            exact ⟨.quits, _, (if_neg (Bool.eq_false_iff.mp running)).trans ends⟩
  | joinWorker i =>
      apply moves_main running
      unfold mainThread
      simp only [at_]
      split
      · rename_i within
        have skips : state.noError = true →
            (state.workerThreads ⟨i, within⟩).pc = .ended := by
          intro error_free
          rcases alone with failed | nobody
          · rw [failed] at error_free
            cases error_free
          · omega
        rw [if_pos skips]
        exact ⟨_, rfl⟩
      · exact ⟨_, rfl⟩
  | kill =>
      apply moves_main running
      unfold mainThread
      simp only [at_]
      exact ⟨_, rfl⟩
  | pushQuit i =>
      by_cases full : ∃ within : i < 3,
          ¬ (state.rBuff (patsBuffs ⟨i, within⟩)).items.length < config.b / 3
      · obtain ⟨within, full⟩ := full
        apply stat_goes_on running (stats (by rw [at_]; rfl) ⟨i, within⟩)
        · apply lasting.quits.active sound
          rw [at_]
          exact Nat.lt_irrefl i
        · intro _ absent
          rw [absent, List.length_nil] at full
          omega
      · apply moves_main running
        unfold mainThread
        simp only [at_]
        split
        · rename_i within
          have room : (state.rBuff (patsBuffs ⟨i, within⟩)).items.length < config.b / 3 := by
            by_contra blocked
            exact full ⟨within, blocked⟩
          obtain ⟨buff, pushed⟩ := TracedQueue.exists_push? "quit" room
          simp only [pushed]
          exact ⟨_, rfl⟩
        · exact ⟨_, rfl⟩
  | joinStat i =>
      by_cases waits : ∃ within : i < 3, (state.patientsStatThread ⟨i, within⟩).pc ≠ .ended
      · obtain ⟨within, active⟩ := waits
        apply stat_goes_on running (stats (by rw [at_]; rfl) ⟨i, within⟩) active
        intro _
        apply lasting.quits.present sound _ active
        rw [at_]
        exact within
      · apply moves_main running
        unfold mainThread
        simp only [at_]
        split
        · rename_i within
          have ended : (state.patientsStatThread ⟨i, within⟩).pc = .ended := by
            by_contra active
            exact waits ⟨within, active⟩
          rw [if_pos ended]
          exact ⟨_, rfl⟩
        · exact ⟨_, rfl⟩

private theorem Lasting.server_moves (lasting : state.Lasting) (controlled : state.Controlled)
    (answer : ∃ trach, config.answers trach = true) (running : state.crashed = false)
    (killed : state.main.killed = true) (serving : state.exited = false) : state.CanMove := by
  have phase := controlled.phase
  rw [killed] at phase
  change state.chan.At config.Permits [] (.left .exit) at phase
  obtain ⟨trach, answers⟩ := answer
  have exits := lasting.exits
  have connected : state.link none = state.chan := rfl
  cases position : state.chan with
  | mk toServer toClient session sent handled =>
      rw [position] at phase exits connected
      cases phase with
      | leaving =>
          refine ⟨.recv none, ?_⟩
          unfold next
          simp only [running, serving, connected]
          exact ⟨_, rfl⟩
      | ending =>
          refine ⟨.act none trach, ?_⟩
          unfold next
          simp only [running, serving, connected, answers]
          exact ⟨_, rfl⟩
      | ended =>
          rw [exits rfl] at serving
          cases serving

private theorem late_step (taken : state.Step after) (created : state.main.createdQuit = true) :
    after.main.createdQuit = true := by
  cases taken with
  | moves moved =>
      cases moved with
      | requestsCreated at_ | statsCreated at_ | workersCreated at_ | joinRequest at_
      | requestsJoined at_ =>
          rw [at_] at created
          cases created
      | _ => rfl
  | createRequest at_ | createStat at_ | createWorker at_ | createWorkerFails at_ =>
      rw [at_] at created
      cases created
  | createQuit | kill | pushQuit => rfl
  | _ => exact created

theorem steady_of_early (replies : ∀ reply, config.answers reply = true → Reply reply)
    (reached : (client config).Reachable state) (early : state.main.createdQuit = false) :
    state.Steady := by
  revert early
  apply reached.invariant
  · intro begun initial _
    obtain ⟨memory, rfl⟩ := initial
    exact (healthy_initial memory).steady
  · intro before label later _ held taken early
    have moved := next_step taken
    have earlier : before.main.createdQuit = false := by
      cases created : before.main.createdQuit with
      | false => rfl
      | true =>
          have kept := late_step moved created
          rw [early] at kept
          cases kept
    apply (held earlier).step replies moved
    intro j past
    have unjoined : later.main.joinedWorkers config.w = 0 := by
      generalize later.main = main at early
      cases main with
      | joinQuit | joinWorker | kill | pushQuit | joinStat | finished => cases early
      | _ => rfl
    rw [unjoined] at past
    exact absurd past (Nat.not_lt_zero _)

/-! ### A client without workers -/

theorem length_of_queued {requests : List String} (queued : ∀ request ∈ requests, Queued request) :
    requests.length = requests.count "quit" + requests.count Patient.joe.key +
      requests.count Patient.john.key + requests.count Patient.jane.key := by
  induction requests with
  | nil => rfl
  | cons request rest ih =>
      have shorter := ih fun other member => queued other (List.mem_cons_of_mem _ member)
      have one : [request].length = [request].count "quit" + [request].count Patient.joe.key +
          [request].count Patient.john.key + [request].count Patient.jane.key := by
        rcases queued request List.mem_cons_self with quit | ⟨patient, key⟩
        · rw [quit]
          decide
        · rw [key]
          cases patient <;> decide
      rw [← List.singleton_append, List.length_append, shorter, one]
      simp only [List.count_append]
      omega

private theorem worker_of_notStarted {worker : Worker} (valid : worker.Valid config)
    (idle : worker.pc = .notStarted) : worker.popped = [] ∧ worker.pushes = [] := by
  cases valid with
  | notStarted => exact ⟨rfl, rfl⟩
  | _ => cases idle

private theorem Sound.popped_of_nobody (sound : state.Sound)
    (nobody : ∀ j, (state.workerThreads j).pc = .notStarted) :
    state.requestBuffer.popped = [] := by
  apply List.eq_nil_iff_forall_not_mem.mpr
  intro request member
  have positive := List.count_pos_iff.mpr member
  rw [sound.accounted.popped request] at positive
  obtain ⟨j, _, counted⟩ := Finset.exists_ne_zero_of_sum_ne_zero (Nat.ne_of_gt positive)
  rw [(worker_of_notStarted (sound.accounted.valid j) (nobody j)).1] at counted
  exact counted rfl

private theorem Sound.counted_of_nobody (sound : state.Sound)
    (nobody : ∀ j, (state.workerThreads j).pc = .notStarted) (i : Fin 3) :
    (state.patientsStatThread i).counted = [] := by
  obtain ⟨patient, counts⟩ : ∃ patient, counter patient = i := ⟨patsBuffs i, counter_patsBuffs i⟩
  have replies := sound.pushed_split patient
  have none_pushed : (state.rBuff patient).pushed.countP notQuit = 0 := by
    rw [sound.accounted.pushed patient notQuit rfl]
    apply Finset.sum_eq_zero
    intro j _
    rw [(worker_of_notStarted (sound.accounted.valid j) (nobody j)).2]
    rfl
  rw [none_pushed, counts] at replies
  apply List.eq_nil_of_length_eq_zero
  omega

private theorem Sound.length_of_nobody (sound : state.Sound) (requested : state.Requested)
    (nobody : ∀ j, (state.workerThreads j).pc = .notStarted) :
    state.requestBuffer.items.length =
      state.quitThread.progress config.w + (state.patientsThread 0).progress config.n +
        (state.patientsThread 1).progress config.n +
          (state.patientsThread 2).progress config.n := by
  have total := length_of_queued sound.accounted.queued
  rw [sound.quits_pushed, requested.pushed .joe, requested.pushed .john,
    requested.pushed .jane] at total
  have split := state.requestBuffer.split
  rw [sound.popped_of_nobody nobody, List.nil_append] at split
  rw [← split]
  exact total

/-- Who waits for room in the request buffer waits for ever. -/
private theorem stuck_of_nobody (buffers : 3 ≤ config.b)
    (answer : ∃ trach, config.answers trach = true) (steady : state.Steady)
    (requested : state.Requested) (early : state.main.createdQuit = false)
    (nobody : ∀ j, (state.workerThreads j).pc = .notStarted) (blocked : ¬ state.CanMove) :
    (∃ i, state.main = .joinRequest i) ∧ state.requestBuffer.items.length = config.b ∧
      config.b < 3 * config.n := by
  have running := steady.alive.running
  have joins : ∃ i, state.main = .joinRequest i := by
    by_contra elsewhere
    exact blocked (steady.early_progress buffers answer early
      fun i at_ => absurd ⟨i, at_⟩ elsewhere)
  refine ⟨joins, ?_⟩
  obtain ⟨i, at_⟩ := joins
  have waits : ∃ within : i < 3, state.patientsThread ⟨i, within⟩ ≠ .ended := by
    by_contra joined
    apply blocked
    apply moves_main running
    unfold mainThread
    simp only [at_]
    split
    · rename_i within
      have ended : state.patientsThread ⟨i, within⟩ = .ended := by
        by_contra active
        exact joined ⟨within, active⟩
      rw [if_pos ended]
      exact ⟨_, rfl⟩
    · exact ⟨_, rfl⟩
  obtain ⟨within, active⟩ := waits
  have quits := steady.sound.ordered.quit_created.mpr early
  have total := steady.sound.length_of_nobody requested nobody
  rw [quits] at total
  have all (other : Fin 3) := Pusher.progress_le (requested.within other)
  cases pushes : state.patientsThread ⟨i, within⟩ with
  | ended => exact absurd pushes active
  | notStarted =>
      have uncreated := (steady.sound.ordered.requests_created ⟨i, within⟩).mp pushes
      rw [at_] at uncreated
      exact absurd within (Nat.not_lt.mpr uncreated)
  | looping k =>
      have full : k < config.n ∧ ¬ state.requestBuffer.items.length < config.b := by
        by_contra free
        have moves : ∃ after, state.requestThreadFunction ⟨i, within⟩ = some after := by
          unfold requestThreadFunction
          simp only [pushes]
          split
          · rename_i more
            have room : state.requestBuffer.items.length < config.b := by
              by_contra full
              exact free ⟨more, full⟩
            obtain ⟨buff, pushed⟩ := TracedQueue.exists_push? (requestFor ⟨i, within⟩) room
            simp only [pushed]
            exact ⟨_, rfl⟩
          · exact ⟨_, rfl⟩
        obtain ⟨after, taken⟩ := moves
        exact blocked ⟨.request ⟨i, within⟩, after,
          (if_neg (Bool.eq_false_iff.mp running)).trans taken⟩
      have bounded : state.requestBuffer.items.length ≤ config.b :=
        state.requestBuffer.queue.bounded
      have missing : (state.patientsThread ⟨i, within⟩).progress config.n < config.n := by
        rw [pushes]
        exact full.1
      have others := And.intro (all 0) (And.intro (all 1) (all 2))
      have which : i = 0 ∨ i = 1 ∨ i = 2 := by omega
      simp only [Pusher.progress] at total
      rcases which with first | second | third
      · subst first
        change (state.patientsThread 0).progress config.n < config.n at missing
        simp only [Pusher.progress] at missing others
        omega
      · subst second
        change (state.patientsThread 1).progress config.n < config.n at missing
        simp only [Pusher.progress] at missing others
        omega
      · subst third
        change (state.patientsThread 2).progress config.n < config.n at missing
        simp only [Pusher.progress] at missing others
        omega

/-! ### The end of every run -/

private theorem fits_of_late (sound : state.Sound) (requested : state.Requested)
    (nobody : ∀ j, (state.workerThreads j).pc = .notStarted)
    (late : state.main.createdQuit = true) : 3 * config.n ≤ config.b := by
  have ended (i : Fin 3) : state.patientsThread i = .ended :=
    sound.ordered.requests_joined i
      (by rw [Main.joinedRequests_of_createdQuit late]; exact i.isLt)
  have total := sound.length_of_nobody requested nobody
  rw [ended 0, ended 1, ended 2] at total
  have bounded : state.requestBuffer.items.length ≤ config.b := state.requestBuffer.queue.bounded
  simp only [Pusher.progress] at total
  omega

private theorem finished_of_healthy (buffers : 3 ≤ config.b) (positive : 1 ≤ config.w)
    (answer : ∃ trach, config.answers trach = true) (healthy : state.Healthy)
    (blocked : ¬ state.CanMove) : state.main = .finished := by
  by_contra unfinished
  exact blocked (healthy.progress buffers positive answer unfinished)

private theorem finished_of_started (within : config.FailsWithin) (buffers : 3 ≤ config.b)
    (replies : ∀ reply, config.answers reply = true → Reply reply)
    (answer : ∃ trach, config.answers trach = true) (reached : (client config).Reachable state)
    (running : state.crashed = false) (positive : 0 < config.started)
    (blocked : ¬ state.CanMove) : state.main = .finished := by
  cases failing : config.failing with
  | none =>
      have workers : 0 < config.w := by
        simpa only [Config.started, failing] using positive
      exact finished_of_healthy buffers workers answer
        (healthy_of_reachable failing replies reached) blocked
  | some k =>
      have some_started : 0 < k := by
        simpa only [Config.started, failing] using positive
      have sound := sound_of_reachable reached
      have hired := hired_of_reachable (within k failing) failing reached
      cases early : state.main.createdQuit with
      | false =>
          have steady := steady_of_early replies reached early
          refine absurd (steady.early_progress buffers answer early fun i at_ => ?_) blocked
          exact ⟨⟨0, Nat.lt_trans some_started (within k failing)⟩,
            hired.running sound (by rw [at_]; rfl) early some_started⟩
      | true =>
          have failed := hired.failed (by
            generalize state.main = main at early
            cases main with
            | createRequest | createStat | createWorker => cases early
            | _ => rfl)
          by_contra unfinished
          exact blocked ((lasting_of_reachable replies reached).late_moves buffers sound running
            (.inl failed) early unfinished)

private theorem end_of_nobody (within : config.FailsWithin) (buffers : 3 ≤ config.b)
    (replies : ∀ reply, config.answers reply = true → Reply reply)
    (answer : ∃ trach, config.answers trach = true) (reached : (client config).Reachable state)
    (running : state.crashed = false) (nobody : config.started = 0)
    (blocked : ¬ state.CanMove) :
    (3 * config.n ≤ config.b ∧ state.main = .finished) ∨
      (config.b < 3 * config.n ∧ (∃ i, state.main = .joinRequest i) ∧
        state.requestBuffer.items.length = config.b) := by
  have sound := sound_of_reachable reached
  have requested := requested_of_reachable reached
  have lasting := lasting_of_reachable replies reached
  have idle : ∀ j, (state.workerThreads j).pc = .notStarted :=
    fun j => lasting.unhired.idle j (by rw [nobody]; exact Nat.zero_le _)
  cases early : state.main.createdQuit with
  | false =>
      obtain ⟨joins, full, many⟩ := stuck_of_nobody buffers answer
        (steady_of_early replies reached early) requested early idle blocked
      exact .inr ⟨many, joins, full⟩
  | true =>
      refine .inl ⟨fits_of_late sound requested idle early, ?_⟩
      have alone : state.noError = false ∨ config.w = 0 := by
        cases failing : config.failing with
        | none =>
            right
            simpa only [Config.started, failing] using nobody
        | some k =>
            left
            apply (hired_of_reachable (within k failing) failing reached).failed
            generalize state.main = main at early
            cases main with
            | createRequest | createStat | createWorker => cases early
            | _ => rfl
      by_contra unfinished
      exact blocked (lasting.late_moves buffers sound running alone early unfinished)

/-- What a client is like when none of its threads and no server thread can go on. -/
structure Outcome (state : State config) : Prop where
  complete : config.failing = none → 0 < config.w →
    state.crashed = false ∧ state.main = .finished ∧ state.exited = true ∧
      ∀ patient, (state.patientsStatThread (counter patient)).counted.length = config.n
  /-- A worker of an incomplete group has lost its server. -/
  crash : state.crashed = true → ∃ k, config.failing = some k ∧ 0 < k
  finish : 0 < config.started ∨ 3 * config.n ≤ config.b →
    state.crashed = true ∨ (state.main = .finished ∧ state.exited = true)
  /-- Without a worker main may wait for ever, and nothing has been counted. -/
  stuck : config.started = 0 → config.b < 3 * config.n →
    state.crashed = false ∧ (∃ i, state.main = .joinRequest i) ∧
      state.requestBuffer.items.length = config.b ∧ state.hist = .fresh

theorem outcome_of_blocked (within : config.FailsWithin) (buffers : 3 ≤ config.b)
    (replies : ∀ reply, config.answers reply = true → Reply reply)
    (answer : ∃ trach, config.answers trach = true) (reached : (client config).Reachable state)
    (blocked : ¬ state.CanMove) : state.Outcome := by
  have lasting := lasting_of_reachable replies reached
  have controlled := controlled_of_reachable reached
  have exits (running : state.crashed = false) (finished : state.main = .finished) :
      state.exited = true := by
    by_contra serving
    exact blocked (lasting.server_moves controlled answer running (by rw [finished]; rfl)
      (Bool.eq_false_iff.mpr serving))
  refine ⟨fun succeeds positive => ?_, fun crashed => ?_, fun able => ?_, fun nobody many => ?_⟩
  · have honest := honest_of_reply replies
    have running := (alive_of_reachable succeeds replies reached).running
    have finished := finished_of_healthy buffers positive answer
      (healthy_of_reachable succeeds replies reached) blocked
    refine ⟨running, finished, exits running finished, fun patient => ?_⟩
    exact nothing_left_of_joined honest positive (inOrder_of_reachable succeeds reached)
      (sound_of_reachable reached) (statsClosed_of_reachable succeeds honest reached)
      (requested_of_reachable reached) (by rw [finished]; rfl) patient
  · have positive := lasting.blamed crashed
    cases failing : config.failing with
    | none =>
        have alive := (alive_of_reachable failing replies reached).running
        rw [crashed] at alive
        cases alive
    | some k => exact ⟨k, rfl, by simpa only [Config.started, failing] using positive⟩
  · cases running : state.crashed with
    | true => exact .inl rfl
    | false =>
        right
        have finished : state.main = .finished := by
          by_cases positive : 0 < config.started
          · exact finished_of_started within buffers replies answer reached running
              positive blocked
          · have room : 3 * config.n ≤ config.b := able.resolve_left positive
            rcases end_of_nobody within buffers replies answer reached running (by omega)
              blocked with ⟨_, finished⟩ | ⟨many, _⟩
            · exact finished
            · omega
        exact ⟨finished, exits running finished⟩
  · have running : state.crashed = false := by
      by_contra crashed
      have positive := lasting.blamed (Bool.eq_true_of_not_eq_false crashed)
      omega
    refine ⟨running, ?_⟩
    have idle : ∀ j, (state.workerThreads j).pc = .notStarted :=
      fun j => lasting.unhired.idle j (by rw [nobody]; exact Nat.zero_le _)
    rcases end_of_nobody within buffers replies answer reached running nobody blocked with
      ⟨room, _⟩ | ⟨_, joins, full⟩
    · omega
    · exact ⟨joins, full, lasting.untouched
        ((sound_of_reachable reached).counted_of_nobody idle)⟩

end State

/-- Every run comes to an end. There main has finished and the server has exited,
or the client process was ended because a worker lost its server; without a worker
and with more requests than the buffer takes, main waits for ever. With all of at
least one worker created every reply has been counted. -/
theorem run_outcome {config : Config} {state : State config} (within : config.FailsWithin)
    (buffers : 3 ≤ config.b) (server : config.answers = serverReplies)
    (reached : (client config).Reachable state) :
    (∃ after, (client config).Path state after ∧ ¬ (client config).Enabled after) ∧
    (∀ states : Nat → State config, ¬ ∀ time, ∃ label,
      (client config).next (states time) label = some (states (time + 1))) ∧
    (¬ (client config).Enabled state → state.Outcome) := by
  have decreases : ∀ state label after, (client config).next state label = some after →
      after.measure < state.measure :=
    fun _ _ _ taken => (State.next_step taken).measure_less
  refine ⟨System.exists_end State.measure decreases state,
    System.no_infinite_run State.measure decreases, ?_⟩
  exact State.outcome_of_blocked within buffers
    (by rw [server]; exact fun _ => serverReplies_iff.mp) (by rw [server]; exact exists_serverReply)
    reached

def unstaffed : Config :=
  { n := 2
    w := 0
    b := 3
    answers := serverReplies
    failing := none }

theorem run_outcome_ends :
    (∃ after, (client unstaffed).Path (initial unstaffed fun _ => []) after ∧
      (∃ i, after.main = .joinRequest i) ∧ after.hist = .fresh) ∧
    ∃ after, (client smallest).Path (initial smallest fun _ => []) after ∧
      after.main = .finished ∧ after.exited = true ∧
      ∀ patient, (after.patientsStatThread (counter patient)).counted.length = 1 := by
  constructor
  · have within : unstaffed.FailsWithin := fun _ failing => by cases failing
    have reached : (client unstaffed).Reachable (initial unstaffed fun _ => []) := .begin ⟨_, rfl⟩
    obtain ⟨after, path, ended⟩ := (run_outcome within (by decide) rfl reached).1
    have outcome := (run_outcome within (by decide) rfl (reached.of_path path)).2.2 ended
    obtain ⟨_, joins, _, untouched⟩ := outcome.stuck rfl (by decide)
    exact ⟨after, path, joins, untouched⟩
  · have within : smallest.FailsWithin := fun _ failing => by cases failing
    have reached : (client smallest).Reachable (initial smallest fun _ => []) := .begin ⟨_, rfl⟩
    obtain ⟨after, path, ended⟩ := (run_outcome within (by decide) rfl reached).1
    have outcome := (run_outcome within (by decide) rfl (reached.of_path path)).2.2 ended
    obtain ⟨_, finished, exits, counted⟩ := outcome.complete rfl (by decide)
    exact ⟨after, path, finished, exits, counted⟩

end Netwurk.Client
