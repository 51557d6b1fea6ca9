/-
The two rounds of `quit` strings. The quit thread closes the request buffer with
one for each worker, main closes each stat buffer with one; both come after all
data, so whoever pops one finds no work left.
-/

import Mathlib.Tactic.FinCases
import Netwurk.Client.Workers

namespace Netwurk.Client

open Transition RequestChannel

def Pusher.progress (total : Nat) : Pusher → Nat
  | .notStarted => 0
  | .looping i => i
  | .ended => total

def Pusher.Within (total : Nat) : Pusher → Prop
  | .looping i => i ≤ total
  | _ => True

theorem Pusher.progress_le {total : Nat} {thread : Pusher} (within : thread.Within total) :
    thread.progress total ≤ total := by
  cases thread with
  | notStarted => exact Nat.zero_le total
  | looping i => exact within
  | ended => exact Nat.le_refl total

inductive StatThread.Valid : List String → StatThread → Prop
  | notStarted : Valid [] ⟨.notStarted, []⟩
  | popping {counted : List String} (data : "quit" ∉ counted) : Valid counted ⟨.popping, counted⟩
  | updating {counted : List String} {response : String} (data : "quit" ∉ counted)
      (more : response ≠ "quit") : Valid (counted ++ [response]) ⟨.updating response, counted⟩
  | ended {counted : List String} (data : "quit" ∉ counted) :
      Valid (counted ++ ["quit"]) ⟨.ended, counted⟩

theorem StatThread.Valid.sealed {popped : List String} {thread : StatThread}
    (valid : thread.Valid popped) :
    Sealed "quit" (if thread.pc = .ended then 1 else 0) popped := by
  cases valid with
  | notStarted => exact .nil "quit"
  | popping data => exact .of_data data
  | updating data more => exact (Sealed.of_data data).push_data more
  | ended data => exact (Sealed.of_data data).push_mark

theorem StatThread.Valid.start {popped : List String} {thread : StatThread}
    (valid : thread.Valid popped) (at_ : thread.pc = .notStarted) :
    StatThread.Valid popped { thread with pc := .popping } := by
  cases valid with
  | notStarted => exact .popping List.not_mem_nil
  | _ => cases at_

theorem StatThread.Valid.pop {popped : List String} {thread : StatThread} {response : String}
    (valid : thread.Valid popped) (at_ : thread.pc = .popping) (more : response ≠ "quit") :
    StatThread.Valid (popped ++ [response]) { thread with pc := .updating response } := by
  cases valid with
  | popping data => exact .updating data more
  | _ => cases at_

theorem StatThread.Valid.quit {popped : List String} {thread : StatThread}
    (valid : thread.Valid popped) (at_ : thread.pc = .popping) :
    StatThread.Valid (popped ++ ["quit"]) { thread with pc := .ended } := by
  cases valid with
  | popping data => exact .ended data
  | _ => cases at_

theorem StatThread.Valid.update {popped : List String} {thread : StatThread} {response : String}
    (valid : thread.Valid popped) (at_ : thread.pc = .updating response) :
    StatThread.Valid popped ⟨.popping, thread.counted ++ [response]⟩ := by
  cases valid with
  | updating data more =>
      cases at_
      exact .popping ((Sealed.of_data data).push_data more).data_of_zero
  | _ => cases at_

theorem exists_patsBuffs (patient : Patient) : ∃ i, patsBuffs i = patient := by
  cases patient
  · exact ⟨0, rfl⟩
  · exact ⟨1, rfl⟩
  · exact ⟨2, rfl⟩

theorem requestFor_ne_quit (i : Fin 3) : requestFor i ≠ "quit" := by
  revert i
  decide

theorem Main.joinedRequests_of_createdQuit {main : Main} (created : main.createdQuit = true) :
    main.joinedRequests = 3 := by
  cases main with
  | createRequest | createStat | createWorker | joinRequest | createQuit => cases created
  | _ => rfl

theorem Main.joinedWorkers_of_pushedQuits {main : Main} (w : Nat) (pushed : 0 < main.pushedQuits) :
    main.joinedWorkers w = w := by
  cases main with
  | pushQuit | joinStat | finished => rfl
  | _ => cases pushed

namespace State

variable {config : Config} {state after : State config}

/-! ### Quits after data, in the request buffer -/

structure QuitsLast (state : State config) : Prop where
  closed : Sealed "quit" (state.quitThread.progress config.w) state.requestBuffer.pushed
  within : state.quitThread.Within config.w
  stats : ∀ i, (state.patientsStatThread i).Valid (state.rBuff (patsBuffs i)).popped

theorem quit_notStarted_of_requesting (ordered : state.Ordered) {i : Fin 3} {k : Nat}
    (at_ : state.patientsThread i = .looping k) : state.quitThread = .notStarted := by
  apply ordered.quit_created.mpr
  apply Bool.eq_false_iff.mpr
  intro created
  have joined := ordered.requests_joined i
    (by rw [Main.joinedRequests_of_createdQuit created]; exact i.isLt)
  rw [at_] at joined
  cases joined

private theorem closed_step (ordered : state.Ordered) (last : state.QuitsLast)
    (taken : state.Step after) :
    Sealed "quit" (after.quitThread.progress config.w) after.requestBuffer.pushed := by
  have closed := last.closed
  cases taken with
  | createQuit at_ =>
      have notStarted := ordered.quit_created.mpr (by rw [at_]; rfl)
      rw [notStarted] at closed
      exact closed
  | @request i _ _ at_ _ pushed =>
      have data := requestFor_ne_quit i
      have notStarted := quit_notStarted_of_requesting ordered at_
      change Sealed _ (state.quitThread.progress config.w) _
      rw [notStarted] at closed ⊢
      rw [(TracedQueue.push?_spec pushed).1]
      exact closed.push_data data
  | quit at_ _ pushed =>
      rw [at_] at closed
      rw [(TracedQueue.push?_spec pushed).1]
      exact closed.push_mark
  | @quitEnds k at_ done =>
      have within := last.within
      rw [at_] at closed within
      have all : k = config.w := Nat.le_antisymm within (Nat.not_lt.mp done)
      subst all
      exact closed
  | workerPop _ popped =>
      rw [(TracedQueue.pop?_spec popped).1]
      exact closed
  | _ => exact closed

private theorem within_step (last : state.QuitsLast) (taken : state.Step after) :
    after.quitThread.Within config.w := by
  cases taken with
  | createQuit => exact Nat.zero_le config.w
  | quit _ more => exact more
  | quitEnds => trivial
  | _ => exact last.within

private theorem stats_step (ordered : state.Ordered) (last : state.QuitsLast)
    (taken : state.Step after) :
    ∀ i, (after.patientsStatThread i).Valid (after.rBuff (patsBuffs i)).popped := by
  have valid := last.stats
  -- inserting into a buffer leaves what was taken from it
  have inserted {other : Patient} {item : String} {buff : TracedQueue String (config.b / 3)}
      (pushed : (state.rBuff other).push? item = some buff) (i : Fin 3) :
      (state.patientsStatThread i).Valid
        (Function.update state.rBuff other buff (patsBuffs i)).popped := by
    by_cases same : patsBuffs i = other
    · subst same
      rw [Function.update_self, (TracedQueue.push?_spec pushed).2.1]
      exact valid i
    · rw [Function.update_of_ne same]
      exact valid i
  have removed {i : Fin 3} {thread : StatThread} {buff : TracedQueue String (config.b / 3)}
      (new : thread.Valid buff.popped) (other : Fin 3) :
      (Function.update state.patientsStatThread i thread other).Valid
        (Function.update state.rBuff (patsBuffs i) buff (patsBuffs other)).popped := by
    by_cases same : other = i
    · subst same
      rw [Function.update_self, Function.update_self]
      exact new
    · have differs : patsBuffs other ≠ patsBuffs i := fun equal => same (patsBuffs_injective equal)
      rw [Function.update_of_ne same, Function.update_of_ne differs]
      exact valid other
  have changed {i : Fin 3} {thread : StatThread}
      (new : thread.Valid (state.rBuff (patsBuffs i)).popped) :
      ∀ other, (Function.update state.patientsStatThread i thread other).Valid
        (state.rBuff (patsBuffs other)).popped :=
    (Function.forall_update_iff _ fun other (value : StatThread) =>
      value.Valid (state.rBuff (patsBuffs other)).popped).mpr ⟨new, fun other _ => valid other⟩
  cases taken with
  | @createStat i at_ within =>
      have absent : (state.patientsStatThread ⟨i, within⟩).pc = .notStarted :=
        (ordered.stats_created _).mpr (by rw [at_]; exact Nat.le_refl i)
      exact changed ((valid _).start absent)
  | pushQuit _ _ pushed => exact inserted pushed
  | workerPush _ _ pushed => exact inserted pushed
  | statPop at_ popped more =>
      apply removed
      rw [(TracedQueue.pop?_spec popped).2.1]
      exact (valid _).pop at_ more
  | statQuit at_ popped =>
      apply removed
      rw [(TracedQueue.pop?_spec popped).2.1]
      exact (valid _).quit at_
  | statUpdate at_ => exact changed ((valid _).update at_)
  | _ => exact valid

theorem QuitsLast.step (ordered : state.Ordered) (last : state.QuitsLast)
    (taken : state.Step after) : after.QuitsLast where
  closed := closed_step ordered last taken
  within := within_step last taken
  stats := stats_step ordered last taken

/-- What every state of a client satisfies, whatever its request buffer held at
the start and whether or not a creation fails. -/
structure Sound (state : State config) : Prop where
  ordered : state.Ordered
  accounted : state.Accounted
  last : state.QuitsLast

theorem Sound.step (sound : state.Sound) (taken : state.Step after) : after.Sound where
  ordered := sound.ordered.step taken
  accounted := sound.accounted.step sound.ordered taken
  last := sound.last.step sound.ordered taken

theorem sound_initial (memory : Option (Fin config.w) → List Char) :
    (initial config memory).Sound where
  ordered := ordered_initial memory
  accounted := accounted_initial memory
  last :=
    { closed := .nil "quit"
      within := trivial
      stats := fun _ => .notStarted }

theorem sound_of_reachable (reached : (client config).Reachable state) : state.Sound := by
  apply reached.invariant
  · intro begun initial
    obtain ⟨memory, rfl⟩ := initial
    exact sound_initial memory
  · intro before label later _ sound taken
    exact sound.step (next_step taken)

structure Requested (state : State config) : Prop where
  pushed : ∀ patient : Patient, state.requestBuffer.pushed.count patient.key =
    (state.patientsThread (requester patient)).progress config.n
  within : ∀ i, (state.patientsThread i).Within config.n

private theorem requests_pushed_step (ordered : state.Ordered) (requested : state.Requested)
    (taken : state.Step after) :
    ∀ patient : Patient, after.requestBuffer.pushed.count patient.key =
      (after.patientsThread (requester patient)).progress config.n := by
  have pushed := requested.pushed
  have updated {i : Fin 3} {thread : Pusher} (patient : Patient)
      (same : thread.progress config.n = (state.patientsThread i).progress config.n) :
      (Function.update state.patientsThread i thread (requester patient)).progress config.n =
        (state.patientsThread (requester patient)).progress config.n := by
    by_cases here : requester patient = i
    · rw [here, Function.update_self, same]
    · rw [Function.update_of_ne here]
  intro patient
  cases taken with
  | @createRequest i at_ within =>
      have absent : state.patientsThread ⟨i, within⟩ = .notStarted :=
        (ordered.requests_created _).mpr (by rw [at_]; exact Nat.le_refl i)
      exact (pushed patient).trans (updated patient (by rw [absent]; rfl)).symm
  | @request i k buff at_ more inserted =>
      change buff.pushed.count patient.key = (Function.update state.patientsThread i
        (.looping (k + 1)) (requester patient)).progress config.n
      rw [(TracedQueue.push?_spec inserted).1, List.count_append, pushed patient]
      by_cases here : i = requester patient
      · subst here
        rw [at_, Function.update_self, (requestFor_eq_key_iff _ patient).mpr rfl,
          List.count_singleton_self]
        rfl
      · have other : requestFor i ≠ patient.key := fun same =>
          here ((requestFor_eq_key_iff i patient).mp same)
        rw [Function.update_of_ne (Ne.symm here), List.count_singleton, if_neg (by simpa using other),
          Nat.add_zero]
  | @requestEnds i k at_ done =>
      have within := requested.within i
      rw [at_] at within
      have all : k = config.n := Nat.le_antisymm within (Nat.not_lt.mp done)
      exact (pushed patient).trans (updated patient (by rw [at_, all]; rfl)).symm
  | quit _ _ inserted =>
      rw [(TracedQueue.push?_spec inserted).1, List.count_append, List.count_singleton,
        if_neg (by simpa using (key_ne_quit patient).symm)]
      exact pushed patient
  | workerPop _ popped =>
      rw [(TracedQueue.pop?_spec popped).1]
      exact pushed patient
  | _ => exact pushed patient

private theorem requests_within_step (requested : state.Requested) (taken : state.Step after) :
    ∀ i, (after.patientsThread i).Within config.n := by
  have updated {i : Fin 3} {thread : Pusher} (new : thread.Within config.n) :
      ∀ other, (Function.update state.patientsThread i thread other).Within config.n :=
    (Function.forall_update_iff _ fun _ (value : Pusher) => value.Within config.n).mpr
      ⟨new, fun other _ => requested.within other⟩
  cases taken with
  | createRequest => exact updated (Nat.zero_le config.n)
  | request _ more => exact updated more
  | requestEnds => exact updated trivial
  | _ => exact requested.within

theorem requested_of_reachable (reached : (client config).Reachable state) :
    state.Requested := by
  apply reached.invariant
  · intro begun initial
    obtain ⟨memory, rfl⟩ := initial
    exact ⟨fun patient => rfl, fun i => trivial⟩
  · intro before label later earlier requested taken
    have ordered := (sound_of_reachable earlier).ordered
    exact ⟨requests_pushed_step ordered requested (next_step taken),
      requests_within_step requested (next_step taken)⟩

/-! ### Quits after data, in the stat buffers -/


theorem honest_of_reply (replies : ∀ reply, config.answers reply = true → Reply reply) :
    Honest config :=
  fun reply answer => (replies reply answer).ne_quit

def StatsClosed (state : State config) : Prop :=
  ∀ i, Sealed "quit" (if i.val < state.main.pushedQuits then 1 else 0)
    (state.rBuff (patsBuffs i)).pushed

theorem Joined.no_quits_pushed (joined : state.Joined) {j : Fin config.w}
    (running : (state.workerThreads j).pc.Running) : state.main.pushedQuits = 0 := by
  by_contra some_pushed
  apply joined j _ running
  rw [Main.joinedWorkers_of_pushedQuits config.w (Nat.pos_of_ne_zero some_pushed)]
  exact j.isLt

theorem StatsClosed.step (honest : Honest config) (joined : state.Joined)
    (accounted : state.Accounted) (closed : state.StatsClosed) (taken : state.Step after) :
    after.StatsClosed := by
  have removed {i : Fin 3} {front : String} {buff : TracedQueue String (config.b / 3)}
      (popped : (state.rBuff (patsBuffs i)).pop? = some (front, buff)) (other : Fin 3) :
      Sealed "quit" (if other.val < state.main.pushedQuits then 1 else 0)
        (Function.update state.rBuff (patsBuffs i) buff (patsBuffs other)).pushed := by
    by_cases same : other = i
    · subst same
      rw [Function.update_self, (TracedQueue.pop?_spec popped).1]
      exact closed other
    · rw [Function.update_of_ne fun equal => same (patsBuffs_injective equal)]
      exact closed other
  cases taken with
  | moves moved =>
      cases moved with
      | @quitsPushed i at_ last =>
          intro other
          have before := closed other
          rw [at_] at before
          have within := other.isLt
          have pushed : other.val < (Main.pushQuit i).pushedQuits := by
            simp only [Main.pushedQuits]
            omega
          rw [if_pos pushed] at before
          change Sealed "quit" (if other.val < 3 then 1 else 0) _
          rw [if_pos within]
          exact before
      | requestsCreated at_ | statsCreated at_ | workersCreated at_ | joinRequest at_
      | requestsJoined at_ | joinQuit at_ | joinWorker at_ | workersJoined at_ | joinStat at_
      | statsJoined at_ =>
          intro other
          have before := closed other
          rw [at_] at before
          exact before
  | @pushQuit i buff at_ within inserted =>
      intro other
      have before := closed other
      rw [at_] at before
      by_cases same : other = ⟨i, within⟩
      · subst same
        have border : ¬ (⟨i, within⟩ : Fin 3).val < (Main.pushQuit i).pushedQuits :=
          Nat.lt_irrefl i
        rw [if_neg border] at before
        change Sealed "quit" (if i < i + 1 then 1 else 0) (Function.update state.rBuff _ buff _).pushed
        rw [if_pos (Nat.lt_succ_self i), Function.update_self,
          (TracedQueue.push?_spec inserted).1]
        exact before.push_mark
      · have differs : other.val ≠ i := fun value => same (Fin.ext value)
        have border : other.val < i + 1 ↔ other.val < i := by omega
        change Sealed "quit" (if other.val < i + 1 then 1 else 0)
          (Function.update state.rBuff _ buff _).pushed
        rw [Function.update_of_ne fun equal => same (patsBuffs_injective equal)]
        simp only [border]
        exact before
  | @workerPush j request response patient buff at_ chosen inserted =>
      have running : (state.workerThreads j).pc.Running := by
        rw [at_]
        exact ⟨WorkerPc.noConfusion, WorkerPc.noConfusion⟩
      have none_pushed := joined.no_quits_pushed running
      have data := honest response ((accounted.valid j).permitted at_)
      intro other
      have before := closed other
      change Sealed "quit" (if other.val < state.main.pushedQuits then 1 else 0)
        (Function.update state.rBuff patient buff (patsBuffs other)).pushed
      rw [none_pushed, if_neg (Nat.not_lt_zero _)] at before ⊢
      by_cases same : patsBuffs other = patient
      · subst same
        rw [Function.update_self, (TracedQueue.push?_spec inserted).1]
        exact before.push_data data
      · rw [Function.update_of_ne same]
        exact before
  | statPop _ popped | statQuit _ popped => exact removed popped
  | createRequest at_ | createStat at_ | createWorker at_ | createWorkerFails at_
  | createQuit at_ | kill at_ =>
      intro other
      have before := closed other
      rw [at_] at before
      exact before
  | _ => exact closed

theorem statsClosed_of_reachable (succeeds : config.failing = none) (honest : Honest config)
    (reached : (client config).Reachable state) : state.StatsClosed := by
  apply reached.invariant
  · intro begun initial
    obtain ⟨memory, rfl⟩ := initial
    exact fun i => .nil "quit"
  · intro before label later earlier closed taken
    exact closed.step honest (inOrder_of_reachable succeeds earlier).joined
      (sound_of_reachable earlier).accounted (next_step taken)

theorem Sound.quits_popped (sound : state.Sound) :
    state.requestBuffer.popped.count "quit" =
      ∑ j, if (state.workerThreads j).pc = .ended ∨
        (state.workerThreads j).pc = .holding "quit" then 1 else 0 := by
  rw [sound.accounted.popped]
  apply Finset.sum_congr rfl
  intro j _
  exact (sound.accounted.valid j).popped_sealed.count

theorem Sound.quits_pushed (sound : state.Sound) :
    state.requestBuffer.pushed.count "quit" = state.quitThread.progress config.w :=
  sound.last.closed.count

/-- As many quits as there are workers have gone through the empty buffer. -/
theorem Sound.drained_of_ended (sound : state.Sound) (positive : 0 < config.w)
    (ended : ∀ j, (state.workerThreads j).pc = .ended) :
    state.quitThread.progress config.w = config.w ∧ state.requestBuffer.items = [] := by
  have popped : state.requestBuffer.popped.count "quit" = config.w := by
    rw [sound.quits_popped]
    simp [ended]
  have total := state.requestBuffer.count_pushed "quit"
  have bound := Pusher.progress_le sound.last.within
  have pushed := sound.quits_pushed
  have all : state.quitThread.progress config.w = config.w := by omega
  have closed := sound.last.closed
  rw [TracedQueue.split, all] at closed
  exact ⟨all, closed.drained popped positive⟩

theorem Sound.requests_ended (sound : state.Sound) (positive : 0 < config.w)
    (ended : ∀ j, (state.workerThreads j).pc = .ended) (i : Fin 3) :
    state.patientsThread i = .ended := by
  have progress := (sound.drained_of_ended positive ended).1
  have created : state.main.createdQuit = true := by
    apply Bool.of_not_eq_false
    intro early
    rw [sound.ordered.quit_created.mpr early] at progress
    simp only [Pusher.progress] at progress
    omega
  exact sound.ordered.requests_joined i
    (by rw [Main.joinedRequests_of_createdQuit created]; exact i.isLt)

private theorem awaiting_of_ended {worker : Worker} (ended : worker.pc = .ended)
    (patient : Patient) : worker.awaiting patient = 0 := by
  unfold Worker.awaiting
  rw [ended]

private theorem returning_of_idle {worker : Worker} (idle : ¬ worker.pc.Running)
    (patient : Patient) (counts : String → Bool) : worker.returning patient counts = 0 := by
  unfold Worker.returning
  split
  · rename_i at_
    rw [at_] at idle
    exact absurd ⟨WorkerPc.noConfusion, WorkerPc.noConfusion⟩ idle
  · rfl

theorem Sound.answered_of_ended (sound : state.Sound) (requested : state.Requested)
    (positive : 0 < config.w) (ended : ∀ j, (state.workerThreads j).pc = .ended)
    (patient : Patient) :
    ∑ j, (state.workerThreads j).answered.countP
      (answeredFor patient Worker.everyResponse) = config.n := by
  have pushed := requested.pushed patient
  rw [sound.requests_ended positive ended, TracedQueue.count_pushed,
    (sound.drained_of_ended positive ended).2, sound.accounted.popped] at pushed
  refine Eq.trans ?_ pushed
  apply Finset.sum_congr rfl
  intro j _
  rw [(sound.accounted.valid j).popped_count patient, awaiting_of_ended (ended j)]
  rfl

theorem Sound.pushed_of_idle (sound : state.Sound)
    (idle : ∀ j, ¬ (state.workerThreads j).pc.Running) (patient : Patient)
    {counts : String → Bool} (data : counts "quit" = false) :
    (state.rBuff patient).pushed.countP counts =
      ∑ j, (state.workerThreads j).answered.countP (answeredFor patient counts) := by
  rw [sound.accounted.pushed patient counts data]
  apply Finset.sum_congr rfl
  intro j _
  rw [(sound.accounted.valid j).answered_count patient counts, returning_of_idle (idle j)]
  rfl

/-! ### The discipline -/

/-- The two queue stages and their `quit` strings. -/
structure Disciplined (state : State config) : Prop where
  /-- The request buffer holds data requests, then quits. -/
  content : (∀ request ∈ state.requestBuffer.items, Queued request) ∧
    ∃ quits, Sealed "quit" quits state.requestBuffer.items
  /-- No data request is pushed after a quit. -/
  history : (∀ request ∈ state.requestBuffer.pushed, Queued request) ∧
    ∃ quits, Sealed "quit" quits state.requestBuffer.pushed
  /-- A worker pops one quit, last, and then ends. -/
  one_quit : ∀ j, Sealed "quit"
    (if (state.workerThreads j).pc = .ended ∨ (state.workerThreads j).pc = .holding "quit"
      then 1 else 0) (state.workerThreads j).popped
  no_early_quit : ∀ buff, state.requestBuffer.pop? = some ("quit", buff) →
    ∀ request ∈ buff.items, request = "quit"
  all_done : (∀ j, (state.workerThreads j).pc = .ended) →
    state.requestBuffer.items = [] ∧
    ∀ patient : Patient,
      ∑ j, (state.workerThreads j).answered.countP
        (answeredFor patient Worker.everyResponse) = config.n ∧
      (state.rBuff patient).pushed.countP notQuit = config.n
  stat_quits : ∀ patient, (state.rBuff patient).pushed.count "quit" ≤ 1 ∧
    ("quit" ∈ (state.rBuff patient).pushed →
      (state.rBuff patient).pushed.getLast? = some "quit")
  stat_drained : ∀ i, (state.patientsStatThread i).pc = .ended →
    (state.rBuff (patsBuffs i)).items = []

private theorem Sound.no_early_quit (sound : state.Sound)
    {buff : TracedQueue String config.b}
    (popped : state.requestBuffer.pop? = some ("quit", buff)) :
    ∀ request ∈ buff.items, request = "quit" := by
  have closed := sound.last.closed
  have split := (TracedQueue.pop?_spec popped).2.2
  rw [TracedQueue.split, split, List.append_cons] at closed
  exact closed.after_mark (List.mem_append_right _ List.mem_cons_self)

theorem Sound.all_replies_pushed (honest : Honest config) (sound : state.Sound)
    (requested : state.Requested) (positive : 0 < config.w)
    (ended : ∀ j, (state.workerThreads j).pc = .ended) (patient : Patient) :
    (state.rBuff patient).pushed.countP notQuit = config.n := by
  rw [sound.pushed_of_idle (fun j running => running.2 (ended j)) patient rfl,
    ← sound.answered_of_ended requested positive ended patient]
  apply Finset.sum_congr rfl
  intro j _
  exact ((sound.accounted.valid j).countP_notQuit honest patient).symm

private theorem StatsClosed.quits (closed : state.StatsClosed) (patient : Patient) :
    (state.rBuff patient).pushed.count "quit" ≤ 1 ∧
      ("quit" ∈ (state.rBuff patient).pushed →
        (state.rBuff patient).pushed.getLast? = some "quit") := by
  obtain ⟨i, rfl⟩ := exists_patsBuffs patient
  have form := closed i
  by_cases pushed : i.val < state.main.pushedQuits
  · rw [if_pos pushed] at form
    exact ⟨Nat.le_of_eq form.count, fun _ => form.last⟩
  · rw [if_neg pushed] at form
    exact ⟨by rw [form.count]; exact Nat.zero_le 1,
      fun impossible => absurd impossible form.data_of_zero⟩

theorem StatsClosed.drained (closed : state.StatsClosed) (last : state.QuitsLast) {i : Fin 3}
    (ended : (state.patientsStatThread i).pc = .ended) :
    (state.rBuff (patsBuffs i)).items = [] := by
  have taken := (last.stats i).sealed.count
  rw [if_pos ended] at taken
  have bound := (closed.quits (patsBuffs i)).1
  have split := (state.rBuff (patsBuffs i)).count_pushed "quit"
  have form := closed i
  have count := form.count
  rw [TracedQueue.split] at form
  apply form.drained
  · omega
  · omega

theorem sentinel_discipline (succeeds : config.failing = none) (honest : Honest config)
    (positive : 1 ≤ config.w) (reached : (client config).Reachable state) :
    state.Disciplined := by
  have sound := sound_of_reachable reached
  have requested := requested_of_reachable reached
  have closed := statsClosed_of_reachable succeeds honest reached
  have quits := sound.last.closed
  have rest := quits
  rw [TracedQueue.split] at rest
  exact
    { content := ⟨fun request member =>
        sound.accounted.queued request (TracedQueue.mem_pushed_of_mem_items member), rest.rest⟩
      history := ⟨sound.accounted.queued, _, quits⟩
      one_quit := fun j => (sound.accounted.valid j).popped_sealed
      no_early_quit := fun buff popped => sound.no_early_quit popped
      all_done := fun ended => ⟨(sound.drained_of_ended positive ended).2, fun patient =>
        ⟨sound.answered_of_ended requested positive ended patient,
          sound.all_replies_pushed honest requested positive ended patient⟩⟩
      stat_quits := closed.quits
      stat_drained := fun i ended => closed.drained sound.last ended }

theorem sentinel_discipline_wholeRun :
    ∃ state, (client smallest).run (initial smallest fun _ => []) wholeRun = some state ∧
      (state.workerThreads onlyWorker).popped = [requestFor 0, requestFor 1, requestFor 2, "quit"] ∧
      (∀ i, (state.patientsStatThread i).pc = .ended) ∧
      (state.rBuff .joe).pushed = ["57", "quit"] ∧ state.Disciplined := by
  have ran : ((client smallest).run (initial smallest fun _ => []) wholeRun).map
      (fun state => ((state.workerThreads onlyWorker).popped, (state.rBuff .joe).pushed,
        decide (∀ i, (state.patientsStatThread i).pc = .ended))) =
      some ([requestFor 0, requestFor 1, requestFor 2, "quit"], ["57", "quit"], true) := by
    decide +kernel
  obtain ⟨state, run, last⟩ := Option.map_eq_some_iff.mp ran
  obtain ⟨popped, rest⟩ := Prod.mk.inj last
  obtain ⟨pushed, ended⟩ := Prod.mk.inj rest
  have start : (client smallest).start (initial smallest fun _ => []) := ⟨_, rfl⟩
  exact ⟨state, run, popped, of_decide_eq_true ended, pushed,
    sentinel_discipline rfl (honest_of_reply fun _ => serverReplies_iff.mp) (by decide)
      ((System.Reachable.begin start).of_run run)⟩

end State

end Netwurk.Client
