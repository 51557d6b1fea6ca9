/-
Requests and replies on the worker connections, for any content of the request
buffer: each connection carries one exchange at a time, so a reply that names no
request reaches the buffer of the patient it was asked for.
-/

import Netwurk.Client.Progress

namespace Netwurk.Client

open Transition RequestChannel

namespace Worker

variable {config : Config} {worker : Worker}

theorem Valid.outstanding (valid : worker.Valid config) :
    worker.reqChan.outstanding ≤ 1 ∧
      (worker.reqChan.outstanding = 1 ↔ ∃ request, worker.pc = .reading request) := by
  cases valid with
  | notStarted phase | popping _ phase | holding _ _ phase | pushing _ phase =>
      rw [phase.outstanding_idle]
      exact ⟨Nat.zero_le 1, iff_of_false Nat.zero_ne_one (by simp)⟩
  | reading _ phase =>
      rw [phase.outstanding_waiting]
      exact ⟨Nat.le_refl 1, iff_of_true rfl ⟨_, rfl⟩⟩
  | ended _ phase =>
      rw [phase.outstanding_left]
      exact ⟨Nat.zero_le 1, iff_of_false Nat.zero_ne_one (by simp)⟩

theorem Valid.answered_begins (valid : worker.Valid config) :
    worker.answered <+: worker.reqChan.handled := by
  cases valid with
  | notStarted phase | popping _ phase | holding _ _ phase | pushing _ phase =>
      rw [phase.idle_handled]
  | reading _ phase =>
      rcases phase.waiting_handled with same | ⟨reply, _, longer⟩
      · rw [same]
      · rw [longer]
        exact List.prefix_append _ _
  | ended _ phase => rw [phase.left_handled]

theorem Valid.reply_of_request {request response : String} {link : Link}
    (valid : worker.Valid config) (at_ : worker.pc = .reading request)
    (read : worker.reqChan.cread = some (response, link)) :
    worker.reqChan.handled = worker.answered ++ [(request, response)] := by
  cases valid with
  | reading _ phase =>
      cases at_
      have idle := (phase.reply read).2
      unfold Link.cread at read
      split at read <;> cases read
      exact idle.idle_handled
  | _ => cases at_

theorem Valid.last_answered {request response : String} (valid : worker.Valid config)
    (at_ : worker.pc = .pushing request response) :
    worker.answered.getLast? = some (request, response) := by
  cases valid with
  | pushing =>
      cases at_
      exact List.getLast?_concat
  | _ => cases at_

private theorem count_farewell {done : List (String × String)} (exchanged : Exchanged config done) :
    (done.map Prod.fst).count "!" = 0 := by
  apply List.count_eq_zero.mpr
  intro member
  obtain ⟨exchange, inside, same⟩ := List.mem_map.mp member
  obtain ⟨⟨patient, key⟩, _⟩ := exchanged exchange inside
  have data : patient.key ≠ "!" := by cases patient <;> decide
  exact data (key.symm.trans same)

theorem Valid.farewell (valid : worker.Valid config) :
    worker.reqChan.sent.count "!" = if worker.pc = .ended then 1 else 0 := by
  cases valid with
  | notStarted phase =>
      rw [phase.idle_sent]
      rfl
  | popping exchanged phase | holding _ exchanged phase =>
      rw [phase.idle_sent, count_farewell exchanged]
      rfl
  | pushing exchanged phase =>
      rw [phase.idle_sent, count_farewell exchanged]
      rfl
  | @reading patient _ _ exchanged phase =>
      have data : patient.key ≠ "!" := by cases patient <;> decide
      rw [phase.waiting_sent, List.count_append, count_farewell exchanged]
      simp [data]
  | ended exchanged phase =>
      rw [phase.left_sent, List.count_append, count_farewell exchanged]
      rfl

end Worker

namespace State

variable {config : Config} {state after : State config}

/-! ### After the farewell -/

theorem Step.holding_of_ended (taken : state.Step after) {j : Fin config.w}
    (ended : (after.workerThreads j).pc = .ended)
    (active : (state.workerThreads j).pc ≠ .ended) :
    (state.workerThreads j).pc = .holding "quit" := by
  have updated {i : Fin config.w} {worker : Worker} (goes_on : worker.pc ≠ .ended)
      (ends : (Function.update state.workerThreads i worker j).pc = .ended) : False := by
    by_cases same : j = i
    · subst same
      rw [Function.update_self] at ends
      exact goes_on ends
    · rw [Function.update_of_ne same] at ends
      exact active ends
  cases taken with
  | createWorker | workerPop | workerRequest | workerRead | workerPush | workerDrop =>
      exact (updated WorkerPc.noConfusion ended).elim
  | @workerQuit i at_ =>
      by_cases same : j = i
      · rw [same]
        exact at_
      · simp only [setWorker, Function.update_of_ne same] at ended
        exact absurd ended active
  | @serveWorker i link =>
      by_cases same : j = i
      · subst same
        simp only [setWorker, Function.update_self] at ended
        exact absurd ended active
      · simp only [setWorker, Function.update_of_ne same] at ended
        exact absurd ended active
  | _ => exact absurd ended active

/-- A connection that has been left, as a later state sees it. -/
def LeftAs (before : Worker) (worker : Worker) : Prop :=
  worker.pc = .ended ∧ worker.reqChan.sent = before.reqChan.sent ∧
    worker.reqChan.handled = before.reqChan.handled ∧ worker.reqChan.toClient = []

private theorem leftAs_served {before worker : Worker} {link : Link}
    (valid : worker.Valid config) (served : Served config.answers worker.reqChan link)
    (left : LeftAs before worker) : LeftAs before { worker with reqChan := link } := by
  obtain ⟨ended, sent, handled, _⟩ := left
  cases valid with
  | ended exchanged phase =>
      have later := served.kept phase
      exact ⟨rfl, (later.left_sent.trans phase.left_sent.symm).trans sent,
        (later.left_handled.trans phase.left_handled.symm).trans handled, later.left_quiet⟩
  | _ => cases ended

theorem Step.stays_left (ordered : state.Ordered) (accounted : state.Accounted)
    (taken : state.Step after) {j : Fin config.w} {before : Worker}
    (left : LeftAs before (state.workerThreads j)) : LeftAs before (after.workerThreads j) := by
  have other {i : Fin config.w} {worker : Worker} (active : (state.workerThreads i).pc ≠ .ended) :
      LeftAs before (Function.update state.workerThreads i worker j) := by
    have differs : j ≠ i := by
      intro same
      subst same
      exact active left.1
    rw [Function.update_of_ne differs]
    exact left
  cases taken with
  | @createWorker i at_ within =>
      apply other
      rw [ordered.workers_uncreated ⟨i, within⟩ (by rw [at_]; exact Nat.le_refl i)]
      exact WorkerPc.noConfusion
  | workerPop at_ | workerQuit at_ | workerRequest at_ | workerRead at_ | workerPush at_
  | workerDrop at_ =>
      apply other
      rw [at_]
      exact WorkerPc.noConfusion
  | @serveWorker i link _ served =>
      by_cases same : j = i
      · subst same
        simpa only [setWorker, Function.update_self] using
          leftAs_served (accounted.valid j) served left
      · simpa only [setWorker, Function.update_of_ne same] using left
  | _ => exact left

/-- The connection of worker `j`, and what its worker does with it. -/
structure Matched (state : State config) (j : Fin config.w) : Prop where
  /-- At most one request or reply is under way, and one exactly between `cwrite`
  and `cread`. -/
  outstanding : (state.workerThreads j).reqChan.outstanding ≤ 1 ∧
    ((state.workerThreads j).reqChan.outstanding = 1 ↔
      ∃ request, (state.workerThreads j).pc = .reading request)
  answered : (state.workerThreads j).answered <+: (state.workerThreads j).reqChan.handled
  reply : ∀ request response link, (state.workerThreads j).pc = .reading request →
    (state.workerThreads j).reqChan.cread = some (response, link) →
      (state.workerThreads j).reqChan.handled =
        (state.workerThreads j).answered ++ [(request, response)]
  /-- The response goes to the buffer of the patient it was requested for, and to
  no other. -/
  pushed : ∀ request response after, (state.workerThreads j).pc = .pushing request response →
    state.next (.worker j) = some after →
      (state.workerThreads j).answered.getLast? = some (request, response) ∧
      ∃ patient : Patient, request = patient.key ∧
        (after.rBuff patient).pushed = (state.rBuff patient).pushed ++ [response] ∧
        ∀ other, other ≠ patient → after.rBuff other = state.rBuff other
  farewell : (state.workerThreads j).reqChan.sent.count "!" =
    if (state.workerThreads j).pc = .ended then 1 else 0
  leaves : ∀ label after, state.next label = some after →
    (after.workerThreads j).reqChan.sent.count "!" ≠
      (state.workerThreads j).reqChan.sent.count "!" →
    (state.workerThreads j).reqChan.outstanding = 0 ∧
      (after.workerThreads j).reqChan.outstanding = 0

private theorem Sound.pushed_to_patient (sound : state.Sound) {j : Fin config.w}
    {request response : String} (at_ : (state.workerThreads j).pc = .pushing request response)
    (taken : state.next (.worker j) = some after) :
    ∃ patient : Patient, request = patient.key ∧
      (after.rBuff patient).pushed = (state.rBuff patient).pushed ++ [response] ∧
      ∀ other, other ≠ patient → after.rBuff other = state.rBuff other := by
  obtain ⟨patient, rfl⟩ := (sound.accounted.valid j).known at_
  refine ⟨patient, rfl, ?_⟩
  unfold next at taken
  split at taken
  · cases taken
  simp only [workerThreadFunction, at_, bufferFor_key] at taken
  split at taken
  · cases taken
  · rename_i buff inserted
    cases taken
    constructor
    · simp only [setWorker, setBuff, Function.update_self]
      exact (TracedQueue.push?_spec inserted).1
    · intro other differs
      simp only [setWorker, setBuff, Function.update_of_ne differs]

private theorem Sound.leftAs_self (sound : state.Sound) {j : Fin config.w}
    (ended : (state.workerThreads j).pc = .ended) :
    LeftAs (state.workerThreads j) (state.workerThreads j) := by
  refine ⟨ended, rfl, rfl, ?_⟩
  have valid := sound.accounted.valid j
  generalize state.workerThreads j = worker at valid ended
  cases valid with
  | ended _ phase => exact phase.left_quiet
  | _ => cases ended

private theorem Sound.leaves (sound : state.Sound) (later : after.Sound) {j : Fin config.w}
    (taken : state.Step after)
    (writes : (after.workerThreads j).reqChan.sent.count "!" ≠
      (state.workerThreads j).reqChan.sent.count "!") :
    (state.workerThreads j).reqChan.outstanding = 0 ∧
      (after.workerThreads j).reqChan.outstanding = 0 := by
  have valid := sound.accounted.valid j
  have validAfter := later.accounted.valid j
  rw [valid.farewell, validAfter.farewell] at writes
  have silent {worker : Worker} (valid : worker.Valid config)
      (elsewhere : ¬ ∃ request, worker.pc = .reading request) :
      worker.reqChan.outstanding = 0 := by
    have one := valid.outstanding.2.not.mpr elsewhere
    have bound := valid.outstanding.1
    omega
  by_cases active : (state.workerThreads j).pc = .ended
  · have left := sound.leftAs_self active
    have stays := (taken.stays_left sound.ordered sound.accounted left).1
    rw [if_pos active, if_pos stays] at writes
    exact absurd rfl writes
  · rw [if_neg active] at writes
    have ended : (after.workerThreads j).pc = .ended := by
      by_contra other
      rw [if_neg other] at writes
      exact writes rfl
    have holding := taken.holding_of_ended ended active
    constructor
    · apply silent valid
      rw [holding]
      intro both
      obtain ⟨request, impossible⟩ := both
      cases impossible
    · apply silent validAfter
      rw [ended]
      intro both
      obtain ⟨request, impossible⟩ := both
      cases impossible

theorem Sound.matched (sound : state.Sound) (j : Fin config.w) : state.Matched j where
  outstanding := (sound.accounted.valid j).outstanding
  answered := (sound.accounted.valid j).answered_begins
  reply := fun _ _ _ at_ read => (sound.accounted.valid j).reply_of_request at_ read
  pushed := fun _ _ _ at_ taken =>
    ⟨(sound.accounted.valid j).last_answered at_, sound.pushed_to_patient at_ taken⟩
  farewell := (sound.accounted.valid j).farewell
  leaves := fun _ _ taken writes => sound.leaves (sound.step (next_step taken)) (next_step taken)
    writes

end State

variable {config : Config}

end Netwurk.Client
