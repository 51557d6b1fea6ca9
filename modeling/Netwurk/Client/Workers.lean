/-
The workers and their connections. Each worker alternates with its server thread,
so a reply belongs to the request the worker holds although it does not name it.
What the workers took and put away accounts for the buffers at both ends.
-/

import Netwurk.Foundation.Families
import Netwurk.Foundation.Sentinel
import Netwurk.Client.Order

namespace Netwurk.Client

open Transition RequestChannel CString

def Config.Permits (config : Config) (reply : String) : Prop := config.answers reply = true

/-- No reply is taken for the end of the data. -/
def Honest (config : Config) : Prop := ∀ reply, config.answers reply = true → reply ≠ "quit"

def notQuit (text : String) : Bool := decide (text ≠ "quit")

def Queued (request : String) : Prop :=
  request = "quit" ∨ ∃ patient : Patient, request = patient.key

theorem key_request (patient : Patient) : Request patient.key where
  data := by cases patient <;> decide
  free := by cases patient <;> decide

theorem key_ne_quit (patient : Patient) : patient.key ≠ "quit" := by
  cases patient <;> decide

theorem bufferFor_key (patient : Patient) : bufferFor patient.key = some patient := by
  cases patient <;> decide

def requester : Patient → Fin 3
  | .joe => 0
  | .john => 1
  | .jane => 2

theorem requestFor_eq_key_iff (i : Fin 3) (patient : Patient) :
    requestFor i = patient.key ↔ i = requester patient := by
  revert i
  cases patient <;> decide

theorem requestFor_queued (i : Fin 3) : Queued (requestFor i) := by
  match i with
  | 0 => exact .inr ⟨.joe, by decide⟩
  | 1 => exact .inr ⟨.john, by decide⟩
  | 2 => exact .inr ⟨.jane, by decide⟩

theorem Queued.patient {request : String} (queued : Queued request) (data : request ≠ "quit") :
    ∃ patient : Patient, request = patient.key := by
  rcases queued with quit | patient
  · exact absurd quit data
  · exact patient

theorem State.Served.kept {config : Config} {link after : Link}
    (served : Served config.answers link after) {done : List (String × String)} {phase : Phase}
    (position : link.At config.Permits done phase) : after.At config.Permits done phase := by
  cases served with
  | recv taken => exact position.recv taken
  | act answer taken => exact position.act answer taken

/-! ### One worker -/

/-- Where an exchange ends up. -/
def route (exchange : String × String) : Option (Patient × String) :=
  (bufferFor exchange.1).map fun patient => (patient, exchange.2)

def pushedTo (patient : Patient) (counts : String → Bool) (push : Patient × String) : Bool :=
  decide (push.1 = patient) && counts push.2

def answeredFor (patient : Patient) (counts : String → Bool) (exchange : String × String) :
    Bool :=
  decide (exchange.1 = patient.key) && counts exchange.2

theorem route_key (patient : Patient) (response : String) :
    route (patient.key, response) = some (patient, response) := by
  simp [route, bufferFor_key]

namespace Worker

variable {config : Config}

def Exchanged (config : Config) (done : List (String × String)) : Prop :=
  ∀ exchange ∈ done, (∃ patient : Patient, exchange.1 = patient.key) ∧ config.Permits exchange.2

theorem Exchanged.append {done : List (String × String)} (exchanged : Exchanged config done)
    (patient : Patient) {response : String} (permitted : config.Permits response) :
    Exchanged config (done ++ [(patient.key, response)]) := by
  intro exchange member
  rcases List.mem_append.mp member with before | last
  · exact exchanged exchange before
  · rw [List.mem_singleton.mp last]
    exact ⟨⟨patient, rfl⟩, permitted⟩

/-- The histories of a worker and the phase of its connection at each of its
positions. -/
inductive Valid (config : Config) : Worker → Prop
  | notStarted {link : Link} (phase : link.At config.Permits [] .idle) :
      Valid config ⟨.notStarted, link, [], [], []⟩
  | popping {link : Link} {done : List (String × String)} (exchanged : Exchanged config done)
      (phase : link.At config.Permits done .idle) :
      Valid config ⟨.popping, link, done.map Prod.fst, done, done.filterMap route⟩
  | holding {request : String} {link : Link} {done : List (String × String)}
      (queued : Queued request) (exchanged : Exchanged config done)
      (phase : link.At config.Permits done .idle) :
      Valid config ⟨.holding request, link, done.map Prod.fst ++ [request], done,
        done.filterMap route⟩
  | reading {patient : Patient} {link : Link} {done : List (String × String)}
      (exchanged : Exchanged config done)
      (phase : link.At config.Permits done (.waiting patient.key)) :
      Valid config ⟨.reading patient.key, link, done.map Prod.fst ++ [patient.key], done,
        done.filterMap route⟩
  | pushing {patient : Patient} {response : String} {link : Link}
      {done : List (String × String)}
      (exchanged : Exchanged config (done ++ [(patient.key, response)]))
      (phase : link.At config.Permits (done ++ [(patient.key, response)]) .idle) :
      Valid config ⟨.pushing patient.key response, link, done.map Prod.fst ++ [patient.key],
        done ++ [(patient.key, response)], done.filterMap route⟩
  | ended {link : Link} {done : List (String × String)} (exchanged : Exchanged config done)
      (phase : link.At config.Permits done (.left .close)) :
      Valid config ⟨.ended, link, done.map Prod.fst ++ ["quit"], done, done.filterMap route⟩

variable {worker : Worker}

theorem Valid.start (valid : worker.Valid config) (at_ : worker.pc = .notStarted) :
    Valid config { worker with pc := .popping } := by
  cases valid with
  | notStarted phase => exact .popping (by intro exchange member; cases member) phase
  | _ => cases at_

theorem Valid.pop (valid : worker.Valid config) (at_ : worker.pc = .popping) {request : String}
    (queued : Queued request) :
    Valid config
      { worker with
        pc := .holding request
        popped := worker.popped ++ [request] } := by
  cases valid with
  | popping exchanged phase => exact .holding queued exchanged phase
  | _ => cases at_

theorem Valid.quit (valid : worker.Valid config) (at_ : worker.pc = .holding "quit") :
    Valid config
      { worker with
        pc := .ended
        reqChan := worker.reqChan.cwrite "!" } := by
  cases valid with
  | holding _ exchanged phase =>
      cases at_
      exact .ended exchanged (phase.leave .close)
  | _ => cases at_

theorem Valid.request {request : String} (valid : worker.Valid config)
    (at_ : worker.pc = .holding request) (data : request ≠ "quit") :
    Valid config
      { worker with
        pc := .reading request
        reqChan := worker.reqChan.cwrite request } := by
  cases valid with
  | holding queued exchanged phase =>
      cases at_
      obtain ⟨patient, rfl⟩ := queued.patient data
      exact .reading exchanged (phase.request (key_request patient))
  | _ => cases at_

theorem Valid.read {request response : String} {link : Link} (valid : worker.Valid config)
    (at_ : worker.pc = .reading request)
    (taken : worker.reqChan.cread = some (response, link)) :
    Valid config
      { worker with
        pc := .pushing request response
        reqChan := link
        answered := worker.answered ++ [(request, response)] } := by
  cases valid with
  | reading exchanged phase =>
      cases at_
      obtain ⟨permitted, idle⟩ := phase.reply taken
      exact .pushing (exchanged.append _ permitted) idle
  | _ => cases at_

theorem Valid.push {request response : String} {patient : Patient} (valid : worker.Valid config)
    (at_ : worker.pc = .pushing request response) (chosen : bufferFor request = some patient) :
    Valid config
      { worker with
        pc := .popping
        pushes := worker.pushes ++ [(patient, response)] } := by
  cases valid with
  | @pushing patient' _ link done exchanged phase =>
      cases at_
      rw [bufferFor_key] at chosen
      cases chosen
      have popping := Valid.popping exchanged phase
      simpa [List.filterMap_append, route_key] using popping
  | _ => cases at_

theorem Valid.served {link : Link} (valid : worker.Valid config)
    (served : State.Served config.answers worker.reqChan link) :
    Valid config { worker with reqChan := link } := by
  cases valid with
  | notStarted phase => exact .notStarted (served.kept phase)
  | popping exchanged phase => exact .popping exchanged (served.kept phase)
  | holding queued exchanged phase => exact .holding queued exchanged (served.kept phase)
  | reading exchanged phase => exact .reading exchanged (served.kept phase)
  | pushing exchanged phase => exact .pushing exchanged (served.kept phase)
  | ended exchanged phase => exact .ended exchanged (served.kept phase)

theorem Valid.known {request response : String} (valid : worker.Valid config)
    (at_ : worker.pc = .pushing request response) :
    ∃ patient : Patient, request = patient.key := by
  cases valid with
  | pushing =>
      cases at_
      exact ⟨_, rfl⟩
  | _ => cases at_

theorem Valid.permitted {request response : String} (valid : worker.Valid config)
    (at_ : worker.pc = .pushing request response) : config.Permits response := by
  cases valid with
  | pushing exchanged =>
      cases at_
      exact (exchanged _ (List.mem_append_right _ List.mem_cons_self)).2
  | _ => cases at_

theorem Valid.exchanged (valid : worker.Valid config) : Exchanged config worker.answered := by
  cases valid with
  | notStarted =>
      intro exchange member
      cases member
  | popping exchanged | holding _ exchanged | reading exchanged | pushing exchanged
  | ended exchanged => exact exchanged

def everyResponse (_ : String) : Bool := true

theorem Valid.countP_notQuit (honest : Honest config) (valid : worker.Valid config)
    (patient : Patient) :
    worker.answered.countP (answeredFor patient everyResponse) =
      worker.answered.countP (answeredFor patient notQuit) := by
  apply List.countP_congr
  intro exchange member
  have data := honest _ (valid.exchanged exchange member).2
  simp [answeredFor, notQuit, everyResponse, data]

/-- What a worker has put away is what it has read for the patient, up to the
response it is about to push. -/
theorem Exchanged.countP_route {done : List (String × String)} (exchanged : Exchanged config done)
    (patient : Patient) (counts : String → Bool) :
    (done.filterMap route).countP (pushedTo patient counts) =
      done.countP (answeredFor patient counts) := by
  rw [List.countP_filterMap]
  apply List.countP_congr
  intro exchange member
  obtain ⟨⟨other, key⟩, _⟩ := exchanged exchange member
  have same : decide (other = patient) = decide (exchange.1 = patient.key) := by
    apply decide_eq_decide.mpr
    rw [key]
    exact ⟨congrArg Patient.key, Patient.key_injective⟩
  simp [route, key, bufferFor_key, pushedTo, answeredFor, same]

def awaiting (patient : Patient) (worker : Worker) : Nat :=
  match worker.pc with
  | .holding request | .reading request => if request = patient.key then 1 else 0
  | _ => 0

def returning (patient : Patient) (counts : String → Bool) (worker : Worker) : Nat :=
  match worker.pc with
  | .pushing request response => if answeredFor patient counts (request, response) then 1 else 0
  | _ => 0

theorem count_eq_answeredFor (done : List (String × String)) (patient : Patient) :
    (done.map Prod.fst).count patient.key = done.countP (answeredFor patient everyResponse) := by
  rw [List.count, List.countP_map]
  apply List.countP_congr
  intro exchange _
  simp [answeredFor, everyResponse]

theorem Valid.popped_count (valid : worker.Valid config) (patient : Patient) :
    worker.popped.count patient.key =
      worker.answered.countP (answeredFor patient everyResponse) + worker.awaiting patient := by
  cases valid with
  | notStarted => rfl
  | popping => exact count_eq_answeredFor _ patient
  | holding | reading =>
      rw [List.count_append, count_eq_answeredFor, List.count_singleton]
      simp [awaiting]
  | pushing =>
      rw [← count_eq_answeredFor]
      simp [awaiting]
  | ended =>
      rw [List.count_append, count_eq_answeredFor, List.count_singleton,
        if_neg (by simpa using (key_ne_quit patient).symm)]
      rfl

theorem Valid.answered_count (valid : worker.Valid config) (patient : Patient)
    (counts : String → Bool) :
    worker.answered.countP (answeredFor patient counts) =
      worker.pushes.countP (pushedTo patient counts) + worker.returning patient counts := by
  cases valid with
  | notStarted => rfl
  | popping exchanged | holding _ exchanged | reading exchanged | ended exchanged =>
      rw [exchanged.countP_route]
      rfl
  | pushing exchanged =>
      have before : Exchanged config _ := fun exchange member =>
        exchanged exchange (List.mem_append_left _ member)
      rw [before.countP_route, List.countP_append, List.countP_singleton]
      rfl

theorem Valid.popped_sealed (valid : worker.Valid config) :
    Sealed "quit" (if worker.pc = .ended ∨ worker.pc = .holding "quit" then 1 else 0)
      worker.popped := by
  have data {done : List (String × String)} (exchanged : Exchanged config done) :
      Sealed "quit" 0 (done.map Prod.fst) := by
    apply Sealed.of_data
    intro member
    obtain ⟨exchange, inside, quit⟩ := List.mem_map.mp member
    obtain ⟨⟨patient, key⟩, _⟩ := exchanged exchange inside
    exact key_ne_quit patient (key.symm.trans quit)
  cases valid with
  | notStarted => exact .nil "quit"
  | popping exchanged => simpa using data exchanged
  | @holding request _ _ _ exchanged =>
      by_cases quit : request = "quit"
      · simpa [quit] using (data exchanged).push_mark
      · simpa [quit] using (data exchanged).push_data quit
  | @reading patient _ _ exchanged =>
      simpa using (data exchanged).push_data (key_ne_quit patient)
  | pushing exchanged => simpa using data exchanged
  | ended exchanged => simpa using (data exchanged).push_mark

/-- The connection of a worker is in some phase that is not the end of the server. -/
theorem Valid.phase (valid : worker.Valid config) :
    ∃ done phase, worker.reqChan.At config.Permits done phase ∧ phase ≠ .left .exit := by
  cases valid with
  | notStarted phase | popping _ phase | holding _ _ phase | reading _ phase | pushing _ phase
  | ended _ phase => exact ⟨_, _, phase, by simp⟩

end Worker

/-! ### All workers -/

namespace State

variable {config : Config} {state after : State config}

/-- Request buffer, workers and stat buffers account for each other. -/
structure Accounted (state : State config) : Prop where
  queued : ∀ request ∈ state.requestBuffer.pushed, Queued request
  valid : ∀ j, (state.workerThreads j).Valid config
  popped : ∀ request, state.requestBuffer.popped.count request =
    ∑ j, (state.workerThreads j).popped.count request
  pushed : ∀ patient (counts : String → Bool), counts "quit" = false →
    (state.rBuff patient).pushed.countP counts =
      ∑ j, (state.workerThreads j).pushes.countP (pushedTo patient counts)

private theorem queued_step (accounted : state.Accounted) (taken : state.Step after) :
    ∀ request ∈ after.requestBuffer.pushed, Queued request := by
  have queued := accounted.queued
  cases taken with
  | @request i _ buff _ _ pushed =>
      intro request member
      rw [(TracedQueue.push?_spec pushed).1] at member
      rcases List.mem_append.mp member with before | last
      · exact queued request before
      · rw [List.mem_singleton.mp last]
        exact requestFor_queued i
  | quit _ _ pushed =>
      intro request member
      rw [(TracedQueue.push?_spec pushed).1] at member
      rcases List.mem_append.mp member with before | last
      · exact queued request before
      · exact .inl (List.mem_singleton.mp last)
  | workerPop _ popped =>
      intro request member
      rw [(TracedQueue.pop?_spec popped).1] at member
      exact queued request member
  | _ => exact queued

private theorem valid_step (ordered : state.Ordered) (accounted : state.Accounted)
    (taken : state.Step after) : ∀ j, (after.workerThreads j).Valid config := by
  have valid := accounted.valid
  have updated {j : Fin config.w} {worker : Worker} (new : worker.Valid config) :
      ∀ other, (Function.update state.workerThreads j worker other).Valid config :=
    (Function.forall_update_iff _ fun _ (value : Worker) => value.Valid config).mpr
      ⟨new, fun other _ => valid other⟩
  cases taken with
  | @createWorker i at_ within =>
      have absent : (state.workerThreads ⟨i, within⟩).pc = .notStarted :=
        ordered.workers_uncreated _ (by rw [at_]; exact Nat.le_refl i)
      exact updated ((valid _).start absent)
  | workerPop at_ popped =>
      have member := TracedQueue.mem_pushed_of_mem_items
        ((TracedQueue.pop?_spec popped).2.2 ▸ List.mem_cons_self)
      exact updated ((valid _).pop at_ (accounted.queued _ member))
  | workerQuit at_ => exact updated ((valid _).quit at_)
  | workerRequest at_ data => exact updated ((valid _).request at_ data)
  | workerRead at_ read => exact updated ((valid _).read at_ read)
  | workerPush at_ chosen => exact updated ((valid _).push at_ chosen)
  | workerDrop at_ unknown =>
      obtain ⟨patient, rfl⟩ := (valid _).known at_
      rw [bufferFor_key] at unknown
      cases unknown
  | serveWorker _ served => exact updated ((valid _).served served)
  | _ => exact valid

private theorem popped_step (accounted : state.Accounted) (taken : state.Step after) :
    ∀ request, after.requestBuffer.popped.count request =
      ∑ j, (after.workerThreads j).popped.count request := by
  intro request
  have popped := accounted.popped request
  have grown (extra : List String) {j : Fin config.w} {worker : Worker}
      (same : worker.popped = (state.workerThreads j).popped ++ extra) :
      ∑ other, (Function.update state.workerThreads j worker other).popped.count request =
        state.requestBuffer.popped.count request + extra.count request := by
    rw [popped]
    apply Families.sum_update_grow (fun _ (worker : Worker) => worker.popped.count request)
    rw [same, List.count_append]
  cases taken with
  | request _ _ pushed | quit _ _ pushed =>
      rw [(TracedQueue.push?_spec pushed).2.1]
      exact popped
  | @workerPop j front buff at_ taken =>
      rw [(TracedQueue.pop?_spec taken).2.1, List.count_append]
      exact (grown [front] rfl).symm
  | createWorker | workerQuit | workerRequest | workerRead | workerPush | workerDrop
  | serveWorker => exact (grown [] (by simp)).symm
  | _ => exact popped

private theorem pushed_step (accounted : state.Accounted) (taken : state.Step after) :
    ∀ patient (counts : String → Bool), counts "quit" = false →
      (after.rBuff patient).pushed.countP counts =
        ∑ j, (after.workerThreads j).pushes.countP (pushedTo patient counts) := by
  intro patient counts data
  have pushed := accounted.pushed patient counts data
  have grown (extra : List (Patient × String)) {j : Fin config.w} {worker : Worker}
      (same : worker.pushes = (state.workerThreads j).pushes ++ extra) :
      ∑ other, (Function.update state.workerThreads j worker other).pushes.countP
          (pushedTo patient counts) =
        (state.rBuff patient).pushed.countP counts + extra.countP (pushedTo patient counts) := by
    rw [pushed]
    apply Families.sum_update_grow (fun _ (worker : Worker) =>
      worker.pushes.countP (pushedTo patient counts))
    rw [same, List.countP_append]
  have buffered (extra : List String) {other : Patient}
      {buff : TracedQueue String (config.b / 3)}
      (same : buff.pushed = (state.rBuff other).pushed ++ extra) :
      (Function.update state.rBuff other buff patient).pushed.countP counts =
        (state.rBuff patient).pushed.countP counts +
          (extra.map (Prod.mk other)).countP (pushedTo patient counts) := by
    rw [List.countP_map]
    by_cases here : patient = other
    · subst here
      simp [Function.comp_def, pushedTo, same, List.countP_append]
    · simp [Function.update_of_ne here, Function.comp_def, pushedTo, Ne.symm here]
  cases taken with
  | pushQuit _ _ inserted =>
      apply (buffered ["quit"] (TracedQueue.push?_spec inserted).1).trans
      rw [List.map_singleton, List.countP_singleton]
      simp only [pushedTo, data, Bool.and_false]
      exact pushed
  | @workerPush _ _ response _ _ _ _ inserted =>
      apply (buffered [response] (TracedQueue.push?_spec inserted).1).trans
      exact (grown [(_, response)] rfl).symm
  | statPop _ removed | statQuit _ removed =>
      apply (buffered [] ((TracedQueue.pop?_spec removed).1.trans (List.append_nil _).symm)).trans
      exact pushed
  | createWorker | workerPop | workerQuit | workerRequest | workerRead | workerDrop
  | serveWorker => exact (grown [] (by simp)).symm
  | _ => exact pushed

theorem Accounted.step (ordered : state.Ordered) (accounted : state.Accounted)
    (taken : state.Step after) : after.Accounted where
  queued := queued_step accounted taken
  valid := valid_step ordered accounted taken
  popped := popped_step accounted taken
  pushed := pushed_step accounted taken

theorem accounted_initial (memory : Option (Fin config.w) → List Char) :
    (initial config memory).Accounted where
  queued := by
    intro request member
    cases member
  valid := fun j => .notStarted (Link.at_opened _)
  popped := by simp [initial, Worker.idle]
  pushed := by simp [initial, Worker.idle]

end State

end Netwurk.Client
