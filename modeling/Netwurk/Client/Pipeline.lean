/-
The client of the data server: main, three request threads, the quit thread, the
workers and three stat threads, with one server thread for each connection. A
label names who moves. `push` and `pop` are atomic and block exactly while their
buffer is full or empty, messages are delivered whole and in order, and joining
blocks until the joined thread has ended.
-/

import Mathlib.Data.Fin.VecNotation
import Netwurk.Foundation.Transition
import Netwurk.Foundation.TracedQueue
import Netwurk.RequestChannel.Connection
import Netwurk.Histogram

namespace Netwurk.Client

open Transition RequestChannel

/-- The command line, what the server may answer to a data request, and the
worker whose creation fails, if any. -/
structure Config where
  n : Nat
  w : Nat
  b : Nat
  answers : String → Bool
  failing : Option Nat

inductive Main where
  | createRequest (i : Nat)
  | createStat (i : Nat)
  | createWorker (i : Nat)
  | joinRequest (i : Nat)
  | createQuit
  | joinQuit
  | joinWorker (i : Nat)
  | kill
  | pushQuit (i : Nat)
  | joinStat (i : Nat)
  | finished
deriving DecidableEq

/-- A thread that pushes one string `n` times. -/
inductive Pusher where
  | notStarted
  | looping (i : Nat)
  | ended
deriving DecidableEq

inductive WorkerPc where
  | notStarted
  | popping
  | holding (request : String)
  | reading (request : String)
  | pushing (request response : String)
  | ended
deriving DecidableEq

/-- `popped`, `answered` and `pushes` record what the worker took from the
request buffer, the responses it read and the buffers it put them into. -/
structure Worker where
  pc : WorkerPc
  reqChan : Link
  popped : List String
  answered : List (String × String)
  pushes : List (Patient × String)
deriving DecidableEq

inductive StatPc where
  | notStarted
  | popping
  | updating (response : String)
  | ended
deriving DecidableEq

/-- `counted` records the responses passed to `update`. -/
structure StatThread where
  pc : StatPc
  counted : List String
deriving DecidableEq

/-- `exited` is about the server process; `crashed` is set when the client
process is ended by an uncaught exception or by a failing `cread`. -/
structure State (config : Config) where
  main : Main
  noError : Bool
  requestBuffer : TracedQueue String config.b
  rBuff : Patient → TracedQueue String (config.b / 3)
  patientsThread : Fin 3 → Pusher
  quitThread : Pusher
  workerThreads : Fin config.w → Worker
  patientsStatThread : Fin 3 → StatThread
  chan : Link
  hist : Histogram
  exited : Bool
  crashed : Bool

/-! ### The tables of the source -/

def patients : Fin 3 → String := ![ "Joe Smith", "John Smith", "Jane Smith"]

/-- `pats_buffs`; main pushes the stat quits in the same order. -/
def patsBuffs : Fin 3 → Patient := ![.john, .jane, .joe]

def requestFor (i : Fin 3) : String := "data " ++ patients i

/-- The buffer for the response to a request, as the workers choose it. -/
def bufferFor (request : String) : Option Patient :=
  if request = "data Joe Smith" then some .joe
  else if request = "data John Smith" then some .john
  else if request = "data Jane Smith" then some .jane
  else none

def updateKey (whichPerson : Fin 3) : String :=
  if whichPerson = 0 then "data John Smith"
  else if whichPerson = 1 then "data Jane Smith"
  else "data Joe Smith"

theorem patsBuffs_injective {i other : Fin 3} (same : patsBuffs i = patsBuffs other) :
    i = other := by
  revert same
  revert i other
  decide

theorem updateKey_eq_key (i : Fin 3) : updateKey i = (patsBuffs i).key := by
  revert i
  decide

/-- The replies of the shipped server: decimals of `rand() % 100`. -/
def serverReplies (reply : String) : Bool :=
  (List.range 100).any fun value => reply = String.ofList (to_string value)

/-! ### Steps -/

inductive Label (w : Nat) where
  | main
  | request (i : Fin 3)
  | quits
  | worker (j : Fin w)
  | recv (connection : Option (Fin w))
  | act (connection : Option (Fin w)) (trach : String)
  | stat (i : Fin 3)
deriving DecidableEq

namespace State

variable {config : Config}

def setMain (state : State config) (main : Main) : State config :=
  { state with main := main }

def setWorker (state : State config) (j : Fin config.w) (worker : Worker) : State config :=
  { state with workerThreads := Function.update state.workerThreads j worker }

def setStat (state : State config) (i : Fin 3) (thread : StatThread) : State config :=
  { state with patientsStatThread := Function.update state.patientsStatThread i thread }

def setRequest (state : State config) (i : Fin 3) (thread : Pusher) : State config :=
  { state with patientsThread := Function.update state.patientsThread i thread }

def setBuff (state : State config) (patient : Patient)
    (buff : TracedQueue String (config.b / 3)) : State config :=
  { state with rBuff := Function.update state.rBuff patient buff }

def link (state : State config) : Option (Fin config.w) → Link
  | none => state.chan
  | some j => (state.workerThreads j).reqChan

/-- A step of a server thread on its connection; `exit(0)` ends them all. -/
def serve (state : State config) (connection : Option (Fin config.w)) (link : Link) :
    State config :=
  match connection with
  | none =>
      { state with
        chan := link
        exited := link.session.status = .exited }
  | some j =>
      { state.setWorker j { state.workerThreads j with reqChan := link } with
        exited := link.session.status = .exited }

def mainThread (state : State config) : Option (State config) :=
  match state.main with
  | .createRequest i =>
      if within : i < 3 then
        some ((state.setRequest ⟨i, within⟩ (.looping 0)).setMain (.createRequest (i + 1)))
      else some (state.setMain (.createStat 0))
  | .createStat i =>
      if within : i < 3 then
        some ((state.setStat ⟨i, within⟩
          { state.patientsStatThread ⟨i, within⟩ with pc := .popping }).setMain
            (.createStat (i + 1)))
      else some (state.setMain (.createWorker 0))
  | .createWorker i =>
      if within : i < config.w then
        if config.failing = some i then
          some { state with
            noError := false
            main := .joinRequest 0 }
        else
          some ((state.setWorker ⟨i, within⟩
            { state.workerThreads ⟨i, within⟩ with pc := .popping }).setMain
              (.createWorker (i + 1)))
      else some (state.setMain (.joinRequest 0))
  | .joinRequest i =>
      if within : i < 3 then
        if state.patientsThread ⟨i, within⟩ = .ended then
          some (state.setMain (.joinRequest (i + 1)))
        else none
      else some (state.setMain .createQuit)
  | .createQuit => some { state with
      quitThread := .looping 0
      main := .joinQuit }
  | .joinQuit =>
      if state.noError = true → state.quitThread = .ended then
        some (state.setMain (.joinWorker 0))
      else none
  | .joinWorker i =>
      if within : i < config.w then
        if state.noError = true → (state.workerThreads ⟨i, within⟩).pc = .ended then
          some (state.setMain (.joinWorker (i + 1)))
        else none
      else some (state.setMain .kill)
  | .kill => some { state with
      chan := state.chan.cwrite "!!"
      main := .pushQuit 0 }
  | .pushQuit i =>
      if within : i < 3 then
        match (state.rBuff (patsBuffs ⟨i, within⟩)).push? "quit" with
        | none => none
        | some buff => some
            ((state.setBuff (patsBuffs ⟨i, within⟩) buff).setMain (.pushQuit (i + 1)))
      else some (state.setMain (.joinStat 0))
  | .joinStat i =>
      if within : i < 3 then
        if (state.patientsStatThread ⟨i, within⟩).pc = .ended then
          some (state.setMain (.joinStat (i + 1)))
        else none
      else some (state.setMain .finished)
  | .finished => none

def requestThreadFunction (state : State config) (i : Fin 3) : Option (State config) :=
  match state.patientsThread i with
  | .looping k =>
      if k < config.n then
        match state.requestBuffer.push? (requestFor i) with
        | none => none
        | some buff => some
            { state.setRequest i (.looping (k + 1)) with requestBuffer := buff }
      else some (state.setRequest i .ended)
  | _ => none

def requestQuits (state : State config) : Option (State config) :=
  match state.quitThread with
  | .looping k =>
      if k < config.w then
        match state.requestBuffer.push? "quit" with
        | none => none
        | some buff => some
            { state with
              quitThread := .looping (k + 1)
              requestBuffer := buff }
      else some { state with quitThread := .ended }
  | _ => none

def workerThreadFunction (state : State config) (j : Fin config.w) : Option (State config) :=
  let worker := state.workerThreads j
  match worker.pc with
  | .popping =>
      match state.requestBuffer.pop? with
      | none => none
      | some (request, buff) => some
          { state.setWorker j
              { worker with
                pc := .holding request
                popped := worker.popped ++ [request] } with
            requestBuffer := buff }
  | .holding request =>
      if request = "quit" then
        some (state.setWorker j
          { worker with
            pc := .ended
            reqChan := worker.reqChan.cwrite "!" })
      else
        some (state.setWorker j
          { worker with
            pc := .reading request
            reqChan := worker.reqChan.cwrite request })
  | .reading request =>
      match worker.reqChan.cread with
      | some (response, link) => some (state.setWorker j
          { worker with
            pc := .pushing request response
            reqChan := link
            answered := worker.answered ++ [(request, response)] })
      | none => if state.exited then some { state with crashed := true } else none
  | .pushing request response =>
      match bufferFor request with
      | none => some (state.setWorker j { worker with pc := .popping })
      | some patient =>
          match (state.rBuff patient).push? response with
          | none => none
          | some buff => some
              ((state.setBuff patient buff).setWorker j
                { worker with
                  pc := .popping
                  pushes := worker.pushes ++ [(patient, response)] })
  | _ => none

def statThreadFunction (state : State config) (i : Fin 3) : Option (State config) :=
  let thread := state.patientsStatThread i
  match thread.pc with
  | .popping =>
      match (state.rBuff (patsBuffs i)).pop? with
      | none => none
      | some (response, buff) =>
          if response = "quit" then
            some ((state.setBuff (patsBuffs i) buff).setStat i { thread with pc := .ended })
          else
            some ((state.setBuff (patsBuffs i) buff).setStat i
              { thread with pc := .updating response })
  | .updating response =>
      match state.hist.update (updateKey i) response with
      | .counted hist => some
          { state.setStat i
              { pc := .popping
                counted := thread.counted ++ [response] } with
            hist := hist }
      | _ => some { state with crashed := true }
  | _ => none

def next (state : State config) (label : Label config.w) : Option (State config) :=
  if state.crashed then none
  else
    match label with
    | .main => state.mainThread
    | .request i => state.requestThreadFunction i
    | .quits => state.requestQuits
    | .worker j => state.workerThreadFunction j
    | .stat i => state.statThreadFunction i
    | .recv connection =>
        if state.exited then none
        else
          match (state.link connection).recv with
          | none => none
          | some link => some (state.serve connection link)
    | .act connection trach =>
        if state.exited || !config.answers trach then none
        else
          match (state.link connection).act trach with
          | none => none
          | some link => some (state.serve connection link)

end State

def Worker.idle (pc : WorkerPc) (memory : List Char) : Worker :=
  { pc := pc
    reqChan := .opened memory
    popped := []
    answered := []
    pushes := [] }

/-- Main has set up the control channel and the buffers. `memory` is what the
stacks of the server threads hold. -/
def initial (config : Config) (memory : Option (Fin config.w) → List Char) : State config :=
  { main := .createRequest 0
    noError := true
    requestBuffer := .empty
    rBuff := fun _ => .empty
    patientsThread := fun _ => .notStarted
    quitThread := .notStarted
    workerThreads := fun j => .idle .notStarted (memory (some j))
    patientsStatThread := fun _ => ⟨.notStarted, []⟩
    chan := .opened (memory none)
    hist := .fresh
    exited := false
    crashed := false }

def client (config : Config) : System (State config) (Label config.w) :=
  { start := fun state => ∃ memory, state = initial config memory
    next := State.next }

/-- All that is left to do is in the request buffer. -/
def loaded (config : Config) (content : List String) (within : content.length ≤ config.b)
    (memory : Option (Fin config.w) → List Char) : State config :=
  { initial config memory with
    main := .joinWorker 0
    requestBuffer := .filled content within
    patientsThread := fun _ => .ended
    quitThread := .ended
    workerThreads := fun j => .idle .popping (memory (some j))
    patientsStatThread := fun _ => ⟨.popping, []⟩ }

theorem serverReplies_iff {reply : String} : serverReplies reply = true ↔ Reply reply := by
  simp only [serverReplies, List.any_eq_true, List.mem_range, decide_eq_true_eq, Reply]

def smallest : Config :=
  { n := 1
    w := 1
    b := 3
    answers := serverReplies
    failing := none }

def onlyWorker : Fin smallest.w := ⟨0, Nat.one_pos⟩

def exchange (trach : String) : List (Label smallest.w) :=
  [.worker onlyWorker, .worker onlyWorker, .recv (some onlyWorker), .act (some onlyWorker) trach,
    .worker onlyWorker, .worker onlyWorker]

/-- Main creates its threads, the three requests are answered, counted and
followed by the quits. -/
def wholeRun : List (Label smallest.w) :=
  List.flatten
    [List.replicate 10 .main,
      [.request 0, .request 1, .request 2, .request 0, .request 1, .request 2],
      exchange "57", exchange "3", exchange "99",
      [.stat 0, .stat 0, .stat 1, .stat 1, .stat 2, .stat 2],
      List.replicate 5 .main,
      [.quits, .quits, .worker onlyWorker, .worker onlyWorker],
      List.replicate 8 .main, [.stat 0, .stat 1, .stat 2], List.replicate 4 .main]

/-! ### What one step can do -/

namespace State

variable {config : Config}

inductive Moves (state : State config) : Main → Prop
  | requestsCreated {i : Nat} (at_ : state.main = .createRequest i) (last : ¬ i < 3) :
      Moves state (.createStat 0)
  | statsCreated {i : Nat} (at_ : state.main = .createStat i) (last : ¬ i < 3) :
      Moves state (.createWorker 0)
  | workersCreated {i : Nat} (at_ : state.main = .createWorker i) (last : ¬ i < config.w) :
      Moves state (.joinRequest 0)
  | joinRequest {i : Nat} (at_ : state.main = .joinRequest i) (within : i < 3)
      (ended : state.patientsThread ⟨i, within⟩ = .ended) : Moves state (.joinRequest (i + 1))
  | requestsJoined {i : Nat} (at_ : state.main = .joinRequest i) (last : ¬ i < 3) :
      Moves state .createQuit
  | joinQuit (at_ : state.main = .joinQuit)
      (ended : state.noError = true → state.quitThread = .ended) : Moves state (.joinWorker 0)
  | joinWorker {i : Nat} (at_ : state.main = .joinWorker i) (within : i < config.w)
      (ended : state.noError = true → (state.workerThreads ⟨i, within⟩).pc = .ended) :
      Moves state (.joinWorker (i + 1))
  | workersJoined {i : Nat} (at_ : state.main = .joinWorker i) (last : ¬ i < config.w) :
      Moves state .kill
  | quitsPushed {i : Nat} (at_ : state.main = .pushQuit i) (last : ¬ i < 3) :
      Moves state (.joinStat 0)
  | joinStat {i : Nat} (at_ : state.main = .joinStat i) (within : i < 3)
      (ended : (state.patientsStatThread ⟨i, within⟩).pc = .ended) :
      Moves state (.joinStat (i + 1))
  | statsJoined {i : Nat} (at_ : state.main = .joinStat i) (last : ¬ i < 3) :
      Moves state .finished

inductive Served (answers : String → Bool) (link : Link) : Link → Prop
  | recv {after : Link} (taken : link.recv = some after) : Served answers link after
  | act {after : Link} {trach : String} (answer : answers trach = true)
      (taken : link.act trach = some after) : Served answers link after

/-- Every step, with all that it changes. -/
inductive Step (state : State config) : State config → Prop
  | moves {main : Main} (moves : state.Moves main) : Step state (state.setMain main)
  | createRequest {i : Nat} (at_ : state.main = .createRequest i) (within : i < 3) :
      Step state ((state.setRequest ⟨i, within⟩ (.looping 0)).setMain (.createRequest (i + 1)))
  | createStat {i : Nat} (at_ : state.main = .createStat i) (within : i < 3) :
      Step state ((state.setStat ⟨i, within⟩
        { state.patientsStatThread ⟨i, within⟩ with pc := .popping }).setMain
          (.createStat (i + 1)))
  | createWorker {i : Nat} (at_ : state.main = .createWorker i) (within : i < config.w)
      (succeeds : config.failing ≠ some i) :
      Step state ((state.setWorker ⟨i, within⟩
        { state.workerThreads ⟨i, within⟩ with pc := .popping }).setMain (.createWorker (i + 1)))
  | createWorkerFails {i : Nat} (at_ : state.main = .createWorker i) (within : i < config.w)
      (fails : config.failing = some i) :
      Step state { state with
        noError := false
        main := .joinRequest 0 }
  | createQuit (at_ : state.main = .createQuit) :
      Step state { state with
        quitThread := .looping 0
        main := .joinQuit }
  | kill (at_ : state.main = .kill) :
      Step state { state with
        chan := state.chan.cwrite "!!"
        main := .pushQuit 0 }
  | pushQuit {i : Nat} {buff : TracedQueue String (config.b / 3)}
      (at_ : state.main = .pushQuit i) (within : i < 3)
      (pushed : (state.rBuff (patsBuffs ⟨i, within⟩)).push? "quit" = some buff) :
      Step state ((state.setBuff (patsBuffs ⟨i, within⟩) buff).setMain (.pushQuit (i + 1)))
  | request {i : Fin 3} {k : Nat} {buff : TracedQueue String config.b}
      (at_ : state.patientsThread i = .looping k) (more : k < config.n)
      (pushed : state.requestBuffer.push? (requestFor i) = some buff) :
      Step state { state.setRequest i (.looping (k + 1)) with requestBuffer := buff }
  | requestEnds {i : Fin 3} {k : Nat} (at_ : state.patientsThread i = .looping k)
      (last : ¬ k < config.n) : Step state (state.setRequest i .ended)
  | quit {k : Nat} {buff : TracedQueue String config.b} (at_ : state.quitThread = .looping k)
      (more : k < config.w) (pushed : state.requestBuffer.push? "quit" = some buff) :
      Step state { state with
        quitThread := .looping (k + 1)
        requestBuffer := buff }
  | quitEnds {k : Nat} (at_ : state.quitThread = .looping k) (last : ¬ k < config.w) :
      Step state { state with quitThread := .ended }
  | workerPop {j : Fin config.w} {request : String} {buff : TracedQueue String config.b}
      (at_ : (state.workerThreads j).pc = .popping)
      (popped : state.requestBuffer.pop? = some (request, buff)) :
      Step state
        { state.setWorker j
            { state.workerThreads j with
              pc := .holding request
              popped := (state.workerThreads j).popped ++ [request] } with
          requestBuffer := buff }
  | workerQuit {j : Fin config.w} (at_ : (state.workerThreads j).pc = .holding "quit") :
      Step state (state.setWorker j
        { state.workerThreads j with
          pc := .ended
          reqChan := (state.workerThreads j).reqChan.cwrite "!" })
  | workerRequest {j : Fin config.w} {request : String}
      (at_ : (state.workerThreads j).pc = .holding request) (data : request ≠ "quit") :
      Step state (state.setWorker j
        { state.workerThreads j with
          pc := .reading request
          reqChan := (state.workerThreads j).reqChan.cwrite request })
  | workerRead {j : Fin config.w} {request response : String} {link : Link}
      (at_ : (state.workerThreads j).pc = .reading request)
      (read : (state.workerThreads j).reqChan.cread = some (response, link)) :
      Step state (state.setWorker j
        { state.workerThreads j with
          pc := .pushing request response
          reqChan := link
          answered := (state.workerThreads j).answered ++ [(request, response)] })
  | workerCrash {j : Fin config.w} {request : String} (running : state.crashed = false)
      (at_ : (state.workerThreads j).pc = .reading request)
      (nothing : (state.workerThreads j).reqChan.cread = none) (exited : state.exited = true) :
      Step state { state with crashed := true }
  | workerPush {j : Fin config.w} {request response : String} {patient : Patient}
      {buff : TracedQueue String (config.b / 3)}
      (at_ : (state.workerThreads j).pc = .pushing request response)
      (chosen : bufferFor request = some patient)
      (pushed : (state.rBuff patient).push? response = some buff) :
      Step state ((state.setBuff patient buff).setWorker j
        { state.workerThreads j with
          pc := .popping
          pushes := (state.workerThreads j).pushes ++ [(patient, response)] })
  | workerDrop {j : Fin config.w} {request response : String}
      (at_ : (state.workerThreads j).pc = .pushing request response)
      (unknown : bufferFor request = none) :
      Step state (state.setWorker j { state.workerThreads j with pc := .popping })
  | serveWorker {j : Fin config.w} {link : Link} (running : state.exited = false)
      (served : Served config.answers (state.workerThreads j).reqChan link) :
      Step state
        { state.setWorker j { state.workerThreads j with reqChan := link } with
          exited := link.session.status = .exited }
  | serveControl {link : Link} (running : state.exited = false)
      (served : Served config.answers state.chan link) :
      Step state { state with
        chan := link
        exited := link.session.status = .exited }
  | statPop {i : Fin 3} {response : String} {buff : TracedQueue String (config.b / 3)}
      (at_ : (state.patientsStatThread i).pc = .popping)
      (popped : (state.rBuff (patsBuffs i)).pop? = some (response, buff))
      (data : response ≠ "quit") :
      Step state ((state.setBuff (patsBuffs i) buff).setStat i
        { state.patientsStatThread i with pc := .updating response })
  | statQuit {i : Fin 3} {buff : TracedQueue String (config.b / 3)}
      (at_ : (state.patientsStatThread i).pc = .popping)
      (popped : (state.rBuff (patsBuffs i)).pop? = some ("quit", buff)) :
      Step state ((state.setBuff (patsBuffs i) buff).setStat i
        { state.patientsStatThread i with pc := .ended })
  | statUpdate {i : Fin 3} {response : String} {hist : Histogram}
      (at_ : (state.patientsStatThread i).pc = .updating response)
      (counted : state.hist.update (updateKey i) response = .counted hist) :
      Step state
        { state.setStat i
            { pc := .popping
              counted := (state.patientsStatThread i).counted ++ [response] } with
          hist := hist }
  | statCrash {i : Fin 3} {response : String} (running : state.crashed = false)
      (at_ : (state.patientsStatThread i).pc = .updating response)
      (fails : ∀ hist, state.hist.update (updateKey i) response ≠ .counted hist) :
      Step state { state with crashed := true }

private theorem mainThread_step {state after : State config}
    (taken : state.mainThread = some after) : state.Step after := by
  unfold mainThread at taken
  cases at_ : state.main with
  | createRequest i =>
      simp only [at_] at taken
      split at taken <;> cases taken
      · exact .createRequest at_ ‹_›
      · exact .moves (.requestsCreated at_ ‹_›)
  | createStat i =>
      simp only [at_] at taken
      split at taken <;> cases taken
      · exact .createStat at_ ‹_›
      · exact .moves (.statsCreated at_ ‹_›)
  | createWorker i =>
      simp only [at_] at taken
      split at taken
      · split at taken <;> cases taken
        · exact .createWorkerFails at_ ‹_› ‹_›
        · exact .createWorker at_ ‹_› ‹_›
      · cases taken
        exact .moves (.workersCreated at_ ‹_›)
  | joinRequest i =>
      simp only [at_] at taken
      split at taken
      · split at taken <;> cases taken
        exact .moves (.joinRequest at_ ‹_› ‹_›)
      · cases taken
        exact .moves (.requestsJoined at_ ‹_›)
  | createQuit =>
      simp only [at_] at taken
      cases taken
      exact .createQuit at_
  | joinQuit =>
      simp only [at_] at taken
      split at taken <;> cases taken
      exact .moves (.joinQuit at_ ‹_›)
  | joinWorker i =>
      simp only [at_] at taken
      split at taken
      · split at taken <;> cases taken
        exact .moves (.joinWorker at_ ‹_› ‹_›)
      · cases taken
        exact .moves (.workersJoined at_ ‹_›)
  | kill =>
      simp only [at_] at taken
      cases taken
      exact .kill at_
  | pushQuit i =>
      simp only [at_] at taken
      split at taken
      · split at taken <;> cases taken
        exact .pushQuit at_ ‹_› ‹_›
      · cases taken
        exact .moves (.quitsPushed at_ ‹_›)
  | joinStat i =>
      simp only [at_] at taken
      split at taken
      · split at taken <;> cases taken
        exact .moves (.joinStat at_ ‹_› ‹_›)
      · cases taken
        exact .moves (.statsJoined at_ ‹_›)
  | finished =>
      simp only [at_] at taken
      cases taken

private theorem worker_step {state after : State config} {j : Fin config.w}
    (running : state.crashed = false) (taken : state.workerThreadFunction j = some after) :
    state.Step after := by
  unfold workerThreadFunction at taken
  cases at_ : (state.workerThreads j).pc with
  | notStarted | ended =>
      simp only [at_] at taken
      cases taken
  | popping =>
      simp only [at_] at taken
      split at taken <;> cases taken
      exact .workerPop at_ ‹_›
  | holding request =>
      simp only [at_] at taken
      split at taken
      · rename_i same
        subst same
        cases taken
        exact .workerQuit at_
      · cases taken
        exact .workerRequest at_ ‹_›
  | reading request =>
      simp only [at_] at taken
      split at taken
      · cases taken
        exact .workerRead at_ ‹_›
      · split at taken <;> cases taken
        exact .workerCrash running at_ ‹_› ‹_›
  | pushing request response =>
      simp only [at_] at taken
      split at taken
      · cases taken
        exact .workerDrop at_ ‹_›
      · split at taken <;> cases taken
        exact .workerPush at_ ‹_› ‹_›

private theorem stat_step {state after : State config} {i : Fin 3}
    (running : state.crashed = false) (taken : state.statThreadFunction i = some after) :
    state.Step after := by
  unfold statThreadFunction at taken
  cases at_ : (state.patientsStatThread i).pc with
  | notStarted | ended =>
      simp only [at_] at taken
      cases taken
  | popping =>
      simp only [at_] at taken
      split at taken
      · cases taken
      · split at taken
        · rename_i same
          subst same
          cases taken
          exact .statQuit at_ ‹_›
        · cases taken
          exact .statPop at_ ‹_› ‹_›
  | updating response =>
      simp only [at_] at taken
      split at taken <;> cases taken
      · exact .statUpdate at_ ‹_›
      · rename_i fails
        exact .statCrash running at_ fails

private theorem serve_step {state : State config} {connection : Option (Fin config.w)}
    {link : Link} (running : state.exited = false)
    (served : Served config.answers (state.link connection) link) :
    state.Step (state.serve connection link) := by
  cases connection with
  | none => exact .serveControl running served
  | some j => exact .serveWorker running served

theorem next_step {state after : State config} {label : Label config.w}
    (taken : state.next label = some after) : state.Step after := by
  unfold next at taken
  split at taken
  · cases taken
  rename_i alive
  have alive : state.crashed = false := Bool.eq_false_iff.mpr alive
  cases label with
  | main => exact mainThread_step taken
  | request i =>
      simp only [requestThreadFunction] at taken
      cases at_ : state.patientsThread i with
      | notStarted | ended =>
          simp only [at_] at taken
          cases taken
      | looping k =>
          simp only [at_] at taken
          split at taken
          · split at taken <;> cases taken
            exact .request at_ ‹_› ‹_›
          · cases taken
            exact .requestEnds at_ ‹_›
  | quits =>
      simp only [requestQuits] at taken
      cases at_ : state.quitThread with
      | notStarted | ended =>
          simp only [at_] at taken
          cases taken
      | looping k =>
          simp only [at_] at taken
          split at taken
          · split at taken <;> cases taken
            exact .quit at_ ‹_› ‹_›
          · cases taken
            exact .quitEnds at_ ‹_›
  | worker j => exact worker_step alive taken
  | stat i => exact stat_step alive taken
  | recv connection =>
      simp only at taken
      split at taken
      · cases taken
      · rename_i running
        split at taken <;> cases taken
        exact serve_step (Bool.eq_false_iff.mpr running) (.recv ‹_›)
  | act connection trach =>
      simp only at taken
      split at taken
      · cases taken
      · rename_i running
        simp only [Bool.or_eq_true, Bool.not_eq_true', not_or, Bool.not_eq_true,
          Bool.not_eq_false] at running
        split at taken <;> cases taken
        exact serve_step running.1 (.act running.2 ‹_›)

end State

end Netwurk.Client
