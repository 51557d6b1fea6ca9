/-
The client over byte streams. Its threads are those of the client on whose connections
whole messages are delivered; here `cwrite` puts bytes on a stream, `cread` and the
server threads take as many of them as their `recv` happens to return, and what is in
the buffers on the stacks is arbitrary.
-/

import Netwurk.RequestChannel.Wire
import Netwurk.Client.Shutdown

namespace Netwurk.Client

open Transition RequestChannel

/-- `threads` has the threads and the buffers; the connections of its own are not used. -/
structure Wired (config : Config) where
  threads : State config
  wire : Option (Fin config.w) → Wire

/-- Who moves, how many bytes its `recv` returns if it makes one, and what the stack
holds where the buffer of `cwrite` or `cread` lies. -/
structure WiredLabel (w : Nat) where
  move : Label w
  count : Nat
  memory : List Char

def WorkerPc.reads : WorkerPc → Bool
  | .reading _ => true
  | _ => false

namespace Wired

variable {config : Config}

def crash (state : Wired config) : Wired config :=
  { state with threads := { state.threads with crashed := true } }

def apart (state : Wired config) (threads : Option (State config)) : Option (Wired config) :=
  threads.map fun threads => { state with threads := threads }

/-- `threads` is what the threads are after the `cwrite`. -/
def write (state : Wired config) (connection : Option (Fin config.w)) (memory : List Char)
    (msg : String) (threads : State config) : Option (Wired config) :=
  match (state.wire connection).cwrite memory msg with
  | .returns wire => some
      { threads := threads
        wire := Function.update state.wire connection wire }
  | .exits => some state.crash
  | .undefined => none
  | .blocks => none

def mainThread (state : Wired config) (memory : List Char) : Option (Wired config) :=
  if state.threads.main = .kill then
    state.write none memory "!!" (state.threads.setMain (.pushQuit 0))
  else state.apart state.threads.mainThread

def workerThreadFunction (state : Wired config) (j : Fin config.w) (count : Nat)
    (memory : List Char) : Option (Wired config) :=
  let worker := state.threads.workerThreads j
  match worker.pc with
  | .holding request =>
      if request = "quit" then
        state.write (some j) memory "!" (state.threads.setWorker j { worker with pc := .ended })
      else
        state.write (some j) memory request
          (state.threads.setWorker j { worker with pc := .reading request })
  | .reading request =>
      match (state.wire (some j)).cread state.threads.exited count memory with
      | .returns (response, wire) => some
          { threads := state.threads.setWorker j
              { worker with
                pc := .pushing request response
                answered := worker.answered ++ [(request, response)] }
            wire := Function.update state.wire (some j) wire }
      | .exits => some state.crash
      | .undefined => none
      | .blocks => none
  | _ => state.apart (state.threads.workerThreadFunction j)

/-- A step of a server thread on its connection; `exit(0)` ends them all. -/
def serve (state : Wired config) (connection : Option (Fin config.w)) (wire : Wire) :
    Wired config :=
  { threads := { state.threads with exited := wire.session.status = .exited }
    wire := Function.update state.wire connection wire }

def next (state : Wired config) (label : WiredLabel config.w) : Option (Wired config) :=
  if state.threads.crashed then none
  else
    match label.move with
    | .main => state.mainThread label.memory
    | .request i => state.apart (state.threads.requestThreadFunction i)
    | .quits => state.apart state.threads.requestQuits
    | .worker j => state.workerThreadFunction j label.count label.memory
    | .stat i => state.apart (state.threads.statThreadFunction i)
    | .recv connection =>
        if state.threads.exited then none
        else
          match (state.wire connection).recv label.count with
          | none => none
          | some wire => some (state.serve connection wire)
    | .act connection trach =>
        if state.threads.exited || !config.answers trach then none
        else
          match (state.wire connection).act trach with
          | none => none
          | some wire => some (state.serve connection wire)

/-- No `recv` ends inside a message. -/
def Whole (state : Wired config) (label : WiredLabel config.w) : Prop :=
  match label.move with
  | .recv connection => RequestChannel.Whole (state.wire connection).toServer label.count
  | .worker j => (state.threads.workerThreads j).pc.reads = true →
      (state.wire (some j)).toClient ≠ [] →
        RequestChannel.Whole (state.wire (some j)).toClient label.count
  | _ => True

instance (state : Wired config) (label : WiredLabel config.w) : Decidable (state.Whole label) :=
  match label with
  | ⟨.recv _, _, _⟩ => inferInstanceAs (Decidable (RequestChannel.Whole _ _))
  | ⟨.worker _, _, _⟩ => inferInstanceAs (Decidable (_ → _ → RequestChannel.Whole _ _))
  | ⟨.main, _, _⟩ => .isTrue trivial
  | ⟨.request _, _, _⟩ => .isTrue trivial
  | ⟨.quits, _, _⟩ => .isTrue trivial
  | ⟨.act _ _, _, _⟩ => .isTrue trivial
  | ⟨.stat _, _, _⟩ => .isTrue trivial

end Wired

def wiredInitial (config : Config) (memory : Option (Fin config.w) → List Char) : Wired config :=
  { threads := initial config memory
    wire := fun connection => .opened (memory connection) }

def wired (config : Config) : System (Wired config) (WiredLabel config.w) :=
  { start := fun state => ∃ memory, state = wiredInitial config memory
    next := Wired.next }

namespace State

variable {config : Config} {state : State config} {links : Option (Fin config.w) → Link}

def relink (state : State config) (links : Option (Fin config.w) → Link) : State config :=
  { state with
    chan := links none
    workerThreads := fun j => { state.workerThreads j with reqChan := links (some j) } }

theorem relink_link (state : State config) (links : Option (Fin config.w) → Link)
    (connection : Option (Fin config.w)) : (state.relink links).link connection = links connection := by
  cases connection <;> rfl

@[simp] theorem relink_main : (state.relink links).main = state.main := rfl

@[simp] theorem relink_noError : (state.relink links).noError = state.noError := rfl

@[simp] theorem relink_requestBuffer :
    (state.relink links).requestBuffer = state.requestBuffer := rfl

@[simp] theorem relink_rBuff : (state.relink links).rBuff = state.rBuff := rfl

@[simp] theorem relink_patientsThread :
    (state.relink links).patientsThread = state.patientsThread := rfl

@[simp] theorem relink_quitThread : (state.relink links).quitThread = state.quitThread := rfl

@[simp] theorem relink_pc (j : Fin config.w) :
    ((state.relink links).workerThreads j).pc = (state.workerThreads j).pc := rfl

@[simp] theorem relink_patientsStatThread :
    (state.relink links).patientsStatThread = state.patientsStatThread := rfl

@[simp] theorem relink_hist : (state.relink links).hist = state.hist := rfl

theorem relink_setMain (main : Main) :
    (state.setMain main).relink links = (state.relink links).setMain main := rfl

theorem relink_setBuff (patient : Patient) (buff : TracedQueue String (config.b / 3)) :
    (state.setBuff patient buff).relink links = (state.relink links).setBuff patient buff := rfl

theorem relink_setWorker (state : State config) (links : Option (Fin config.w) → Link)
    (j : Fin config.w) (worker : Worker) :
    (state.setWorker j worker).relink links =
      (state.relink links).setWorker j { worker with reqChan := links (some j) } := by
  simp only [relink, setWorker]
  congr 1
  funext other
  by_cases same : other = j
  · subst other
    simp
  · simp [same]

theorem relink_worker (state : State config) (links : Option (Fin config.w) → Link)
    (j : Fin config.w) (worker : Worker) (link : Link) :
    (state.setWorker j worker).relink (Function.update links (some j) link) =
      (state.relink links).setWorker j { worker with reqChan := link } := by
  simp only [relink, setWorker]
  congr 1
  funext other
  by_cases same : other = j
  · subst other
    simp
  · simp [same]

theorem relink_served (state : State config) (links : Option (Fin config.w) → Link)
    (connection : Option (Fin config.w)) (link : Link) :
    { state with exited := link.session.status = Status.exited }.relink
        (Function.update links connection link) =
      (state.relink links).serve connection link := by
  cases connection with
  | none => rfl
  | some j =>
      simp only [relink, serve, setWorker]
      congr 1
      funext other
      by_cases same : other = j
      · subst other
        simp
      · simp [same]

theorem relink_mainThread (elsewhere : state.main ≠ .kill) :
    (state.relink links).mainThread = state.mainThread.map (·.relink links) := by
  simp only [mainThread]
  rw [relink_main]
  cases at_ : state.main with
  | kill => exact absurd at_ elsewhere
  | createWorker =>
      simp only
      split
      · split
        · rfl
        · simp only [Option.map_some, relink_setMain, relink_setWorker]
          rfl
      · rfl
  | createRequest | createStat =>
      simp only
      split <;> rfl
  | joinQuit =>
      simp only
      split
      · rename_i joined
        rw [relink_noError, relink_quitThread] at joined
        rw [if_pos joined]
        rfl
      · rename_i running
        rw [relink_noError, relink_quitThread] at running
        rw [if_neg running]
        rfl
  | joinRequest | joinStat | joinWorker =>
      simp only
      split
      · split
        · rename_i joined
          simp only [relink_noError, relink_patientsThread, relink_pc,
            relink_patientsStatThread] at joined
          rw [if_pos joined]
          rfl
        · rename_i running
          simp only [relink_noError, relink_patientsThread, relink_pc,
            relink_patientsStatThread] at running
          rw [if_neg running]
          rfl
      · rfl
  | pushQuit =>
      simp only [relink_rBuff]
      split
      · split <;> rfl
      · rfl
  | createQuit | finished => rfl

theorem relink_requestThreadFunction (i : Fin 3) :
    (state.relink links).requestThreadFunction i =
      (state.requestThreadFunction i).map (·.relink links) := by
  simp only [requestThreadFunction, relink_patientsThread, relink_requestBuffer]
  split
  · split
    · split <;> rfl
    · rfl
  · rfl

theorem relink_requestQuits :
    (state.relink links).requestQuits = state.requestQuits.map (·.relink links) := by
  simp only [requestQuits, relink_quitThread, relink_requestBuffer]
  split
  · split
    · split <;> rfl
    · rfl
  · rfl

theorem relink_statThreadFunction (i : Fin 3) :
    (state.relink links).statThreadFunction i =
      (state.statThreadFunction i).map (·.relink links) := by
  simp only [statThreadFunction, relink_patientsStatThread, relink_rBuff, relink_hist]
  split
  · split
    · rfl
    · split <;> rfl
  · split <;> rfl
  · rfl

theorem relink_workerThreadFunction (j : Fin config.w)
    (quiet : ∀ request, (state.workerThreads j).pc ≠ .holding request ∧
      (state.workerThreads j).pc ≠ .reading request) :
    (state.relink links).workerThreadFunction j =
      (state.workerThreadFunction j).map (·.relink links) := by
  simp only [workerThreadFunction, relink_pc, relink_requestBuffer, relink_rBuff]
  cases at_ : (state.workerThreads j).pc with
  | holding request => exact absurd at_ (quiet request).1
  | reading request => exact absurd at_ (quiet request).2
  | notStarted | ended => rfl
  | popping =>
      simp only
      split
      · rfl
      · rename_i request buff _
        have moved := relink_setWorker state links j
          { state.workerThreads j with
            pc := .holding request
            popped := (state.workerThreads j).popped ++ [request] }
        exact congrArg (fun later : State config => some { later with requestBuffer := buff })
          moved.symm
  | pushing request response =>
      simp only
      split
      · simp only [Option.map_some, relink_setWorker]
        rfl
      · split
        · rfl
        · simp only [Option.map_some, relink_setWorker, relink_setBuff]
          rfl

theorem position_of_reachable (reached : (client config).Reachable state)
    (connection : Option (Fin config.w)) :
    ∃ done phase, (state.link connection).At config.Permits done phase := by
  cases connection with
  | none => exact ⟨[], _, (controlled_of_reachable reached).phase⟩
  | some j =>
      obtain ⟨done, phase, position, _⟩ := ((sound_of_reachable reached).accounted.valid j).phase
      exact ⟨done, phase, position⟩

theorem plain_of_reply {reply : String} (decimal : Reply reply) : Plain reply := by
  obtain ⟨value, small, rfl⟩ := decimal
  have short := to_string_length small
  constructor
  · rw [String.toList_ofList]
    exact to_string_nulFree value
  · rw [String.toList_ofList, MAX_MESSAGE]
    omega

theorem request_plain (reached : (client config).Reachable state) {j : Fin config.w}
    {request : String} (at_ : (state.workerThreads j).pc = .holding request) :
    Plain request ∧ '%' ∉ request.toList := by
  have queued : Queued request := by
    have valid := (sound_of_reachable reached).accounted.valid j
    generalize state.workerThreads j = worker at valid at_
    cases valid with
    | holding queued =>
        cases at_
        exact queued
    | _ => cases at_
  rcases queued with rfl | ⟨patient, rfl⟩
  · exact ⟨⟨by decide, by decide⟩, by decide⟩
  · cases patient with
    | joe | john | jane => exact ⟨⟨by decide, by decide⟩, by decide⟩

end State

/-! ### The client over byte streams -/

namespace Wired

variable {config : Config} {state after : Wired config}

/-- The client with the messages of each connection in place of the bytes. -/
def view (state : Wired config) : State config :=
  state.threads.relink fun connection => (state.wire connection).view

theorem view_update (threads : State config) (wires : Option (Fin config.w) → Wire)
    (connection : Option (Fin config.w)) (wire : Wire) :
    (⟨threads, Function.update wires connection wire⟩ : Wired config).view =
      threads.relink (Function.update (fun other => (wires other).view) connection wire.view) :=
  congrArg threads.relink (Function.comp_update Wire.view wires connection wire)

/-- What is known when no `recv` has ended inside a message. -/
structure Faithful (state : Wired config) : Prop where
  reached : (client config).Reachable state.view
  framed : ∀ connection, (state.wire connection).Framed

theorem Faithful.single (faithful : state.Faithful) (connection : Option (Fin config.w)) :
    (state.wire connection).view.toServer.length +
      (state.wire connection).view.toClient.length ≤ 1 := by
  obtain ⟨_, _, position⟩ := State.position_of_reachable faithful.reached connection
  rw [view, State.relink_link] at position
  exact position.single

private theorem framed_update (framed : ∀ connection, (state.wire connection).Framed)
    {connection : Option (Fin config.w)} {wire : Wire} (changed : wire.Framed)
    (other : Option (Fin config.w)) : (Function.update state.wire connection wire other).Framed := by
  by_cases same : other = connection
  · subst other
    rw [Function.update_self]
    exact changed
  · rw [Function.update_of_ne same]
    exact framed other

def Simulates (result : Option (Wired config)) (viewed : Option (State config)) : Prop :=
  result.map view = viewed ∧
    ∀ after, result = some after → ∀ connection, (after.wire connection).Framed

private theorem Simulates.step {result : Option (Wired config)} {viewed : Option (State config)}
    (simulates : Simulates result viewed) (taken : result = some after) :
    viewed = some after.view ∧ ∀ connection, (after.wire connection).Framed := by
  refine ⟨?_, simulates.2 after taken⟩
  rw [← simulates.1, taken]
  rfl

private theorem Simulates.enabled {result : Option (Wired config)}
    {viewed : Option (State config)} (simulates : Simulates result viewed)
    {later : State config} (taken : viewed = some later) : ∃ after, result = some after := by
  rw [← simulates.1] at taken
  obtain ⟨after, moved, _⟩ := Option.map_eq_some_iff.mp taken
  exact ⟨after, moved⟩

private theorem apart_simulates (faithful : state.Faithful)
    (thread : State config → Option (State config))
    (elsewhere : thread state.view =
      (thread state.threads).map (·.relink fun connection => (state.wire connection).view)) :
    Simulates (state.apart (thread state.threads)) (thread state.view) := by
  constructor
  · rw [elsewhere, apart, Option.map_map]
    rfl
  · intro after taken
    obtain ⟨threads, _, rfl⟩ := Option.map_eq_some_iff.mp taken
    exact faithful.framed

private theorem write_simulates (faithful : state.Faithful) (connection : Option (Fin config.w))
    (memory : List Char) {msg : String} (plain : Plain msg) (percentFree : '%' ∉ msg.toList)
    (threads : State config) :
    Simulates (state.write connection memory msg threads)
      (some (threads.relink (Function.update (fun other => (state.wire other).view) connection
        ((state.wire connection).view.cwrite msg)))) := by
  obtain ⟨wire, written, viewed, framed⟩ :=
    (state.wire connection).cwrite_view (faithful.framed connection) plain percentFree memory
  unfold write
  rw [written]
  constructor
  · rw [Option.map_some, view_update, viewed]
  · rintro after ⟨⟩
    exact framed_update faithful.framed framed

private theorem mainThread_simulates (faithful : state.Faithful) (memory : List Char) :
    Simulates (state.mainThread memory) state.view.mainThread := by
  unfold mainThread
  by_cases kills : state.threads.main = .kill
  · have plain : Plain "!!" := ⟨by decide, by decide⟩
    have written := write_simulates faithful none memory plain (by decide)
      (state.threads.setMain (.pushQuit 0))
    have position : state.view.main = .kill := kills
    rw [if_pos kills]
    simp only [State.mainThread, position]
    exact written
  · rw [if_neg kills]
    exact apart_simulates faithful State.mainThread (State.relink_mainThread kills)

private theorem workerThreadFunction_simulates (faithful : state.Faithful) (j : Fin config.w)
    (count : Nat) (memory : List Char)
    (elsewhere : ∀ request, (state.threads.workerThreads j).pc ≠ .reading request) :
    Simulates (state.workerThreadFunction j count memory) (state.view.workerThreadFunction j) := by
  cases at_ : (state.threads.workerThreads j).pc with
  | reading request => exact absurd at_ (elsewhere request)
  | holding request =>
      have position : (state.view.workerThreads j).pc = .holding request := at_
      obtain ⟨plain, percentFree⟩ := State.request_plain faithful.reached position
      simp only [workerThreadFunction, State.workerThreadFunction, at_, position]
      by_cases quits : request = "quit"
      · have farewell : Plain "!" := ⟨by decide, by decide⟩
        have written := write_simulates faithful (some j) memory farewell (by decide)
          (state.threads.setWorker j { state.threads.workerThreads j with pc := .ended })
        rw [if_pos quits, if_pos quits]
        rw [State.relink_worker] at written
        exact written
      · have written := write_simulates faithful (some j) memory plain percentFree
          (state.threads.setWorker j { state.threads.workerThreads j with pc := .reading request })
        rw [if_neg quits, if_neg quits]
        rw [State.relink_worker] at written
        exact written
  | notStarted | popping | pushing | ended =>
      have quiet : ∀ request, (state.threads.workerThreads j).pc ≠ .holding request ∧
          (state.threads.workerThreads j).pc ≠ .reading request := by
        intro request
        rw [at_]
        exact ⟨WorkerPc.noConfusion, WorkerPc.noConfusion⟩
      simp only [workerThreadFunction, at_]
      exact apart_simulates faithful (·.workerThreadFunction j)
        (State.relink_workerThreadFunction j quiet)

private theorem reading_view (faithful : state.Faithful) {j : Fin config.w} {count : Nat}
    {memory : List Char} {request : String}
    (at_ : (state.threads.workerThreads j).pc = .reading request)
    (whole : (state.wire (some j)).toClient ≠ [] →
      RequestChannel.Whole (state.wire (some j)).toClient count)
    (taken : state.workerThreadFunction j count memory = some after) :
    state.view.workerThreadFunction j = some after.view ∧
      ∀ connection, (after.wire connection).Framed := by
  have single : (state.wire (some j)).view.toClient.length ≤ 1 :=
    Nat.le_trans (Nat.le_add_left _ _) (faithful.single (some j))
  have position : (state.view.workerThreads j).pc = .reading request := at_
  have linked : (state.view.workerThreads j).reqChan = (state.wire (some j)).view := rfl
  simp only [workerThreadFunction, at_] at taken
  simp only [State.workerThreadFunction, position, linked]
  rcases (state.wire (some j)).cread_view (faithful.framed (some j)) single
    state.threads.exited whole memory with returned | exits | blocks
  · obtain ⟨response, wire, returned, viewed, framed⟩ := returned
    rw [returned] at taken
    cases taken
    rw [viewed, view_update, State.relink_worker]
    exact ⟨rfl, framed_update faithful.framed framed⟩
  · obtain ⟨exits, gone, nothing⟩ := exits
    rw [exits] at taken
    cases taken
    rw [nothing]
    exact ⟨if_pos gone, faithful.framed⟩
  · rw [blocks] at taken
    cases taken

private theorem exists_reading (faithful : state.Faithful) {j : Fin config.w} {request : String}
    (at_ : (state.threads.workerThreads j).pc = .reading request) (memory : List Char)
    {later : State config} (taken : state.view.workerThreadFunction j = some later) :
    ∃ count after, ((state.wire (some j)).toClient ≠ [] →
        RequestChannel.Whole (state.wire (some j)).toClient count) ∧
      state.workerThreadFunction j count memory = some after := by
  have single : (state.wire (some j)).view.toClient.length ≤ 1 :=
    Nat.le_trans (Nat.le_add_left _ _) (faithful.single (some j))
  have position : (state.view.workerThreads j).pc = .reading request := at_
  have linked : (state.view.workerThreads j).reqChan = (state.wire (some j)).view := rfl
  simp only [State.workerThreadFunction, position, linked] at taken
  cases arrived : (state.wire (some j)).view.cread with
  | some read =>
      obtain ⟨count, response, wire, whole, returned⟩ := (state.wire (some j)).exists_cread
        (faithful.framed (some j)) single state.threads.exited arrived memory
      let worker := state.threads.workerThreads j
      refine ⟨count,
        { threads := state.threads.setWorker j
            { worker with
              pc := .pushing request response
              answered := worker.answered ++ [(request, response)] }
          wire := Function.update state.wire (some j) wire }, fun _ => whole, ?_⟩
      simp only [workerThreadFunction, at_, returned]
      rfl
  | none =>
      rw [arrived] at taken
      have nothing : (state.wire (some j)).toClient = [] := by
        apply (faithful.framed (some j)).toClient.nothing
        unfold Link.cread at arrived
        split at arrived
        · assumption
        · cases arrived
      have gone : state.threads.exited = true := by
        by_cases exited : state.view.exited = true
        · exact exited
        · simp only [if_neg exited] at taken
          cases taken
      refine ⟨0, state.crash, fun some => absurd nothing some, ?_⟩
      simp only [workerThreadFunction, at_, gone, Wire.cread_gone nothing]

private theorem served_view {connection : Option (Fin config.w)} {wire : Wire} :
    (state.serve connection wire).view = state.view.serve connection wire.view := by
  rw [serve, view_update]
  exact State.relink_served _ _ connection wire.view

private theorem recv_view (faithful : state.Faithful) {connection : Option (Fin config.w)}
    {count : Nat} {wire : Wire}
    (whole : RequestChannel.Whole (state.wire connection).toServer count)
    (taken : (state.wire connection).recv count = some wire) :
    (state.view.link connection).recv = some wire.view ∧
      (state.serve connection wire).view = state.view.serve connection wire.view ∧
        ∀ other, ((state.serve connection wire).wire other).Framed := by
  have single : (state.wire connection).view.toServer.length ≤ 1 :=
    Nat.le_trans (Nat.le_add_right _ _) (faithful.single connection)
  obtain ⟨moved, framed⟩ :=
    (state.wire connection).recv_view (faithful.framed connection) single whole taken
  refine ⟨?_, served_view, framed_update faithful.framed framed⟩
  rw [view, State.relink_link]
  exact moved

private theorem act_view (faithful : state.Faithful) {connection : Option (Fin config.w)}
    {trach : String} (plain : Plain trach) {wire : Wire}
    (taken : (state.wire connection).act trach = some wire) :
    (state.view.link connection).act trach = some wire.view ∧
      (state.serve connection wire).view = state.view.serve connection wire.view ∧
        ∀ other, ((state.serve connection wire).wire other).Framed := by
  obtain ⟨viewed, framed⟩ :=
    (state.wire connection).act_view (faithful.framed connection) plain
  refine ⟨?_, served_view, framed_update faithful.framed (framed wire taken)⟩
  rw [view, State.relink_link, ← viewed, taken]
  rfl

/-! ### Every step -/

theorem Faithful.step (faithful : state.Faithful)
    (plain : ∀ reply, config.answers reply = true → Plain reply) {label : WiredLabel config.w}
    (whole : state.Whole label) (taken : state.next label = some after) :
    state.view.next label.move = some after.view ∧ ∀ connection, (after.wire connection).Framed := by
  obtain ⟨move, count, memory⟩ := label
  simp only [next] at taken
  split at taken
  · cases taken
  rename_i running
  unfold State.next
  rw [if_neg (show ¬ state.view.crashed = true from running)]
  cases move with
  | main => exact (mainThread_simulates faithful memory).step taken
  | request i =>
      exact (apart_simulates faithful (·.requestThreadFunction i)
        (State.relink_requestThreadFunction i)).step taken
  | quits =>
      exact (apart_simulates faithful State.requestQuits State.relink_requestQuits).step taken
  | stat i =>
      exact (apart_simulates faithful (·.statThreadFunction i)
        (State.relink_statThreadFunction i)).step taken
  | worker j =>
      by_cases reads : ∃ request, (state.threads.workerThreads j).pc = .reading request
      · obtain ⟨request, at_⟩ := reads
        exact reading_view faithful at_ (whole (by rw [at_]; rfl)) taken
      · exact (workerThreadFunction_simulates faithful j count memory
          fun request at_ => reads ⟨request, at_⟩).step taken
  | recv connection =>
      simp only at taken ⊢
      split at taken
      · cases taken
      rename_i serving
      rw [if_neg (show ¬ state.view.exited = true from serving)]
      split at taken <;> cases taken
      rename_i wire received
      obtain ⟨moved, viewed, framed⟩ := recv_view faithful whole received
      rw [moved, viewed]
      exact ⟨rfl, framed⟩
  | act connection trach =>
      simp only at taken ⊢
      split at taken
      · cases taken
      rename_i serving
      rw [if_neg (show ¬ (state.view.exited || !config.answers trach) = true from serving)]
      split at taken <;> cases taken
      rename_i wire acted
      have answers : config.answers trach = true := by
        cases answered : config.answers trach with
        | true => rfl
        | false => simp [answered] at serving
      obtain ⟨moved, viewed, framed⟩ := act_view faithful (plain trach answers) acted
      rw [moved, viewed]
      exact ⟨rfl, framed⟩

theorem Faithful.enabled (faithful : state.Faithful)
    (plain : ∀ reply, config.answers reply = true → Plain reply) {move : Label config.w}
    {later : State config} (taken : state.view.next move = some later) (memory : List Char) :
    ∃ count after, state.Whole ⟨move, count, memory⟩ ∧
      state.next ⟨move, count, memory⟩ = some after := by
  unfold State.next at taken
  split at taken
  · cases taken
  rename_i running
  have goes : ¬ state.threads.crashed = true := running
  simp only [next, if_neg goes]
  cases move with
  | main =>
      obtain ⟨after, moved⟩ := (mainThread_simulates faithful memory).enabled taken
      exact ⟨0, after, trivial, moved⟩
  | request i =>
      obtain ⟨after, moved⟩ := (apart_simulates faithful (·.requestThreadFunction i)
        (State.relink_requestThreadFunction i)).enabled taken
      exact ⟨0, after, trivial, moved⟩
  | quits =>
      obtain ⟨after, moved⟩ :=
        (apart_simulates faithful State.requestQuits State.relink_requestQuits).enabled taken
      exact ⟨0, after, trivial, moved⟩
  | stat i =>
      obtain ⟨after, moved⟩ := (apart_simulates faithful (·.statThreadFunction i)
        (State.relink_statThreadFunction i)).enabled taken
      exact ⟨0, after, trivial, moved⟩
  | worker j =>
      by_cases reads : ∃ request, (state.threads.workerThreads j).pc = .reading request
      · obtain ⟨request, at_⟩ := reads
        obtain ⟨count, after, whole, moved⟩ := exists_reading faithful at_ memory taken
        exact ⟨count, after, fun _ => whole, moved⟩
      · obtain ⟨after, moved⟩ := (workerThreadFunction_simulates faithful j 0 memory
          fun request at_ => reads ⟨request, at_⟩).enabled taken
        refine ⟨0, after, fun at_ => ?_, moved⟩
        cases position : (state.threads.workerThreads j).pc with
        | reading request => exact absurd ⟨request, position⟩ reads
        | _ =>
            rw [position] at at_
            cases at_
  | recv connection =>
      simp only at taken ⊢
      split at taken
      · cases taken
      rename_i serving
      split at taken <;> cases taken
      rename_i link received
      rw [view, State.relink_link] at received
      have single : (state.wire connection).view.toServer.length ≤ 1 :=
        Nat.le_trans (Nat.le_add_right _ _) (faithful.single connection)
      obtain ⟨count, wire, whole, moved⟩ :=
        (state.wire connection).exists_recv (faithful.framed connection) single received
      refine ⟨count, state.serve connection wire, whole, ?_⟩
      rw [if_neg (show ¬ state.threads.exited = true from serving), moved]
  | act connection trach =>
      simp only at taken ⊢
      split at taken
      · cases taken
      rename_i serving
      split at taken <;> cases taken
      rename_i link acted
      have answers : config.answers trach = true := by
        cases answered : config.answers trach with
        | true => rfl
        | false => simp [answered] at serving
      rw [view, State.relink_link, ← ((state.wire connection).act_view
        (faithful.framed connection) (plain trach answers)).1] at acted
      obtain ⟨wire, moved, _⟩ := Option.map_eq_some_iff.mp acted
      refine ⟨0, state.serve connection wire, trivial, ?_⟩
      rw [if_neg (show ¬ (state.threads.exited || !config.answers trach) = true from serving),
        moved]

theorem faithful_of_reachable (plain : ∀ reply, config.answers reply = true → Plain reply)
    (reached : (wired config).ReachableWithin Whole state) : state.Faithful := by
  apply reached.invariant
  · intro begun initial
    obtain ⟨memory, rfl⟩ := initial
    exact ⟨.begin ⟨memory, rfl⟩, fun connection => Wire.framed_opened _⟩
  · intro before label later _ faithful whole taken
    obtain ⟨moved, framed⟩ := faithful.step plain whole taken
    exact ⟨faithful.reached.next moved, framed⟩

end Wired

/-- As long as no `recv` ends inside a message, the client over byte streams makes exactly
the steps of the client with whole messages: there is never more than one message on a
connection, so none is read together with another. -/
theorem client_over_bytes {config : Config}
    (plain : ∀ reply, config.answers reply = true → Plain reply) {state : Wired config}
    (reached : (wired config).ReachableWithin Wired.Whole state) :
    (client config).Reachable state.view ∧
      (∀ connection, (state.wire connection).Framed ∧
        (messages (state.wire connection).toServer).length +
          (messages (state.wire connection).toClient).length ≤ 1) ∧
      (∀ label after, state.Whole label → state.next label = some after →
        state.view.next label.move = some after.view) ∧
      ∀ move later memory, state.view.next move = some later →
        ∃ count after, state.Whole ⟨move, count, memory⟩ ∧
          state.next ⟨move, count, memory⟩ = some after ∧ after.view = later := by
  have faithful := Wired.faithful_of_reachable plain reached
  refine ⟨faithful.reached, ?_, ?_, ?_⟩
  · intro connection
    exact ⟨faithful.framed connection, faithful.single connection⟩
  · intro label after whole taken
    exact (faithful.step plain whole taken).1
  · intro move later memory taken
    obtain ⟨count, after, whole, moved⟩ := faithful.enabled plain taken memory
    have viewed := (faithful.step plain whole moved).1
    exact ⟨count, after, whole, moved, Option.some.inj (viewed.symm.trans taken)⟩

def unread (moves : List (Label smallest.w)) : List (WiredLabel smallest.w) :=
  moves.map fun move => { move := move, count := 0, memory := ByteStream.stack }

def wiredExchange (trach : String) (request reply : Nat) : List (WiredLabel smallest.w) :=
  [⟨.worker onlyWorker, 0, ByteStream.stack⟩, ⟨.worker onlyWorker, 0, ByteStream.stack⟩,
    ⟨.recv (some onlyWorker), request, []⟩, ⟨.act (some onlyWorker) trach, 0, []⟩,
    ⟨.worker onlyWorker, reply, ByteStream.stack⟩, ⟨.worker onlyWorker, 0, []⟩]

def wiredRun : List (WiredLabel smallest.w) :=
  List.flatten
    [unread (List.replicate 10 .main ++ [.request 0, .request 1, .request 2]),
      wiredExchange "57" 15 3, wiredExchange "3" 16 2, wiredExchange "99" 16 3,
      unread [.stat 0, .stat 0, .stat 1, .stat 1, .stat 2, .stat 2]]

theorem client_over_bytes_wiredRun :
    ∃ state, (wired smallest).run (wiredInitial smallest fun _ => ByteStream.stack) wiredRun =
        some state ∧
      state.threads.hist.hist (Histogram.cell Patient.joe.row 5) = 1 ∧
      (client smallest).Reachable state.view := by
  have ran : ((wired smallest).run (wiredInitial smallest fun _ => ByteStream.stack) wiredRun).map
      (fun state => state.threads.hist.hist (Histogram.cell Patient.joe.row 5)) = some 1 := by
    decide +kernel
  have along : (wired smallest).Along Wired.Whole
      (wiredInitial smallest fun _ => ByteStream.stack) wiredRun := by
    decide +kernel
  obtain ⟨state, run, cell⟩ := Option.map_eq_some_iff.mp ran
  have start : (wired smallest).start (wiredInitial smallest fun _ => ByteStream.stack) := ⟨_, rfl⟩
  exact ⟨state, run, cell,
    (client_over_bytes (fun _ answers => State.plain_of_reply (serverReplies_iff.mp answers))
      (System.ReachableWithin.of_run (.start start) along run)).1⟩

end Netwurk.Client
