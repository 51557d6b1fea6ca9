/-
A session of the earlier client with its data server, from the two constructors of the
control channel on. For each of its `w` workers the client asks for a new channel, and
both processes construct their end of it under the name that the server has sent; the
worker then sends its requests to the thread that serves the channel. A session is
followed until a thread of the server has read "quit": `handle_process_loop` then runs
into its end without a `return`, and what the server does is undefined.
-/

import Mathlib.Algebra.BigOperators.Fin
import Netwurk.Foundation.CString
import Netwurk.Foundation.Families
import Netwurk.DataServer.Fifo
import Netwurk.Histogram

namespace Netwurk.DataServer.Session

open Transition CString RequestChannel

def MAX_MESSAGE : Nat := 255

/-- What `cwrite` puts into the FIFO; a longer message ends the process. -/
def cwrite (bytes msg : List Char) : Option (List Char) :=
  if MAX_MESSAGE < msg.length then none else some (bytes ++ terminated msg)

/-- The outcome of `cread`. Without a terminator among the bytes read, the string runs on
into memory that nobody has written. -/
inductive Read where
  | got (msg rest : List Char)
  | gone
  | undefined
  | blocks

def cread (bytes : List Char) (closed : Bool) : Read :=
  if bytes = [] then if closed then .gone else .blocks
  else
    match CString.read (bytes.take MAX_MESSAGE) with
    | some msg => .got msg (bytes.drop MAX_MESSAGE)
    | none => .undefined

inductive ClientPc where
  | opening (name : List Char)
  | requesting
  | reading
  | joining
  | deleting (i : Nat)
  | quitting
  | leaving
  | finished
deriving DecidableEq

inductive ServerPc where
  | opening (name : List Char)
  | receiving
  | answering (text : List Char)
  | naming (name : List Char)
deriving DecidableEq

inductive WorkerPc where
  | popping
  | holding (request : List Char)
  | reading (request : List Char)
  | ended
deriving DecidableEq

/-- `answered` records the responses a worker has read, with their requests. -/
structure Worker where
  pc : WorkerPc
  answered : List (List Char × List Char)
deriving DecidableEq

inductive HandlerPc where
  | receiving
  | answering (request text : List Char)
deriving DecidableEq

structure Handler where
  pc : HandlerPc
  handled : List (List Char × List Char)
deriving DecidableEq

/-- `clientChannels` are the names of `chan` and of `workerChannels`; each of
`serverChannels` has a thread that serves it. `requests` are the data requests that no
worker has popped, and `undefined` says that a thread of the server has left its loop. -/
structure State (w : Nat) where
  files : List Path
  content : Path → List Char
  client : Process
  clientPc : ClientPc
  clientChannels : List (List Char)
  server : Process
  serverPc : ServerPc
  serverChannels : List (List Char)
  nchannels : Nat
  requests : Patient → Nat
  workers : Fin w → Worker
  handlers : Fin w → Handler
  undefined : Bool

def toServer (name : List Char) : Path := pipe_name name .client .write

def toClient (name : List Char) : Path := pipe_name name .server .write

/-- The destructor of an end; a path that is gone already is no error that matters. -/
def removed (files : List Path) (name : List Char) (side : Side) : List Path :=
  files.filter fun path => path ≠ pipe_name name side .read ∧ path ≠ pipe_name name side .write

def ClientPc.deleted (j : Nat) : ClientPc → Bool
  | .deleting i => j < i
  | .quitting | .leaving | .finished => true
  | _ => false

namespace State

variable {w : Nat}

/-- `main` of the client. It joins the workers before it deletes their channels. -/
def clientNext (state : State w) : Option (State w) :=
  match state.clientPc with
  | .opening name =>
      if state.client.opening.calls = [] then
        some { state with
          clientChannels := state.clientChannels ++ [name]
          clientPc := if state.clientChannels.length < w then .requesting else .joining }
      else
        match state.client.next state.files state.server.ends with
        | some (files, client) => some { state with files := files, client := client }
        | none => none
  | .requesting =>
      match cwrite (state.content (toServer control)) "newchannel".toList with
      | some bytes =>
          some { state with
            content := Function.update state.content (toServer control) bytes
            clientPc := .reading }
      | none => some { state with client := { state.client with gone := true } }
  | .reading =>
      match cread (state.content (toClient control)) state.server.gone with
      | .got name rest =>
          some { state with
            content := Function.update state.content (toClient control) rest
            client := { state.client with opening := .begin name .client }
            clientPc := .opening name }
      | .gone => some { state with client := { state.client with gone := true } }
      | .undefined => none
      | .blocks => none
  | .joining =>
      if ∀ j, (state.workers j).pc = .ended then some { state with clientPc := .deleting 0 }
      else none
  | .deleting i =>
      match state.clientChannels[i + 1]? with
      | some name =>
          some { state with
            files := removed state.files name .client
            clientPc := .deleting (i + 1) }
      | none => some { state with clientPc := .quitting }
  | .quitting =>
      match cwrite (state.content (toServer control)) "quit".toList with
      | some bytes =>
          some { state with
            content := Function.update state.content (toServer control) bytes
            clientPc := .leaving }
      | none => some { state with client := { state.client with gone := true } }
  | .leaving =>
      some { state with
        files := removed state.files control .client
        clientPc := .finished }
  | .finished => none

/-- The control thread of the server, with `value` for `rand() % 100`. -/
def serverNext (value : Fin 100) (state : State w) : Option (State w) :=
  match state.serverPc with
  | .opening name =>
      if state.server.opening.calls = [] then
        some { state with
          serverChannels := state.serverChannels ++ [name]
          serverPc := .receiving }
      else
        match state.server.next state.files state.client.ends with
        | some (files, server) => some { state with files := files, server := server }
        | none => none
  | .receiving =>
      match cread (state.content (toServer control)) (state.clientPc = .finished) with
      | .got request rest =>
          if request = "quit".toList then
            some { state with
              content := Function.update state.content (toServer control) rest
              undefined := true }
          else
            match process_request request value with
            | .reply text =>
                some { state with
                  content := Function.update state.content (toServer control) rest
                  serverPc := .answering text }
            | .newchannel =>
                if (state.nchannels : Int) < INT_MAX then
                  some { state with
                    content := Function.update state.content (toServer control) rest
                    nchannels := state.nchannels + 1
                    serverPc := .naming (channelName (state.nchannels + 1)) }
                else none
      | .gone => some { state with server := { state.server with gone := true } }
      | .undefined => none
      | .blocks => none
  | .answering text =>
      match cwrite (state.content (toClient control)) text with
      | some bytes =>
          some { state with
            content := Function.update state.content (toClient control) bytes
            serverPc := .receiving }
      | none => some { state with server := { state.server with gone := true } }
  | .naming name =>
      match cwrite (state.content (toClient control)) name with
      | some bytes =>
          some { state with
            content := Function.update state.content (toClient control) bytes
            server := { state.server with opening := .begin name .server }
            serverPc := .opening name }
      | none => some { state with server := { state.server with gone := true } }

def setWorker (state : State w) (j : Fin w) (worker : Worker) : State w :=
  { state with workers := Function.update state.workers j worker }

def setHandler (state : State w) (j : Fin w) (handler : Handler) : State w :=
  { state with handlers := Function.update state.handlers j handler }

def write (state : State w) (path : Path) (bytes : List Char) : State w :=
  { state with content := Function.update state.content path bytes }

/-- `worker_thread_function`. The buffers of the client are not followed: a worker pops
any request that has not been popped, and "quit" once none is left and the client has
all its channels. -/
def workerNext (j : Fin w) (popped : Option Patient) (state : State w) : Option (State w) :=
  match state.clientChannels[j.val + 1]? with
  | none => none
  | some name =>
      let worker := state.workers j
      match worker.pc with
      | .popping =>
          match popped with
          | some patient =>
              if 0 < state.requests patient then
                some { state.setWorker j { worker with pc := .holding patient.key.toList } with
                  requests :=
                    Function.update state.requests patient (state.requests patient - 1) }
              else none
          | none =>
              if (∀ patient, state.requests patient = 0) ∧ state.clientPc = .joining then
                some (state.setWorker j { worker with pc := .holding "quit".toList })
              else none
      | .holding request =>
          match cwrite (state.content (toServer name)) request with
          | some bytes =>
              some ((state.write (toServer name) bytes).setWorker j
                { worker with
                  pc := if request = "quit".toList then .ended else .reading request })
          | none => some { state with client := { state.client with gone := true } }
      | .reading request =>
          match cread (state.content (toClient name)) state.server.gone with
          | .got response rest =>
              some ((state.write (toClient name) rest).setWorker j
                { pc := .popping
                  answered := worker.answered ++ [(request, response)] })
          | .gone => some { state with client := { state.client with gone := true } }
          | .undefined => none
          | .blocks => none
      | .ended => none

/-- `handle_process_loop` of a worker's channel. A request for a new channel has no step
here: nobody sends one on such a channel. -/
def handlerNext (j : Fin w) (value : Fin 100) (state : State w) : Option (State w) :=
  match state.serverChannels[j.val + 1]? with
  | none => none
  | some name =>
      let handler := state.handlers j
      match handler.pc with
      | .receiving =>
          match cread (state.content (toServer name)) (state.clientPc.deleted j) with
          | .got request rest =>
              if request = "quit".toList then
                some { state.write (toServer name) rest with undefined := true }
              else
                match process_request request value with
                | .reply text =>
                    some ((state.write (toServer name) rest).setHandler j
                      { handler with pc := .answering request text })
                | .newchannel => none
          | .gone => some { state with server := { state.server with gone := true } }
          | .undefined => none
          | .blocks => none
      | .answering request text =>
          match cwrite (state.content (toClient name)) text with
          | some bytes =>
              some ((state.write (toClient name) bytes).setHandler j
                { pc := .receiving
                  handled := handler.handled ++ [(request, text)] })
          | none => some { state with server := { state.server with gone := true } }

inductive Label (w : Nat) where
  | client
  | server (value : Fin 100)
  | worker (j : Fin w) (popped : Option Patient)
  | handler (j : Fin w) (value : Fin 100)

/-- A process that has become `rmv` takes no more steps of its own, and nobody is followed
once a thread of the server has left its loop. -/
def next (state : State w) (label : Label w) : Option (State w) :=
  if state.undefined then none
  else
    match label with
    | .client => if state.client.gone then none else state.clientNext
    | .server value => if state.server.gone then none else state.serverNext value
    | .worker j popped => if state.client.gone then none else state.workerNext j popped
    | .handler j value => if state.server.gone then none else state.handlerNext j value

end State

/-- Both processes begin with the control channel; `leftover` are FIFOs of earlier runs. -/
def begin (w n : Nat) (leftover : List Path) : State w :=
  { files := leftover
    content := fun _ => []
    client := .begin control .client
    clientPc := .opening control
    clientChannels := []
    server := .begin control .server
    serverPc := .opening control
    serverChannels := []
    nchannels := 0
    requests := fun _ => n
    workers := fun _ => ⟨.popping, []⟩
    handlers := fun _ => ⟨.receiving, []⟩
    undefined := false }

def session (w n : Nat) (leftover : List Path) : System (State w) (State.Label w) :=
  { start := fun state => state = begin w n leftover
    next := State.next }

/-! ### Names and messages -/

def nameOf : Nat → List Char
  | 0 => control
  | k + 1 => channelName (k + 1)

theorem nameOf_injective : Function.Injective nameOf := by
  intro k other same
  cases k with
  | zero =>
      cases other with
      | zero => rfl
      | succ other =>
          have heads : some 'c' = some 'd' := congrArg List.head? same
          exact absurd heads (by decide)
  | succ k =>
      cases other with
      | zero =>
          have heads : some 'd' = some 'c' := congrArg List.head? same
          exact absurd heads (by decide)
      | succ other => exact channelName_injective same

theorem toClient_ne (name other : List Char) : toClient name ≠ toServer other := by
  intro same
  have alike := name_of_pipe_name same
  subst alike
  exact (pipe_name_sides name).2.2 same.symm

theorem cread_terminated {msg : List Char} (free : NulFree msg) (short : msg.length < MAX_MESSAGE)
    (closed : Bool) : cread (terminated msg) closed = .got msg [] := by
  have whole : (terminated msg).length ≤ MAX_MESSAGE := by
    rw [terminated_length]
    exact short
  have nonempty : terminated msg ≠ [] := List.append_ne_nil_of_right_ne_nil _ (List.cons_ne_nil _ _)
  rw [cread, if_neg nonempty, List.take_of_length_le whole, read_terminated free,
    List.drop_of_length_le whole]

theorem cwrite_short {msg : List Char} (short : msg.length < MAX_MESSAGE) :
    cwrite [] msg = some (terminated msg) :=
  if_neg (Nat.not_lt_of_lt short)

theorem nameOf_free (k : Nat) : NulFree (nameOf k) := by
  cases k with
  | zero => decide
  | succ k =>
      intro member
      rcases List.mem_append.mp member with front | last
      · rcases List.mem_append.mp front with data | digits
        · revert data
          decide
        · exact to_string_nulFree _ digits
      · revert last
        decide

theorem nameOf_short {k : Nat} (int : (k : Int) ≤ INT_MAX) : (nameOf k).length < MAX_MESSAGE := by
  cases k with
  | zero => decide
  | succ k =>
      have digits : (to_string (k + 1)).length ≤ 10 := by
        refine (Nat.length_toDigits_le_iff (by decide) (by decide)).mpr ?_
        unfold INT_MAX at int
        omega
      simp only [nameOf, channelName, List.length_append, List.length_singleton]
      unfold MAX_MESSAGE
      change 4 + _ + 1 < 255
      omega

def earlier (side : Side) (k : Nat) : List End :=
  (List.range k).flatMap fun i => known (nameOf i) side 6

theorem earlier_succ (side : Side) (k : Nat) :
    earlier side (k + 1) = earlier side k ++ known (nameOf k) side 6 := by
  rw [earlier, List.range_succ, List.flatMap_append, List.flatMap_singleton]
  rfl

theorem name_of_pathAt {name other : List Char} {count : Nat} {mode : Mode} {side : Side}
    {peer : Nat}
    (member : (mode, pathAt name count) ∈ known other side peer) : name = other := by
  have first : ∀ {path}, path = firstPath other ∨ path = secondPath other →
      pathAt name count = path → name = other := by
    intro path which same
    unfold pathAt at same
    rcases which with rfl | rfl <;> split_ifs at same <;> exact name_of_pipe_name same
  rcases mem_known.mp member with ⟨_, _, same⟩ | ⟨_, _, same⟩
  · exact first (.inl rfl) same
  · exact first (.inr rfl) same

theorem opposite_earlier {k m count : Nat} {side other : Side} (waits : Waiting count) :
    ((modeAt side count).opposite, pathAt (nameOf k) count) ∈ earlier other m ↔
      side ≠ other ∧ k < m := by
  constructor
  · intro member
    obtain ⟨i, inside, here⟩ := List.mem_flatMap.mp member
    have same := nameOf_injective (name_of_pathAt here)
    subst same
    exact ⟨((opposite_known waits).mp here).1, List.mem_range.mp inside⟩
  · intro both
    refine List.mem_flatMap.mpr ⟨k, List.mem_range.mpr both.2, ?_⟩
    exact (opposite_known waits).mpr ⟨both.1, by unfold Waiting at waits; omega⟩

theorem opposite_opening {k m count peer : Nat} {side other : Side} (waits : Waiting count) :
    ((modeAt side count).opposite, pathAt (nameOf k) count) ∈
        earlier other m ++ known (nameOf m) other peer ↔
      side ≠ other ∧ (k < m ∨ k = m ∧ count ≤ peer) := by
  rw [List.mem_append, opposite_earlier waits]
  constructor
  · intro either
    rcases either with before | here
    · exact ⟨before.1, .inl before.2⟩
    · have same := nameOf_injective (name_of_pathAt here)
      subst same
      have both := (opposite_known waits).mp here
      exact ⟨both.1, .inr ⟨rfl, both.2⟩⟩
  · intro both
    obtain ⟨differ, before | ⟨rfl, far⟩⟩ := both
    · exact .inl ⟨differ, before⟩
    · exact .inr ((opposite_known waits).mpr ⟨differ, far⟩)

end Netwurk.DataServer.Session
