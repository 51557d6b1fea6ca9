/-
Programs whose threads exchange strings through bounded buffers. Each such
program has two meanings: one in which `push` and `pop` are single steps, and
one in which they run statement by statement under the mutex and the condition
variables of their buffer, interleaved with everything else. The second refines
the first: a call takes effect when it changes the queue, although its thread
goes on only when the call returns.
-/

import Netwurk.SafeBuffer.Wakeups
import Netwurk.Foundation.TracedQueue

namespace Netwurk.SafeBuffer

open Transition

inductive Call where
  | push (str : String)
  | pop
deriving DecidableEq

def Call.label {Thread : Type} (call : Call) (thread : Thread) : Label Thread :=
  match call with
  | .push str => .push thread str
  | .pop => .pop thread

def Call.entry : Call → Pc
  | .push str => .pushLock str
  | .pop => .popLock

def Pc.Serves : Call → Pc → Prop
  | _, .idle => True
  | call, .pushLock str | call, .pushTest str | call, .pushWait str => call = .push str
  | call, .pushWoken str | call, .pushInsert str => call = .push str
  | call, .pushSignal | call, .pushUnlock => ∃ str, call = .push str
  | call, .popLock | call, .popTest | call, .popWait | call, .popWoken => call = .pop
  | call, .popFront | call, .popRemove _ | call, .popSignal _ | call, .popUnlock _ => call = .pop
  | _, .sizeLock | _, .sizeRead | _, .sizeUnlock _ => False

/-- What a call that has changed the queue is going to return. -/
def Pc.outcome : Pc → Option String
  | .pushSignal | .pushUnlock => some ""
  | .popSignal s | .popUnlock s => some s
  | _ => none

def Pc.result : Pc → Option String
  | .pushUnlock => some ""
  | .popUnlock s => some s
  | _ => none

/-- `pending` is the call that a thread makes next or is in. `settle` lets the
threads for which there is a result go on from their calls. Nobody moves in a
`halted` state. -/
structure Program (Shared Action Thread Buffer : Type) where
  begins : Shared → Prop
  halted : Shared → Bool
  maxSize : Buffer → Int
  capacity : Buffer → Nat
  fits : ∀ buffer, toSizeT (maxSize buffer) = capacity buffer
  pending : Shared → Thread → Option (Buffer × Call)
  settle : Shared → (Thread → Option String) → Shared
  other : Shared → Action → Option Shared

namespace Program

variable {Shared Action Thread Buffer : Type} [DecidableEq Thread] [DecidableEq Buffer]

def single (thread : Thread) (result : String) : Thread → Option String :=
  fun other => if other = thread then some result else none

@[ext] structure Atomic (program : Program Shared Action Thread Buffer) where
  shared : Shared
  queue : (buffer : Buffer) → TracedQueue String (program.capacity buffer)

inductive AtomicLabel (Action Thread : Type) where
  | call (thread : Thread)
  | other (action : Action)

variable (program : Program Shared Action Thread Buffer)

def Atomic.call (state : program.Atomic) (thread : Thread) : Option program.Atomic :=
  match program.pending state.shared thread with
  | none => none
  | some (buffer, .push str) =>
      match (state.queue buffer).push? str with
      | none => none
      | some after => some
          { shared := program.settle state.shared (single thread "")
            queue := Function.update state.queue buffer after }
  | some (buffer, .pop) =>
      match (state.queue buffer).pop? with
      | none => none
      | some (s, after) => some
          { shared := program.settle state.shared (single thread s)
            queue := Function.update state.queue buffer after }

def Atomic.execute (state : program.Atomic) : AtomicLabel Action Thread → Option program.Atomic
  | .call thread => state.call program thread
  | .other action =>
      match program.other state.shared action with
      | none => none
      | some shared => some { state with shared := shared }

def atomic : System program.Atomic (AtomicLabel Action Thread) :=
  { start := fun state => program.begins state.shared ∧ state.queue = fun _ => .empty
    next := fun state label =>
      if program.halted state.shared then none else state.execute program label }

/-! ### Calls statement by statement -/

structure Concurrent (Shared Thread Buffer : Type) where
  shared : Shared
  buffer : Buffer → State Thread

inductive Statement (Action Thread Buffer : Type) where
  | call (thread : Thread)
  | advance (buffer : Buffer) (thread : Thread)
  | signal (buffer : Buffer) (thread : Thread) (woken : Finset Thread)
  | spurious (buffer : Buffer) (thread : Thread)
  | other (action : Action)

def Statement.isSpurious : Statement Action Thread Buffer → Bool
  | .spurious _ _ => true
  | _ => false

variable [Fintype Thread]

def Concurrent.within (state : Concurrent Shared Thread Buffer) (buffer : Buffer)
    (label : Label Thread) : Option (Concurrent Shared Thread Buffer) :=
  match SafeBuffer.next (program.maxSize buffer) (state.buffer buffer) label with
  | none => none
  | some after => some { state with buffer := Function.update state.buffer buffer after }

def Concurrent.execute (state : Concurrent Shared Thread Buffer) :
    Statement Action Thread Buffer → Option (Concurrent Shared Thread Buffer)
  | .call thread =>
      match program.pending state.shared thread with
      | none => none
      | some (buffer, call) => state.within program buffer (call.label thread)
  | .advance buffer thread =>
      match ((state.buffer buffer).pc thread).result with
      | none => state.within program buffer (.advance thread)
      | some result =>
          Concurrent.within program
            { state with shared := program.settle state.shared (single thread result) }
            buffer (.advance thread)
  | .signal buffer thread woken => state.within program buffer (.signal thread woken)
  | .spurious buffer thread => state.within program buffer (.spurious thread)
  | .other action =>
      match program.other state.shared action with
      | none => none
      | some shared => some { state with shared := shared }

def concurrent : System (Concurrent Shared Thread Buffer) (Statement Action Thread Buffer) :=
  { start := fun state => program.begins state.shared ∧ state.buffer = fun _ => initial
    next := fun state statement =>
      if program.halted state.shared then none else state.execute program statement }

def Supported (shared : Shared) (results : Thread → Option String) : Prop :=
  ∀ thread, results thread ≠ none → program.pending shared thread ≠ none

/-- A thread in a call is not moved by the others, moves none of them, and the
calls of several threads settle in any order. -/
structure Lawful : Prop where
  settle_none : ∀ shared, program.settle shared (fun _ => none) = shared
  halted_settle : ∀ shared results,
    program.halted (program.settle shared results) = program.halted shared
  settle_settle : ∀ shared first second, program.Supported shared first →
    program.Supported shared second → (∀ thread, first thread = none ∨ second thread = none) →
    program.settle (program.settle shared first) second =
      program.settle shared fun thread => (first thread).or (second thread)
  pending_settle : ∀ shared results thread, program.Supported shared results →
    results thread = none →
    program.pending (program.settle shared results) thread = program.pending shared thread
  other_pending : ∀ shared results queue action after, program.Supported shared results →
    program.atomic.Reachable ⟨program.settle shared results, queue⟩ →
    program.other shared action = some after →
    ∀ thread, program.pending shared thread ≠ none →
      program.pending after thread = program.pending shared thread
  other_settle : ∀ shared results queue action after, program.Supported shared results →
    program.atomic.Reachable ⟨program.settle shared results, queue⟩ →
    program.other shared action = some after →
    program.other (program.settle shared results) action = some (program.settle after results)

end Program

end Netwurk.SafeBuffer
