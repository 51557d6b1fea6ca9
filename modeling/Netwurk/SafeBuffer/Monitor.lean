/-
The bounded buffer of the clients at the granularity of its pthread calls. A
program counter names the statement a thread is about to execute; `pthread_cond_wait`
releases the mutex and joins the waiters in one step, and a woken thread
re-acquires the mutex before it tests its loop condition again.

Histories of inserted, removed and returned strings are recorded beside the
code's own state and never read by it.
-/

import Netwurk.Foundation.Transition
import Netwurk.Foundation.MachineInt
import Mathlib.Data.Fintype.Basic
import Mathlib.Data.Finset.Basic
import Mathlib.Logic.Function.Basic

namespace Netwurk.SafeBuffer

open Transition

inductive Condition where
  | nf
  | ne
deriving DecidableEq

inductive Pc where
  | idle
  | pushLock (str : String)
  | pushTest (str : String)
  | pushWait (str : String)
  | pushWoken (str : String)
  | pushInsert (str : String)
  | pushSignal
  | pushUnlock
  | popLock
  | popTest
  | popWait
  | popWoken
  | popFront
  | popRemove (s : String)
  | popSignal (s : String)
  | popUnlock (s : String)
  | sizeLock
  | sizeRead
  | sizeUnlock (out : Int)
deriving DecidableEq

def Pc.waitsOn : Pc → Option Condition
  | .pushWait _ => some .nf
  | .popWait => some .ne
  | _ => none

def Pc.wake : Pc → Pc
  | .pushWait str => .pushWoken str
  | .popWait => .popWoken
  | pc => pc

/-- `mutOwner` is the thread that holds `mut`. -/
structure State (Thread : Type) where
  q : List String
  mutOwner : Option Thread
  pc : Thread → Pc
  inserted : List String
  removed : List (Thread × String)
  returned : Thread → List String

inductive Label (Thread : Type) where
  | push (thread : Thread) (str : String)
  | pop (thread : Thread)
  | size (thread : Thread)
  | advance (thread : Thread)
  | signal (thread : Thread) (woken : Finset Thread)
  | spurious (thread : Thread)

section Steps

variable {Thread : Type} [DecidableEq Thread]

def initial : State Thread :=
  { q := []
    mutOwner := none
    pc := fun _ => .idle
    inserted := []
    removed := []
    returned := fun _ => [] }

def State.setPc (state : State Thread) (thread : Thread) (pc : Pc) : State Thread :=
  { state with pc := Function.update state.pc thread pc }

def State.acquire (state : State Thread) (thread : Thread) (pc : Pc) : Option (State Thread) :=
  if state.mutOwner = none then some { state.setPc thread pc with mutOwner := some thread } else none

def State.release (state : State Thread) (thread : Thread) (pc : Pc) : State Thread :=
  { state.setPc thread pc with mutOwner := none }

def State.wakeAll (state : State Thread) (woken : Finset Thread) : State Thread :=
  { state with
    pc := fun thread => if thread ∈ woken then (state.pc thread).wake else state.pc thread }

def State.call (state : State Thread) (thread : Thread) (pc : Pc) : Option (State Thread) :=
  if state.pc thread = .idle then some (state.setPc thread pc) else none

/-- One statement of the calling thread, signals excepted. -/
def advance (maxSize : Int) (state : State Thread) (thread : Thread) : Option (State Thread) :=
  match state.pc thread with
  | .pushLock str => state.acquire thread (.pushTest str)
  | .pushTest str =>
      if toSizeT maxSize ≤ state.q.length then some (state.release thread (.pushWait str))
      else some (state.setPc thread (.pushInsert str))
  | .pushWoken str => state.acquire thread (.pushTest str)
  | .pushInsert str => some
      { state.setPc thread .pushSignal with
        q := state.q ++ [str]
        inserted := state.inserted ++ [str] }
  | .pushUnlock => some (state.release thread .idle)
  | .popLock => state.acquire thread .popTest
  | .popTest =>
      if state.q.length ≤ 0 then some (state.release thread .popWait)
      else some (state.setPc thread .popFront)
  | .popWoken => state.acquire thread .popTest
  | .popFront =>
      match state.q with
      | [] => none -- `front` of an empty queue is undefined
      | s :: _ => some (state.setPc thread (.popRemove s))
  | .popRemove s => some
      { state.setPc thread (.popSignal s) with
        q := state.q.tail
        removed := state.removed ++ [(thread, s)] }
  | .popUnlock s => some
      { state.release thread .idle with
        returned := Function.update state.returned thread (state.returned thread ++ [s]) }
  | .sizeLock => state.acquire thread .sizeRead
  | .sizeRead => some (state.setPc thread (.sizeUnlock (toInt state.q.length)))
  | .sizeUnlock _ => some (state.release thread .idle)
  | _ => none

variable [Fintype Thread]

/-- `pthread_cond_signal` wakes at least one waiter if there is any. -/
def signal (state : State Thread) (thread : Thread) (condition : Condition) (pc : Pc)
    (woken : Finset Thread) : Option (State Thread) :=
  if (∀ waiter ∈ woken, (state.pc waiter).waitsOn = some condition) ∧
      (woken = ∅ → ∀ waiter, (state.pc waiter).waitsOn ≠ some condition) then
    some ((state.wakeAll woken).setPc thread pc)
  else none

def next (maxSize : Int) (state : State Thread) : Label Thread → Option (State Thread)
  | .push thread str => state.call thread (.pushLock str)
  | .pop thread => state.call thread .popLock
  | .size thread => state.call thread .sizeLock
  | .advance thread => advance maxSize state thread
  | .signal thread woken =>
      match state.pc thread with
      | .pushSignal => signal state thread .ne .pushUnlock woken
      | .popSignal s => signal state thread .nf (.popUnlock s) woken
      | _ => none
  | .spurious thread =>
      if (state.pc thread).waitsOn = none then none else some (state.wakeAll {thread})

def monitor (Thread : Type) [DecidableEq Thread] [Fintype Thread] (maxSize : Int) :
    System (State Thread) (Label Thread) :=
  { start := fun state => state = initial
    next := next maxSize }

end Steps

/-! ### What one step can do -/

def Pc.acquired : Pc → Option Pc
  | .pushLock str => some (.pushTest str)
  | .pushWoken str => some (.pushTest str)
  | .popLock => some .popTest
  | .popWoken => some .popTest
  | .sizeLock => some .sizeRead
  | _ => none

def Pc.entry : Pc → Bool
  | .pushLock _ => true
  | .popLock => true
  | .sizeLock => true
  | _ => false

def Pc.unlocks : Pc → Bool
  | .pushUnlock => true
  | .sizeUnlock _ => true
  | _ => false

inductive Step {Thread : Type} [DecidableEq Thread] (maxSize : Int) (state : State Thread) :
    State Thread → Prop
  | call (thread : Thread) (pc : Pc) (idle : state.pc thread = .idle) (entry : pc.entry = true) :
      Step maxSize state (state.setPc thread pc)
  | acquire (thread : Thread) (pc : Pc) (acquired : (state.pc thread).acquired = some pc)
      (free : state.mutOwner = none) :
      Step maxSize state { state.setPc thread pc with mutOwner := some thread }
  | pushWait (thread : Thread) (str : String) (at_ : state.pc thread = .pushTest str)
      (full : toSizeT maxSize ≤ state.q.length) :
      Step maxSize state (state.release thread (.pushWait str))
  | pushReady (thread : Thread) (str : String) (at_ : state.pc thread = .pushTest str)
      (room : state.q.length < toSizeT maxSize) :
      Step maxSize state (state.setPc thread (.pushInsert str))
  | insert (thread : Thread) (str : String) (at_ : state.pc thread = .pushInsert str) :
      Step maxSize state
        { state.setPc thread .pushSignal with
          q := state.q ++ [str]
          inserted := state.inserted ++ [str] }
  | popWait (thread : Thread) (at_ : state.pc thread = .popTest) (empty : state.q = []) :
      Step maxSize state (state.release thread .popWait)
  | popReady (thread : Thread) (at_ : state.pc thread = .popTest) (present : state.q ≠ []) :
      Step maxSize state (state.setPc thread .popFront)
  | front (thread : Thread) (s : String) (rest : List String)
      (at_ : state.pc thread = .popFront) (present : state.q = s :: rest) :
      Step maxSize state (state.setPc thread (.popRemove s))
  | remove (thread : Thread) (s : String) (at_ : state.pc thread = .popRemove s) :
      Step maxSize state
        { state.setPc thread (.popSignal s) with
          q := state.q.tail
          removed := state.removed ++ [(thread, s)] }
  | signalNe (thread : Thread) (woken : Finset Thread) (at_ : state.pc thread = .pushSignal)
      (waiting : ∀ waiter ∈ woken, (state.pc waiter).waitsOn = some .ne)
      (some_woken : woken = ∅ → ∀ waiter, (state.pc waiter).waitsOn ≠ some .ne) :
      Step maxSize state ((state.wakeAll woken).setPc thread .pushUnlock)
  | signalNf (thread : Thread) (woken : Finset Thread) (s : String)
      (at_ : state.pc thread = .popSignal s)
      (waiting : ∀ waiter ∈ woken, (state.pc waiter).waitsOn = some .nf)
      (some_woken : woken = ∅ → ∀ waiter, (state.pc waiter).waitsOn ≠ some .nf) :
      Step maxSize state ((state.wakeAll woken).setPc thread (.popUnlock s))
  | unlock (thread : Thread) (unlocks : (state.pc thread).unlocks = true) :
      Step maxSize state (state.release thread .idle)
  | popReturn (thread : Thread) (s : String) (at_ : state.pc thread = .popUnlock s) :
      Step maxSize state
        { state.release thread .idle with
          returned := Function.update state.returned thread (state.returned thread ++ [s]) }
  | sizeRead (thread : Thread) (at_ : state.pc thread = .sizeRead) :
      Step maxSize state (state.setPc thread (.sizeUnlock (toInt state.q.length)))
  | spurious (thread : Thread) (waiting : (state.pc thread).waitsOn ≠ none) :
      Step maxSize state (state.wakeAll {thread})

section Inversion

variable {Thread : Type} [DecidableEq Thread] {maxSize : Int} {state after : State Thread}

private theorem call_cases {thread : Thread} {pc : Pc} (entry : pc.entry = true)
    (taken : state.call thread pc = some after) : Step maxSize state after := by
  unfold State.call at taken
  split at taken
  · rename_i idle
    cases taken
    exact .call thread pc idle entry
  · contradiction

private theorem acquire_cases {thread : Thread} {pc : Pc}
    (acquired : (state.pc thread).acquired = some pc)
    (taken : state.acquire thread pc = some after) : Step maxSize state after := by
  unfold State.acquire at taken
  split at taken
  · rename_i free
    cases taken
    exact .acquire thread pc acquired free
  · contradiction

private theorem advance_cases {thread : Thread}
    (taken : advance maxSize state thread = some after) : Step maxSize state after := by
  unfold advance at taken
  cases at_ : state.pc thread with
  | pushLock str | pushWoken str =>
      simp only [at_] at taken
      exact acquire_cases (by rw [at_]; rfl) taken
  | popLock | popWoken | sizeLock =>
      simp only [at_] at taken
      exact acquire_cases (by rw [at_]; rfl) taken
  | pushTest str =>
      simp only [at_] at taken
      split at taken
      · rename_i full
        cases taken
        exact .pushWait thread str at_ full
      · rename_i room
        cases taken
        exact .pushReady thread str at_ (Nat.lt_of_not_le room)
  | pushInsert str =>
      simp only [at_] at taken
      cases taken
      exact .insert thread str at_
  | popTest =>
      simp only [at_] at taken
      split at taken
      · rename_i empty
        cases taken
        exact .popWait thread at_ (List.length_eq_zero_iff.mp (Nat.le_zero.mp empty))
      · rename_i present
        cases taken
        refine .popReady thread at_ ?_
        intro empty
        exact present (by rw [empty]; exact Nat.le_refl 0)
  | popFront =>
      simp only [at_] at taken
      split at taken
      · contradiction
      · rename_i s rest present
        cases taken
        exact .front thread s rest at_ present
  | popRemove s =>
      simp only [at_] at taken
      cases taken
      exact .remove thread s at_
  | popUnlock s =>
      simp only [at_] at taken
      cases taken
      exact .popReturn thread s at_
  | pushUnlock | sizeUnlock _ =>
      simp only [at_] at taken
      cases taken
      exact .unlock thread (by rw [at_]; rfl)
  | sizeRead =>
      simp only [at_] at taken
      cases taken
      exact .sizeRead thread at_
  | idle | pushSignal =>
      simp only [at_] at taken
      contradiction
  | pushWait _ | popSignal _ =>
      simp only [at_] at taken
      contradiction
  | popWait =>
      simp only [at_] at taken
      contradiction

variable [Fintype Thread]

private theorem signal_cases {thread : Thread} {condition : Condition} {pc : Pc}
    {woken : Finset Thread} (taken : signal state thread condition pc woken = some after) :
    (∀ waiter ∈ woken, (state.pc waiter).waitsOn = some condition) ∧
      (woken = ∅ → ∀ waiter, (state.pc waiter).waitsOn ≠ some condition) ∧
      after = (state.wakeAll woken).setPc thread pc := by
  unfold signal at taken
  split at taken
  · rename_i chosen
    cases taken
    exact ⟨chosen.1, chosen.2, rfl⟩
  · contradiction

theorem next_step {label : Label Thread} (taken : next maxSize state label = some after) :
    Step maxSize state after := by
  cases label with
  | push thread str => exact call_cases rfl taken
  | pop thread => exact call_cases rfl taken
  | size thread => exact call_cases rfl taken
  | advance thread => exact advance_cases taken
  | signal thread woken =>
      simp only [next] at taken
      split at taken
      · rename_i at_
        obtain ⟨waiting, some_woken, rfl⟩ := signal_cases taken
        exact .signalNe thread woken at_ waiting some_woken
      · rename_i s at_
        obtain ⟨waiting, some_woken, rfl⟩ := signal_cases taken
        exact .signalNf thread woken s at_ waiting some_woken
      · contradiction
  | spurious thread =>
      simp only [next] at taken
      split at taken
      · contradiction
      · rename_i waiting
        cases taken
        exact .spurious thread waiting

end Inversion

end Netwurk.SafeBuffer
