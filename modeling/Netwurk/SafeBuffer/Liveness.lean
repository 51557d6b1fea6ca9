/-
Mutexes and condition variables add no deadlock and no endless work to a program
over bounded buffers. Where the program with atomic calls can go on, some thread
of the concurrent one can execute a statement; and if every atomic step uses up
a measure, so does every statement, wake-ups for no reason excepted.
-/

import Netwurk.SafeBuffer.Linearization

namespace Netwurk.SafeBuffer

open Transition Finset

theorem Pc.classify (pc : Pc) :
    pc = .idle ∨ pc.holds = true ∨ (∃ later, pc.acquired = some later) ∨ pc.waitsOn ≠ none := by
  cases pc with
  | idle => exact .inl rfl
  | pushLock str | pushWoken str => exact .inr (.inr (.inl ⟨_, rfl⟩))
  | popLock | popWoken | sizeLock => exact .inr (.inr (.inl ⟨_, rfl⟩))
  | pushWait str | popWait => exact .inr (.inr (.inr (fun absent => by cases absent)))
  | _ => exact .inr (.inl rfl)

def Call.condition : Call → Condition
  | .push _ => .nf
  | .pop => .ne

theorem Pc.waits_for {pc : Pc} {call : Call} (serves : pc.Serves call)
    (waits : pc.waitsOn ≠ none) : pc.waitsOn = some call.condition := by
  cases pc with
  | pushWait str =>
      cases serves
      rfl
  | popWait =>
      cases serves
      rfl
  | _ => exact absurd rfl waits

section Enabled

variable {Thread : Type} [DecidableEq Thread] [Fintype Thread] {maxSize : Int}
  {state : State Thread} {thread : Thread}

omit [Fintype Thread] in
theorem acquire_enabled {pc : Pc} (acquired : (state.pc thread).acquired = some pc)
    (free : state.mutOwner = none) : ∃ after, advance maxSize state thread = some after := by
  unfold advance
  cases at_ : state.pc thread <;> rw [at_] at acquired <;> cases acquired <;>
    exact ⟨_, if_pos free⟩

private theorem signal_enabled (state : State Thread) (thread : Thread) (condition : Condition)
    (pc : Pc) : ∃ woken after, signal state thread condition pc woken = some after := by
  by_cases waits : ∃ waiter, (state.pc waiter).waitsOn = some condition
  · obtain ⟨waiter, waits⟩ := waits
    refine ⟨{waiter}, _, if_pos ⟨?_, fun nobody => ?_⟩⟩
    · intro other member
      rw [mem_singleton.mp member]
      exact waits
    · exact absurd nobody (singleton_ne_empty waiter)
  · refine ⟨∅, _, if_pos ⟨fun other member => absurd member (notMem_empty other), ?_⟩⟩
    intro _ waiter waiting
    exact waits ⟨waiter, waiting⟩

theorem owner_enabled (valid : Valid maxSize state) (holds : (state.pc thread).holds = true) :
    (∃ after, advance maxSize state thread = some after) ∨
      ∃ woken after, next maxSize state (.signal thread woken) = some after := by
  unfold advance
  cases at_ : state.pc thread with
  | pushTest str =>
      left
      simp only
      split <;> exact ⟨_, rfl⟩
  | popTest =>
      left
      simp only
      split <;> exact ⟨_, rfl⟩
  | popFront =>
      left
      have present := valid.sees thread
      rw [at_] at present
      cases content : state.q with
      | nil => exact absurd content present
      | cons s rest => exact ⟨_, rfl⟩
  | pushInsert _ | pushUnlock | popRemove _ | popUnlock _ => exact .inl ⟨_, rfl⟩
  | sizeRead | sizeUnlock _ => exact .inl ⟨_, rfl⟩
  | pushSignal =>
      right
      simp only [next, at_]
      exact signal_enabled state thread .ne .pushUnlock
  | popSignal s =>
      right
      simp only [next, at_]
      exact signal_enabled state thread .nf (.popUnlock s)
  | _ =>
      rw [at_] at holds
      cases holds

/-- With no thread between its wake-up and its signal, waiters wait in vain. -/
theorem waits_in_vain (reached : (monitor Thread maxSize).Reachable state)
    (still : ∀ thread, state.pc thread = .idle ∨ (state.pc thread).waitsOn ≠ none) :
    ((state.pc thread).waitsOn = some .ne → state.q = []) ∧
      ((state.pc thread).waitsOn = some .nf → toSizeT maxSize ≤ state.q.length) := by
  have spent : ∀ condition, state.credits condition = 0 := by
    intro condition
    apply sum_eq_zero
    intro other _
    rcases still other with idle | waits
    · rw [idle]
      cases condition <;> rfl
    · cases waiting : (state.pc other).waitsOn with
      | none => exact absurd waiting waits
      | some signalled => exact (Pc.credit_of_waiting waiting condition).1
  constructor
  · intro waits
    have covered := reachable_covered reached .ne ⟨thread, waits⟩
    rw [spent] at covered
    exact List.length_eq_zero_iff.mp (Nat.le_zero.mp covered)
  · intro waits
    have covered := reachable_covered reached .nf ⟨thread, waits⟩
    rw [spent] at covered
    exact Nat.le_of_sub_eq_zero (Nat.le_zero.mp covered)

end Enabled

/-! ### Someone can move -/

namespace Program

variable {Shared Action Thread Buffer : Type} {program : Program Shared Action Thread Buffer}
  [DecidableEq Thread] [DecidableEq Buffer] [Fintype Thread]
  {state : Concurrent Shared Thread Buffer}

/-- A statement that is not a wake-up for no reason can be executed. -/
def Concurrent.Proceeds (program : Program Shared Action Thread Buffer)
    (state : Concurrent Shared Thread Buffer) : Prop :=
  ∃ statement after, statement.isSpurious = false ∧ state.execute program statement = some after

private theorem within_enabled {buffer : Buffer} {label : Label Thread} {moved : State Thread}
    (taken : SafeBuffer.next (program.maxSize buffer) (state.buffer buffer) label = some moved) :
    state.within program buffer label = some (state.put buffer moved) := by
  unfold Concurrent.within
  rw [taken]
  rfl

private theorem advance_proceeds {buffer : Buffer} {thread : Thread} {moved : State Thread}
    (taken : advance (program.maxSize buffer) (state.buffer buffer) thread = some moved) :
    state.Proceeds program := by
  have within (shared : Shared) : Concurrent.within program { state with shared := shared }
      buffer (.advance thread) = some (Concurrent.put { state with shared := shared } buffer moved) :=
    within_enabled taken
  cases at_ : ((state.buffer buffer).pc thread).result with
  | none =>
      refine ⟨.advance buffer thread, state.put buffer moved, rfl, ?_⟩
      simp only [Concurrent.execute, at_]
      exact within state.shared
  | some result =>
      refine ⟨.advance buffer thread, Concurrent.put { state with
        shared := program.settle state.shared (single thread result) } buffer moved, rfl, ?_⟩
      simp only [Concurrent.execute, at_]
      exact within _

private theorem proceeds_of_held (consistent : Consistent program state) {buffer : Buffer}
    {thread : Thread} (holds : ((state.buffer buffer).pc thread).holds = true) :
    state.Proceeds program := by
  rcases owner_enabled (reachable_valid (consistent.monitors buffer)) holds with
    ⟨moved, taken⟩ | ⟨woken, moved, taken⟩
  · exact advance_proceeds taken
  · exact ⟨.signal buffer thread woken, _, rfl, within_enabled taken⟩

private theorem call_proceeds {buffer : Buffer} {thread : Thread} {call : Call}
    (pending : program.pending state.shared thread = some (buffer, call))
    (idle : (state.buffer buffer).pc thread = .idle) : state.Proceeds program := by
  refine ⟨.call thread,
    state.put buffer ((state.buffer buffer).setPc thread call.entry), rfl, ?_⟩
  simp only [Concurrent.execute, pending]
  cases call with
  | push str => exact within_enabled (if_pos idle)
  | pop => exact within_enabled (if_pos idle)

/-- Every thread is outside the buffers or waits: the views and the states agree,
and who waits would be blocked in an atomic call as well. -/
private theorem proceeds_of_still (lawful : program.Lawful) (consistent : Consistent program state)
    (still : ∀ buffer thread, (state.buffer buffer).pc thread = .idle ∨
      ((state.buffer buffer).pc thread).waitsOn ≠ none)
    {label : AtomicLabel Action Thread} {after : program.Atomic}
    (taken : (state.view program).execute program label = some after) :
    state.Proceeds program := by
  have outcomes : state.outcomes program = fun _ => none := by
    funext thread
    unfold Concurrent.outcomes
    split
    · rfl
    · rename_i buffer call _
      rcases still buffer thread with idle | waits
      · rw [idle]
        rfl
      · cases at_ : (state.buffer buffer).pc thread with
        | pushWait _ | popWait => rfl
        | _ =>
            rw [at_] at waits
            exact absurd rfl waits
  have shared : (state.view program).shared = state.shared := by
    simp only [Concurrent.view, outcomes, lawful.settle_none]
  cases label with
  | other action =>
      simp only [Atomic.execute, shared] at taken
      split at taken
      · contradiction
      · rename_i later moved
        refine ⟨.other action, { state with shared := later }, rfl, ?_⟩
        simp only [Concurrent.execute, moved]
  | call thread =>
      have blocked : ∀ buffer call, program.pending state.shared thread = some (buffer, call) →
          (state.buffer buffer).pc thread ≠ .idle →
          ((state.buffer buffer).pc thread).waitsOn = some call.condition := by
        intro buffer call pending busy
        obtain ⟨same, again, serves⟩ := consistent.serving.serving buffer thread busy
        rw [pending] at again
        cases again
        rcases still buffer thread with idle | waits
        · exact absurd idle busy
        · exact Pc.waits_for serves waits
      have content : ∀ buffer, ((state.view program).queue buffer).items =
          (state.buffer buffer).q := by
        intro buffer
        have bounded := (reachable_valid (consistent.monitors buffer)).bounded
        rw [program.fits] at bounded
        exact TracedQueue.ofHistory_items _ bounded
      simp only [Atomic.execute, Atomic.call, shared] at taken
      split at taken
      · contradiction
      · rename_i buffer str pending
        by_cases idle : (state.buffer buffer).pc thread = .idle
        · exact call_proceeds pending idle
        split at taken
        · contradiction
        rename_i accepted
        have room := TracedQueue.room_of_push? accepted
        have full := (waits_in_vain (consistent.monitors buffer) (still buffer)).2
          (blocked buffer _ pending idle)
        rw [content] at room
        rw [program.fits] at full
        omega
      · rename_i buffer pending
        by_cases idle : (state.buffer buffer).pc thread = .idle
        · exact call_proceeds pending idle
        split at taken
        · contradiction
        rename_i s rest popped
        have shape := (TracedQueue.pop?_spec popped).2.2
        have empty := (waits_in_vain (consistent.monitors buffer) (still buffer)).1
          (blocked buffer _ pending idle)
        rw [content, empty] at shape
        cases shape

private theorem proceeds_of_execute (lawful : program.Lawful)
    (consistent : Consistent program state) {label : AtomicLabel Action Thread}
    {after : program.Atomic}
    (taken : (state.view program).execute program label = some after) :
    state.Proceeds program := by
  by_cases held : ∃ buffer thread, ((state.buffer buffer).pc thread).holds = true
  · obtain ⟨buffer, thread, holds⟩ := held
    exact proceeds_of_held consistent holds
  have free : ∀ buffer, (state.buffer buffer).mutOwner = none := by
    intro buffer
    cases owner : (state.buffer buffer).mutOwner with
    | none => rfl
    | some thread =>
        have valid := reachable_valid (consistent.monitors buffer)
        exact absurd ⟨buffer, thread, (valid.owner thread).mpr owner⟩ held
  by_cases acquires : ∃ buffer thread later,
      ((state.buffer buffer).pc thread).acquired = some later
  · obtain ⟨buffer, thread, later, acquired⟩ := acquires
    obtain ⟨moved, taken⟩ := acquire_enabled acquired (free buffer)
    exact advance_proceeds taken
  apply proceeds_of_still lawful consistent _ taken
  intro buffer thread
  rcases ((state.buffer buffer).pc thread).classify with idle | holds | ⟨later, acquired⟩ | waits
  · exact .inl idle
  · exact absurd ⟨buffer, thread, holds⟩ held
  · exact absurd ⟨buffer, thread, later, acquired⟩ acquires
  · exact .inr waits

/-- No deadlock comes from the mutexes and the condition variables. -/
theorem proceeds_of_enabled (lawful : program.Lawful) (consistent : Consistent program state)
    (enabled : program.atomic.Enabled (state.view program)) :
    ∃ statement after, statement.isSpurious = false ∧
      program.concurrent.next state statement = some after := by
  obtain ⟨label, after, taken⟩ := enabled
  simp only [atomic] at taken
  split at taken
  · contradiction
  rename_i running
  obtain ⟨statement, later, purposeful, executed⟩ := proceeds_of_execute lawful consistent taken
  refine ⟨statement, later, purposeful, ?_⟩
  simp only [Concurrent.view] at running
  rw [lawful.halted_settle] at running
  exact (if_neg running).trans executed

end Program

/-- A waiter has nothing to do until it is woken; a signal may wake everybody. -/
def Pc.potential (threads : Nat) : Pc → Nat
  | .idle => 5
  | .pushLock _ | .pushWoken _ | .popLock | .popWoken => 4
  | .pushTest _ | .popTest => 3
  | .pushInsert _ | .popFront => 2
  | .popRemove _ => 1
  | .pushWait _ | .popWait => 0
  | .pushSignal | .popSignal _ => 4 * threads + 7
  | .pushUnlock | .popUnlock _ => 6
  | .sizeLock => 8
  | .sizeRead => 7
  | .sizeUnlock _ => 6

theorem Pc.wake_potential (pc : Pc) (threads : Nat) :
    pc.wake.potential threads ≤ pc.potential threads + 4 := by
  cases pc <;> simp [Pc.wake, Pc.potential]

theorem Pc.Moves.potential {pc later : Pc} (moves : pc.Moves later) (threads : Nat) :
    later.potential threads < pc.potential threads := by
  cases moves with
  | acquire acquired => cases pc <;> cases acquired <;> simp [Pc.potential]
  | _ => simp [Pc.potential]

theorem Pc.Moves.signal_potential {pc later : Pc} (moves : pc.Moves later)
    (decided : pc.outcome ≠ none) (threads : Nat) :
    later.potential threads + 4 * threads < pc.potential threads := by
  cases moves with
  | acquire acquired =>
      cases pc <;> cases acquired <;> exact absurd rfl decided
  | signalNe | signalNf =>
      simp only [Pc.potential]
      omega
  | _ => exact absurd rfl decided

section Potential

variable {Thread : Type} [Fintype Thread]

def State.potential (state : State Thread) : Nat :=
  ∑ thread, (state.pc thread).potential (Fintype.card Thread)

variable [DecidableEq Thread] {maxSize : Int} {state after : State Thread} {thread : Thread}

private theorem potential_acting
    (others : ∀ other, other ≠ thread → after.pc other = state.pc other) :
    after.potential + (state.pc thread).potential (Fintype.card Thread) =
      state.potential + (after.pc thread).potential (Fintype.card Thread) := by
  have position : after.pc = Function.update state.pc thread (after.pc thread) := by
    funext other
    by_cases same : other = thread
    · subst other
      rw [Function.update_self]
    · rw [Function.update_of_ne same, others other same]
  have total := Families.sum_update_add (fun _ pc => Pc.potential (Fintype.card Thread) pc)
    state.pc thread (after.pc thread)
  rw [← position] at total
  exact total

/-- A change of the queue is what the potential is gained by. -/
theorem advance_potential (taken : advance maxSize state thread = some after) :
    after.potential < state.potential ∨
      ((state.pc thread).commits = true ∧
        after.potential < state.potential + (4 * Fintype.card Thread + 7)) := by
  obtain ⟨others, effect⟩ := advance_effect taken
  have total := potential_acting others
  cases effect with
  | moves moves =>
      have less := moves.potential (Fintype.card Thread)
      left
      omega
  | inserts str at_ position =>
      rw [at_, position] at total
      simp only [Pc.potential] at total
      exact .inr ⟨by rw [at_]; rfl, by omega⟩
  | removes s at_ position =>
      rw [at_, position] at total
      simp only [Pc.potential] at total
      exact .inr ⟨by rw [at_]; rfl, by omega⟩
  | returns result at_ position =>
      rw [position] at total
      have before : (state.pc thread).potential (Fintype.card Thread) = 6 := by
        cases place : state.pc thread <;> rw [place] at at_ <;> cases at_ <;> rfl
      rw [before] at total
      simp only [Pc.potential] at total
      left
      omega

theorem signal_potential {woken : Finset Thread}
    (taken : next maxSize state (.signal thread woken) = some after) :
    after.potential < state.potential := by
  obtain ⟨others, moves, decided, _, _⟩ := signal_effect taken
  have less := moves.signal_potential decided (Fintype.card Thread)
  have pointwise : ∀ other ∈ (univ : Finset Thread),
      (after.pc other).potential (Fintype.card Thread) ≤
        (Function.update state.pc thread (after.pc thread) other).potential
          (Fintype.card Thread) + 4 := by
    intro other _
    by_cases same : other = thread
    · subst other
      rw [Function.update_self]
      exact Nat.le_add_right _ _
    · rw [Function.update_of_ne same]
      rcases others other same with kept | kept
      · rw [kept]
        exact Nat.le_add_right _ _
      · rw [kept]
        exact Pc.wake_potential _ _
  have bounded := sum_le_sum pointwise
  rw [sum_add_distrib, sum_const_nat (fun _ _ => rfl), card_univ] at bounded
  have total := Families.sum_update_add (fun _ pc => Pc.potential (Fintype.card Thread) pc)
    state.pc thread (after.pc thread)
  unfold State.potential
  omega

theorem call_potential {call : Call}
    (taken : next maxSize state (call.label thread) = some after) :
    after.potential < state.potential := by
  obtain ⟨idle, shape⟩ := call_effect taken
  have others : ∀ other, other ≠ thread → after.pc other = state.pc other := by
    intro other different
    rw [shape]
    exact Function.update_of_ne different _ _
  have entered : (after.pc thread).potential (Fintype.card Thread) = 4 := by
    simp only [shape, State.setPc, Function.update_self]
    cases call <;> rfl
  have total := potential_acting others
  rw [idle, entered] at total
  simp only [Pc.potential] at total
  omega

end Potential

/-! ### A measure of the concurrent program -/

namespace Program

variable {Shared Action Thread Buffer : Type} {program : Program Shared Action Thread Buffer}
  [DecidableEq Thread] [DecidableEq Buffer] [Fintype Thread] [Fintype Buffer]
  {state after : Concurrent Shared Thread Buffer}

/-- An atomic step pays for the statements around it. -/
def Concurrent.work (measure : program.Atomic → Nat)
    (state : Concurrent Shared Thread Buffer) : Nat :=
  (4 * Fintype.card Thread + 7) * measure (state.view program) +
    ∑ buffer, (state.buffer buffer).potential

omit [DecidableEq Thread] in
private theorem put_potential (state : Concurrent Shared Thread Buffer) (buffer : Buffer)
    (moved : State Thread) :
    (∑ other, ((state.put buffer moved).buffer other).potential) +
        (state.buffer buffer).potential =
      (∑ other, (state.buffer other).potential) + moved.potential :=
  Families.sum_update_add (fun _ monitor => State.potential monitor) state.buffer buffer moved

omit [Fintype Buffer] in
private theorem Concurrent.advance_some {buffer : Buffer} {thread : Thread}
    (taken : state.execute program (.advance buffer thread) = some after) :
    ∃ shared moved,
      advance (program.maxSize buffer) (state.buffer buffer) thread = some moved ∧
        after = Concurrent.put { state with shared := shared } buffer moved := by
  simp only [Concurrent.execute] at taken
  split at taken
  · obtain ⟨moved, ran, shape⟩ := Concurrent.within_some taken
    exact ⟨state.shared, moved, ran, shape⟩
  · obtain ⟨moved, ran, shape⟩ := Concurrent.within_some taken
    exact ⟨_, moved, ran, shape⟩

theorem work_less (lawful : program.Lawful) (consistent : Consistent program state)
    (reached : program.atomic.Reachable (state.view program)) {measure : program.Atomic → Nat}
    (decreases : ∀ state label after, program.atomic.next state label = some after →
      measure after < measure state)
    {statement : Statement Action Thread Buffer} (purposeful : statement.isSpurious = false)
    (taken : program.concurrent.next state statement = some after) :
    after.work measure < state.work measure := by
  obtain ⟨running, taken⟩ := running_of_next lawful taken
  have paid : ∀ {label}, (state.view program).execute program label =
      some (after.view program) →
      (4 * Fintype.card Thread + 7) * measure (after.view program) +
        (4 * Fintype.card Thread + 7) ≤
          (4 * Fintype.card Thread + 7) * measure (state.view program) := by
    intro label moved
    have less := decreases _ _ _ ((running label).trans moved)
    calc
      _ = (4 * Fintype.card Thread + 7) * (measure (after.view program) + 1) := by
        rw [Nat.mul_add, Nat.mul_one]
      _ ≤ _ := Nat.mul_le_mul_left _ less
  unfold Concurrent.work
  cases statement with
  | spurious buffer thread => cases purposeful
  | other action =>
      have kept : after.buffer = state.buffer := by
        simp only [Concurrent.execute] at taken
        split at taken <;> cases taken
        rfl
      have moved := paid (other_view lawful consistent reached taken).2
      rw [kept]
      omega
  | call thread =>
      have same := (call_view consistent taken).2
      rw [same]
      simp only [Concurrent.execute] at taken
      split at taken
      · contradiction
      obtain ⟨moved, ran, shape⟩ := Concurrent.within_some taken
      rename_i buffer call _
      have total := put_potential state buffer moved
      have less := call_potential ran
      rw [shape]
      omega
  | signal buffer thread woken =>
      have same := (signal_view consistent taken).2
      rw [same]
      simp only [Concurrent.execute] at taken
      obtain ⟨moved, ran, shape⟩ := Concurrent.within_some taken
      have total := put_potential state buffer moved
      have less := signal_potential ran
      rw [shape]
      omega
  | advance buffer thread =>
      have moved := (advance_view lawful consistent taken).2
      obtain ⟨shared, later, ran, shape⟩ := Concurrent.advance_some taken
      have total : (∑ other, (after.buffer other).potential) + (state.buffer buffer).potential =
          (∑ other, (state.buffer other).potential) + later.potential := by
        rw [shape]
        exact put_potential { state with shared := shared } buffer later
      have change := advance_potential ran
      rcases moved with ⟨same, silent⟩ | moved
      · rw [same]
        rcases change with less | ⟨commits, _⟩
        · omega
        · rw [silent] at commits
          cases commits
      · have moved := paid moved
        rcases change with less | ⟨_, within⟩ <;> omega

theorem spurious_infinitely_often (lawful : program.Lawful) (measure : program.Atomic → Nat)
    (decreases : ∀ state label after, program.atomic.next state label = some after →
      measure after < measure state)
    (states : Nat → Concurrent Shared Thread Buffer)
    (statements : Nat → Statement Action Thread Buffer)
    (reached : program.concurrent.Reachable (states 0))
    (forever : ∀ time,
      program.concurrent.next (states time) (statements time) = some (states (time + 1)))
    (bound : Nat) : ∃ time, bound ≤ time ∧ (statements time).isSpurious = true := by
  refine System.exempt_infinitely_often (fun statement => statement.isSpurious = true)
    (Concurrent.work measure) ?_ states statements reached forever bound
  intro before statement later reached taken purposeful
  obtain ⟨consistent, view⟩ := consistent_of_reachable lawful reached
  exact work_less lawful consistent view decreases (Bool.eq_false_iff.mpr purposeful) taken

/-- From every reachable state the program can be run to where its atomic view
has no step. -/
theorem exists_path_to_end (lawful : program.Lawful) (measure : program.Atomic → Nat)
    (decreases : ∀ state label after, program.atomic.next state label = some after →
      measure after < measure state)
    (reached : program.concurrent.Reachable state) :
    ∃ after, program.concurrent.Path state after ∧ ¬ program.atomic.Enabled (after.view program) := by
  induction size : state.work measure using Nat.strongRecOn generalizing state with
  | ind size ih =>
      by_cases enabled : program.atomic.Enabled (state.view program)
      · obtain ⟨consistent, view⟩ := consistent_of_reachable lawful reached
        obtain ⟨statement, middle, purposeful, taken⟩ :=
          proceeds_of_enabled lawful consistent enabled
        have less := work_less lawful consistent view decreases purposeful taken
        obtain ⟨after, path, ended⟩ := ih _ (size ▸ less) (reached.next taken) rfl
        exact ⟨after, ((System.Path.refl state).step taken).trans path, ended⟩
      · exact ⟨state, .refl state, enabled⟩

end Program

end Netwurk.SafeBuffer
