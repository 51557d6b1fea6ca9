/-
The two meanings of a program over bounded buffers agree. Seen from outside, a
call that has changed the queue is over, whatever its thread still has to do
inside: with such calls settled, every statement of the concurrent program is
one step of the program with atomic calls, or none.
-/

import Netwurk.SafeBuffer.Program

namespace Netwurk.SafeBuffer

open Transition

inductive Pc.Moves : Pc → Pc → Prop
  | acquire {pc later : Pc} (acquired : pc.acquired = some later) : Moves pc later
  | pushWait (str : String) : Moves (.pushTest str) (.pushWait str)
  | pushReady (str : String) : Moves (.pushTest str) (.pushInsert str)
  | popWait : Moves .popTest .popWait
  | popReady : Moves .popTest .popFront
  | front (s : String) : Moves .popFront (.popRemove s)
  | signalNe : Moves .pushSignal .pushUnlock
  | signalNf (s : String) : Moves (.popSignal s) (.popUnlock s)
  | sizeRead (out : Int) : Moves .sizeRead (.sizeUnlock out)
  | sizeUnlock (out : Int) : Moves (.sizeUnlock out) .idle

/-- The next statement changes the queue. -/
def Pc.commits : Pc → Bool
  | .pushInsert _ | .popRemove _ => true
  | _ => false

theorem Pc.Moves.facts {pc later : Pc} (moves : pc.Moves later) :
    later.outcome = pc.outcome ∧ pc.result = none ∧ pc.commits = false ∧
      ∀ call, pc.Serves call → later.Serves call := by
  cases moves with
  | acquire acquired =>
      cases pc <;> cases acquired <;> exact ⟨rfl, rfl, rfl, fun _ serves => serves⟩
  | _ => exact ⟨rfl, rfl, rfl, fun _ serves => by first | exact serves | cases serves⟩

@[simp] theorem Pc.wake_outcome (pc : Pc) : pc.wake.outcome = pc.outcome := by
  cases pc <;> rfl

theorem Pc.wake_serves {pc : Pc} {call : Call} (serves : pc.Serves call) :
    pc.wake.Serves call := by
  cases pc <;> exact serves

theorem Pc.wake_eq_idle {pc : Pc} : pc.wake = .idle ↔ pc = .idle := by
  cases pc <;> simp [Pc.wake]

theorem Pc.outcome_of_result {pc : Pc} {result : String} (returns : pc.result = some result) :
    pc.outcome = some result := by
  cases pc <;> cases returns <;> rfl

theorem Pc.commits_of_result {pc : Pc} {result : String} (returns : pc.result = some result) :
    pc.commits = false := by
  cases pc <;> cases returns <;> rfl

section Effects

variable {Thread : Type} [DecidableEq Thread]

/-- The statement of the acting thread, with the change of the queue. -/
inductive Effect (state : State Thread) (thread : Thread) (after : State Thread) : Prop
  | moves (moves : (state.pc thread).Moves (after.pc thread)) (q : after.q = state.q)
      (removed : after.removed = state.removed)
  | inserts (str : String) (at_ : state.pc thread = .pushInsert str)
      (moved : after.pc thread = .pushSignal) (q : after.q = state.q ++ [str])
      (removed : after.removed = state.removed)
  | removes (s : String) (at_ : state.pc thread = .popRemove s)
      (moved : after.pc thread = .popSignal s) (q : after.q = state.q.tail)
      (removed : after.removed = state.removed ++ [(thread, s)])
  | returns (result : String) (at_ : (state.pc thread).result = some result)
      (moved : after.pc thread = .idle) (q : after.q = state.q)
      (removed : after.removed = state.removed)

private theorem acquire_effect {state after : State Thread} {thread : Thread} {pc : Pc}
    (acquired : (state.pc thread).acquired = some pc)
    (taken : state.acquire thread pc = some after) :
    (∀ other, other ≠ thread → after.pc other = state.pc other) ∧ Effect state thread after := by
  unfold State.acquire at taken
  split at taken <;> cases taken
  refine ⟨fun other different => Function.update_of_ne different _ _, .moves ?_ rfl rfl⟩
  simp only [State.setPc, Function.update_self]
  exact .acquire acquired

theorem advance_effect {maxSize : Int} {state after : State Thread} {thread : Thread}
    (taken : advance maxSize state thread = some after) :
    (∀ other, other ≠ thread → after.pc other = state.pc other) ∧ Effect state thread after := by
  unfold advance at taken
  have position (pc : Pc) : (state.setPc thread pc).pc thread = pc := Function.update_self _ _ _
  have elsewhere (pc : Pc) : ∀ other, other ≠ thread →
      (state.setPc thread pc).pc other = state.pc other :=
    fun other different => Function.update_of_ne different _ _
  cases at_ : state.pc thread with
  | pushLock str | pushWoken str =>
      simp only [at_] at taken
      exact acquire_effect (by rw [at_]; rfl) taken
  | popLock | popWoken | sizeLock =>
      simp only [at_] at taken
      exact acquire_effect (by rw [at_]; rfl) taken
  | pushTest str =>
      simp only [at_] at taken
      split at taken <;> cases taken
      · refine ⟨elsewhere _, .moves ?_ rfl rfl⟩
        rw [at_, State.release, position]
        exact .pushWait str
      · refine ⟨elsewhere _, .moves ?_ rfl rfl⟩
        rw [at_, position]
        exact .pushReady str
  | pushInsert str =>
      simp only [at_] at taken
      cases taken
      exact ⟨elsewhere _, .inserts str at_ (position _) rfl rfl⟩
  | pushUnlock =>
      simp only [at_] at taken
      cases taken
      exact ⟨elsewhere _, .returns "" (by rw [at_]; rfl) (position _) rfl rfl⟩
  | popTest =>
      simp only [at_] at taken
      split at taken <;> cases taken
      · refine ⟨elsewhere _, .moves ?_ rfl rfl⟩
        rw [at_, State.release, position]
        exact .popWait
      · refine ⟨elsewhere _, .moves ?_ rfl rfl⟩
        rw [at_, position]
        exact .popReady
  | popFront =>
      simp only [at_] at taken
      split at taken <;> cases taken
      refine ⟨elsewhere _, .moves ?_ rfl rfl⟩
      rw [at_, position]
      exact .front _
  | popRemove s =>
      simp only [at_] at taken
      cases taken
      exact ⟨elsewhere _, .removes s at_ (position _) rfl rfl⟩
  | popUnlock s =>
      simp only [at_] at taken
      cases taken
      exact ⟨elsewhere _, .returns s (by rw [at_]; rfl) (position _) rfl rfl⟩
  | sizeRead =>
      simp only [at_] at taken
      cases taken
      refine ⟨elsewhere _, .moves ?_ rfl rfl⟩
      rw [at_, position]
      exact .sizeRead _
  | sizeUnlock out =>
      simp only [at_] at taken
      cases taken
      refine ⟨elsewhere _, .moves ?_ rfl rfl⟩
      rw [at_, State.release, position]
      exact .sizeUnlock out
  | idle | pushSignal | popWait =>
      simp only [at_] at taken
      contradiction
  | pushWait _ | popSignal _ =>
      simp only [at_] at taken
      contradiction

variable [Fintype Thread]

private theorem signal_taken {state after : State Thread} {thread : Thread}
    {condition : Condition} {pc : Pc} {woken : Finset Thread}
    (taken : signal state thread condition pc woken = some after) :
    after = (state.wakeAll woken).setPc thread pc := by
  unfold signal at taken
  split at taken <;> cases taken
  rfl

theorem signal_effect {maxSize : Int} {state after : State Thread} {thread : Thread}
    {woken : Finset Thread} (taken : next maxSize state (.signal thread woken) = some after) :
    (∀ other, other ≠ thread →
      after.pc other = state.pc other ∨ after.pc other = (state.pc other).wake) ∧
    (state.pc thread).Moves (after.pc thread) ∧ (state.pc thread).outcome ≠ none ∧
    after.q = state.q ∧ after.removed = state.removed := by
  have elsewhere (pc : Pc) : ∀ other, other ≠ thread →
      ((state.wakeAll woken).setPc thread pc).pc other = state.pc other ∨
        ((state.wakeAll woken).setPc thread pc).pc other = (state.pc other).wake := by
    intro other different
    simp only [State.setPc, State.wakeAll, Function.update_of_ne different]
    split
    · exact .inr rfl
    · exact .inl rfl
  have position (pc : Pc) : ((state.wakeAll woken).setPc thread pc).pc thread = pc :=
    Function.update_self _ _ _
  simp only [next] at taken
  split at taken
  · rename_i at_
    cases signal_taken taken
    refine ⟨elsewhere _, ?_, by rw [at_]; simp [Pc.outcome], rfl, rfl⟩
    rw [at_, position]
    exact .signalNe
  · rename_i s at_
    cases signal_taken taken
    refine ⟨elsewhere _, ?_, by rw [at_]; simp [Pc.outcome], rfl, rfl⟩
    rw [at_, position]
    exact .signalNf s
  · contradiction

theorem spurious_effect {maxSize : Int} {state after : State Thread} {thread : Thread}
    (taken : next maxSize state (.spurious thread) = some after) :
    (∀ other, after.pc other = state.pc other ∨ after.pc other = (state.pc other).wake) ∧
    after.q = state.q ∧ after.removed = state.removed := by
  simp only [next] at taken
  split at taken <;> cases taken
  refine ⟨fun other => ?_, rfl, rfl⟩
  simp only [State.wakeAll]
  split
  · exact .inr rfl
  · exact .inl rfl

theorem call_effect {maxSize : Int} {state after : State Thread} {thread : Thread} {call : Call}
    (taken : next maxSize state (call.label thread) = some after) :
    state.pc thread = .idle ∧ after = state.setPc thread call.entry := by
  have called {pc : Pc} (taken : state.call thread pc = some after) :
      state.pc thread = .idle ∧ after = state.setPc thread pc := by
    unfold State.call at taken
    split at taken <;> cases taken
    exact ⟨‹_›, rfl⟩
  cases call with
  | push str => exact called taken
  | pop => exact called taken

end Effects

/-! ### Calls that have taken effect are over -/

namespace Program

variable {Shared Action Thread Buffer : Type} (program : Program Shared Action Thread Buffer)

namespace Concurrent

def outcomes (state : Concurrent Shared Thread Buffer) (thread : Thread) : Option String :=
  match program.pending state.shared thread with
  | none => none
  | some (buffer, _) => ((state.buffer buffer).pc thread).outcome

/-- The state with atomic calls that a state inside the calls stands for. -/
def view (state : Concurrent Shared Thread Buffer) : program.Atomic :=
  { shared := program.settle state.shared (state.outcomes program)
    queue := fun buffer => .ofHistory (program.capacity buffer)
      ((state.buffer buffer).removed.map Prod.snd) (state.buffer buffer).q }

/-- A thread is inside the buffer of its pending call only, at a position of
that call. -/
structure Serving (state : Concurrent Shared Thread Buffer) : Prop where
  serving : ∀ buffer thread, (state.buffer buffer).pc thread ≠ .idle →
    ∃ call, program.pending state.shared thread = some (buffer, call) ∧
      ((state.buffer buffer).pc thread).Serves call

variable {program} {state after : Concurrent Shared Thread Buffer}

theorem outcomes_supported : program.Supported state.shared (state.outcomes program) := by
  intro thread some_outcome absent
  rw [outcomes, absent] at some_outcome
  exact some_outcome rfl

theorem Serving.outcome_eq (serving : state.Serving program) {buffer : Buffer} {thread : Thread}
    {result : String} (outcome : ((state.buffer buffer).pc thread).outcome = some result) :
    state.outcomes program thread = some result := by
  have inside : (state.buffer buffer).pc thread ≠ .idle := by
    intro idle
    rw [idle] at outcome
    cases outcome
  obtain ⟨call, pending, _⟩ := serving.serving buffer thread inside
  rw [outcomes, pending]
  exact outcome

theorem Serving.outcome_none (serving : state.Serving program) {buffer : Buffer}
    {thread : Thread} (inside : (state.buffer buffer).pc thread ≠ .idle)
    (undecided : ((state.buffer buffer).pc thread).outcome = none) :
    state.outcomes program thread = none := by
  obtain ⟨call, pending, _⟩ := serving.serving buffer thread inside
  rw [outcomes, pending]
  exact undecided

end Concurrent

section Moves

variable {program} [DecidableEq Buffer] {state : Concurrent Shared Thread Buffer}
  {buffer : Buffer} {moved : State Thread}

def Concurrent.put (state : Concurrent Shared Thread Buffer) (buffer : Buffer)
    (moved : State Thread) : Concurrent Shared Thread Buffer :=
  { state with buffer := Function.update state.buffer buffer moved }

theorem Concurrent.within_some [DecidableEq Thread] [Fintype Thread] {label : Label Thread}
    {after : Concurrent Shared Thread Buffer}
    (taken : state.within program buffer label = some after) :
    ∃ moved, SafeBuffer.next (program.maxSize buffer) (state.buffer buffer) label = some moved ∧
      after = state.put buffer moved := by
  unfold within at taken
  split at taken <;> cases taken
  exact ⟨_, ‹_›, rfl⟩

private theorem put_buffer (other : Buffer) (thread : Thread) :
    ((state.put buffer moved).buffer other).pc thread =
      if other = buffer then moved.pc thread else (state.buffer other).pc thread := by
  by_cases same : other = buffer
  · subst other
    simp [Concurrent.put]
  · simp [Concurrent.put, same]

private theorem put_outcomes
    (kept : ∀ thread, (moved.pc thread).outcome = ((state.buffer buffer).pc thread).outcome) :
    (state.put buffer moved).outcomes program = state.outcomes program := by
  funext thread
  unfold Concurrent.outcomes
  rw [show (state.put buffer moved).shared = state.shared from rfl]
  split
  · rfl
  · rename_i other call pending
    rw [put_buffer]
    split
    · rename_i same
      subst same
      exact kept thread
    · rfl

private theorem put_queue :
    ((state.put buffer moved).view program).queue =
      Function.update (state.view program).queue buffer
        (.ofHistory (program.capacity buffer) (moved.removed.map Prod.snd) moved.q) := by
  funext other
  by_cases same : other = buffer
  · subst other
    simp [Concurrent.put, Concurrent.view]
  · simp [Concurrent.put, Concurrent.view, same]

private theorem put_view_same
    (kept : ∀ thread, (moved.pc thread).outcome = ((state.buffer buffer).pc thread).outcome)
    (q : moved.q = (state.buffer buffer).q)
    (removed : moved.removed = (state.buffer buffer).removed) :
    (state.put buffer moved).view program = state.view program := by
  have queue : ((state.put buffer moved).view program).queue = (state.view program).queue := by
    rw [put_queue, q, removed]
    exact Function.update_eq_self buffer (state.view program).queue
  have shared : ((state.put buffer moved).view program).shared = (state.view program).shared := by
    simp only [Concurrent.view, put_outcomes kept]
    rfl
  exact Atomic.ext shared queue

private theorem put_serving (serving : state.Serving program)
    (kept : ∀ thread, moved.pc thread ≠ .idle →
      (∀ call, ((state.buffer buffer).pc thread).Serves call → (moved.pc thread).Serves call) ∧
        (state.buffer buffer).pc thread ≠ .idle) :
    (state.put buffer moved).Serving program := by
  constructor
  intro other thread inside
  rw [put_buffer] at inside ⊢
  split at inside
  · rename_i same
    subst same
    obtain ⟨serves, before⟩ := kept thread inside
    obtain ⟨call, pending, position⟩ := serving.serving other thread before
    rw [if_pos rfl]
    exact ⟨call, pending, serves call position⟩
  · rename_i different
    rw [if_neg different]
    exact serving.serving other thread inside

end Moves

section Effects

variable {program} [DecidableEq Thread] [DecidableEq Buffer]
  {state : Concurrent Shared Thread Buffer} {buffer : Buffer} {thread : Thread}
  {moved : State Thread} {result : String}

omit [DecidableEq Buffer] in
private theorem single_supported (called : program.pending state.shared thread ≠ none) :
    program.Supported state.shared (single thread result) := by
  intro other some_result
  by_cases same : other = thread
  · subst other
    exact called
  · simp [single, same] at some_result

private theorem effect_shared (lawful : program.Lawful) (serving : state.Serving program)
    (inside : (state.buffer buffer).pc thread ≠ .idle)
    (undecided : ((state.buffer buffer).pc thread).outcome = none)
    (decided : (moved.pc thread).outcome = some result)
    (others : ∀ other, other ≠ thread → moved.pc other = (state.buffer buffer).pc other) :
    program.settle (state.view program).shared (single thread result) =
      ((state.put buffer moved).view program).shared := by
  obtain ⟨call, pending, _⟩ := serving.serving buffer thread inside
  have called : program.pending state.shared thread ≠ none := by simp [pending]
  have before := serving.outcome_none inside undecided
  have outcomes : (state.put buffer moved).outcomes program = fun other =>
      (state.outcomes program other).or (single thread result other) := by
    funext other
    by_cases same : other = thread
    · subst other
      simp only [before, single, if_true, Option.none_or]
      simp only [Concurrent.outcomes, Concurrent.put, pending, Function.update_self, decided]
    · simp only [single, if_neg same, Option.or_none]
      unfold Concurrent.outcomes
      rw [show (state.put buffer moved).shared = state.shared from rfl]
      split
      · rfl
      · rw [put_buffer]
        split
        · rename_i place
          subst place
          rw [others other same]
        · rfl
  simp only [Concurrent.view]
  rw [lawful.settle_settle _ _ _ Concurrent.outcomes_supported (single_supported called), outcomes]
  · rfl
  · intro other
    by_cases same : other = thread
    · subst other
      exact .inl before
    · exact .inr (by simp [single, same])

private theorem pending_view (lawful : program.Lawful)
    (undecided : state.outcomes program thread = none) :
    program.pending (state.view program).shared thread = program.pending state.shared thread :=
  lawful.pending_settle _ _ _ Concurrent.outcomes_supported undecided

private theorem insert_view (lawful : program.Lawful) (serving : state.Serving program)
    (valid : Valid (program.maxSize buffer) (state.buffer buffer)) {str : String}
    (at_ : (state.buffer buffer).pc thread = .pushInsert str)
    (position : moved.pc thread = .pushSignal)
    (others : ∀ other, other ≠ thread → moved.pc other = (state.buffer buffer).pc other)
    (q : moved.q = (state.buffer buffer).q ++ [str])
    (removed : moved.removed = (state.buffer buffer).removed) :
    (state.view program).execute program (.call thread) =
      some ((state.put buffer moved).view program) := by
  have inside : (state.buffer buffer).pc thread ≠ .idle := by simp [at_]
  have undecided : ((state.buffer buffer).pc thread).outcome = none := by rw [at_]; rfl
  obtain ⟨call, pending, serves⟩ := serving.serving buffer thread inside
  rw [at_] at serves
  subst serves
  rw [← pending_view lawful (serving.outcome_none inside undecided)] at pending
  have room := valid.sees thread
  rw [at_, program.fits] at room
  have accepted := TracedQueue.ofHistory_push?
    ((state.buffer buffer).removed.map Prod.snd) str room
  have decided : (moved.pc thread).outcome = some "" := by rw [position]; rfl
  have shared := effect_shared lawful serving inside undecided decided others
  simp only [Atomic.execute, Atomic.call, pending]
  rw [show (state.view program).queue buffer = .ofHistory (program.capacity buffer)
    ((state.buffer buffer).removed.map Prod.snd) (state.buffer buffer).q from rfl, accepted]
  refine congrArg some (Atomic.ext shared ?_)
  rw [put_queue, q, removed]

private theorem remove_view (lawful : program.Lawful) (serving : state.Serving program)
    (valid : Valid (program.maxSize buffer) (state.buffer buffer)) {s : String}
    (at_ : (state.buffer buffer).pc thread = .popRemove s)
    (position : moved.pc thread = .popSignal s)
    (others : ∀ other, other ≠ thread → moved.pc other = (state.buffer buffer).pc other)
    (q : moved.q = (state.buffer buffer).q.tail)
    (removed : moved.removed = (state.buffer buffer).removed ++ [(thread, s)]) :
    (state.view program).execute program (.call thread) =
      some ((state.put buffer moved).view program) := by
  have inside : (state.buffer buffer).pc thread ≠ .idle := by simp [at_]
  have undecided : ((state.buffer buffer).pc thread).outcome = none := by rw [at_]; rfl
  obtain ⟨call, pending, serves⟩ := serving.serving buffer thread inside
  rw [at_] at serves
  subst serves
  rw [← pending_view lawful (serving.outcome_none inside undecided)] at pending
  have front := valid.sees thread
  rw [at_] at front
  obtain ⟨rest, content⟩ := front
  have bounded := valid.bounded
  rw [program.fits, content] at bounded
  have taken := TracedQueue.ofHistory_pop?
    ((state.buffer buffer).removed.map Prod.snd) bounded
  have decided : (moved.pc thread).outcome = some s := by rw [position]; rfl
  have shared := effect_shared lawful serving inside undecided decided others
  simp only [Atomic.execute, Atomic.call, pending]
  rw [show (state.view program).queue buffer = .ofHistory (program.capacity buffer)
    ((state.buffer buffer).removed.map Prod.snd) (state.buffer buffer).q from rfl, content, taken]
  refine congrArg some (Atomic.ext shared ?_)
  rw [put_queue, q, removed, content, List.tail_cons, List.map_append]
  rfl

private theorem return_outcomes (lawful : program.Lawful) (serving : state.Serving program)
    (at_ : ((state.buffer buffer).pc thread).result = some result)
    (position : moved.pc thread = .idle)
    (others : ∀ other, other ≠ thread → moved.pc other = (state.buffer buffer).pc other)
    (other : Thread) :
    (Concurrent.put
      { state with shared := program.settle state.shared (single thread result) }
      buffer moved).outcomes program other =
        if other = thread then none else state.outcomes program other := by
  have outcome := Pc.outcome_of_result at_
  have inside : (state.buffer buffer).pc thread ≠ .idle := by
    intro idle
    rw [idle] at at_
    cases at_
  obtain ⟨call, pending, _⟩ := serving.serving buffer thread inside
  have called : program.pending state.shared thread ≠ none := by simp [pending]
  by_cases same : other = thread
  · subst other
    rw [if_pos rfl]
    unfold Concurrent.outcomes
    split
    · rfl
    · rename_i place later _
      rw [put_buffer]
      split
      · rw [position]
        rfl
      · rename_i elsewhere
        by_cases idle : (state.buffer place).pc thread = .idle
        · rw [idle]
          rfl
        · obtain ⟨_, also, _⟩ := serving.serving place thread idle
          rw [pending] at also
          cases also
          exact absurd rfl elsewhere
  · rw [if_neg same]
    have kept := lawful.pending_settle state.shared (single thread result) other
      (single_supported called) (by simp [single, same])
    unfold Concurrent.outcomes
    rw [show (Concurrent.put { state with
      shared := program.settle state.shared (single thread result) } buffer moved).shared =
        program.settle state.shared (single thread result) from rfl, kept]
    split
    · rfl
    · rw [put_buffer]
      split
      · rename_i place
        subst place
        rw [others other same]
      · rfl

private theorem return_view (lawful : program.Lawful) (serving : state.Serving program)
    (at_ : ((state.buffer buffer).pc thread).result = some result)
    (position : moved.pc thread = .idle)
    (others : ∀ other, other ≠ thread → moved.pc other = (state.buffer buffer).pc other)
    (q : moved.q = (state.buffer buffer).q)
    (removed : moved.removed = (state.buffer buffer).removed) :
    (Concurrent.put
      { state with shared := program.settle state.shared (single thread result) }
      buffer moved).view program = state.view program := by
  have outcomes := funext (return_outcomes lawful serving at_ position others)
  have decided := serving.outcome_eq (Pc.outcome_of_result at_)
  have called : program.pending state.shared thread ≠ none :=
    Concurrent.outcomes_supported thread (by rw [decided]; simp)
  have supported : program.Supported state.shared
      (fun other => if other = thread then none else state.outcomes program other) := by
    intro other some_outcome
    apply Concurrent.outcomes_supported other
    intro absent
    simp [absent] at some_outcome
  refine Atomic.ext ?_ ?_
  · simp only [Concurrent.view]
    rw [outcomes]
    change program.settle (program.settle state.shared (single thread result)) _ = _
    rw [lawful.settle_settle _ _ _ (single_supported called) supported]
    · congr 1
      funext other
      by_cases same : other = thread
      · subst other
        simp [single, decided]
      · simp [single, same]
    · intro other
      by_cases same : other = thread
      · exact .inr (by simp [same])
      · exact .inl (by simp [single, same])
  · rw [put_queue, q, removed]
    exact Function.update_eq_self buffer (state.view program).queue

private theorem return_serving (lawful : program.Lawful) (serving : state.Serving program)
    (at_ : ((state.buffer buffer).pc thread).result = some result)
    (position : moved.pc thread = .idle)
    (others : ∀ other, other ≠ thread → moved.pc other = (state.buffer buffer).pc other) :
    (Concurrent.put
      { state with shared := program.settle state.shared (single thread result) }
      buffer moved).Serving program := by
  have decided := serving.outcome_eq (Pc.outcome_of_result at_)
  have called : program.pending state.shared thread ≠ none :=
    Concurrent.outcomes_supported thread (by rw [decided]; simp)
  have inside : (state.buffer buffer).pc thread ≠ .idle := by
    intro idle
    rw [idle] at at_
    cases at_
  obtain ⟨_, pending, _⟩ := serving.serving buffer thread inside
  constructor
  intro place other nonidle
  rw [put_buffer] at nonidle ⊢
  have before : (state.buffer place).pc other ≠ .idle ∧ other ≠ thread ∧
      (if place = buffer then moved.pc other else (state.buffer place).pc other) =
        (state.buffer place).pc other := by
    by_cases same : other = thread
    · subst other
      split at nonidle
      · exact absurd position nonidle
      · rename_i elsewhere
        obtain ⟨_, also, _⟩ := serving.serving place thread nonidle
        rw [pending] at also
        cases also
        exact absurd rfl elsewhere
    · split at nonidle
      · rename_i same_place
        subst same_place
        rw [others other same] at nonidle
        exact ⟨nonidle, same, by rw [if_pos rfl, others other same]⟩
      · rename_i elsewhere
        exact ⟨nonidle, same, if_neg elsewhere⟩
  obtain ⟨busy, different, kept⟩ := before
  obtain ⟨call, waiting, serves⟩ := serving.serving place other busy
  refine ⟨call, ?_, by rw [kept]; exact serves⟩
  rw [← waiting]
  exact lawful.pending_settle state.shared (single thread result) other
    (single_supported called) (by simp [single, different])

end Effects

/-! ### Every run -/

section Runs

variable {program} [DecidableEq Thread] [DecidableEq Buffer] [Fintype Thread]
  {state after : Concurrent Shared Thread Buffer}

structure Consistent (program : Program Shared Action Thread Buffer)
    (state : Concurrent Shared Thread Buffer) : Prop where
  monitors : ∀ buffer, (monitor Thread (program.maxSize buffer)).Reachable (state.buffer buffer)
  serving : state.Serving program

theorem consistent_start (started : program.concurrent.start state) :
    Consistent program state := by
  obtain ⟨_, buffers⟩ := started
  constructor
  · intro buffer
    rw [buffers]
    exact .begin rfl
  · constructor
    intro buffer thread inside
    rw [buffers] at inside
    exact absurd rfl inside

theorem view_start (lawful : program.Lawful) (started : program.concurrent.start state) :
    program.atomic.start (state.view program) := by
  obtain ⟨begins, buffers⟩ := started
  have outcomes : state.outcomes program = fun _ => none := by
    funext thread
    unfold Concurrent.outcomes
    split
    · rfl
    · rw [buffers]
      rfl
  constructor
  · simp only [Concurrent.view, outcomes, lawful.settle_none]
    exact begins
  · funext buffer
    apply TracedQueue.ext_history
    · simp [Concurrent.view, buffers, initial, TracedQueue.ofHistory]
    · rw [show (state.view program).queue buffer = .ofHistory (program.capacity buffer)
        ((state.buffer buffer).removed.map Prod.snd) (state.buffer buffer).q from rfl, buffers]
      exact TracedQueue.ofHistory_items _ (Nat.zero_le _)

private theorem put_monitors (consistent : Consistent program state) {buffer : Buffer}
    {moved : State Thread} {label : Label Thread}
    (taken : SafeBuffer.next (program.maxSize buffer) (state.buffer buffer) label = some moved)
    (other : Buffer) :
    (monitor Thread (program.maxSize other)).Reachable
      ((state.put buffer moved).buffer other) := by
  by_cases same : other = buffer
  · subst other
    simp only [Concurrent.put, Function.update_self]
    exact (consistent.monitors buffer).next taken
  · simp only [Concurrent.put, Function.update_of_ne same]
    exact consistent.monitors other

theorem advance_view (lawful : program.Lawful) (consistent : Consistent program state)
    {buffer : Buffer} {thread : Thread}
    (taken : state.execute program (.advance buffer thread) = some after) :
    Consistent program after ∧
      ((after.view program = state.view program ∧
        ((state.buffer buffer).pc thread).commits = false) ∨
      (state.view program).execute program (.call thread) = some (after.view program)) := by
  have serving := consistent.serving
  simp only [Concurrent.execute] at taken
  split at taken
  · rename_i stays
    obtain ⟨moved, ran, same⟩ := Concurrent.within_some taken
    subst same
    obtain ⟨others, effect⟩ := advance_effect ran
    have valid := reachable_valid (consistent.monitors buffer)
    have kept : ∀ other, other ≠ thread → moved.pc other ≠ .idle →
        (∀ call, ((state.buffer buffer).pc other).Serves call → (moved.pc other).Serves call) ∧
          (state.buffer buffer).pc other ≠ .idle := by
      intro other different nonidle
      rw [others other different] at nonidle ⊢
      exact ⟨fun _ serves => serves, nonidle⟩
    cases effect with
    | moves moves q removed =>
        obtain ⟨outcome, _, silent, serves⟩ := moves.facts
        refine ⟨⟨put_monitors consistent ran, put_serving serving ?_⟩, .inl ⟨?_, silent⟩⟩
        · intro other nonidle
          by_cases same : other = thread
          · subst other
            refine ⟨serves, ?_⟩
            intro idle
            rw [idle] at moves
            cases moves with
            | acquire acquired => cases acquired
          · exact kept other same nonidle
        · refine put_view_same (fun other => ?_) q removed
          by_cases same : other = thread
          · subst other
            exact outcome
          · rw [others other same]
    | inserts str at_ position q removed =>
        refine ⟨⟨put_monitors consistent ran, put_serving serving ?_⟩,
          .inr (insert_view lawful serving valid at_ position others q removed)⟩
        intro other nonidle
        by_cases same : other = thread
        · subst other
          rw [at_, position]
          exact ⟨fun call serves => ⟨str, serves⟩, by simp⟩
        · exact kept other same nonidle
    | removes s at_ position q removed =>
        refine ⟨⟨put_monitors consistent ran, put_serving serving ?_⟩,
          .inr (remove_view lawful serving valid at_ position others q removed)⟩
        intro other nonidle
        by_cases same : other = thread
        · subst other
          rw [at_, position]
          exact ⟨fun call serves => serves, by simp⟩
        · exact kept other same nonidle
    | returns result at_ _ _ _ =>
        rw [stays] at at_
        cases at_
  · rename_i result at_
    obtain ⟨moved, ran, same⟩ := Concurrent.within_some taken
    subst same
    obtain ⟨others, effect⟩ := advance_effect ran
    cases effect with
    | returns _ again position q removed =>
        refine ⟨⟨put_monitors consistent ran,
          return_serving lawful serving at_ position others⟩,
          .inl ⟨?_, Pc.commits_of_result at_⟩⟩
        exact return_view lawful serving at_ position others q removed
    | moves moves =>
        obtain ⟨_, stays, _, _⟩ := moves.facts
        change ((state.buffer buffer).pc thread).result = none at stays
        rw [at_] at stays
        cases stays
    | inserts str position =>
        change (state.buffer buffer).pc thread = _ at position
        rw [position] at at_
        cases at_
    | removes s position =>
        change (state.buffer buffer).pc thread = _ at position
        rw [position] at at_
        cases at_

theorem signal_view (consistent : Consistent program state) {buffer : Buffer}
    {thread : Thread} {woken : Finset Thread}
    (taken : state.execute program (.signal buffer thread woken) = some after) :
    Consistent program after ∧ after.view program = state.view program := by
  simp only [Concurrent.execute] at taken
  obtain ⟨moved, ran, same⟩ := Concurrent.within_some taken
  subst same
  obtain ⟨others, moves, decided, q, removed⟩ := signal_effect ran
  obtain ⟨outcome, _, _, serves⟩ := moves.facts
  refine ⟨⟨put_monitors consistent ran, put_serving consistent.serving ?_⟩,
    put_view_same (fun other => ?_) q removed⟩
  · intro other nonidle
    by_cases same : other = thread
    · subst other
      refine ⟨serves, ?_⟩
      intro idle
      rw [idle] at decided
      exact decided rfl
    · rcases others other same with kept | kept
      · rw [kept] at nonidle ⊢
        exact ⟨fun _ serves => serves, nonidle⟩
      · rw [kept] at nonidle ⊢
        exact ⟨fun _ => Pc.wake_serves, fun idle => nonidle (Pc.wake_eq_idle.mpr idle)⟩
  · by_cases same : other = thread
    · subst other
      exact outcome
    · rcases others other same with kept | kept <;> rw [kept]
      exact Pc.wake_outcome _

private theorem spurious_view (consistent : Consistent program state) {buffer : Buffer}
    {thread : Thread} (taken : state.execute program (.spurious buffer thread) = some after) :
    Consistent program after ∧ after.view program = state.view program := by
  simp only [Concurrent.execute] at taken
  obtain ⟨moved, ran, same⟩ := Concurrent.within_some taken
  subst same
  obtain ⟨others, q, removed⟩ := spurious_effect ran
  refine ⟨⟨put_monitors consistent ran, put_serving consistent.serving ?_⟩,
    put_view_same (fun other => ?_) q removed⟩
  · intro other nonidle
    rcases others other with kept | kept
    · rw [kept] at nonidle ⊢
      exact ⟨fun _ serves => serves, nonidle⟩
    · rw [kept] at nonidle ⊢
      exact ⟨fun _ => Pc.wake_serves, fun idle => nonidle (Pc.wake_eq_idle.mpr idle)⟩
  · rcases others other with kept | kept <;> rw [kept]
    exact Pc.wake_outcome _

theorem call_view (consistent : Consistent program state) {thread : Thread}
    (taken : state.execute program (.call thread) = some after) :
    Consistent program after ∧ after.view program = state.view program := by
  simp only [Concurrent.execute] at taken
  split at taken
  · contradiction
  rename_i buffer call pending
  obtain ⟨moved, ran, same⟩ := Concurrent.within_some taken
  subst same
  obtain ⟨idle, shape⟩ := call_effect ran
  have entered : moved.pc thread = call.entry := by rw [shape]; exact Function.update_self _ _ _
  have others : ∀ other, other ≠ thread → moved.pc other = (state.buffer buffer).pc other := by
    intro other different
    rw [shape]
    exact Function.update_of_ne different _ _
  refine ⟨⟨put_monitors consistent ran, ⟨fun place other nonidle => ?_⟩⟩,
    put_view_same (fun other => ?_) (by rw [shape]; rfl) (by rw [shape]; rfl)⟩
  · rw [put_buffer] at nonidle ⊢
    split at nonidle
    · rename_i same
      subst same
      rw [if_pos rfl]
      by_cases same : other = thread
      · subst other
        rw [entered]
        exact ⟨call, pending, by cases call <;> rfl⟩
      · rw [others other same] at nonidle ⊢
        exact consistent.serving.serving place other nonidle
    · rename_i elsewhere
      rw [if_neg elsewhere]
      exact consistent.serving.serving place other nonidle
  · by_cases same : other = thread
    · subst other
      rw [entered, idle]
      cases call <;> rfl
    · rw [others other same]

theorem other_view (lawful : program.Lawful) (consistent : Consistent program state)
    (reached : program.atomic.Reachable (state.view program)) {action : Action}
    (taken : state.execute program (.other action) = some after) :
    Consistent program after ∧
      (state.view program).execute program (.other action) = some (after.view program) := by
  simp only [Concurrent.execute] at taken
  split at taken <;> cases taken
  rename_i shared moved
  have supported : program.Supported state.shared (state.outcomes program) :=
    Concurrent.outcomes_supported
  have kept := lawful.other_pending _ _ _ action shared supported reached moved
  have settled := lawful.other_settle _ _ _ action shared supported reached moved
  have serving : Concurrent.Serving program { state with shared := shared } := by
    constructor
    intro buffer thread inside
    obtain ⟨call, pending, serves⟩ := consistent.serving.serving buffer thread inside
    exact ⟨call, (kept thread (by simp [pending])).trans pending, serves⟩
  have outcomes : Concurrent.outcomes program { state with shared := shared } =
      state.outcomes program := by
    funext thread
    by_cases called : program.pending state.shared thread = none
    · have quiet : ∀ buffer, (state.buffer buffer).pc thread = .idle := by
        intro buffer
        by_cases idle : (state.buffer buffer).pc thread = .idle
        · exact idle
        · obtain ⟨_, pending, _⟩ := consistent.serving.serving buffer thread idle
          rw [called] at pending
          cases pending
      unfold Concurrent.outcomes
      rw [called]
      split
      · rfl
      · rw [quiet]
        rfl
    · unfold Concurrent.outcomes
      rw [kept thread called]
  refine ⟨⟨consistent.monitors, serving⟩, ?_⟩
  have viewed : program.other (state.view program).shared action =
      some (program.settle shared (state.outcomes program)) := settled
  simp only [Atomic.execute, viewed]
  refine congrArg some (Atomic.ext ?_ rfl)
  simp only [Concurrent.view, outcomes]

theorem running_of_next (lawful : program.Lawful) {statement : Statement Action Thread Buffer}
    (taken : program.concurrent.next state statement = some after) :
    (∀ label, program.atomic.next (state.view program) label =
      (state.view program).execute program label) ∧
      state.execute program statement = some after := by
  simp only [concurrent] at taken
  split at taken
  · contradiction
  rename_i running
  refine ⟨fun label => if_neg ?_, taken⟩
  simp only [Concurrent.view]
  rw [lawful.halted_settle]
  exact running

theorem step_view (lawful : program.Lawful) (consistent : Consistent program state)
    (reached : program.atomic.Reachable (state.view program))
    {statement : Statement Action Thread Buffer}
    (taken : program.concurrent.next state statement = some after) :
    Consistent program after ∧ (after.view program = state.view program ∨
      ∃ label, program.atomic.next (state.view program) label = some (after.view program)) := by
  obtain ⟨running, taken⟩ := running_of_next lawful taken
  cases statement with
  | call thread =>
      obtain ⟨kept, same⟩ := call_view consistent taken
      exact ⟨kept, .inl same⟩
  | advance buffer thread =>
      obtain ⟨kept, ⟨same, _⟩ | moved⟩ := advance_view lawful consistent taken
      · exact ⟨kept, .inl same⟩
      · exact ⟨kept, .inr ⟨_, running _ ▸ moved⟩⟩
  | signal buffer thread woken =>
      obtain ⟨kept, same⟩ := signal_view consistent taken
      exact ⟨kept, .inl same⟩
  | spurious buffer thread =>
      obtain ⟨kept, same⟩ := spurious_view consistent taken
      exact ⟨kept, .inl same⟩
  | other action =>
      obtain ⟨kept, moved⟩ := other_view lawful consistent reached taken
      exact ⟨kept, .inr ⟨_, running _ ▸ moved⟩⟩

theorem consistent_of_reachable (lawful : program.Lawful)
    (reached : program.concurrent.Reachable state) :
    Consistent program state ∧ program.atomic.Reachable (state.view program) := by
  induction reached with
  | start started => exact ⟨consistent_start started, .begin (view_start lawful started)⟩
  | step _ _ taken ih =>
      obtain ⟨consistent, reached⟩ := ih
      obtain ⟨kept, same | ⟨label, moved⟩⟩ := step_view lawful consistent reached taken
      · rw [same]
        exact ⟨kept, reached⟩
      · exact ⟨kept, reached.next moved⟩

/-- The program over buffers with a mutex and two condition variables refines
the program over buffers whose operations are atomic. -/
theorem concurrent_refines_atomic (lawful : program.Lawful) :
    Refinement program.concurrent program.atomic (Concurrent.view program) where
  start := fun _ started => view_start lawful started
  step := by
    intro before statement later reached taken
    obtain ⟨consistent, view⟩ := consistent_of_reachable lawful reached
    exact (step_view lawful consistent view taken).2

end Runs

end Program

end Netwurk.SafeBuffer
