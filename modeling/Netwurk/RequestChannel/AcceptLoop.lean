/-
The accept loop of the data server. Every accepted descriptor is pushed onto a
vector and the new thread gets the address of the last element, which it reads
when it first runs. The loop goes on meanwhile, and a later push may have moved
the vector by then.
-/

import Mathlib.Data.List.Nodup
import Netwurk.Foundation.Transition
import Netwurk.Foundation.GrowingVector

namespace Netwurk.RequestChannel.AcceptLoop

open Transition GrowingVector

inductive Location where
  | test
  | push
  | create
  | detach
  | reset
  | exited
deriving DecidableEq

/-- `accepted` records what `accept` returned for the thread. `my_fd` is set by
its first statement, to `some none` where `arg` no longer points to an element. -/
structure ServerThread where
  arg : Pointer
  accepted : Int
  my_fd : Option (Option Int)
deriving DecidableEq

/-- `returned` records the descriptors of all the connections so far. -/
structure State (growth : Growth) where
  location : Location
  new_fd : Int
  new_fds : GrowingVector.Vector growth Int
  threads : List ServerThread
  returned : List Int
deriving DecidableEq

inductive Label where
  | accept (outcome : Int)
  | advance
  | pthread_create (ret_val : Int)
  | pthread_detach (ret_val : Int)
  | read (thread : Nat)
deriving DecidableEq

variable {growth : Growth}

namespace State

def opened : State growth :=
  { location := .test
    new_fd := 0
    new_fds := .empty
    threads := []
    returned := [] }

/-- The body of `if(new_fd == 0)` up to the outcome of `accept`. A failure leads
back to the `if`, with `new_fd` still -1. -/
def accept (state : State growth) (outcome : Int) : Option (State growth) :=
  if state.location = .test ∧ state.new_fd = 0 then
    if outcome = -1 then some { state with new_fd := -1 }
    else if 0 ≤ outcome ∧ outcome ∉ state.returned then some
      { state with
        location := .push
        new_fd := outcome
        returned := state.returned ++ [outcome] }
    else none
  else none

def advance (state : State growth) : Option (State growth) :=
  match state.location with
  | .test => if state.new_fd = 0 then none else some { state with location := .reset }
  | .push => some
      { state with
        location := .create
        new_fds := state.new_fds.push_back state.new_fd }
  | .reset => some { state with location := .test, new_fd := 0 }
  | .create | .detach | .exited => none

def pthread_create (state : State growth) (ret_val : Int) : Option (State growth) :=
  if state.location = .create then
    if ret_val ≠ 0 then some { state with location := .exited }
    else some
      { state with
        location := .detach
        threads := state.threads ++ [⟨state.new_fds.back, state.new_fd, none⟩] }
  else none

def pthread_detach (state : State growth) (ret_val : Int) : Option (State growth) :=
  if state.location = .detach then
    if ret_val ≠ 0 then some { state with location := .exited }
    else some { state with location := .reset }
  else none

def read (state : State growth) (index : Nat) : Option (State growth) :=
  if state.location = .exited then none
  else match state.threads[index]? with
    | some ⟨arg, accepted, none⟩ => some
        { state with
          threads := state.threads.set index ⟨arg, accepted, some (state.new_fds.load arg)⟩ }
    | _ => none

def next (state : State growth) : Label → Option (State growth)
  | .accept outcome => state.accept outcome
  | .advance => state.advance
  | .pthread_create ret_val => state.pthread_create ret_val
  | .pthread_detach ret_val => state.pthread_detach ret_val
  | .read thread => state.read thread

end State

def acceptLoop (growth : Growth) : System (State growth) Label :=
  { start := fun state => state = State.opened
    next := State.next }

/-! ### What the loop keeps -/

namespace State

/-- The descriptors returned, the elements of the vector and the descriptors the
threads were created for are the same, up to the one being installed. -/
def Accounts (state : State growth) : Prop :=
  match state.location with
  | .test | .reset | .detach =>
      state.new_fds.items = state.threads.map ServerThread.accepted ∧
        state.returned = state.new_fds.items
  | .push =>
      state.new_fds.items = state.threads.map ServerThread.accepted ∧
        state.returned = state.new_fds.items ++ [state.new_fd]
  | .create =>
      state.new_fds.items = state.threads.map ServerThread.accepted ++ [state.new_fd] ∧
        state.returned = state.new_fds.items
  | .exited =>
      state.threads.map ServerThread.accepted <+: state.new_fds.items ∧
        state.returned = state.new_fds.items

structure Settled (state : State growth) : Prop where
  fresh : state.returned.Nodup
  accounts : state.Accounts
  pointed : ∀ (index : Nat) (thread : ServerThread), state.threads[index]? = some thread →
    thread.arg = ⟨blockAfter growth (index + 1), index⟩

end State

namespace State.Settled

variable {state after : State growth}

theorem accepted_begins (settled : state.Settled) :
    state.threads.map ServerThread.accepted <+: state.new_fds.items := by
  have accounts := settled.accounts
  cases location : state.location <;> simp only [Accounts, location] at accounts
  case create => exact ⟨_, accounts.1.symm⟩
  case exited => exact accounts.1
  all_goals exact accounts.1 ▸ List.prefix_rfl

theorem items_begin (settled : state.Settled) : state.new_fds.items <+: state.returned := by
  have accounts := settled.accounts
  cases location : state.location <;> simp only [Accounts, location] at accounts
  case push => exact ⟨_, accounts.2.symm⟩
  all_goals exact accounts.2 ▸ List.prefix_rfl

theorem stored (settled : state.Settled) {index : Nat} {thread : ServerThread}
    (created : state.threads[index]? = some thread) :
    state.new_fds.items[index]? = some thread.accepted := by
  obtain ⟨within, same⟩ := List.getElem?_eq_some_iff.mp created
  have element := List.prefix_iff_getElem?.mp settled.accepted_begins index (by simpa using within)
  rw [element, List.getElem_map, same]

theorem distinct (settled : state.Settled) :
    (state.threads.map ServerThread.accepted).Nodup :=
  settled.fresh.sublist (settled.accepted_begins.trans settled.items_begin).sublist

theorem opened : (State.opened : State growth).Settled where
  fresh := List.nodup_nil
  accounts := ⟨rfl, rfl⟩
  pointed := by
    intro index thread created
    cases created

theorem accept (settled : state.Settled) {outcome : Int}
    (taken : state.accept outcome = some after) : after.Settled := by
  unfold State.accept at taken
  split at taken
  next at_test =>
    have accounts := settled.accounts
    rw [Accounts, at_test.1] at accounts
    split at taken
    · cases taken
      refine ⟨settled.fresh, ?_, settled.pointed⟩
      rw [Accounts, at_test.1]
      exact accounts
    · split at taken
      next unused =>
        cases taken
        refine ⟨?_, ⟨accounts.1, ?_⟩, settled.pointed⟩
        · rw [List.nodup_append]
          refine ⟨settled.fresh, List.nodup_singleton _, ?_⟩
          intro earlier member last same
          rw [List.mem_singleton.mp same]
          intro equal
          exact unused.2 (equal ▸ member)
        · rw [accounts.2]
      next => cases taken
  next => cases taken

theorem advance (settled : state.Settled) (taken : state.advance = some after) :
    after.Settled := by
  have accounts := settled.accounts
  cases location : state.location <;>
    simp only [State.advance, Accounts, location] at taken accounts
  case test =>
    split at taken
    · cases taken
    · cases taken
      exact ⟨settled.fresh, accounts, settled.pointed⟩
  case push =>
    cases taken
    refine ⟨settled.fresh, ⟨?_, ?_⟩, settled.pointed⟩
    · rw [Vector.items_push_back, accounts.1]
    · rw [Vector.items_push_back]
      exact accounts.2
  case reset =>
    cases taken
    exact ⟨settled.fresh, accounts, settled.pointed⟩
  all_goals cases taken

theorem pthread_create (settled : state.Settled) {ret_val : Int}
    (taken : state.pthread_create ret_val = some after) : after.Settled := by
  unfold State.pthread_create at taken
  split at taken
  next at_create =>
    have accounts := settled.accounts
    rw [Accounts, at_create] at accounts
    split at taken
    · cases taken
      exact ⟨settled.fresh, ⟨⟨_, accounts.1.symm⟩, accounts.2⟩, settled.pointed⟩
    · cases taken
      refine ⟨settled.fresh, ⟨?_, accounts.2⟩, ?_⟩
      · simpa using accounts.1
      · intro index thread created
        rw [List.getElem?_append] at created
        split at created
        · exact settled.pointed index thread created
        · -- the new thread, whose pointer is to the element pushed for it
          have size : state.new_fds.items.length = state.threads.length + 1 := by
            simp [accounts.1]
          have last : index = state.threads.length := by
            obtain ⟨within, _same⟩ := List.getElem?_eq_some_iff.mp created
            simp at within
            omega
          subst last
          simp only [Nat.sub_self, List.getElem?_cons_zero, Option.some.injEq] at created
          rw [← created]
          exact state.new_fds.back_eq size
  next => cases taken

theorem pthread_detach (settled : state.Settled) {ret_val : Int}
    (taken : state.pthread_detach ret_val = some after) : after.Settled := by
  unfold State.pthread_detach at taken
  split at taken
  next at_detach =>
    have accounts := settled.accounts
    rw [Accounts, at_detach] at accounts
    split at taken
    · cases taken
      exact ⟨settled.fresh, ⟨accounts.1 ▸ List.prefix_rfl, accounts.2⟩, settled.pointed⟩
    · cases taken
      exact ⟨settled.fresh, accounts, settled.pointed⟩
  next => cases taken

end State.Settled

theorem State.read_cases {state after : State growth} {index : Nat}
    (taken : state.read index = some after) :
    ∃ arg accepted, state.threads[index]? = some ⟨arg, accepted, none⟩ ∧
      after = { state with
        threads := state.threads.set index ⟨arg, accepted, some (state.new_fds.load arg)⟩ } := by
  unfold State.read at taken
  split at taken
  · cases taken
  · split at taken
    next arg accepted created =>
      cases taken
      exact ⟨arg, accepted, created, rfl⟩
    · cases taken

private theorem found_set {threads : List ServerThread} {index other : Nat}
    {updated thread : ServerThread} (found : (threads.set index updated)[other]? = some thread) :
    (index = other ∧ thread = updated) ∨ (index ≠ other ∧ threads[other]? = some thread) := by
  by_cases here : index = other
  · left
    rw [List.getElem?_set, if_pos here] at found
    split at found
    · exact ⟨here, (Option.some.inj found).symm⟩
    · cases found
  · right
    rw [List.getElem?_set_ne here] at found
    exact ⟨here, found⟩

theorem State.Settled.read {state after : State growth} (settled : state.Settled) {index : Nat}
    (taken : state.read index = some after) : after.Settled := by
  obtain ⟨arg, accepted, created, rfl⟩ := State.read_cases taken
  have same : (state.threads.set index ⟨arg, accepted, some (state.new_fds.load arg)⟩).map
      ServerThread.accepted = state.threads.map ServerThread.accepted := by
    have within := (List.getElem?_eq_some_iff.mp created).1
    rw [List.map_set]
    apply List.ext_getElem?
    intro other
    rw [List.getElem?_set]
    split
    · next here =>
        subst here
        rw [if_pos (by simpa using within), List.getElem?_map, created, Option.map_some]
    · rfl
  refine ⟨settled.fresh, ?_, ?_⟩
  · have accounts := settled.accounts
    unfold State.Accounts at accounts ⊢
    simp only [same]
    exact accounts
  · intro other thread found
    rcases found_set found with ⟨rfl, rfl⟩ | ⟨_elsewhere, before⟩
    · have pointed := settled.pointed index _ created
      exact pointed
    · exact settled.pointed other thread before

theorem State.Settled.next {state after : State growth} {label : Label} (settled : state.Settled)
    (taken : state.next label = some after) : after.Settled := by
  cases label with
  | accept outcome => exact settled.accept taken
  | advance => exact settled.advance taken
  | pthread_create ret_val => exact settled.pthread_create taken
  | pthread_detach ret_val => exact settled.pthread_detach taken
  | read thread => exact settled.read taken

theorem settled {state : State growth} (reached : (acceptLoop growth).Reachable state) :
    state.Settled := by
  apply System.Reachable.invariant ?_ ?_ reached
  · intro state initial
    cases initial
    exact .opened
  · intro state label after _reached held taken
    exact held.next taken

/-! ### When a thread reads its own descriptor -/

/-- Every first read so far went to a live element, the one of the thread's own
connection. -/
def State.ReadsOwn (state : State growth) : Prop :=
  ∀ (index : Nat) (thread : ServerThread) (value : Option Int),
    state.threads[index]? = some thread → thread.my_fd = some value →
      value = some thread.accepted

/-- A thread reads before the loop has pushed more than the vector could hold
when the thread's pointer was taken. -/
def InTime (state : State growth) : Label → Prop
  | .read thread => state.new_fds.items.length ≤ capacityAfter growth (thread + 1)
  | _ => True

instance decidableInTime (state : State growth) (label : Label) :
    Decidable (InTime state label) := by
  cases label <;> unfold InTime <;> infer_instance

private theorem next_grows {state after : State growth} {label : Label}
    (taken : state.next label = some after) :
    (∃ index, label = .read index) ∨
      (∀ index, label ≠ .read index) ∧ ∃ created, after.threads = state.threads ++ created ∧
        ∀ thread ∈ created, thread.my_fd = none := by
  cases label with
  | read index => exact .inl ⟨index, rfl⟩
  | accept outcome =>
      right
      simp only [State.next, State.accept] at taken
      split at taken
      · split at taken
        · cases taken
          exact ⟨by simp, [], by simp⟩
        · split at taken <;> cases taken
          exact ⟨by simp, [], by simp⟩
      · cases taken
  | advance =>
      right
      refine ⟨by simp, [], ?_⟩
      simp only [State.next, State.advance] at taken
      split at taken
      · split at taken <;> cases taken
        simp
      all_goals cases taken
      all_goals simp
  | pthread_create ret_val =>
      right
      simp only [State.next, State.pthread_create] at taken
      split at taken
      · split at taken <;> cases taken
        · exact ⟨by simp, [], by simp⟩
        · exact ⟨by simp, _, rfl, by simp⟩
      · cases taken
  | pthread_detach ret_val =>
      right
      refine ⟨by simp, [], ?_⟩
      simp only [State.next, State.pthread_detach] at taken
      split at taken
      · split at taken <;> cases taken <;> simp
      · cases taken

private theorem readsOwn_append {state after : State growth} {created : List ServerThread}
    (grown : after.threads = state.threads ++ created)
    (unread : ∀ thread ∈ created, thread.my_fd = none) :
    after.ReadsOwn ↔ state.ReadsOwn := by
  unfold State.ReadsOwn
  rw [grown]
  constructor
  · intro own index thread value found
    have within := (List.getElem?_eq_some_iff.mp found).1
    exact own index thread value ((List.getElem?_append_left within).trans found)
  · intro own index thread value found known
    rw [List.getElem?_append] at found
    split at found
    · exact own index thread value found known
    · have absent := unread thread (List.mem_of_getElem? found)
      rw [absent] at known
      cases known

theorem State.Settled.load_iff {state : State growth} (settled : state.Settled) {index : Nat}
    {thread : ServerThread} (created : state.threads[index]? = some thread) :
    state.new_fds.load thread.arg = some thread.accepted ↔
      state.new_fds.items.length ≤ capacityAfter growth (index + 1) := by
  rw [settled.pointed index thread created]
  exact state.new_fds.load_iff (settled.stored created)

theorem State.Settled.readsOwn_read {state after : State growth} (settled : state.Settled)
    {index : Nat} (taken : state.read index = some after) :
    after.ReadsOwn ↔ state.ReadsOwn ∧ InTime state (.read index) := by
  obtain ⟨arg, accepted, created, rfl⟩ := State.read_cases taken
  rw [InTime, ← settled.load_iff created]
  constructor
  · intro own
    constructor
    · intro other thread value found known
      by_cases here : index = other
      · subst here
        rw [created] at found
        cases found
        cases known
      · exact own other thread value ((List.getElem?_set_ne here).trans found) known
    · have within := (List.getElem?_eq_some_iff.mp created).1
      exact own index ⟨arg, accepted, some (state.new_fds.load arg)⟩ _
        (List.getElem?_set_self within) rfl
  · intro both other thread value found known
    rcases found_set found with ⟨rfl, rfl⟩ | ⟨_elsewhere, before⟩
    · cases known
      exact both.2
    · exact both.1 other thread value before known

theorem State.Settled.readsOwn_next {state after : State growth} {label : Label}
    (settled : state.Settled) (taken : state.next label = some after) :
    after.ReadsOwn ↔ state.ReadsOwn ∧ InTime state label := by
  rcases next_grows taken with ⟨index, rfl⟩ | ⟨own, created, grown, unread⟩
  · exact settled.readsOwn_read taken
  · rw [readsOwn_append grown unread]
    cases label with
    | read index => exact absurd rfl (own index)
    | _ => simp [InTime]

def State.finish (state : State growth) : List Label :=
  match state.location with
  | .test => if state.new_fd = 0 then [] else [.advance, .advance]
  | .push => [.advance, .pthread_create 0, .pthread_detach 0, .advance]
  | .create => [.pthread_create 0, .pthread_detach 0, .advance]
  | .detach => [.pthread_detach 0, .advance]
  | .reset => [.advance]
  | .exited => []

theorem State.finish_accepts {state : State growth} (running : state.location ≠ .exited) :
    ∃ after, (acceptLoop growth).run state state.finish = some after ∧
      after.location = .test ∧ after.new_fd = 0 ∧ after.returned = state.returned := by
  cases location : state.location with
  | exited => exact absurd location running
  | test =>
      by_cases ready : state.new_fd = 0
      · exact ⟨state, by simp [State.finish, location, ready, System.run], location, ready, rfl⟩
      · simp [State.finish, location, ready, System.run, acceptLoop, State.next, State.advance]
  | _ =>
      simp [State.finish, location, System.run, acceptLoop, State.next, State.advance,
        State.pthread_create, State.pthread_detach]

def installing (fd : Int) : List Label :=
  [.accept fd, .advance, .pthread_create 0, .pthread_detach 0]

def State.installed (state : State growth) (fd : Int) : State growth :=
  { location := .reset
    new_fd := fd
    new_fds := state.new_fds.push_back fd
    threads := state.threads ++ [⟨(state.new_fds.push_back fd).back, fd, none⟩]
    returned := state.returned ++ [fd] }

theorem State.run_installing {state : State growth} (at_test : state.location = .test)
    (ready : state.new_fd = 0) {fd : Int} (valid : 0 ≤ fd) (unused : fd ∉ state.returned) :
    (acceptLoop growth).run state (installing fd) = some (state.installed fd) := by
  have success : fd ≠ -1 := by omega
  simp [installing, System.run, acceptLoop, State.next, State.accept, State.advance,
    State.pthread_create, State.pthread_detach, at_test, ready, valid, unused, success, installed]

theorem State.Settled.read_own {state : State growth} (settled : state.Settled)
    (running : state.location ≠ .exited) {index : Nat} {arg : Pointer} {accepted : Int}
    (created : state.threads[index]? = some ⟨arg, accepted, none⟩)
    (inTime : InTime state (.read index)) :
    ∃ after, state.read index = some after ∧
      ∃ thread ∈ after.threads, thread.accepted = accepted ∧
        thread.my_fd = some (some accepted) := by
  have loaded := (settled.load_iff created).mpr inTime
  have within := (List.getElem?_eq_some_iff.mp created).1
  refine ⟨_, by rw [State.read, if_neg running, created], ?_⟩
  exact ⟨_, List.mem_set within _, rfl, congrArg some loaded⟩

theorem State.serves {state : State growth} (reached : (acceptLoop growth).Reachable state)
    (running : state.location ≠ .exited) {fd : Int} (valid : 0 ≤ fd)
    (unused : fd ∉ state.returned) :
    ∃ after, (acceptLoop growth).Path state after ∧
      ∃ thread ∈ after.threads, thread.accepted = fd ∧ thread.my_fd = some (some fd) := by
  obtain ⟨accepting, finished, at_test, ready, returned⟩ := State.finish_accepts running
  have installs := State.run_installing at_test ready valid (returned ▸ unused)
  have accepted := reached.of_run finished
  have held := settled (accepted.of_run installs)
  have size : (accepting.installed fd).new_fds.items.length = accepting.threads.length + 1 := by
    have accounts := (settled accepted).accounts
    rw [State.Accounts, at_test] at accounts
    simp [State.installed, accounts.1]
  have inTime : InTime (accepting.installed fd) (.read accepting.threads.length) := by
    rw [InTime, size]
    exact le_capacityAfter growth _
  have created : (accepting.installed fd).threads[accepting.threads.length]? =
      some ⟨(accepting.new_fds.push_back fd).back, fd, none⟩ := by
    simp [State.installed]
  have serving : (accepting.installed fd).location ≠ .exited := by
    simp [State.installed]
  obtain ⟨after, read, served⟩ := held.read_own serving created inTime
  have path := (System.Path.of_run finished).trans (System.Path.of_run installs)
  exact ⟨after, path.take (.read accepting.threads.length) read, served⟩

structure State.Served (state : State growth) : Prop where
  own : state.ReadsOwn
  distinct : ∀ (first second : Nat) (left right : ServerThread) (fd : Int), first ≠ second →
    state.threads[first]? = some left → state.threads[second]? = some right →
      left.my_fd = some (some fd) → right.my_fd ≠ some (some fd)
  each : state.location = .test ∨ state.location = .detach ∨ state.location = .reset →
    state.threads.map ServerThread.accepted = state.returned ∧ state.returned.Nodup
  harmless : ∀ after, state.accept (-1) = some after →
    after.threads = state.threads ∧ after.new_fds = state.new_fds ∧ after.location = .test
  later : state.location ≠ .exited → ∀ fd, 0 ≤ fd → fd ∉ state.returned →
    ∃ after, (acceptLoop growth).Path state after ∧
      ∃ thread ∈ after.threads, thread.accepted = fd ∧ thread.my_fd = some (some fd)

theorem State.served_iff {state : State growth} (reached : (acceptLoop growth).Reachable state) :
    state.Served ↔ state.ReadsOwn := by
  constructor
  · intro served
    exact served.own
  · intro own
    have held := settled reached
    refine ⟨own, ?_, ?_, ?_, ?_⟩
    · intro first second left right fd different found other known same
      have left_own := own first left _ found known
      have right_own := own second right _ other same
      have same_accepted : left.accepted = right.accepted :=
        Option.some.inj (left_own.symm.trans right_own)
      apply different
      have within := (List.getElem?_eq_some_iff.mp found).1
      apply (List.getElem?_inj (by simpa using within) held.distinct).mp
      rw [List.getElem?_map, List.getElem?_map, found, other]
      exact congrArg some same_accepted
    · intro location
      have accounts := held.accounts
      refine ⟨?_, held.fresh⟩
      rcases location with at_test | at_detach | at_reset
      all_goals simp only [State.Accounts, *] at accounts
      all_goals rw [accounts.2, accounts.1]
    · intro after failed
      simp only [State.accept] at failed
      split at failed
      next at_test =>
        cases failed
        exact ⟨rfl, rfl, at_test.1⟩
      next => cases failed
    · intro running fd valid unused
      exact State.serves reached running valid unused

/-- In every run each connection is served on its own descriptor exactly when
every thread reads its pointer in time. -/
theorem served_iff_read_in_time {labels : List Label} {state : State growth}
    (ran : (acceptLoop growth).run State.opened labels = some state) :
    state.Served ↔ (acceptLoop growth).Along InTime State.opened labels := by
  have initial : (acceptLoop growth).Reachable (State.opened : State growth) := .begin rfl
  rw [State.served_iff (initial.of_run ran)]
  have exact := System.run_iff_along State.ReadsOwn
    (fun before _label _after reached taken => (settled reached).readsOwn_next taken) initial ran
  rw [exact, and_iff_right]
  intro index thread value found
  cases found

/-- Two connections with a failed accept in between, and each thread runs before
the loop goes on. -/
def unhurried : List Label :=
  installing 4 ++ [.read 0, .advance, .accept (-1), .advance, .advance] ++ installing 5 ++
    [.read 1]

theorem served_iff_read_in_time_unhurried :
    ∃ state : State doubling, (acceptLoop doubling).run State.opened unhurried = some state ∧
      state.Served := by
  obtain ⟨state, ran⟩ := Option.isSome_iff_exists.mp
    (show ((acceptLoop doubling).run State.opened unhurried).isSome = true by decide +kernel)
  exact ⟨state, ran, (served_iff_read_in_time ran).mpr (by decide +kernel)⟩

/-- The second push moves the vector before the first thread runs. -/
def burst : List Label :=
  installing 4 ++ [.advance] ++ installing 5 ++ [.read 0]

theorem burst_not_served :
    ¬ ∀ (labels : List Label) (state : State doubling),
      (acceptLoop doubling).run State.opened labels = some state → state.Served := by
  intro always
  obtain ⟨state, ran⟩ := Option.isSome_iff_exists.mp
    (show ((acceptLoop doubling).run State.opened burst).isSome = true by decide +kernel)
  have dead : (((acceptLoop doubling).run State.opened burst).bind fun state =>
      state.threads[0]?).map ServerThread.my_fd = some (some none) := by
    decide +kernel
  rw [ran, Option.bind_some] at dead
  obtain ⟨thread, found, read⟩ := Option.map_eq_some_iff.mp dead
  have impossible := (always burst state ran).own 0 thread none found read
  cases impossible

end Netwurk.RequestChannel.AcceptLoop
