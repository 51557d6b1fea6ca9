/-
One data server and several clients. Each client has its workers, which send
their requests and then `!`, and main, which joins them and then sends `!!`; each
has a channel of its own. Whole messages are delivered in order. The `!!` of
any client ends the server process, and with it the sessions of all the others.
-/

import Mathlib.Logic.Function.Basic
import Mathlib.Data.Sigma.Basic
import Netwurk.Foundation.Transition
import Netwurk.RequestChannel.Connection

namespace Netwurk.RequestChannel.SharedServer

open Transition CString

structure Config where
  clients : Nat
  workers : Fin clients → Nat
  requests : (client : Fin clients) → Fin (workers client) → List String
  valid : ∀ client worker request, request ∈ requests client worker → Request request

abbrev Channel (config : Config) :=
  (client : Fin config.clients) × Option (Fin (config.workers client))

variable {config : Config}

def Channel.todo : Channel config → List String
  | ⟨client, some worker⟩ => config.requests client worker
  | ⟨_, none⟩ => []

def Channel.farewell : Channel config → Farewell
  | ⟨_, some _⟩ => .close
  | ⟨_, none⟩ => .exit

structure Endpoint where
  link : Link
  phase : Phase
  todo : List String
  done : List (String × String)

namespace Endpoint

def ask (endpoint : Endpoint) : Option Endpoint :=
  match endpoint.phase, endpoint.todo with
  | .idle, request :: rest => some
      { endpoint with
        link := endpoint.link.cwrite request
        phase := .waiting request
        todo := rest }
  | _, _ => none

def leave (endpoint : Endpoint) (farewell : Farewell) : Option Endpoint :=
  match endpoint.phase, endpoint.todo with
  | .idle, [] => some
      { endpoint with
        link := endpoint.link.cwrite farewell.text
        phase := .left farewell }
  | _, _ => none

def cread (endpoint : Endpoint) : Option Endpoint :=
  match endpoint.phase, endpoint.link.cread with
  | .waiting request, some (reply, link) => some
      { endpoint with
        link := link
        phase := .idle
        done := endpoint.done ++ [(request, reply)] }
  | _, _ => none

def recv (endpoint : Endpoint) : Option Endpoint :=
  endpoint.link.recv.map fun link => { endpoint with link := link }

/-- The loop body of the server thread, with the result of `rand`. -/
def act (endpoint : Endpoint) (rand : Nat) : Option Endpoint :=
  (endpoint.link.act (String.ofList (to_string (rand % 100)))).map fun link =>
    { endpoint with link := link }

def hasLeft (endpoint : Endpoint) : Bool :=
  match endpoint.phase with
  | .left _ => true
  | _ => false

def starved (endpoint : Endpoint) : Bool :=
  match endpoint.phase, endpoint.link.toClient with
  | .waiting _, [] => true
  | _, _ => false

def exiting (endpoint : Endpoint) : Bool :=
  decide (endpoint.link.session.status = .dispatching ∧
    dispatch endpoint.link.session.buf = .exit)

end Endpoint

/-! ### The server and its clients -/

/-- The channel whose `!!` ended the server, with the requests that were
outstanding on each channel at that moment. -/
structure Exit (config : Config) where
  channel : Channel config
  outstanding : Channel config → Nat

/-- A client process is `crashed` when a `cread` of one of its workers fails. -/
structure State (config : Config) where
  endpoints : Channel config → Endpoint
  exit : Option (Exit config)
  crashed : Fin config.clients → Bool

inductive Label (config : Config) where
  | ask (channel : Channel config)
  | leave (channel : Channel config)
  | cread (channel : Channel config)
  | fail (channel : Channel config)
  | recv (channel : Channel config)
  | act (channel : Channel config) (rand : Nat)

namespace State

def set (state : State config) (channel : Channel config) (endpoint : Endpoint) :
    State config :=
  { state with endpoints := Function.update state.endpoints channel endpoint }

/-- Main sends `!!` after `pthread_join` has returned for all of its workers. -/
def joined (state : State config) : Channel config → Bool
  | ⟨_, some _⟩ => true
  | ⟨client, none⟩ =>
      (List.finRange (config.workers client)).all fun worker =>
        (state.endpoints ⟨client, some worker⟩).hasLeft

def next (state : State config) : Label config → Option (State config)
  | .ask channel =>
      if state.crashed channel.1 then none
      else (state.endpoints channel).ask.map (state.set channel)
  | .leave channel =>
      if state.crashed channel.1 = false ∧ state.joined channel then
        ((state.endpoints channel).leave channel.farewell).map (state.set channel)
      else none
  | .cread channel =>
      if state.crashed channel.1 then none
      else (state.endpoints channel).cread.map (state.set channel)
  | .fail channel =>
      if state.crashed channel.1 = false ∧ state.exit.isSome ∧
          (state.endpoints channel).starved then
        some { state with crashed := Function.update state.crashed channel.1 true }
      else none
  | .recv channel =>
      if state.exit.isSome then none
      else (state.endpoints channel).recv.map (state.set channel)
  | .act channel rand =>
      if state.exit.isSome then none
      else if (state.endpoints channel).exiting then
        ((state.endpoints channel).act rand).map fun endpoint =>
          { state.set channel endpoint with
            exit := some ⟨channel, fun other => (state.endpoints other).link.outstanding⟩ }
      else ((state.endpoints channel).act rand).map (state.set channel)

end State

/-- `memory` is what the stacks of the server threads held. -/
def opened (memory : Channel config → List Char) : State config :=
  { endpoints := fun channel =>
      { link := Link.opened (memory channel)
        phase := .idle
        todo := channel.todo
        done := [] }
    exit := none
    crashed := fun _ => false }

def server (config : Config) : System (State config) (Label config) :=
  { start := fun state => ∃ memory, state = opened memory
    next := State.next }

def Endpoint.Through (endpoint : Endpoint) : Prop :=
  endpoint.todo = [] ∧ ∀ request, endpoint.phase ≠ .waiting request

instance decidableThrough (endpoint : Endpoint) : Decidable endpoint.Through :=
  match h : endpoint.phase with
  | .idle => decidable_of_iff (endpoint.todo = []) (by simp [Endpoint.Through, h])
  | .waiting request => isFalse fun through => through.2 request h
  | .left _ => decidable_of_iff (endpoint.todo = []) (by simp [Endpoint.Through, h])

structure Endpoint.Valid (farewell : Farewell) (endpoint : Endpoint) : Prop where
  position : endpoint.link.At (fun _ => True) endpoint.done endpoint.phase
  requests : ∀ request ∈ endpoint.todo, Request request
  parting : ∀ last, endpoint.phase = .left last → last = farewell ∧ endpoint.todo = []

inductive Endpoint.Step (farewell : Farewell) (before after : Endpoint) : Prop
  | ask (taken : before.ask = some after)
  | leave (taken : before.leave farewell = some after)
  | cread (taken : before.cread = some after)
  | recv (taken : before.recv = some after)
  | act (rand : Nat) (taken : before.act rand = some after)

namespace Endpoint

variable {farewell : Farewell} {endpoint after : Endpoint}

theorem ask_cases (taken : endpoint.ask = some after) :
    ∃ request rest, endpoint.phase = .idle ∧ endpoint.todo = request :: rest ∧
      after = ⟨endpoint.link.cwrite request, .waiting request, rest, endpoint.done⟩ := by
  unfold ask at taken
  split at taken
  next request rest idle todo =>
    cases taken
    exact ⟨request, rest, idle, todo, rfl⟩
  next => cases taken

theorem leave_cases (taken : endpoint.leave farewell = some after) :
    endpoint.phase = .idle ∧ endpoint.todo = [] ∧
      after = ⟨endpoint.link.cwrite farewell.text, .left farewell, endpoint.todo,
        endpoint.done⟩ := by
  unfold leave at taken
  split at taken
  next idle todo =>
    cases taken
    exact ⟨idle, todo, rfl⟩
  next => cases taken

theorem cread_cases (taken : endpoint.cread = some after) :
    ∃ request reply link, endpoint.phase = .waiting request ∧
      endpoint.link.cread = some (reply, link) ∧
        after = ⟨link, .idle, endpoint.todo, endpoint.done ++ [(request, reply)]⟩ := by
  unfold cread at taken
  split at taken
  next request reply link waiting read =>
    cases taken
    exact ⟨request, reply, link, waiting, read, rfl⟩
  next => cases taken

theorem Step.valid (valid : endpoint.Valid farewell) (step : endpoint.Step farewell after) :
    after.Valid farewell := by
  cases step with
  | ask taken =>
      obtain ⟨request, rest, idle, todo, rfl⟩ := ask_cases taken
      have position := valid.position
      rw [idle] at position
      have requests := valid.requests
      rw [todo] at requests
      refine ⟨position.request (requests request List.mem_cons_self), ?_, ?_⟩
      · intro other member
        exact requests other (List.mem_cons_of_mem _ member)
      · intro last impossible
        cases impossible
  | leave taken =>
      obtain ⟨idle, todo, rfl⟩ := leave_cases taken
      have position := valid.position
      rw [idle] at position
      refine ⟨position.leave farewell, valid.requests, ?_⟩
      intro last same
      cases same
      exact ⟨rfl, todo⟩
  | cread taken =>
      obtain ⟨request, reply, link, waiting, read, rfl⟩ := cread_cases taken
      have position := valid.position
      rw [waiting] at position
      refine ⟨(position.reply read).2, valid.requests, ?_⟩
      intro last impossible
      cases impossible
  | recv taken =>
      obtain ⟨link, received, rfl⟩ := Option.map_eq_some_iff.mp taken
      exact ⟨valid.position.recv received, valid.requests, valid.parting⟩
  | act rand taken =>
      obtain ⟨link, acted, rfl⟩ := Option.map_eq_some_iff.mp taken
      exact ⟨valid.position.act trivial acted, valid.requests, valid.parting⟩

theorem Step.through (through : endpoint.Through) (step : endpoint.Step farewell after) :
    after.Through := by
  cases step with
  | ask taken =>
      obtain ⟨request, rest, _idle, todo, rfl⟩ := ask_cases taken
      rw [through.1] at todo
      cases todo
  | leave taken =>
      obtain ⟨_idle, todo, rfl⟩ := leave_cases taken
      refine ⟨todo, ?_⟩
      intro request impossible
      cases impossible
  | cread taken =>
      obtain ⟨request, _reply, _link, waiting, _read, rfl⟩ := cread_cases taken
      exact absurd waiting (through.2 request)
  | recv taken =>
      obtain ⟨link, _received, rfl⟩ := Option.map_eq_some_iff.mp taken
      exact through
  | act rand taken =>
      obtain ⟨link, _acted, rfl⟩ := Option.map_eq_some_iff.mp taken
      exact through

theorem Step.hasLeft (left : endpoint.hasLeft = true) (step : endpoint.Step farewell after) :
    after.hasLeft = true := by
  unfold Endpoint.hasLeft at left
  cases step with
  | ask taken =>
      obtain ⟨_request, _rest, idle, _todo, rfl⟩ := ask_cases taken
      rw [idle] at left
      cases left
  | leave taken =>
      obtain ⟨_idle, _todo, rfl⟩ := leave_cases taken
      rfl
  | cread taken =>
      obtain ⟨_request, _reply, _link, waiting, _read, rfl⟩ := cread_cases taken
      rw [waiting] at left
      cases left
  | recv taken =>
      obtain ⟨link, _received, rfl⟩ := Option.map_eq_some_iff.mp taken
      exact left
  | act rand taken =>
      obtain ⟨link, _acted, rfl⟩ := Option.map_eq_some_iff.mp taken
      exact left

theorem Valid.through_of_left (valid : endpoint.Valid farewell) (left : endpoint.hasLeft = true) :
    endpoint.Through := by
  unfold Endpoint.hasLeft at left
  split at left
  next last phase =>
    refine ⟨(valid.parting last phase).2, ?_⟩
    intro request waiting
    rw [phase] at waiting
    cases waiting
  next => cases left

theorem Valid.outstanding_through (valid : endpoint.Valid farewell)
    (through : endpoint.Through) : endpoint.link.outstanding = 0 := by
  have position := valid.position
  cases phase : endpoint.phase with
  | idle =>
      rw [phase] at position
      exact position.outstanding_idle
  | waiting request => exact absurd phase (through.2 request)
  | left last =>
      rw [phase] at position
      exact position.outstanding_left

theorem Valid.exiting_left (valid : endpoint.Valid farewell) (exiting : endpoint.exiting = true) :
    endpoint.phase = .left .exit := by
  have both := of_decide_eq_true exiting
  exact valid.position.exiting both.1 both.2

end Endpoint

namespace State

variable {state after : State config}

theorem joined_iff {client : Fin config.clients} :
    state.joined ⟨client, none⟩ = true ↔
      ∀ worker, (state.endpoints ⟨client, some worker⟩).hasLeft = true := by
  simp [joined]

def Moves (state after : State config) : Prop :=
  ∃ channel endpoint, (state.endpoints channel).Step channel.farewell endpoint ∧
    (endpoint.hasLeft = true →
      (state.endpoints channel).hasLeft = true ∨ state.joined channel = true) ∧
    after = state.set channel endpoint

def Exits (channel : Channel config) (rand : Nat) (state after : State config) : Prop :=
  ∃ endpoint, state.exit = none ∧ (state.endpoints channel).exiting = true ∧
    (state.endpoints channel).act rand = some endpoint ∧
    after = { state.set channel endpoint with
      exit := some ⟨channel, fun other => (state.endpoints other).link.outstanding⟩ }

def Crashes (channel : Channel config) (state after : State config) : Prop :=
  state.exit.isSome ∧ (state.endpoints channel).starved = true ∧
    after = { state with crashed := Function.update state.crashed channel.1 true }

theorem exits_of_act {channel : Channel config} {rand : Nat}
    (exiting : (state.endpoints channel).exiting = true)
    (taken : state.next (.act channel rand) = some after) : Exits channel rand state after := by
  simp only [next] at taken
  split at taken
  · cases taken
  next running =>
    obtain ⟨endpoint, acted, rfl⟩ := Option.map_eq_some_iff.mp taken
    exact ⟨endpoint, by simpa using running, exiting, acted, rfl⟩

theorem next_cases {label : Label config} (taken : state.next label = some after) :
    Moves state after ∨
      (∃ channel rand, label = .act channel rand ∧ Exits channel rand state after) ∨
        ∃ channel, Crashes channel state after := by
  cases label with
  | ask channel =>
      left
      simp only [next] at taken
      split at taken
      · cases taken
      · obtain ⟨endpoint, asked, rfl⟩ := Option.map_eq_some_iff.mp taken
        refine ⟨channel, endpoint, .ask asked, ?_, rfl⟩
        obtain ⟨_request, _rest, _idle, _todo, rfl⟩ := Endpoint.ask_cases asked
        intro impossible
        cases impossible
  | leave channel =>
      left
      simp only [next] at taken
      split at taken
      next ready =>
        obtain ⟨endpoint, parted, rfl⟩ := Option.map_eq_some_iff.mp taken
        exact ⟨channel, endpoint, .leave parted, fun _ => .inr ready.2, rfl⟩
      next => cases taken
  | cread channel =>
      left
      simp only [next] at taken
      split at taken
      · cases taken
      · obtain ⟨endpoint, read, rfl⟩ := Option.map_eq_some_iff.mp taken
        refine ⟨channel, endpoint, .cread read, ?_, rfl⟩
        obtain ⟨_request, _reply, _link, _waiting, _taken, rfl⟩ := Endpoint.cread_cases read
        intro impossible
        cases impossible
  | fail channel =>
      right
      right
      simp only [next] at taken
      split at taken
      next failing =>
        cases taken
        exact ⟨channel, failing.2.1, failing.2.2, rfl⟩
      next => cases taken
  | recv channel =>
      left
      simp only [next] at taken
      split at taken
      · cases taken
      · obtain ⟨endpoint, received, rfl⟩ := Option.map_eq_some_iff.mp taken
        refine ⟨channel, endpoint, .recv received, ?_, rfl⟩
        obtain ⟨link, _received, rfl⟩ := Option.map_eq_some_iff.mp received
        exact .inl
  | act channel rand =>
      by_cases exiting : (state.endpoints channel).exiting = true
      · exact .inr (.inl ⟨channel, rand, rfl, exits_of_act exiting taken⟩)
      · left
        simp only [next] at taken
        split at taken
        · cases taken
        · obtain ⟨endpoint, acted, rfl⟩ := Option.map_eq_some_iff.mp taken
          refine ⟨channel, endpoint, .act rand acted, ?_, rfl⟩
          obtain ⟨link, _acted, rfl⟩ := Option.map_eq_some_iff.mp acted
          exact .inl

structure Kept (state : State config) : Prop where
  valid : ∀ channel, (state.endpoints channel).Valid channel.farewell
  unasked : ∀ channel : Channel config, channel.todo = [] → (state.endpoints channel).Through
  joins : ∀ client, (state.endpoints ⟨client, none⟩).hasLeft = true →
    state.joined ⟨client, none⟩ = true
  running : ∀ client, state.crashed client = true → state.exit.isSome

@[simp] theorem set_exit (channel : Channel config) (endpoint : Endpoint) :
    (state.set channel endpoint).exit = state.exit := rfl

@[simp] theorem set_crashed (channel : Channel config) (endpoint : Endpoint) :
    (state.set channel endpoint).crashed = state.crashed := rfl

@[simp] theorem set_set (channel : Channel config) (first second : Endpoint) :
    (state.set channel first).set channel second = state.set channel second := by
  simp [set]

@[simp] theorem set_endpoints_self (channel : Channel config) (endpoint : Endpoint) :
    (state.set channel endpoint).endpoints channel = endpoint :=
  Function.update_self ..

theorem set_endpoints_of_ne {channel other : Channel config} (different : other ≠ channel)
    (endpoint : Endpoint) :
    (state.set channel endpoint).endpoints other = state.endpoints other :=
  Function.update_of_ne different ..

theorem set_keeps (holds : Channel config → Endpoint → Prop) {channel : Channel config}
    {endpoint : Endpoint} (before : ∀ other, holds other (state.endpoints other))
    (kept : holds channel (state.endpoints channel) → holds channel endpoint) :
    ∀ other, holds other ((state.set channel endpoint).endpoints other) := by
  intro other
  by_cases same : other = channel
  · subst same
    rw [set_endpoints_self]
    exact kept (before other)
  · rw [set_endpoints_of_ne same]
    exact before other

theorem joined_set {channel : Channel config} {endpoint : Endpoint}
    (step : (state.endpoints channel).Step channel.farewell endpoint)
    {client : Fin config.clients} (joined : state.joined ⟨client, none⟩ = true) :
    (state.set channel endpoint).joined ⟨client, none⟩ = true := by
  rw [joined_iff] at joined ⊢
  intro worker
  by_cases same : ⟨client, some worker⟩ = channel
  · subst same
    rw [set_endpoints_self]
    exact step.hasLeft (joined worker)
  · rw [set_endpoints_of_ne same]
    exact joined worker

theorem Kept.set (kept : state.Kept) {channel : Channel config} {endpoint : Endpoint}
    (step : (state.endpoints channel).Step channel.farewell endpoint)
    (guarded : endpoint.hasLeft = true →
      (state.endpoints channel).hasLeft = true ∨ state.joined channel = true) :
    (state.set channel endpoint).Kept where
  valid := set_keeps (fun other held => held.Valid other.farewell) kept.valid step.valid
  unasked := set_keeps (fun other held => other.todo = [] → held.Through) kept.unasked
    (fun before none_asked => step.through (before none_asked))
  joins := by
    intro client left
    apply joined_set step
    by_cases same : ⟨client, none⟩ = channel
    · subst same
      rw [set_endpoints_self] at left
      rcases guarded left with already | joined
      · exact kept.joins client already
      · exact joined
    · rw [set_endpoints_of_ne same] at left
      exact kept.joins client left
  running := kept.running

theorem Kept.opened (memory : Channel config → List Char) :
    (opened memory : State config).Kept where
  valid := by
    intro channel
    refine ⟨Link.at_opened _, ?_, ?_⟩
    · obtain ⟨client, _ | worker⟩ := channel
      · intro request impossible
        cases impossible
      · exact config.valid client worker
    · intro last impossible
      cases impossible
  unasked := by
    intro channel none_asked
    refine ⟨none_asked, ?_⟩
    intro request impossible
    cases impossible
  joins := by
    intro client impossible
    cases impossible
  running := by
    intro client impossible
    cases impossible

theorem Kept.next (kept : state.Kept) {label : Label config}
    (taken : state.next label = some after) : after.Kept := by
  rcases next_cases taken with ⟨channel, endpoint, step, guarded, rfl⟩ |
    ⟨channel, rand, rfl, endpoint, _running, exiting, acted, rfl⟩ |
    ⟨channel, exited, _starved, rfl⟩
  · exact kept.set step guarded
  · have left : (state.endpoints channel).hasLeft = true := by
      rw [Endpoint.hasLeft, (kept.valid channel).exiting_left exiting]
    have moved := kept.set (.act rand acted) (fun _ => .inl left)
    exact ⟨moved.valid, moved.unasked, moved.joins, fun _ _ => rfl⟩
  · exact ⟨kept.valid, kept.unasked, kept.joins, fun _ _ => exited⟩

end State

theorem kept {state : State config} (reached : (server config).Reachable state) : state.Kept := by
  apply System.Reachable.invariant ?_ ?_ reached
  · intro begun initial
    obtain ⟨memory, rfl⟩ := initial
    exact .opened memory
  · intro state label after _reached held taken
    exact held.next taken

/-! ### What a shutdown must not do -/

structure State.Lawful (state : State config) : Prop where
  spared : ∀ exit, state.exit = some exit → ∀ channel, channel ≠ exit.channel →
    exit.outstanding channel = 0
  alive : ∀ client, state.crashed client = false

/-- The server handles `!!` after the workers of every other client have the
replies to all of their requests. -/
def EndedFirst (state : State config) : Label config → Prop
  | .act channel _ => (state.endpoints channel).exiting = true →
      ∀ client, client ≠ channel.1 → ∀ worker : Fin (config.workers client),
        (state.endpoints ⟨client, some worker⟩).Through
  | _ => True

instance decidableEndedFirst (state : State config) (label : Label config) :
    Decidable (EndedFirst state label) := by
  cases label <;> unfold EndedFirst <;> infer_instance

def State.Quiet (state : State config) : Prop :=
  state.exit.isSome → ∀ channel, (state.endpoints channel).Through

namespace State

variable {state after : State config}

theorem Kept.through_at_exit (kept : state.Kept) {channel : Channel config} {rand : Nat}
    (exiting : (state.endpoints channel).exiting = true)
    (ended : EndedFirst state (.act channel rand)) :
    ∀ other, (state.endpoints other).Through := by
  have left : (state.endpoints channel).phase = .left .exit :=
    (kept.valid channel).exiting_left exiting
  have farewell := ((kept.valid channel).parting _ left).1
  obtain ⟨client, _ | worker⟩ := channel
  · rintro ⟨other, _ | worker⟩
    · exact kept.unasked _ rfl
    · by_cases same : other = client
      · subst same
        have joined := joined_iff.mp (kept.joins other (by rw [Endpoint.hasLeft, left]))
        exact (kept.valid _).through_of_left (joined worker)
      · exact ended exiting other same worker
  · cases farewell

theorem Kept.lawful_next (kept : state.Kept) {label : Label config} (lawful : state.Lawful)
    (quiet : state.Quiet) (ended : EndedFirst state label)
    (taken : state.next label = some after) : after.Lawful ∧ after.Quiet := by
  rcases next_cases taken with ⟨channel, endpoint, step, _guarded, rfl⟩ |
    ⟨channel, rand, rfl, endpoint, _running, exiting, acted, rfl⟩ |
    ⟨channel, exited, starved, rfl⟩
  · refine ⟨⟨lawful.spared, lawful.alive⟩, ?_⟩
    intro exited
    exact set_keeps (fun _ held => held.Through) (quiet exited) step.through
  · have through := kept.through_at_exit exiting ended
    refine ⟨⟨?_, lawful.alive⟩, ?_⟩
    · intro exit same other _different
      cases same
      exact (kept.valid other).outstanding_through (through other)
    · intro _exited
      have step : (state.endpoints channel).Step channel.farewell endpoint := .act rand acted
      exact set_keeps (fun _ held => held.Through) through step.through
  · -- nobody waits for a reply any more
    have through := quiet exited channel
    unfold Endpoint.starved at starved
    split at starved
    next request waiting _empty => exact absurd waiting (through.2 _)
    next => cases starved

theorem Lawful.opened (memory : Channel config → List Char) :
    (opened memory : State config).Lawful := by
  refine ⟨?_, fun _ => rfl⟩
  intro exit impossible
  cases impossible

end State

theorem lawful_within {state : State config}
    (reached : (server config).ReachableWithin EndedFirst state) : state.Lawful := by
  have both : state.Lawful ∧ state.Quiet := by
    apply System.ReachableWithin.invariant ?_ ?_ reached
    · intro begun initial
      obtain ⟨memory, rfl⟩ := initial
      refine ⟨.opened memory, ?_⟩
      intro impossible
      cases impossible
    · intro state label after before held ended taken
      exact (kept before.reachable).lawful_next held.1 held.2 ended taken
  exact both.1

namespace State

variable {state after : State config}

theorem Kept.starves (kept : state.Kept) (channel : Channel config)
    (exited : state.exit.isSome) (running : state.crashed channel.1 = false)
    (idle : (state.endpoints channel).phase = .idle)
    (unasked : (state.endpoints channel).todo ≠ []) :
    ∃ later, (server config).Path state later ∧ later.crashed channel.1 = true := by
  obtain ⟨request, rest, todo⟩ := List.exists_cons_of_ne_nil unasked
  have position := (kept.valid channel).position
  rw [idle] at position
  have asked : state.next (.ask channel) = some (state.set channel
      ⟨(state.endpoints channel).link.cwrite request, .waiting request, rest,
        (state.endpoints channel).done⟩) := by
    simp [State.next, running, Endpoint.ask, idle, todo]
  have failed : ∃ later, (state.set channel
      ⟨(state.endpoints channel).link.cwrite request, .waiting request, rest,
        (state.endpoints channel).done⟩).next (.fail channel) = some later ∧
      later.crashed channel.1 = true := by
    simp [State.next, State.set, running, exited, Endpoint.starved, position.idle_quiet,
      Link.cwrite]
  obtain ⟨later, failed, crashed⟩ := failed
  have here : (server config).Path state state := .refl state
  exact ⟨later, (here.take (.ask channel) asked).take (.fail channel) failed, crashed⟩

theorem Kept.lawful_running (kept : state.Kept) (running : state.exit = none) :
    state.Lawful ∧ state.Quiet := by
  refine ⟨⟨?_, ?_⟩, ?_⟩
  · intro exit impossible
    rw [running] at impossible
    cases impossible
  · intro client
    cases crashed : state.crashed client with
    | false => rfl
    | true =>
        have exited := kept.running client crashed
        rw [running] at exited
        cases exited
  · intro exited
    rw [running] at exited
    cases exited

theorem exit_stays {label : Label config} (exited : state.exit.isSome)
    (taken : state.next label = some after) : after.exit.isSome := by
  rcases next_cases taken with ⟨channel, endpoint, _step, _guarded, rfl⟩ |
    ⟨channel, rand, rfl, endpoint, _running, _exiting, _acted, rfl⟩ |
    ⟨channel, _exited, _starved, rfl⟩
  · exact exited
  · rfl
  · exact exited

/-- After the exit the law holds for ever, if every thread was through. -/
theorem lawful_after (reached : (server config).Reachable state) (exited : state.exit.isSome)
    (lawful : state.Lawful) (quiet : state.Quiet) {later : State config}
    (path : (server config).Path state later) : later.Lawful := by
  have all : later.exit.isSome ∧ later.Lawful ∧ later.Quiet := by
    apply System.Path.invariant
      (fun state : State config => state.exit.isSome ∧ state.Lawful ∧ state.Quiet) reached
      ⟨exited, lawful, quiet⟩ ?_ path
    intro before label later_state reached held taken
    obtain ⟨exited, lawful, quiet⟩ := held
    have ended : EndedFirst before label := by
      cases label with
      | act channel rand => exact fun _ _ _ _ => quiet exited _
      | _ => trivial
    exact ⟨exit_stays exited taken, (kept reached).lawful_next lawful quiet ended taken⟩
  exact all.2.1

/-- An exit keeps to the law, whatever happens next, exactly when the workers of
the other clients are through. -/
theorem exit_lawful_iff {channel : Channel config} {rand : Nat}
    (reached : (server config).Reachable state) (exiting : (state.endpoints channel).exiting = true)
    (taken : state.next (.act channel rand) = some after) :
    (∀ later, (server config).Path after later → later.Lawful) ↔
      EndedFirst state (.act channel rand) := by
  have before := kept reached
  have exits := exits_of_act exiting taken
  have reached_after : (server config).Reachable after :=
    reached.take (.act channel rand) trivial taken
  constructor
  · intro lawful _exiting client different worker
    obtain ⟨endpoint, _running, _exiting, _acted, rfl⟩ := exits
    have other : (⟨client, some worker⟩ : Channel config) ≠ channel := by
      intro same
      subst same
      exact different rfl
    have valid := before.valid ⟨client, some worker⟩
    cases phase : (state.endpoints ⟨client, some worker⟩).phase with
    | waiting request =>
        have spared : (state.endpoints ⟨client, some worker⟩).link.outstanding = 0 :=
          (lawful _ (.refl _)).spared _ rfl _ other
        have position := valid.position
        rw [phase] at position
        rw [position.outstanding_waiting] at spared
        cases spared
    | left last => exact valid.through_of_left (by rw [Endpoint.hasLeft, phase])
    | idle =>
        constructor
        · by_contra unasked
          have same : (state.set channel endpoint).endpoints ⟨client, some worker⟩ =
              state.endpoints ⟨client, some worker⟩ := set_endpoints_of_ne other endpoint
          obtain ⟨later, path, crashed⟩ := (kept reached_after).starves ⟨client, some worker⟩ rfl
            ((lawful _ (.refl _)).alive client) (same ▸ phase) (same ▸ unasked)
          have alive := (lawful later path).alive client
          rw [crashed] at alive
          cases alive
        · intro request waiting
          rw [phase] at waiting
          cases waiting
  · intro ended later path
    have running : state.exit = none := by
      obtain ⟨_endpoint, running, _rest⟩ := exits
      exact running
    obtain ⟨lawful, quiet⟩ := before.lawful_running running
    have first := before.lawful_next lawful quiet ended taken
    have exited : after.exit.isSome := by
      obtain ⟨_endpoint, _running, _exiting, _acted, rfl⟩ := exits
      rfl
    exact lawful_after reached_after exited first.1 first.2 path

end State

namespace State

variable {state : State config}

theorem exchange_path {channel : Channel config} {link : Link} {request : String}
    {rest : List String} {done : List (String × String)} (running : state.exit = none)
    (alive : state.crashed channel.1 = false)
    (here : state.endpoints channel = ⟨link, .idle, request :: rest, done⟩)
    (position : link.At (fun _ => True) done .idle) (valid : Request request) :
    ∃ later history, (server config).Path state
        (state.set channel ⟨later, .idle, rest, history⟩) ∧
      later.At (fun _ => True) history .idle := by
  obtain ⟨received, answered, read, receives, acts, reads, ready⟩ :=
    position.exchange valid (String.ofList (to_string (0 % 100))) trivial
  have goes_on : (⟨received, .waiting request, rest, done⟩ : Endpoint).exiting = false := by
    cases exiting : (⟨received, .waiting request, rest, done⟩ : Endpoint).exiting with
    | false => rfl
    | true =>
        have both := of_decide_eq_true exiting
        have impossible := ((position.request valid).recv receives).exiting both.1 both.2
        cases impossible
  have asked : state.next (.ask channel) = some
      (state.set channel ⟨link.cwrite request, .waiting request, rest, done⟩) := by
    simp [next, alive, here, Endpoint.ask]
  have got : (state.set channel ⟨link.cwrite request, .waiting request, rest, done⟩).next
      (.recv channel) = some (state.set channel ⟨received, .waiting request, rest, done⟩) := by
    simp [next, running, Endpoint.recv, receives]
  have replied : (state.set channel ⟨received, .waiting request, rest, done⟩).next
      (.act channel 0) = some (state.set channel ⟨answered, .waiting request, rest, done⟩) := by
    simp [next, running, goes_on, Endpoint.act, acts]
  have taken : (state.set channel ⟨answered, .waiting request, rest, done⟩).next
      (.cread channel) = some
        (state.set channel ⟨read, .idle, rest, done ++
          [(request, String.ofList (to_string (0 % 100)))]⟩) := by
    simp [next, alive, Endpoint.cread, reads]
  have start : (server config).Path state state := .refl state
  have path := (((start.take (.ask channel) asked).take (.recv channel) got).take
    (.act channel 0) replied).take (.cread channel) taken
  exact ⟨_, _, path, ready⟩

theorem worker_path {client : Fin config.clients} {worker : Fin (config.workers client)}
    (todo : List String) {link : Link} {done : List (String × String)}
    (running : state.exit = none) (alive : state.crashed client = false)
    (here : state.endpoints ⟨client, some worker⟩ = ⟨link, .idle, todo, done⟩)
    (position : link.At (fun _ => True) done .idle) (valid : ∀ request ∈ todo, Request request) :
    ∃ endpoint, (server config).Path state (state.set ⟨client, some worker⟩ endpoint) ∧
      endpoint.hasLeft = true := by
  induction todo generalizing state link done with
  | nil =>
      have left : state.next (.leave ⟨client, some worker⟩) = some (state.set ⟨client, some worker⟩
          ⟨link.cwrite Farewell.close.text, .left .close, [], done⟩) := by
        simp [next, alive, joined, here, Endpoint.leave, Channel.farewell]
      have start : (server config).Path state state := .refl state
      exact ⟨_, start.take (.leave ⟨client, some worker⟩) left, rfl⟩
  | cons request rest ih =>
      obtain ⟨later, history, front, ready⟩ :=
        exchange_path running alive here position (valid request List.mem_cons_self)
      have others := fun other member => valid other (List.mem_cons_of_mem request member)
      have still : (state.set ⟨client, some worker⟩ ⟨later, .idle, rest, history⟩).exit = none :=
        running
      obtain ⟨endpoint, back, left⟩ := ih still alive (set_endpoints_self ..) ready others
      rw [set_set] at back
      exact ⟨endpoint, front.trans back, left⟩

def Fresh (state : State config) (channel : Channel config) : Prop :=
  ∃ memory, state.endpoints channel = ⟨Link.opened memory, .idle, channel.todo, []⟩

/-- The workers of one client can finish while everybody else waits. -/
theorem workers_path {client : Fin config.clients} (workers : List (Fin (config.workers client)))
    (distinct : workers.Nodup) (running : state.exit = none)
    (alive : state.crashed client = false)
    (fresh : ∀ worker ∈ workers, state.Fresh ⟨client, some worker⟩) :
    ∃ after, (server config).Path state after ∧ after.exit = none ∧
      after.crashed = state.crashed ∧
      (∀ worker ∈ workers, (after.endpoints ⟨client, some worker⟩).hasLeft = true) ∧
      ∀ channel : Channel config, (∀ worker ∈ workers, channel ≠ ⟨client, some worker⟩) →
        after.endpoints channel = state.endpoints channel := by
  induction workers generalizing state with
  | nil => exact ⟨state, .refl state, running, rfl, by simp, by simp⟩
  | cons worker rest ih =>
      obtain ⟨absent, distinct⟩ := List.nodup_cons.mp distinct
      obtain ⟨memory, here⟩ := fresh worker List.mem_cons_self
      obtain ⟨endpoint, front, left⟩ := worker_path (config.requests client worker) running alive
        here (Link.at_opened memory) (config.valid client worker)
      have apart : ∀ other ∈ rest,
          (⟨client, some other⟩ : Channel config) ≠ ⟨client, some worker⟩ := by
        intro other member same
        cases same
        exact absent member
      have waiting : ∀ other ∈ rest,
          (state.set ⟨client, some worker⟩ endpoint).Fresh ⟨client, some other⟩ := by
        intro other member
        rw [Fresh, set_endpoints_of_ne (apart other member)]
        exact fresh other (List.mem_cons_of_mem _ member)
      have up : (state.set ⟨client, some worker⟩ endpoint).exit = none := running
      obtain ⟨after, back, still, crashed, parted, others⟩ := ih distinct up alive waiting
      refine ⟨after, front.trans back, still, crashed, ?_, ?_⟩
      · intro other member
        rcases List.mem_cons.mp member with rfl | later
        · rw [others _ (fun third here => (apart third here).symm), set_endpoints_self]
          exact left
        · exact parted other later
      · intro channel outside
        rw [others channel (fun third here => outside third (List.mem_cons_of_mem _ here)),
          set_endpoints_of_ne (outside worker List.mem_cons_self)]

theorem main_path {client : Fin config.clients} (running : state.exit = none)
    (alive : state.crashed client = false) (joined : state.joined ⟨client, none⟩ = true)
    (fresh : state.Fresh ⟨client, none⟩) :
    ∃ endpoint, (server config).Path state (state.set ⟨client, none⟩ endpoint) ∧
      endpoint.exiting = true ∧
        ∃ after, (state.set ⟨client, none⟩ endpoint).next (.act ⟨client, none⟩ 0) = some after := by
  obtain ⟨memory, here⟩ := fresh
  have position : (Link.opened memory).At (fun _ => True) [] .idle := Link.at_opened memory
  obtain ⟨received, receives, dispatching, exits, acts⟩ := position.exit
  obtain ⟨exited, acts⟩ := acts (String.ofList (to_string (0 % 100)))
  have exiting : (⟨received, .left .exit, [], []⟩ : Endpoint).exiting = true :=
    decide_eq_true ⟨dispatching, exits⟩
  have left : state.next (.leave ⟨client, none⟩) = some (state.set ⟨client, none⟩
      ⟨(Link.opened memory).cwrite Farewell.exit.text, .left .exit, [], []⟩) := by
    simp [next, alive, joined, here, Endpoint.leave, Channel.farewell, Channel.todo]
  have got : (state.set ⟨client, none⟩
      ⟨(Link.opened memory).cwrite Farewell.exit.text, .left .exit, [], []⟩).next
        (.recv ⟨client, none⟩) =
          some (state.set ⟨client, none⟩ ⟨received, .left .exit, [], []⟩) := by
    simp [next, running, Endpoint.recv, receives]
  have start : (server config).Path state state := .refl state
  refine ⟨_, (start.take (.leave ⟨client, none⟩) left).take (.recv ⟨client, none⟩) got,
    exiting, ?_⟩
  simp [next, running, exiting, Endpoint.act, acts]

end State

/-! ### Which clients can share a server -/

def Config.Alone (config : Config) : Prop :=
  ∀ first second : Fin config.clients, first ≠ second →
    ∀ worker, config.requests second worker = []

theorem fresh_opened (memory : Channel config → List Char) (channel : Channel config) :
    (opened memory).Fresh channel :=
  ⟨memory channel, rfl⟩

theorem lawful_of_alone (alone : config.Alone) {state : State config}
    (reached : (server config).Reachable state) : state.Lawful := by
  apply lawful_within
  apply System.Reachable.within ?_ reached
  intro state label before
  cases label with
  | act channel rand =>
      intro _exiting client different worker
      exact (kept before).unasked _ (alone channel.1 client different.symm worker)
  | _ => trivial

/-- Main of the first client ends the server before the second has begun. -/
theorem alone_of_lawful
    (lawful : ∀ state, (server config).Reachable state → state.Lawful) : config.Alone := by
  intro first second different worker
  have initial : (server config).Reachable (opened fun _ => []) := .begin ⟨_, rfl⟩
  have up : (opened fun _ : Channel config => []).exit = none := rfl
  obtain ⟨parted, front, running, crashed, left, others⟩ :=
    State.workers_path (List.finRange (config.workers first)) (List.nodup_finRange _) up rfl
      fun worker _ => fresh_opened _ ⟨first, some worker⟩
  have main : parted.Fresh ⟨first, none⟩ := by
    rw [State.Fresh, others _ (by simp)]
    exact fresh_opened _ _
  have joined : parted.joined ⟨first, none⟩ = true :=
    State.joined_iff.mpr fun worker => left worker (List.mem_finRange worker)
  obtain ⟨endpoint, back, exiting, after, taken⟩ :=
    State.main_path running (congrFun crashed first) joined main
  have reached := (initial.of_path front).of_path back
  have reached_after : (server config).Reachable after :=
    reached.take (.act ⟨first, none⟩ 0) trivial taken
  have exits : ((parted.set ⟨first, none⟩ endpoint).endpoints ⟨first, none⟩).exiting = true := by
    rwa [State.set_endpoints_self]
  have ended := (State.exit_lawful_iff reached exits taken).mp
    fun later path => lawful later (reached_after.of_path path)
  have through := ended exits second different.symm worker
  have untouched : (⟨second, some worker⟩ : Channel config) ≠ ⟨first, none⟩ := by
    intro same
    cases same
  rw [State.set_endpoints_of_ne untouched, others _ (by
    intro other _member same
    cases same
    exact different rfl)] at through
  exact through.1

/-- The law holds in every run exactly for clients that cannot disturb each
other; for all others it holds in the runs in which each exit comes last, and an
exit that does not can break it. -/
theorem shutdown_lawful (config : Config) :
    ((∀ state, (server config).Reachable state → state.Lawful) ↔ config.Alone) ∧
    (∀ state, (server config).ReachableWithin EndedFirst state → state.Lawful) ∧
    ∀ (state after : State config) (channel : Channel config) (rand : Nat),
      (server config).Reachable state → (state.endpoints channel).exiting = true →
        (server config).next state (.act channel rand) = some after →
          ((∀ later, (server config).Path after later → later.Lawful) ↔
            EndedFirst state (.act channel rand)) := by
  refine ⟨⟨alone_of_lawful, fun alone _ reached => lawful_of_alone alone reached⟩, ?_, ?_⟩
  · intro state reached
    exact lawful_within reached
  · intro state after channel rand reached exiting taken
    exact State.exit_lawful_iff reached exiting taken

def pair : Config :=
  { clients := 2
    workers := fun _ => 1
    requests := fun _ _ => ["data Joe Smith"]
    valid := by
      intro _client _worker request member
      rw [List.mem_singleton.mp member]
      exact ⟨by decide, by decide⟩ }

def one : Fin pair.clients := ⟨0, Nat.two_pos⟩

def other : Fin pair.clients := ⟨1, Nat.one_lt_two⟩

def workerOf (client : Fin pair.clients) : Channel pair := ⟨client, some ⟨0, Nat.one_pos⟩⟩

def mainOf (client : Fin pair.clients) : Channel pair := ⟨client, none⟩

def asks (client : Fin pair.clients) : List (Label pair) :=
  [.ask (workerOf client), .recv (workerOf client)]

def finishes (client : Fin pair.clients) : List (Label pair) :=
  [.act (workerOf client) 7, .cread (workerOf client), .leave (workerOf client)]

def exits (client : Fin pair.clients) : List (Label pair) :=
  [.leave (mainOf client), .recv (mainOf client), .act (mainOf client) 0]

def considerate : List (Label pair) :=
  List.flatten [asks one, asks other, finishes one, finishes other, exits one]

theorem shutdown_lawful_considerate :
    ∃ state, (server pair).run (opened fun _ => []) considerate = some state ∧
      state.Lawful := by
  obtain ⟨state, ran⟩ := Option.isSome_iff_exists.mp
    (show ((server pair).run (opened fun _ => []) considerate).isSome = true by decide +kernel)
  have initial : (server pair).ReachableWithin EndedFirst (opened fun _ => []) :=
    .start ⟨_, rfl⟩
  exact ⟨state, ran, (shutdown_lawful pair).2.1 state (initial.of_run (by decide +kernel) ran)⟩

def hasty : List (Label pair) :=
  List.flatten [asks one, asks other, finishes one, exits one, [.fail (workerOf other)]]

theorem hasty_not_lawful : ¬ ∀ state, (server pair).Reachable state → state.Lawful := by
  intro always
  obtain ⟨state, ran⟩ := Option.isSome_iff_exists.mp
    (show ((server pair).run (opened fun _ => []) hasty).isSome = true by decide +kernel)
  have crashed : (((server pair).run (opened fun _ => []) hasty).map
      fun state => state.crashed other) = some true := by
    decide +kernel
  have initial : (server pair).Reachable (opened fun _ => []) := .begin ⟨_, rfl⟩
  have alive := (always state (initial.of_run ran)).alive other
  rw [ran, Option.map_some, alive] at crashed
  cases crashed

end Netwurk.RequestChannel.SharedServer
