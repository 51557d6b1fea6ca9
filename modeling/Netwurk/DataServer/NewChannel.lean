/-
The earlier data server, which speaks through FIFOs. Every open channel has its own
thread, and each of them may be asked for a new channel. The number in a channel's
name comes from one counter, incremented and read back without a lock.
-/

import Netwurk.Foundation.MachineInt
import Netwurk.Foundation.TicketCounter
import Netwurk.RequestChannel.ServerThread

namespace Netwurk.DataServer

open Transition RequestChannel

inductive Side where
  | client
  | server
deriving DecidableEq

inductive Mode where
  | read
  | write
deriving DecidableEq

def pipe_name (my_name : List Char) (my_side : Side) (mode : Mode) : List Char :=
  let pname := "fifo_".toList ++ my_name
  match my_side with
  | .client => if mode = .read then pname ++ ['1'] else pname ++ ['2']
  | .server => if mode = .read then pname ++ ['2'] else pname ++ ['1']

theorem pipe_name_eq (my_name : List Char) (my_side : Side) (mode : Mode) :
    ∃ digit, pipe_name my_name my_side mode = "fifo_".toList ++ my_name ++ [digit] := by
  unfold pipe_name
  cases my_side <;> cases mode <;> exact ⟨_, rfl⟩

theorem name_of_pipe_name {name other : List Char} {side otherSide : Side} {mode otherMode : Mode}
    (same : pipe_name name side mode = pipe_name other otherSide otherMode) : name = other := by
  obtain ⟨digit, path⟩ := pipe_name_eq name side mode
  obtain ⟨otherDigit, otherPath⟩ := pipe_name_eq other otherSide otherMode
  rw [path, otherPath] at same
  have front := (List.append_inj' same rfl).1
  exact List.append_cancel_left front

theorem pipe_name_sides (name : List Char) :
    pipe_name name .client .read = pipe_name name .server .write ∧
      pipe_name name .client .write = pipe_name name .server .read ∧
      pipe_name name .server .read ≠ pipe_name name .server .write := by
  refine ⟨rfl, rfl, ?_⟩
  intro same
  have paths : "fifo_".toList ++ name ++ ['2'] = "fifo_".toList ++ name ++ ['1'] := same
  have digits := List.append_cancel_left paths
  revert digits
  decide

def channelName (number : Nat) : List Char := "data".toList ++ to_string number ++ ['_']

theorem channelName_injective : Function.Injective channelName := by
  intro number other same
  have front := (List.append_inj' same rfl).1
  have digits : to_string number = to_string other := List.append_cancel_left front
  have back := congrArg (fun text => Nat.ofDigitChars 10 text 0) digits
  simpa only [to_string, Nat.ofDigitChars_ten_toDigits] using back

theorem channelName_head (number : Nat) : (channelName number).head? = some 'd' :=
  rfl

/-! ### Handlers -/

/-- Between `receiving` and the next one a handler is inside `process_newchannel`. -/
inductive Pc where
  | receiving
  | entering
  | incremented
  | named (name : List Char)
  | wrote (name : List Char)
  | ended
deriving DecidableEq

structure Handler where
  channel : List Char
  pc : Pc
  written : List (List Char)
deriving DecidableEq

inductive Processed where
  | reply (text : List Char)
  | newchannel

/-- `process_request` up to the call of `process_newchannel`, with `value` for
`rand() % 100`. -/
def process_request (request : List Char) (value : Fin 100) : Processed :=
  if "hello".toList.isPrefixOf request then .reply "hello to you too".toList
  else if "data".toList.isPrefixOf request then .reply (to_string value)
  else if "newchannel".toList.isPrefixOf request then .newchannel
  else .reply "unknown request".toList

def Handler.handle (handler : Handler) (request : List Char) (value : Fin 100) : Handler :=
  if request = "quit".toList then { handler with pc := .ended }
  else
    match process_request request value with
    | .reply text => { handler with written := handler.written ++ [text] }
    | .newchannel => { handler with pc := .entering }

/-- `built` are the numbers read back, `sent` the names written to clients and
`channels` the names of the channels made, in the order in which it happened. -/
structure State where
  nchannels : Nat
  handlers : List Handler
  built : List Nat
  sent : List (List Char)
  channels : List (List Char)
deriving DecidableEq

/-- `create` makes the channel; `started` is whether its thread could be started,
which the code takes for granted. -/
inductive Label where
  | request (thread : Nat) (text : List Char) (value : Fin 100)
  | increment (thread : Nat)
  | read (thread : Nat)
  | write (thread : Nat)
  | create (thread : Nat) (started : Bool)
deriving DecidableEq

namespace State

def set (state : State) (thread : Nat) (handler : Handler) : State :=
  { state with handlers := state.handlers.set thread handler }

/-- The counter has no value beyond `INT_MAX`. -/
def next (state : State) : Label → Option State
  | .request thread text value =>
      match state.handlers[thread]? with
      | some handler =>
          if handler.pc = .receiving then some (state.set thread (handler.handle text value))
          else none
      | none => none
  | .increment thread =>
      match state.handlers[thread]? with
      | some handler =>
          if handler.pc = .entering ∧ (state.nchannels : Int) < INT_MAX then
            some { state.set thread { handler with pc := .incremented } with
              nchannels := state.nchannels + 1 }
          else none
      | none => none
  | .read thread =>
      match state.handlers[thread]? with
      | some handler =>
          if handler.pc = .incremented then
            some { state.set thread
                { handler with pc := .named (channelName state.nchannels) } with
              built := state.built ++ [state.nchannels] }
          else none
      | none => none
  | .write thread =>
      match state.handlers[thread]? with
      | some handler =>
          match handler.pc with
          | .named name =>
              some { state.set thread
                  { handler with
                    pc := .wrote name
                    written := handler.written ++ [name] } with
                sent := state.sent ++ [name] }
          | _ => none
      | none => none
  | .create thread started =>
      match state.handlers[thread]? with
      | some handler =>
          match handler.pc with
          | .wrote name =>
              let opened : List Handler :=
                if started then [{ channel := name, pc := .receiving, written := [] }] else []
              some { state with
                handlers := state.handlers.set thread { handler with pc := .receiving } ++ opened
                channels := state.channels ++ [name] }
          | _ => none
      | none => none

end State

def control : List Char := "control".toList

def begin : State :=
  { nchannels := 0
    handlers := [{ channel := control, pc := .receiving, written := [] }]
    built := []
    sent := []
    channels := [control] }

def dataserver : System State Label where
  start := fun state => state = begin
  next := State.next

private theorem split_of_getElem? {Item : Type} {items : List Item} {index : Nat} {item : Item}
    (found : items[index]? = some item) :
    ∃ front back, items = front ++ item :: back ∧
      ∀ other, items.set index other = front ++ other :: back := by
  induction items generalizing index with
  | nil => simp at found
  | cons first rest ih =>
      cases index with
      | zero =>
          rw [List.getElem?_cons_zero, Option.some.injEq] at found
          subst found
          exact ⟨[], rest, rfl, fun _ => rfl⟩
      | succ index =>
          rw [List.getElem?_cons_succ] at found
          obtain ⟨front, back, whole, replaced⟩ := ih found
          refine ⟨first :: front, back, by rw [whole]; rfl, fun other => ?_⟩
          rw [List.set_cons_succ, replaced]
          rfl

inductive Step (state : State) (front back : List Handler) (handler : Handler) :
    Label → State → Prop
  | request {thread : Nat} {text : List Char} {value : Fin 100} :
      handler.pc = .receiving →
      Step state front back handler (.request thread text value)
        { state with handlers := front ++ handler.handle text value :: back }
  | increment {thread : Nat} :
      handler.pc = .entering →
      Step state front back handler (.increment thread)
        { state with
          nchannels := state.nchannels + 1
          handlers := front ++ { handler with pc := .incremented } :: back }
  | read {thread : Nat} :
      handler.pc = .incremented →
      Step state front back handler (.read thread)
        { state with
          handlers := front ++ { handler with pc := .named (channelName state.nchannels) } :: back
          built := state.built ++ [state.nchannels] }
  | write {thread : Nat} {name : List Char} :
      handler.pc = .named name →
      Step state front back handler (.write thread)
        { state with
          handlers := front ++
            { handler with pc := .wrote name, written := handler.written ++ [name] } :: back
          sent := state.sent ++ [name] }
  | create {thread : Nat} {started : Bool} {name : List Char} :
      handler.pc = .wrote name →
      Step state front back handler (.create thread started)
        { state with
          handlers := front ++ { handler with pc := .receiving } :: (back ++
            if started then [{ channel := name, pc := .receiving, written := [] }] else [])
          channels := state.channels ++ [name] }

theorem next_step {state after : State} {label : Label} (taken : state.next label = some after) :
    ∃ front handler back, state.handlers = front ++ handler :: back ∧
      Step state front back handler label after := by
  have located : ∀ {thread : Nat} {handler : Handler}, state.handlers[thread]? = some handler →
      ∃ front back, state.handlers = front ++ handler :: back ∧
        ∀ other, state.handlers.set thread other = front ++ other :: back :=
    fun found => split_of_getElem? found
  cases label with
  | request thread text value =>
      cases found : state.handlers[thread]? with
      | none => simp only [State.next, found, reduceCtorEq] at taken
      | some handler =>
          obtain ⟨front, back, whole, replaced⟩ := located found
          simp only [State.next, found] at taken
          split_ifs at taken with idle
          rw [State.set, replaced, Option.some.injEq] at taken
          subst taken
          exact ⟨front, handler, back, whole, .request idle⟩
  | increment thread =>
      cases found : state.handlers[thread]? with
      | none => simp only [State.next, found, reduceCtorEq] at taken
      | some handler =>
          obtain ⟨front, back, whole, replaced⟩ := located found
          simp only [State.next, found] at taken
          split_ifs at taken with entering
          rw [State.set, replaced, Option.some.injEq] at taken
          subst taken
          exact ⟨front, handler, back, whole, .increment entering.1⟩
  | read thread =>
      cases found : state.handlers[thread]? with
      | none => simp only [State.next, found, reduceCtorEq] at taken
      | some handler =>
          obtain ⟨front, back, whole, replaced⟩ := located found
          simp only [State.next, found] at taken
          split_ifs at taken with incremented
          rw [State.set, replaced, Option.some.injEq] at taken
          subst taken
          exact ⟨front, handler, back, whole, .read incremented⟩
  | write thread =>
      cases found : state.handlers[thread]? with
      | none => simp only [State.next, found, reduceCtorEq] at taken
      | some handler =>
          obtain ⟨front, back, whole, replaced⟩ := located found
          cases at_ : handler.pc with
          | named name =>
              simp only [State.next, found, at_] at taken
              rw [State.set, replaced, Option.some.injEq] at taken
              subst taken
              exact ⟨front, handler, back, whole, .write at_⟩
          | _ => simp only [State.next, found, at_, reduceCtorEq] at taken
  | create thread started =>
      cases found : state.handlers[thread]? with
      | none => simp only [State.next, found, reduceCtorEq] at taken
      | some handler =>
          obtain ⟨front, back, whole, replaced⟩ := located found
          cases at_ : handler.pc with
          | wrote name =>
              simp only [State.next, found, at_] at taken
              rw [replaced, List.append_assoc, List.cons_append, Option.some.injEq] at taken
              subst taken
              exact ⟨front, handler, back, whole, .create at_⟩
          | _ => simp only [State.next, found, at_, reduceCtorEq] at taken

theorem Handler.handle_pc {handler : Handler} (idle : handler.pc = .receiving) (text : List Char)
    (value : Fin 100) :
    (handler.handle text value).pc = .receiving ∨ (handler.handle text value).pc = .entering ∨
      (handler.handle text value).pc = .ended := by
  unfold handle
  split_ifs
  · exact .inr (.inr rfl)
  · cases process_request text value with
    | reply reply => exact .inl idle
    | newchannel => exact .inr (.inl rfl)

/-! ### The counter behind the names -/

namespace State

variable {state after : State}

def countAt (state : State) (pc : Pc) : Nat :=
  state.handlers.countP fun handler => handler.pc = pc

def underWay : Pc → Bool
  | .incremented => true
  | .named _ => true
  | .wrote _ => true
  | .receiving => false
  | .entering => false
  | .ended => false

theorem not_underWay_handle {handler : Handler} (idle : handler.pc = .receiving)
    (text : List Char) (value : Fin 100) : ¬ underWay (handler.handle text value).pc = true := by
  intro busy
  rcases handler.handle_pc idle text value with here | here | here <;>
    (rw [here] at busy; cases busy)

def target (state : State) (handler : Handler) : Label → Pc
  | .request _ text value => (handler.handle text value).pc
  | .increment _ => .incremented
  | .read _ => .named (channelName state.nchannels)
  | .write _ =>
      match handler.pc with
      | .named name => .wrote name
      | other => other
  | .create _ _ => .receiving

private theorem countP_replace {Item : Type} (test : Item → Bool) (front back : List Item)
    (old new : Item) :
    (front ++ new :: back).countP test + (if test old then 1 else 0) =
      (front ++ old :: back).countP test + (if test new then 1 else 0) := by
  simp only [List.countP_append, List.countP_cons]
  omega

/-- A step changes only the counts of the points that its handler leaves and reaches;
the handlers of new channels start at `receiving`. -/
theorem countAt_step {front back : List Handler} {handler : Handler} {label : Label}
    (whole : state.handlers = front ++ handler :: back)
    (step : Step state front back handler label after) {pc : Pc} (busy : underWay pc = true) :
    after.countAt pc + (if handler.pc = pc then 1 else 0) =
      state.countAt pc + (if state.target handler label = pc then 1 else 0) := by
  have replace : ∀ (back : List Handler) (moved : Handler),
      (front ++ moved :: back).countP (fun other => other.pc = pc) +
          (if handler.pc = pc then 1 else 0) =
        (front ++ handler :: back).countP (fun other => other.pc = pc) +
          (if moved.pc = pc then 1 else 0) := by
    intro back moved
    have counts := countP_replace (fun other : Handler => decide (other.pc = pc)) front back
      handler moved
    simpa only [decide_eq_true_eq] using counts
  unfold countAt
  rw [whole]
  cases step with
  | request _ => exact replace back _
  | increment _ => exact replace back { handler with pc := .incremented }
  | read _ => exact replace back { handler with pc := .named (channelName state.nchannels) }
  | write at_ =>
      simp only [target, at_]
      rw [← at_]
      exact replace back _
  | @create _ started name _ =>
      have idle : Pc.receiving ≠ pc := by
        intro same
        rw [← same] at busy
        cases busy
      have none_opened : (if started = true then
          [({ channel := name, pc := .receiving, written := [] } : Handler)] else []).countP
            (fun other => other.pc = pc) = 0 := by
        cases started <;> simp [idle]
      generalize (if started = true then
        [({ channel := name, pc := .receiving, written := [] } : Handler)] else []) = opened
        at none_opened ⊢
      have longer : (front ++ handler :: (back ++ opened)).countP (fun other => other.pc = pc) =
          (front ++ handler :: back).countP fun other => other.pc = pc := by
        rw [← List.cons_append, ← List.append_assoc, List.countP_append, none_opened, Nat.add_zero]
      have moved := replace (back ++ opened) { handler with pc := .receiving }
      rw [longer] at moved
      exact moved

/-- The counter, the increments not read back and the numbers read. -/
def view (state : State) : TicketCounter.Tickets :=
  { count := state.nchannels
    pending := state.countAt .incremented
    issued := state.built }

def ticket : Label → Option TicketCounter.Label
  | .request _ _ _ => none
  | .increment _ => some .increment
  | .read _ => some .read
  | .write _ => none
  | .create _ _ => none

/-- A step is one of the counter's steps, or the counter does not see it. -/
theorem view_step {label : Label} (taken : state.next label = some after) :
    match ticket label with
    | none => after.view = state.view
    | some action => TicketCounter.Tickets.next state.view action = some after.view := by
  obtain ⟨front, handler, back, whole, step⟩ := next_step taken
  have pending : after.countAt .incremented + (if handler.pc = .incremented then 1 else 0) =
      state.countAt .incremented +
        (if state.target handler label = .incremented then 1 else 0) :=
    countAt_step whole step rfl
  cases step with
  | @request _ text value idle =>
      have later : (handler.handle text value).pc ≠ .incremented := by
        intro same
        exact not_underWay_handle idle text value (by rw [same]; rfl)
      simp only [target, idle, later, reduceCtorEq, if_false, Nat.add_zero] at pending
      simp only [ticket, view, pending]
  | increment entering =>
      simp only [target, entering, reduceCtorEq, if_false, if_true, Nat.add_zero] at pending
      simp only [ticket, view, pending, TicketCounter.Tickets.next]
  | read incremented =>
      simp only [target, incremented, reduceCtorEq, if_false, if_true, Nat.add_zero] at pending
      simp only [ticket, view, TicketCounter.Tickets.next, ← pending]
      rw [if_neg (Nat.succ_ne_zero _), Nat.add_sub_cancel]
  | write named =>
      simp only [target, named, reduceCtorEq, if_false, Nat.add_zero] at pending
      simp only [ticket, view, pending]
  | create wrote =>
      simp only [target, wrote, reduceCtorEq, if_false, Nat.add_zero] at pending
      simp only [ticket, view, pending]

theorem refines_counter : Refinement dataserver TicketCounter.Tickets.counter view where
  start := by
    intro state started
    subst started
    rfl
  step := by
    intro state label after _ taken
    have seen := view_step taken
    cases same : ticket label with
    | none =>
        rw [same] at seen
        exact .inl seen
    | some action =>
        rw [same] at seen
        exact .inr ⟨action, seen⟩

/-- No handler increments the counter while another has not read its number back. -/
def Apart (state : State) : Label → Prop
  | .increment _ => state.countAt .incremented = 0
  | .request _ _ _ => True
  | .read _ => True
  | .write _ => True
  | .create _ _ => True

instance (state : State) : ∀ label, Decidable (state.Apart label)
  | .increment _ => inferInstanceAs (Decidable (_ = _))
  | .request _ _ _ => isTrue trivial
  | .read _ => isTrue trivial
  | .write _ => isTrue trivial
  | .create _ _ => isTrue trivial

theorem orderly_iff_apart (reached : dataserver.Reachable state) {label : Label}
    (taken : state.next label = some after) :
    after.view.Orderly ↔ state.view.Orderly ∧ state.Apart label := by
  have sound := TicketCounter.Tickets.sound_of_reachable (refines_counter.reachable reached)
  have seen := view_step taken
  cases label with
  | increment thread => exact TicketCounter.Tickets.orderly_iff_apart sound seen
  | read thread => exact TicketCounter.Tickets.orderly_iff_apart sound seen
  | request thread text value =>
      rw [show after.view = state.view from seen, Apart, and_true]
  | write thread =>
      rw [show after.view = state.view from seen, Apart, and_true]
  | create thread started =>
      rw [show after.view = state.view from seen, Apart, and_true]

structure Recorded (state : State) : Prop where
  names : ∀ name, state.sent.count name + state.countAt (.named name) =
    (state.built.map channelName).count name
  channels : ∀ name, state.channels.count name + state.countAt (.wrote name) =
    (control :: state.sent).count name

theorem Recorded.step (recorded : state.Recorded) {label : Label}
    (taken : state.next label = some after) : after.Recorded := by
  obtain ⟨front, handler, back, whole, step⟩ := next_step taken
  have atNamed : ∀ name, after.countAt (.named name) +
      (if handler.pc = .named name then 1 else 0) = state.countAt (.named name) +
        (if state.target handler label = .named name then 1 else 0) :=
    fun name => countAt_step whole step rfl
  have atWrote : ∀ name, after.countAt (.wrote name) +
      (if handler.pc = .wrote name then 1 else 0) = state.countAt (.wrote name) +
        (if state.target handler label = .wrote name then 1 else 0) :=
    fun name => countAt_step whole step rfl
  cases step with
  | @request _ text value idle =>
      have elsewhere : ∀ pc, underWay pc = true → (handler.handle text value).pc ≠ pc := by
        intro pc busy same
        exact not_underWay_handle idle text value (by rw [same]; exact busy)
      constructor
      · intro name
        have counts := atNamed name
        simp only [target, idle, elsewhere (.named name) rfl, reduceCtorEq, if_false,
          Nat.add_zero] at counts
        rw [counts]
        exact recorded.names name
      · intro name
        have counts := atWrote name
        simp only [target, idle, elsewhere (.wrote name) rfl, reduceCtorEq, if_false,
          Nat.add_zero] at counts
        rw [counts]
        exact recorded.channels name
  | increment entering =>
      constructor
      · intro name
        have counts := atNamed name
        simp only [target, entering, reduceCtorEq, if_false, Nat.add_zero] at counts
        rw [counts]
        exact recorded.names name
      · intro name
        have counts := atWrote name
        simp only [target, entering, reduceCtorEq, if_false, Nat.add_zero] at counts
        rw [counts]
        exact recorded.channels name
  | read incremented =>
      constructor
      · intro name
        have counts := atNamed name
        have before := recorded.names name
        simp only [target, incremented, reduceCtorEq, if_false, Nat.add_zero,
          Pc.named.injEq] at counts
        simp only [List.map_append, List.map_singleton, List.count_append, List.count_singleton,
          beq_iff_eq]
        omega
      · intro name
        have counts := atWrote name
        simp only [target, incremented, reduceCtorEq, if_false, Nat.add_zero] at counts
        rw [counts]
        exact recorded.channels name
  | @write _ sentName named =>
      constructor
      · intro name
        have counts := atNamed name
        have before := recorded.names name
        simp only [target, named, reduceCtorEq, if_false, Nat.add_zero,
          Pc.named.injEq] at counts
        simp only [List.count_append, List.count_singleton, beq_iff_eq]
        omega
      · intro name
        have counts := atWrote name
        have before := recorded.channels name
        simp only [target, named, reduceCtorEq, if_false, Nat.add_zero,
          Pc.wrote.injEq] at counts
        rw [← List.cons_append, List.count_append, List.count_singleton]
        simp only [beq_iff_eq]
        omega
  | @create _ started sentName wrote =>
      constructor
      · intro name
        have counts := atNamed name
        simp only [target, wrote, reduceCtorEq, if_false, Nat.add_zero] at counts
        rw [counts]
        exact recorded.names name
      · intro name
        have counts := atWrote name
        have before := recorded.channels name
        simp only [target, wrote, reduceCtorEq, if_false, Nat.add_zero,
          Pc.wrote.injEq] at counts
        simp only [List.count_append, List.count_singleton, beq_iff_eq]
        omega

theorem recorded_of_reachable (reached : dataserver.Reachable state) : state.Recorded := by
  apply reached.invariant
  · intro begun started
    subst started
    exact ⟨fun _ => rfl, fun _ => rfl⟩
  · intro before label later _ recorded taken
    exact recorded.step taken

/-- What a client may rely on: no name is sent twice, the paths of two channels are
all different, and the ends of a channel meet. -/
structure Lawful (state : State) : Prop where
  names : state.sent.Nodup
  paths : state.channels.Pairwise fun name other => ∀ side mode otherSide otherMode,
    pipe_name name side mode ≠ pipe_name other otherSide otherMode
  ends : ∀ name ∈ state.channels,
    pipe_name name .client .read = pipe_name name .server .write ∧
      pipe_name name .client .write = pipe_name name .server .read ∧
      pipe_name name .server .read ≠ pipe_name name .server .write

def Settled (state : State) : Prop :=
  ∀ handler ∈ state.handlers, ¬ underWay handler.pc = true

instance (state : State) : Decidable state.Settled :=
  inferInstanceAs (Decidable (∀ handler ∈ state.handlers, ¬ underWay handler.pc = true))

theorem Settled.countAt (settled : state.Settled) {pc : Pc} (busy : underWay pc = true) :
    state.countAt pc = 0 := by
  apply List.countP_eq_zero.mpr
  intro handler member at_
  rw [← of_decide_eq_true at_] at busy
  exact settled handler member busy

theorem control_not_sent (recorded : state.Recorded) : control ∉ state.sent := by
  intro member
  have counted := recorded.names control
  have positive := List.count_pos_iff.mpr member
  have built : 0 < (state.built.map channelName).count control := by omega
  obtain ⟨number, _, same⟩ := List.mem_map.mp (List.count_pos_iff.mp built)
  have heads : some 'd' = some 'c' := by
    rw [← channelName_head number, same]
    rfl
  exact absurd heads (by decide)

theorem lawful_of_orderly (recorded : state.Recorded) (orderly : state.view.Orderly) :
    state.Lawful := by
  have built : (state.built.map channelName).Nodup := orderly.nodup.map channelName_injective
  have names : state.sent.Nodup := by
    apply List.nodup_iff_count_le_one.mpr
    intro name
    have once := List.nodup_iff_count_le_one.mp built name
    have counted := recorded.names name
    omega
  have all : (control :: state.sent).Nodup :=
    List.nodup_cons.mpr ⟨control_not_sent recorded, names⟩
  have channels : state.channels.Nodup := by
    apply List.nodup_iff_count_le_one.mpr
    intro name
    have once := List.nodup_iff_count_le_one.mp all name
    have counted := recorded.channels name
    omega
  refine ⟨names, ?_, fun name _ => pipe_name_sides name⟩
  apply channels.imp
  intro name other different side mode otherSide otherMode same
  exact different (name_of_pipe_name same)

theorem orderly_of_lawful (reached : dataserver.Reachable state) (settled : state.Settled)
    (lawful : state.Lawful) : state.view.Orderly := by
  have sound := TicketCounter.Tickets.sound_of_reachable (refines_counter.reachable reached)
  have recorded := recorded_of_reachable reached
  apply (TicketCounter.Tickets.nodup_iff_orderly sound (settled.countAt rfl)).mp
  have names : (state.built.map channelName).Nodup := by
    apply List.nodup_iff_count_le_one.mpr
    intro name
    have once := List.nodup_iff_count_le_one.mp lawful.names name
    have counted := recorded.names name
    have away : state.countAt (.named name) = 0 := settled.countAt rfl
    omega
  exact names.of_map channelName

/-- In a run without overlapping increments all names and paths are different in every
state reached, and once nothing is under way they are different in no other run. -/
theorem names_distinct_iff_apart {labels : List Label}
    (ran : dataserver.run begin labels = some after) :
    (dataserver.Along Apart begin labels → after.Lawful) ∧
      (after.Settled → after.Lawful → dataserver.Along Apart begin labels) := by
  have started : dataserver.Reachable begin := .begin rfl
  have reached := started.of_run ran
  have along := System.run_iff_along (fun state : State => state.view.Orderly)
    (fun state label later earlier taken => orderly_iff_apart earlier taken) started ran
  have initially : begin.view.Orderly := ⟨Nat.zero_le _, rfl⟩
  rw [and_iff_right initially] at along
  constructor
  · intro apart
    exact lawful_of_orderly (recorded_of_reachable reached) (along.mpr apart)
  · intro settled lawful
    exact along.mp (orderly_of_lawful reached settled lawful)

def opening (thread : Nat) : List Label :=
  [.request thread "newchannel".toList ⟨0, by decide⟩, .increment thread, .read thread,
    .write thread, .create thread true]

theorem names_distinct_iff_apart_inTurn :
    ∃ after, dataserver.run begin (opening 0 ++ opening 1) = some after ∧
      after.channels = [control, "data1_".toList, "data2_".toList] ∧ after.Lawful := by
  have ran : (dataserver.run begin (opening 0 ++ opening 1)).map State.channels =
      some [control, "data1_".toList, "data2_".toList] := by
    decide +kernel
  obtain ⟨after, run, channels⟩ := Option.map_eq_some_iff.mp ran
  have apart : dataserver.Along Apart begin (opening 0 ++ opening 1) := by
    decide +kernel
  exact ⟨after, run, channels, (names_distinct_iff_apart run).1 apart⟩

/-- Two requests at once, on the control channel and on the first data channel. -/
def overlapping : List Label :=
  opening 0 ++
    [.request 0 "newchannel".toList ⟨0, by decide⟩, .request 1 "newchannel".toList ⟨0, by decide⟩,
      .increment 0, .increment 1, .read 0, .read 1, .write 0, .write 1, .create 0 true,
      .create 1 true]

/-- Both clients are sent the same name. -/
theorem names_not_distinct :
    ∃ after, dataserver.run begin overlapping = some after ∧
      after.sent = ["data1_".toList, "data3_".toList, "data3_".toList] ∧ ¬ after.Lawful := by
  have ran : (dataserver.run begin overlapping).map State.sent =
      some ["data1_".toList, "data3_".toList, "data3_".toList] := by
    decide +kernel
  obtain ⟨after, run, sent⟩ := Option.map_eq_some_iff.mp ran
  refine ⟨after, run, sent, ?_⟩
  intro lawful
  have names := lawful.names
  rw [sent] at names
  revert names
  decide

end State

end Netwurk.DataServer
