/-
One connection over a byte stream. The stream keeps the bytes and their order
and nothing else: each `recv` returns any nonempty prefix, within the reader's
limit, of what has been sent and not received. The worker writes its requests
one at a time, reads once after each, and writes `!` at the end.
-/

import Netwurk.Foundation.Transition
import Netwurk.RequestChannel.ServerThread

namespace Netwurk.RequestChannel.ByteStream

open Transition CString

inductive Worker where
  | ready
  | reading
  | ended
  | lost
deriving DecidableEq

/-- `received`, `replies` and `returned` record the bytes the server was given,
the replies it sent and what each `cread` did. -/
structure State where
  requests : List (List Char)
  worker : Worker
  toServer : List Char
  toClient : List Char
  session : Session
  received : List Char
  replies : List (List Char)
  returned : List Cread
deriving DecidableEq

/-- `buf` is what the stack held where the function's buffer lies. -/
inductive Label where
  | cwrite (buf : List Char)
  | recv (count : Nat)
  | act (value : Nat)
  | cread (count : Nat) (buf : List Char)

def initial (requests : List (List Char)) (buf : List Char) : State :=
  { requests := requests
    worker := .ready
    toServer := []
    toClient := []
    session := { buf := buf, status := .receiving }
    received := []
    replies := []
    returned := [] }

def Receivable (available : List Char) (count : Nat) : Prop :=
  1 ≤ count ∧ count ≤ MAX_MESSAGE ∧ count ≤ available.length

instance (available : List Char) (count : Nat) : Decidable (Receivable available count) :=
  inferInstanceAs (Decidable (_ ∧ _ ∧ _))

def State.send (state : State) (buf msg : List Char) (later : Worker)
    (rest : List (List Char)) : Option State :=
  match NetworkRequestChannel.cwrite true buf msg with
  | none => none
  | some written => some
      { state with
        requests := rest
        worker := later
        toServer := state.toServer ++ written.handed }

/-- After an undefined read the worker's behaviour is undefined. -/
def afterRead : Cread → Worker
  | .returns _ _ => .ready
  | .exits => .ended
  | .undefined => .lost

def next (state : State) : Label → Option State
  | .cwrite buf =>
      if state.worker = .ready ∧ buf.length = MAX_MESSAGE then
        match state.requests with
        | [] => state.send buf ['!'] .ended []
        | request :: rest => state.send buf request .reading rest
      else none
  | .recv count =>
      if state.session.status = .receiving ∧ Receivable state.toServer count then some
        { state with
          toServer := state.toServer.drop count
          session := state.session.recv (state.toServer.take count)
          received := state.received ++ state.toServer.take count }
      else none
  | .act value =>
      if state.session.status = .dispatching ∧ value < 100 then
        match (state.session.act value).2 with
        | none => some { state with session := (state.session.act value).1 }
        | some reply => some
            { state with
              session := (state.session.act value).1
              toClient := state.toClient ++ terminated reply
              replies := state.replies ++ [reply] }
      else none
  | .cread count buf =>
      if state.worker = .reading ∧ buf.length = MAX_MESSAGE ∧ Receivable state.toClient count then
        some
          { state with
            worker := afterRead (NetworkRequestChannel.cread buf (state.toClient.take count))
            toClient := state.toClient.drop count
            returned := state.returned ++
              [NetworkRequestChannel.cread buf (state.toClient.take count)] }
      else none

def connection (requests : List (List Char)) : System State Label :=
  { start := fun state => ∃ buf, buf.length = MAX_MESSAGE ∧ state = initial requests buf
    next := next }

def wholeMessages (bytes : List Char) : Nat := bytes.count '\x00'

structure WellFormed (request : List Char) : Prop where
  free : NulFree request
  plain : '%' ∉ request
  short : request.length < MAX_MESSAGE
  data : messageKind request = .data

/-- One numeric reply for each request that has arrived whole, none for
anything else, the close exactly at the whole `!`, and each `cread` returns the
reply of the same number. -/
structure Framed (requests : List (List Char)) (state : State) : Prop where
  numeric : ∀ reply ∈ state.replies, ∃ value, value < 100 ∧ reply = to_string value
  answered : state.session.status ≠ .dispatching →
    state.replies.length = min (wholeMessages state.received) requests.length
  closes : state.session.status = .closed ↔
    state.session.status ≠ .dispatching ∧
      wholeMessages state.received = requests.length + 1
  never_exits : state.session.status ≠ .exited
  returns : ∀ (k : Nat) (result : Cread), state.returned[k]? = some result →
    ∃ reply looked, state.replies[k]? = some reply ∧ result = Cread.returns reply looked

/-- The `recv` takes the next message with its terminator and nothing else. -/
def WholeMessage (available : List Char) (count : Nat) : Prop :=
  ∃ text, read available = some text ∧ count = text.length + 1

def Whole (state : State) : Label → Prop
  | .recv count => WholeMessage state.toServer count
  | .cread count _ => WholeMessage state.toClient count
  | _ => True

/-! ### The positions of a synchronised session -/

def wire (messages : List (List Char)) : List Char := (messages.map terminated).flatten

def delivered (reply : List Char) : Cread := .returns reply (reply.length + 1)

def Numeric (reply : List Char) : Prop := ∃ value, value < 100 ∧ reply = to_string value

/-- Worker and server alternate: at most one message is on the connection, and
the number of answers says which. -/
inductive Synchronised (all : List (List Char)) : State → Prop
  | ready {done rest replies : List (List Char)} {buf : List Char}
      (split : all = done ++ rest) (count : replies.length = done.length)
      (numeric : ∀ reply ∈ replies, Numeric reply) :
      Synchronised all
        { requests := rest, worker := .ready, toServer := [], toClient := []
          session := ⟨buf, .receiving⟩, received := wire done
          replies := replies, returned := replies.map delivered }
  | requested {done rest replies : List (List Char)} {request buf : List Char}
      (split : all = done ++ request :: rest) (count : replies.length = done.length)
      (numeric : ∀ reply ∈ replies, Numeric reply) :
      Synchronised all
        { requests := rest, worker := .reading, toServer := terminated request, toClient := []
          session := ⟨buf, .receiving⟩, received := wire done
          replies := replies, returned := replies.map delivered }
  | handling {done rest replies : List (List Char)} {request buf : List Char}
      (split : all = done ++ request :: rest) (count : replies.length = done.length)
      (numeric : ∀ reply ∈ replies, Numeric reply) :
      Synchronised all
        { requests := rest, worker := .reading, toServer := [], toClient := []
          session := ⟨overlay (terminated request) buf, .dispatching⟩
          received := wire (done ++ [request])
          replies := replies, returned := replies.map delivered }
  | replied {done rest replies : List (List Char)} {request reply buf : List Char}
      (split : all = done ++ request :: rest) (count : replies.length = done.length)
      (numeric : ∀ other ∈ replies ++ [reply], Numeric other) :
      Synchronised all
        { requests := rest, worker := .reading, toServer := [], toClient := terminated reply
          session := ⟨buf, .receiving⟩, received := wire (done ++ [request])
          replies := replies ++ [reply], returned := replies.map delivered }
  | quitting {replies : List (List Char)} {buf : List Char}
      (count : replies.length = all.length) (numeric : ∀ reply ∈ replies, Numeric reply) :
      Synchronised all
        { requests := [], worker := .ended, toServer := terminated ['!'], toClient := []
          session := ⟨buf, .receiving⟩, received := wire all
          replies := replies, returned := replies.map delivered }
  | closing {replies : List (List Char)} {buf : List Char}
      (count : replies.length = all.length) (numeric : ∀ reply ∈ replies, Numeric reply) :
      Synchronised all
        { requests := [], worker := .ended, toServer := [], toClient := []
          session := ⟨overlay (terminated ['!']) buf, .dispatching⟩
          received := wire all ++ terminated ['!']
          replies := replies, returned := replies.map delivered }
  | closed {replies : List (List Char)} {buf : List Char}
      (count : replies.length = all.length) (numeric : ∀ reply ∈ replies, Numeric reply) :
      Synchronised all
        { requests := [], worker := .ended, toServer := [], toClient := []
          session := ⟨buf, .closed⟩, received := wire all ++ terminated ['!']
          replies := replies, returned := replies.map delivered }

theorem Numeric.nulFree {reply : List Char} (numeric : Numeric reply) : NulFree reply := by
  obtain ⟨value, _, rfl⟩ := numeric
  exact to_string_nulFree value

theorem Numeric.length {reply : List Char} (numeric : Numeric reply) : reply.length ≤ 2 := by
  obtain ⟨value, small, rfl⟩ := numeric
  exact to_string_length small

theorem wire_append (front back : List (List Char)) :
    wire (front ++ back) = wire front ++ wire back := by
  simp [wire]

theorem wire_singleton (message : List Char) : wire [message] = terminated message := by
  simp [wire]

theorem take_terminated (text : List Char) :
    (terminated text).take (text.length + 1) = terminated text := by
  rw [← terminated_length, List.take_length]

theorem drop_terminated (text : List Char) :
    (terminated text).drop (text.length + 1) = [] := by
  rw [← terminated_length, List.drop_length]

private theorem send_of_wellFormed {state : State} {buf msg : List Char} (free : NulFree msg)
    (short : msg.length < MAX_MESSAGE) (plain : '%' ∉ msg) (later : Worker)
    (rest : List (List Char)) :
    state.send buf msg later rest = some
      { state with
        requests := rest
        worker := later
        toServer := state.toServer ++ terminated msg } := by
  obtain ⟨written, _, write, _, handed, _⟩ := network_delivered free short plain true buf buf
  unfold State.send
  rw [write]
  simp only [handed]

private theorem whole_terminated {text : List Char} (free : NulFree text) {count : Nat}
    (whole : WholeMessage (terminated text) count) : count = text.length + 1 := by
  obtain ⟨found, same, size⟩ := whole
  rw [read_terminated free] at same
  cases same
  exact size

private theorem not_receivable_nil (count : Nat) : ¬ Receivable [] count := by
  intro both
  obtain ⟨positive, _, available⟩ := both
  rw [List.length_nil] at available
  omega

private theorem recv_whole {state after : State} {message : List Char} {count : Nat}
    (free : NulFree message) (only : state.toServer = terminated message)
    (whole : WholeMessage state.toServer count)
    (taken : next state (.recv count) = some after) :
    state.session.status = .receiving ∧ after =
      { state with
        toServer := []
        session := ⟨overlay (terminated message) state.session.buf, .dispatching⟩
        received := state.received ++ terminated message } := by
  rw [only] at whole
  have size := whole_terminated free whole
  subst size
  simp only [next] at taken
  split at taken
  · rename_i ready
    cases taken
    refine ⟨ready.1, ?_⟩
    rw [only, take_terminated, drop_terminated]
    rfl
  · cases taken

private theorem cread_whole {state after : State} {reply : List Char} {count : Nat}
    {buf : List Char} (free : NulFree reply) (only : state.toClient = terminated reply)
    (whole : WholeMessage state.toClient count)
    (taken : next state (.cread count buf) = some after) :
    after =
      { state with
        worker := .ready
        toClient := []
        returned := state.returned ++ [delivered reply] } := by
  rw [only] at whole
  have size := whole_terminated free whole
  subst size
  simp only [next] at taken
  split at taken
  · cases taken
    have nonempty : ¬ (terminated reply).length ≤ 0 := by
      rw [terminated_length]
      omega
    have returned : NetworkRequestChannel.cread buf (terminated reply) = delivered reply := by
      simp only [NetworkRequestChannel.cread, readMessage, if_neg nonempty,
        read_overlay_terminated free, delivered]
    rw [only, take_terminated, drop_terminated, returned]
    rfl
  · cases taken

theorem synchronised_step {all : List (List Char)}
    (wellFormed : ∀ request ∈ all, WellFormed request) {state after : State} {label : Label}
    (before : Synchronised all state) (whole : Whole state label)
    (taken : next state label = some after) : Synchronised all after := by
  cases before with
  | @ready done rest replies buf split count numeric =>
      cases label with
      | cwrite stack =>
          simp only [next] at taken
          split at taken
          · cases rest with
            | nil =>
                rw [send_of_wellFormed (by decide) (by decide) (by decide)] at taken
                cases taken
                rw [List.append_nil] at split
                subst split
                exact .quitting count numeric
            | cons request rest =>
                have fit := wellFormed request (by rw [split]; simp)
                dsimp only at taken
                rw [send_of_wellFormed fit.free fit.short fit.plain] at taken
                cases taken
                exact .requested split count numeric
          · cases taken
      | recv size => simp [next, not_receivable_nil] at taken
      | act value => simp [next] at taken
      | cread size stack => simp [next] at taken
  | @requested done rest replies request buf split count numeric =>
      have fit := wellFormed request (by rw [split]; simp)
      cases label with
      | cwrite stack => simp [next] at taken
      | recv size =>
          obtain ⟨_, rfl⟩ := recv_whole fit.free rfl whole taken
          rw [← wire_singleton, ← wire_append, wire_singleton]
          exact .handling split count numeric
      | act value => simp [next] at taken
      | cread size stack => simp [next, not_receivable_nil] at taken
  | @handling done rest replies request buf split count numeric =>
      have fit := wellFormed request (by rw [split]; simp)
      cases label with
      | cwrite stack => simp [next] at taken
      | recv size => simp [next] at taken
      | act value =>
          simp only [next, Session.act, Session.answer, dispatch_message, fit.data] at taken
          split at taken
          · rename_i ready
            cases taken
            refine .replied split count ?_
            intro other member
            rcases List.mem_append.mp member with earlier | last
            · exact numeric other earlier
            · exact ⟨value, ready.2, List.mem_singleton.mp last⟩
          · cases taken
      | cread size stack => simp [next, not_receivable_nil] at taken
  | @replied done rest replies request reply buf split count numeric =>
      cases label with
      | cwrite stack => simp [next] at taken
      | recv size => simp [next, not_receivable_nil] at taken
      | act value => simp [next] at taken
      | cread size stack =>
          have free := (numeric reply (by simp)).nulFree
          rw [cread_whole free rfl whole taken]
          have returned : replies.map delivered ++ [delivered reply] =
              (replies ++ [reply]).map delivered := by simp
          rw [returned]
          refine .ready ?_ ?_ numeric
          · rw [split, List.append_assoc]
            rfl
          · simp only [List.length_append, count, List.length_singleton]
  | @quitting replies buf count numeric =>
      cases label with
      | cwrite stack => simp [next] at taken
      | recv size =>
          obtain ⟨_, rfl⟩ := recv_whole (by decide) rfl whole taken
          exact .closing count numeric
      | act value => simp [next] at taken
      | cread size stack => simp [next] at taken
  | @closing replies buf count numeric =>
      cases label with
      | cwrite stack => simp [next] at taken
      | recv size => simp [next] at taken
      | act value =>
          have quits : messageKind ['!'] = .close := by decide
          simp only [next, Session.act, Session.answer, dispatch_message, quits] at taken
          split at taken
          · cases taken
            exact .closed count numeric
          · cases taken
      | cread size stack => simp [next] at taken
  | @closed replies buf count numeric =>
      cases label with
      | cwrite stack => simp [next] at taken
      | recv size => simp [next] at taken
      | act value => simp [next] at taken
      | cread size stack => simp [next] at taken

private theorem wholeMessages_terminated {text : List Char} (free : NulFree text) :
    wholeMessages (terminated text) = 1 := by
  unfold wholeMessages terminated
  rw [List.count_append, List.count_eq_zero.mpr free]
  rfl

private theorem wholeMessages_append (front back : List Char) :
    wholeMessages (front ++ back) = wholeMessages front + wholeMessages back :=
  List.count_append

private theorem wholeMessages_wire {messages : List (List Char)}
    (free : ∀ message ∈ messages, NulFree message) :
    wholeMessages (wire messages) = messages.length := by
  induction messages with
  | nil => rfl
  | cons message rest ih =>
      have split : wire (message :: rest) = terminated message ++ wire rest := by simp [wire]
      rw [split, wholeMessages_append, wholeMessages_terminated (free message List.mem_cons_self),
        ih (fun other member => free other (List.mem_cons_of_mem message member)),
        List.length_cons]
      omega

private theorem returns_of_prefix {state : State} (replies later : List (List Char))
    (returned : state.returned = replies.map delivered) (sent : state.replies = replies ++ later)
    (k : Nat) (result : Cread) (found : state.returned[k]? = some result) :
    ∃ reply looked, state.replies[k]? = some reply ∧ result = Cread.returns reply looked := by
  rw [returned, List.getElem?_map] at found
  obtain ⟨reply, present, same⟩ := Option.map_eq_some_iff.mp found
  refine ⟨reply, reply.length + 1, ?_, same.symm⟩
  have within : k < replies.length := (List.getElem?_eq_some_iff.mp present).1
  rw [sent, List.getElem?_append_left within]
  exact present

private theorem framed_receiving {all : List (List Char)} {state : State}
    (replies later : List (List Char)) (returned : state.returned = replies.map delivered)
    (sent : state.replies = replies ++ later) (numeric : ∀ reply ∈ state.replies, Numeric reply)
    (status : state.session.status = .receiving)
    (answered : wholeMessages state.received = state.replies.length)
    (within : state.replies.length ≤ all.length) : Framed all state where
  numeric := numeric
  answered := by
    intro _
    omega
  closes := by
    rw [status, answered]
    simp only [reduceCtorEq, ne_eq, not_false_eq_true, true_and, false_iff]
    omega
  never_exits := by
    rw [status]
    exact fun impossible => by cases impossible
  returns := returns_of_prefix replies later returned sent

private theorem framed_dispatching {all : List (List Char)} {state : State}
    (returned : state.returned = state.replies.map delivered)
    (numeric : ∀ reply ∈ state.replies, Numeric reply)
    (status : state.session.status = .dispatching) : Framed all state where
  numeric := numeric
  answered := fun elsewhere => absurd status elsewhere
  closes := by
    rw [status]
    simp
  never_exits := by
    rw [status]
    exact fun impossible => by cases impossible
  returns := returns_of_prefix state.replies [] returned (List.append_nil _).symm

theorem Synchronised.framed {all : List (List Char)} {state : State}
    (wellFormed : ∀ request ∈ all, WellFormed request)
    (synchronised : Synchronised all state) : Framed all state := by
  have arrived {front back : List (List Char)} (split : all = front ++ back) :
      wholeMessages (wire front) = front.length :=
    wholeMessages_wire fun message member =>
      (wellFormed message (by rw [split]; exact List.mem_append_left back member)).free
  have arrivedAll := arrived (List.append_nil all).symm
  cases synchronised with
  | @ready done rest replies buf split count numeric =>
      have length := congrArg List.length split
      rw [List.length_append] at length
      refine framed_receiving replies [] rfl (List.append_nil _).symm numeric rfl ?_ ?_
      · exact (arrived split).trans count.symm
      · change replies.length ≤ all.length
        omega
  | @requested done rest replies request buf split count numeric =>
      have length := congrArg List.length split
      rw [List.length_append] at length
      refine framed_receiving replies [] rfl (List.append_nil _).symm numeric rfl ?_ ?_
      · exact (arrived split).trans count.symm
      · change replies.length ≤ all.length
        omega
  | @handling done rest replies request buf split count numeric =>
      exact framed_dispatching rfl numeric rfl
  | @replied done rest replies request reply buf split count numeric =>
      have length := congrArg List.length split
      rw [List.length_append, List.length_cons] at length
      have front : all = (done ++ [request]) ++ rest := by
        rw [split, List.append_assoc]
        rfl
      refine framed_receiving replies [reply] rfl rfl numeric rfl ?_ ?_
      · refine (arrived front).trans ?_
        simp only [List.length_append, count, List.length_singleton]
      · change (replies ++ [reply]).length ≤ all.length
        simp only [List.length_append, List.length_singleton]
        omega
  | @quitting replies buf count numeric =>
      refine framed_receiving replies [] rfl (List.append_nil _).symm numeric rfl ?_ ?_
      · exact arrivedAll.trans count.symm
      · exact Nat.le_of_eq count
  | @closing replies buf count numeric => exact framed_dispatching rfl numeric rfl
  | @closed replies buf count numeric =>
      have whole : wholeMessages (wire all ++ terminated ['!']) = all.length + 1 := by
        rw [wholeMessages_append, arrivedAll, wholeMessages_terminated (by decide)]
      refine
        { numeric := numeric
          answered := fun _ => ?_
          closes := ?_
          never_exits := fun impossible => by cases impossible
          returns := returns_of_prefix replies [] rfl (List.append_nil _).symm }
      · change replies.length = min (wholeMessages _) _
        rw [whole]
        omega
      · simp [whole]

/-! ### A split message breaks the session -/

/-- A pass of the loop body that no whole message has caused is not framed,
whatever the branch. -/
private theorem act_not_framed {all : List (List Char)} {state after : State} {value : Nat}
    (few : wholeMessages state.received = state.replies.length)
    (within : state.replies.length ≤ all.length)
    (taken : next state (.act value) = some after) : ¬ Framed all after := by
  intro framed
  simp only [next] at taken
  split at taken
  · have closes := framed.closes
    have answered := framed.answered
    have never := framed.never_exits
    cases kind : dispatch state.session.buf with
    | exit =>
        simp only [Session.act, Session.answer, kind] at taken
        cases taken
        exact never rfl
    | close =>
        simp only [Session.act, Session.answer, kind] at taken
        cases taken
        have early : wholeMessages state.received = all.length + 1 := (closes.mp rfl).2
        omega
    | data | unknown =>
        simp only [Session.act, Session.answer, kind] at taken
        cases taken
        have counted := answered (fun impossible => by cases impossible)
        simp only [List.length_append, List.length_singleton, few] at counted
        omega
  · cases taken

private theorem exists_act (state : State) (status : state.session.status = .dispatching) :
    ∃ after, next state (.act 0) = some after := by
  simp only [next, status, true_and, if_pos (show 0 < 100 by decide)]
  cases (state.session.act 0).2 with
  | none => exact ⟨_, rfl⟩
  | some reply => exact ⟨_, rfl⟩

private theorem part_nulFree {text : List Char} (free : NulFree text) {count : Nat}
    (within : count ≤ (terminated text).length)
    (short : ¬ WholeMessage (terminated text) count) :
    NulFree ((terminated text).take count) := by
  have different : count ≠ text.length + 1 := fun same => short ⟨text, read_terminated free, same⟩
  rw [terminated_length] at within
  unfold terminated
  rw [List.take_append_of_le_length (by omega)]
  exact fun member => free (List.mem_of_mem_take member)

private theorem wholeMessages_nulFree {bytes : List Char} (free : NulFree bytes) :
    wholeMessages bytes = 0 :=
  List.count_eq_zero.mpr free

/-- The server answers a part of a message at once. -/
private theorem recv_part_not_framed {all : List (List Char)} {state middle : State}
    {message : List Char} {count : Nat} (free : NulFree message)
    (only : state.toServer = terminated message)
    (answered : wholeMessages state.received = state.replies.length)
    (within : state.replies.length ≤ all.length)
    (part : ¬ WholeMessage state.toServer count)
    (taken : next state (.recv count) = some middle) :
    ∃ after, next middle (.act 0) = some after ∧ ¬ Framed all after := by
  simp only [next] at taken
  split at taken
  · rename_i ready
    cases taken
    obtain ⟨after, acted⟩ := exists_act
      { state with
        toServer := state.toServer.drop count
        session := state.session.recv (state.toServer.take count)
        received := state.received ++ state.toServer.take count } rfl
    refine ⟨after, acted, act_not_framed ?_ ?_ acted⟩
    swap
    · exact within
    rw [only] at part
    have available := ready.2.2.2
    rw [only] at available
    have partFree := part_nulFree free available part
    rw [← only] at partFree
    rw [wholeMessages_append, wholeMessages_nulFree partFree, answered, Nat.add_zero]
  · cases taken

private theorem cread_part_undefined {reply : List Char} (free : NulFree reply) {count : Nat}
    (available : Receivable (terminated reply) count)
    (part : ¬ WholeMessage (terminated reply) count) :
    NetworkRequestChannel.cread (List.replicate MAX_MESSAGE 'x')
      ((terminated reply).take count) = .undefined := by
  have partFree := part_nulFree free available.2.2 part
  have nonempty : ¬ ((terminated reply).take count).length ≤ 0 := by
    rw [List.length_take]
    have positive := available.1
    have within := available.2.2
    omega
  have nothing : read (overlay ((terminated reply).take count)
      (List.replicate MAX_MESSAGE 'x')) = none := by
    cases found : read (overlay ((terminated reply).take count)
        (List.replicate MAX_MESSAGE 'x')) with
    | none => rfl
    | some text =>
        obtain ⟨_, rest, split⟩ := read_eq_some.mp found
        have member : '\x00' ∈ overlay ((terminated reply).take count)
            (List.replicate MAX_MESSAGE 'x') := by
          rw [split]
          simp
        rcases List.mem_append.mp member with received | stale
        · exact absurd received partFree
        · have stack := List.eq_of_mem_replicate (List.mem_of_mem_drop stale)
          cases stack
  simp only [NetworkRequestChannel.cread, readMessage, if_neg nonempty, nothing]

private theorem synchronised_recv_part {all : List (List Char)} {state middle : State}
    (wellFormed : ∀ request ∈ all, WellFormed request) (synchronised : Synchronised all state)
    {count : Nat} (part : ¬ WholeMessage state.toServer count)
    (taken : next state (.recv count) = some middle) :
    ∃ after, next middle (.act 0) = some after ∧ ¬ Framed all after := by
  have arrived {front back : List (List Char)} (split : all = front ++ back) :
      wholeMessages (wire front) = front.length :=
    wholeMessages_wire fun message member =>
      (wellFormed message (by rw [split]; exact List.mem_append_left back member)).free
  cases synchronised with
  | @requested done rest replies request buf split count numeric =>
      have length := congrArg List.length split
      rw [List.length_append] at length
      have free := (wellFormed request (by rw [split]; simp)).free
      refine recv_part_not_framed free rfl ((arrived split).trans count.symm) ?_ part taken
      change replies.length ≤ all.length
      omega
  | @quitting replies buf count numeric =>
      exact recv_part_not_framed (by decide) rfl
        ((arrived (List.append_nil all).symm).trans count.symm) (Nat.le_of_eq count) part taken
  | ready | replied => simp [next, not_receivable_nil] at taken
  | handling | closing | closed => simp [next] at taken

private theorem synchronised_cread_part {all : List (List Char)} {state middle : State}
    (synchronised : Synchronised all state) {count : Nat} {buf : List Char}
    (part : ¬ WholeMessage state.toClient count)
    (taken : next state (.cread count buf) = some middle) :
    ∃ after, next state (.cread count (List.replicate MAX_MESSAGE 'x')) = some after ∧
      ¬ Framed all after := by
  cases synchronised with
  | @replied done rest replies request reply stale split size numeric =>
      have free := (numeric reply (by simp)).nulFree
      simp only [next] at taken
      split at taken
      · rename_i ready
        have undefinedRead := cread_part_undefined free ready.2.2 part
        refine ⟨_, by
          simp only [next]
          rw [if_pos ⟨trivial, List.length_replicate, ready.2.2⟩], ?_⟩
        intro framed
        have last := framed.returns replies.length .undefined (by simp [undefinedRead])
        obtain ⟨_, _, _, impossible⟩ := last
        cases impossible
      · cases taken
  | requested | handling => simp [next, not_receivable_nil] at taken
  | ready | quitting | closing | closed => simp [next] at taken

theorem synchronised_of_within {requests : List (List Char)}
    (wellFormed : ∀ request ∈ requests, WellFormed request) {state : State}
    (reached : (connection requests).ReachableWithin Whole state) :
    Synchronised requests state := by
  apply reached.invariant
  · intro begun initial
    obtain ⟨buf, _, rfl⟩ := initial
    exact @Synchronised.ready _ [] requests [] buf rfl rfl (fun _ member => by cases member)
  · intro before label after _ synchronised whole taken
    exact synchronised_step wellFormed synchronised whole taken

/-- In every run in which each `recv` of either side takes exactly one whole
message the session is framed. The first `recv` that does not ends this: a part
of a message is acted upon at once by the server, and is read past the buffer by
`cread` on a stack that holds no NUL. -/
theorem framed_while_whole (requests : List (List Char))
    (wellFormed : ∀ request ∈ requests, WellFormed request) (state : State)
    (reached : (connection requests).ReachableWithin Whole state) :
    Framed requests state ∧
    (∀ count middle, ¬ WholeMessage state.toServer count →
      next state (.recv count) = some middle →
      ∃ after, next middle (.act 0) = some after ∧ ¬ Framed requests after) ∧
    (∀ count buf middle, ¬ WholeMessage state.toClient count →
      next state (.cread count buf) = some middle →
      ∃ after, next state (.cread count (List.replicate MAX_MESSAGE 'x')) = some after ∧
        ¬ Framed requests after) := by
  have synchronised := synchronised_of_within wellFormed reached
  refine ⟨synchronised.framed wellFormed, ?_, ?_⟩
  · intro count middle part taken
    exact synchronised_recv_part wellFormed synchronised part taken
  · intro count buf middle part taken
    exact synchronised_cread_part synchronised part taken

def joeSmith : List Char :=
  ['d', 'a', 't', 'a', ' ', 'J', 'o', 'e', ' ', 'S', 'm', 'i', 't', 'h']

def stack : List Char := List.replicate MAX_MESSAGE 'x'

theorem wellFormed_joeSmith : WellFormed joeSmith where
  free := by decide
  plain := by decide
  short := by decide
  data := by decide

set_option maxRecDepth 4000 in
theorem framed_while_whole_answered :
    ∃ state, (connection [joeSmith]).ReachableWithin Whole state ∧
      state.session.status = .closed ∧ state.returned = [.returns ['5', '7'] 3] ∧
      Framed [joeSmith] state := by
  have start : (connection [joeSmith]).ReachableWithin Whole (initial [joeSmith] stack) :=
    .start ⟨stack, List.length_replicate, rfl⟩
  have requested := start.take (.cwrite stack) trivial rfl
  have handling := requested.take (.recv 15) ⟨joeSmith, rfl, rfl⟩ rfl
  have replied := handling.take (.act 57) trivial rfl
  have ready := replied.take (.cread 3 stack) ⟨['5', '7'], rfl, rfl⟩ rfl
  have quitting := ready.take (.cwrite stack) trivial rfl
  have closing := quitting.take (.recv 2) ⟨['!'], rfl, rfl⟩ rfl
  have whole := closing.take (.act 0) trivial rfl
  exact ⟨_, whole, rfl, rfl, (framed_while_whole _ (by simp [wellFormed_joeSmith]) _ whole).1⟩

set_option maxRecDepth 4000 in
/-- The request arrives in two parts: it gets a numeric reply at once and then
another one, which is no number. -/
theorem split_request_not_framed :
    WellFormed joeSmith ∧
    ∃ state, (connection [joeSmith]).Reachable state ∧
      state.replies = [['7'], unknownStuff] ∧ ¬ Framed [joeSmith] state := by
  have ran : ∃ state, (connection [joeSmith]).run (initial [joeSmith] stack)
      [.cwrite stack, .recv 4, .act 7, .recv 11, .act 0] = some state ∧
      state.replies = [['7'], unknownStuff] := ⟨_, rfl, rfl⟩
  obtain ⟨state, ran, replies⟩ := ran
  have start : (connection [joeSmith]).start (initial [joeSmith] stack) :=
    ⟨stack, List.length_replicate, rfl⟩
  have reached : (connection [joeSmith]).Reachable state :=
    (System.Reachable.begin start).of_run ran
  refine ⟨wellFormed_joeSmith, state, reached, replies, fun framed => ?_⟩
  have numeric : Numeric unknownStuff := framed.numeric unknownStuff (by rw [replies]; simp)
  have short := numeric.length
  exact absurd short (by decide)

end Netwurk.RequestChannel.ByteStream
