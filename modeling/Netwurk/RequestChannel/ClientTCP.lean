/-
A session of the stand-alone client with the stand-alone server. The client writes one
message for each word it is given and reads one reply; it stops when its buffer starts
with `!`, which no reply does: what it finds there at the end is its own last message.
-/

import Netwurk.RequestChannel.SessionLoop
import Netwurk.RequestChannel.Wire

namespace Netwurk.RequestChannel.ClientTCP

open Transition CString

inductive ClientPc where
  | prompting
  | awaiting
  | returned
deriving DecidableEq

/-- `input` are the words that `cin` still has, `shown` what the client has printed
as received. -/
structure State where
  input : List String
  temp : String
  buf : List Char
  pc : ClientPc
  toServer : List Char
  toClient : List Char
  session : Session
  shown : List String
deriving DecidableEq

/-- Both buffers have 1024 bytes. -/
def Receivable (available : List Char) (count : Nat) : Prop :=
  1 ≤ count ∧ count ≤ 1024 ∧ count ≤ available.length

instance (available : List Char) (count : Nat) : Decidable (Receivable available count) :=
  inferInstanceAs (Decidable (_ ∧ _ ∧ _))

/-- `cin >> temp`, which leaves `temp` as it is when there are no more words. -/
def extract (input : List String) (temp : String) : String × List String :=
  match input with
  | [] => (temp, [])
  | word :: rest => (word, rest)

def stuff (temp : String) : String :=
  if temp = "!!" ∨ temp = "!" then temp else "test data from john here"

def Ended (status : Status) : Prop := status = .closed ∨ status = .exited

instance (status : Status) : Decidable (Ended status) := inferInstanceAs (Decidable (_ ∨ _))

namespace State

def print (state : State) (buf toClient : List Char) : Option State :=
  match CString.read buf with
  | none => none
  | some received => some
      { state with
        buf := buf
        toClient := toClient
        shown := state.shown ++ [String.ofList received]
        pc := if buf[0]? = some '!' then .returned else .prompting }

/-- The client, whose `recv` returns `count` bytes; it returns 0 and stores nothing when
the server has closed the connection. -/
def clientNext (state : State) (count : Nat) : Option State :=
  match state.pc with
  | .prompting =>
      let (temp, input) := extract state.input state.temp
      match sprintf (stuff temp).toList with
      | none => none
      | some out => some
          { state with
            input := input
            temp := temp
            buf := overlay (terminated out) state.buf
            toServer := state.toServer ++ terminated out
            pc := .awaiting }
  | .awaiting =>
      if Receivable state.toClient count then
        state.print (overlay (state.toClient.take count) state.buf) (state.toClient.drop count)
      else if state.toClient = [] ∧ Ended state.session.status ∧ count = 0 then
        state.print state.buf []
      else none
  | .returned => none

def recv (state : State) (count : Nat) : Option State :=
  if state.session.status = .receiving ∧ Receivable state.toServer count then some
    { state with
      toServer := state.toServer.drop count
      session := state.session.recv (state.toServer.take count) }
  else none

def act (state : State) : Option State :=
  if state.session.status = .dispatching then
    match Version.serverTCP.act state.session 0 with
    | (session, none) => some { state with session := session }
    | (session, some reply) => some
        { state with
          session := session
          toClient := state.toClient ++ terminated reply }
  else none

end State

inductive Label where
  | client (count : Nat)
  | recv (count : Nat)
  | act
deriving DecidableEq

def next (state : State) : Label → Option State
  | .client count => state.clientNext count
  | .recv count => state.recv count
  | .act => state.act

def AllWhole (state : State) : Label → Prop
  | .client count => state.pc = .awaiting → state.toClient ≠ [] → Whole state.toClient count
  | .recv count => Whole state.toServer count
  | .act => True

instance (state : State) (label : Label) : Decidable (AllWhole state label) :=
  match label with
  | .client _ => inferInstanceAs (Decidable (_ → _ → Whole _ _))
  | .recv _ => inferInstanceAs (Decidable (Whole _ _))
  | .act => .isTrue trivial

def begin (input : List String) (buf memory : List Char) : State :=
  { input := input
    temp := ""
    buf := buf
    pc := .prompting
    toServer := []
    toClient := []
    session := .begin memory
    shown := [] }

def session (input : List String) : System State Label :=
  { start := fun state => ∃ buf memory, state = begin input buf memory
    next := next }

def testData : String := "test data from john here"

def hello : String := "Hello to you"

def Ordinary (words : List String) : Prop :=
  ∀ word ∈ words, ∀ farewell : Farewell, word ≠ farewell.text

/-- The first word that ends the session is the one with number `k`. -/
structure FirstFarewell (input : List String) (k : Nat) (farewell : Farewell) : Prop where
  at_ : input[k]? = some farewell.text
  before : Ordinary (input.take k)

theorem stuff_farewell (farewell : Farewell) : stuff farewell.text = farewell.text := by
  cases farewell <;> decide

theorem stuff_ordinary {word : String} (ordinary : ∀ farewell : Farewell, word ≠ farewell.text) :
    stuff word = testData :=
  if_neg fun either => either.elim (ordinary .exit) (ordinary .close)

theorem Ordinary.le {input : List String} {k other : Nat} {farewell : Farewell}
    (before : Ordinary (input.take k)) (at_ : input[other]? = some farewell.text) : k ≤ other := by
  apply Nat.le_of_not_lt
  intro earlier
  have member : farewell.text ∈ input.take k := by
    apply List.mem_of_getElem?
    rw [List.getElem?_take_of_lt earlier]
    exact at_
  exact before _ member farewell rfl

/-! ### Where the session is -/

/-- The session after a number of steps, four for each word. At `asked` to `replied` an
ordinary word is dealt with, at `leaving` to `returned` the one that ends the session. -/
inductive At (input : List String) : Nat → State → Prop
  | ready {k : Nat} {temp : String} {buf memory : List Char} (before : Ordinary (input.take k))
      (ordinary : ∀ farewell : Farewell, temp ≠ farewell.text) :
      At input (4 * k)
        ⟨input.drop k, temp, buf, .prompting, [], [], ⟨memory, .receiving⟩, List.replicate k hello⟩
  | asked {k : Nat} {temp : String} {buf memory : List Char}
      (before : Ordinary (input.take (k + 1)))
      (ordinary : ∀ farewell : Farewell, temp ≠ farewell.text) :
      At input (4 * k + 1)
        ⟨input.drop (k + 1), temp, buf, .awaiting, terminated testData.toList, [],
          ⟨memory, .receiving⟩, List.replicate k hello⟩
  | handled {k : Nat} {temp : String} {buf memory : List Char}
      (before : Ordinary (input.take (k + 1)))
      (ordinary : ∀ farewell : Farewell, temp ≠ farewell.text) :
      At input (4 * k + 2)
        ⟨input.drop (k + 1), temp, buf, .awaiting, [], [],
          ⟨overlay (terminated testData.toList) memory, .dispatching⟩, List.replicate k hello⟩
  | replied {k : Nat} {temp : String} {buf memory : List Char}
      (before : Ordinary (input.take (k + 1)))
      (ordinary : ∀ farewell : Farewell, temp ≠ farewell.text) :
      At input (4 * k + 3)
        ⟨input.drop (k + 1), temp, buf, .awaiting, [], terminated hello.toList,
          ⟨memory, .receiving⟩, List.replicate k hello⟩
  | leaving {k : Nat} {farewell : Farewell} {buf memory : List Char}
      (first : FirstFarewell input k farewell) :
      At input (4 * k + 1)
        ⟨input.drop (k + 1), farewell.text, overlay (terminated farewell.text.toList) buf, .awaiting,
          terminated farewell.text.toList, [], ⟨memory, .receiving⟩, List.replicate k hello⟩
  | ending {k : Nat} {farewell : Farewell} {buf memory : List Char}
      (first : FirstFarewell input k farewell) :
      At input (4 * k + 2)
        ⟨input.drop (k + 1), farewell.text, overlay (terminated farewell.text.toList) buf, .awaiting,
          [], [], ⟨overlay (terminated farewell.text.toList) memory, .dispatching⟩,
          List.replicate k hello⟩
  | alone {k : Nat} {farewell : Farewell} {buf memory : List Char}
      (first : FirstFarewell input k farewell) :
      At input (4 * k + 3)
        ⟨input.drop (k + 1), farewell.text, overlay (terminated farewell.text.toList) buf, .awaiting,
          [], [], ⟨memory, farewell.status⟩, List.replicate k hello⟩
  | returned {k : Nat} {farewell : Farewell} {buf memory : List Char}
      (first : FirstFarewell input k farewell) :
      At input (4 * k + 4)
        ⟨input.drop (k + 1), farewell.text, buf, .returned,
          [], [], ⟨memory, farewell.status⟩, List.replicate k hello ++ [farewell.text]⟩

variable {input : List String} {count n : Nat} {state after : State}

theorem at_begin (input : List String) (buf memory : List Char) :
    At input 0 (begin input buf memory) :=
  @At.ready input 0 "" buf memory (by intro word none; cases none)
    (by intro farewell; cases farewell <;> decide)

theorem not_ended_receiving : ¬ Ended .receiving := by decide

theorem not_ended_dispatching : ¬ Ended .dispatching := by decide

theorem testData_plain : Plain testData := ⟨by decide, by decide⟩

theorem hello_plain : Plain hello := ⟨by decide, by decide⟩

theorem farewell_plain (farewell : Farewell) : Plain farewell.text := by
  cases farewell <;> exact ⟨by decide, by decide⟩

theorem receivable_all {msg : String} (plain : Plain msg) :
    Receivable (terminated msg.toList) (msg.toList.length + 1) := by
  have short := plain.short
  unfold MAX_MESSAGE at short
  exact ⟨Nat.le_add_left 1 _, by omega, Nat.le_of_eq (terminated_length _).symm⟩

theorem not_receivable_nil : ¬ Receivable [] count := by
  intro receivable
  exact absurd (Nat.le_trans receivable.1 receivable.2.2) (Nat.not_succ_le_zero 0)

private theorem clientNext_writes {words rest : List String} {temp word : String}
    {buf : List Char} {server : Session} {shown : List String}
    (extracted : extract words temp = (word, rest)) (percentFree : '%' ∉ (stuff word).toList)
    (count : Nat) :
    State.clientNext ⟨words, temp, buf, .prompting, [], [], server, shown⟩ count = some
      ⟨rest, word, overlay (terminated (stuff word).toList) buf, .awaiting,
        terminated (stuff word).toList, [], server, shown⟩ := by
  simp only [State.clientNext, extracted, sprintf_plain percentFree]
  rfl

theorem client_writes {k : Nat} {temp : String} {buf memory : List Char}
    (before : Ordinary (input.take k))
    (ordinary : ∀ farewell : Farewell, temp ≠ farewell.text) (count : Nat) :
    ∃ after, State.clientNext ⟨input.drop k, temp, buf, .prompting, [], [], ⟨memory, .receiving⟩,
        List.replicate k hello⟩ count = some after ∧ At input (4 * k + 1) after := by
  cases at_ : input[k]? with
  | none =>
      have past : input.length ≤ k := List.getElem?_eq_none_iff.mp at_
      have extracted : extract (input.drop k) temp = (temp, input.drop (k + 1)) := by
        rw [List.drop_of_length_le past, List.drop_of_length_le (Nat.le_succ_of_le past)]
        rfl
      have longer : Ordinary (input.take (k + 1)) := by
        rw [List.take_of_length_le (Nat.le_succ_of_le past)]
        rwa [List.take_of_length_le past] at before
      have said := stuff_ordinary ordinary
      refine ⟨_, clientNext_writes extracted (by rw [said]; decide) count, ?_⟩
      rw [said]
      exact .asked longer ordinary
  | some word =>
      have split : input.drop k = word :: input.drop (k + 1) := by
        obtain ⟨inside, rfl⟩ := List.getElem?_eq_some_iff.mp at_
        exact List.drop_eq_getElem_cons inside
      have extracted : extract (input.drop k) temp = (word, input.drop (k + 1)) := by
        rw [split]
        rfl
      by_cases ends : ∃ farewell : Farewell, word = farewell.text
      · obtain ⟨farewell, rfl⟩ := ends
        have said := stuff_farewell farewell
        refine ⟨_, clientNext_writes extracted (by rw [said]; cases farewell <;> decide) count, ?_⟩
        rw [said]
        exact .leaving ⟨at_, before⟩
      · have differs : ∀ farewell : Farewell, word ≠ farewell.text :=
          fun farewell same => ends ⟨farewell, same⟩
        have longer : Ordinary (input.take (k + 1)) := by
          intro other member
          rw [List.take_add_one, at_] at member
          rcases List.mem_append.mp member with early | last
          · exact before other early
          · rw [List.mem_singleton.mp last]
            exact differs
        have said := stuff_ordinary differs
        refine ⟨_, clientNext_writes extracted (by rw [said]; decide) count, ?_⟩
        rw [said]
        exact .asked longer differs

private theorem print_message {msg : String} (free : NulFree msg.toList)
    (memory toClient : List Char) :
    state.print (overlay (terminated msg.toList) memory) toClient = some
      { state with
        buf := overlay (terminated msg.toList) memory
        toClient := toClient
        shown := state.shown ++ [msg]
        pc := if (overlay (terminated msg.toList) memory)[0]? = some '!' then .returned
          else .prompting } := by
  simp only [State.print, read_overlay_terminated free, String.ofList_toList]

theorem client_reads {k : Nat} {temp : String} {buf memory : List Char}
    (before : Ordinary (input.take (k + 1)))
    (ordinary : ∀ farewell : Farewell, temp ≠ farewell.text) :
    ∃ after, State.clientNext ⟨input.drop (k + 1), temp, buf, .awaiting, [], terminated hello.toList,
        ⟨memory, .receiving⟩, List.replicate k hello⟩ 13 = some after ∧
      At input (4 * k + 4) after := by
  have receivable : Receivable (terminated hello.toList) 13 := by decide
  have whole : (terminated hello.toList).take 13 = terminated hello.toList := by decide
  have rest : (terminated hello.toList).drop 13 = [] := by decide
  have first : (overlay (terminated hello.toList) buf)[0]? = some 'H' := rfl
  refine ⟨_, ?_, @At.ready input (k + 1) temp (overlay (terminated hello.toList) buf) memory before
    ordinary⟩
  simp only [State.clientNext, if_pos receivable, whole, rest, print_message hello_plain.free, first]
  rw [List.replicate_succ']
  rfl

private theorem farewell_ended (farewell : Farewell) :
    farewell.status ≠ .dispatching ∧ Ended farewell.status := by
  cases farewell <;> decide

/-- When the server has gone, the client finds the message it has written itself. -/
theorem client_finds {k : Nat} {farewell : Farewell} {buf memory : List Char}
    (first : FirstFarewell input k farewell) :
    ∃ after, State.clientNext ⟨input.drop (k + 1), farewell.text,
        overlay (terminated farewell.text.toList) buf, .awaiting, [], [], ⟨memory, farewell.status⟩,
        List.replicate k hello⟩ 0 = some after ∧ At input (4 * k + 4) after := by
  have ended := (farewell_ended farewell).2
  have found : (overlay (terminated farewell.text.toList) buf)[0]? = some '!' := by
    cases farewell <;> rfl
  refine ⟨_, ?_, @At.returned input k farewell (overlay (terminated farewell.text.toList) buf) memory
    first⟩
  simp only [State.clientNext, if_neg not_receivable_nil,
    print_message (farewell_plain farewell).free, found]
  rw [if_pos ⟨trivial, ended, trivial⟩]
  rfl

private theorem recv_nothing (taken : next state (.recv count) = some after)
    (empty : state.toServer = []) : False := by
  simp only [next, State.recv] at taken
  split at taken
  · rename_i both
    exact not_receivable_nil (empty ▸ both.2)
  · cases taken

private theorem act_waits (taken : next state .act = some after)
    (waits : state.session.status ≠ .dispatching) : False := by
  rw [next, State.act, if_neg waits] at taken
  cases taken

private theorem client_waits (taken : next state (.client count) = some after)
    (at_ : state.pc = .awaiting) (empty : state.toClient = [])
    (serving : ¬ Ended state.session.status) : False := by
  simp only [next, State.clientNext, at_, empty, if_neg not_receivable_nil] at taken
  split at taken
  · rename_i all
    exact serving all.2.1
  · cases taken

private theorem recv_count {msg : String} (taken : next state (.recv count) = some after)
    (arrived : state.toServer = terminated msg.toList) (plain : Plain msg)
    (whole : Whole state.toServer count) : count = msg.toList.length + 1 := by
  simp only [next, State.recv] at taken
  split at taken
  · rename_i both
    rw [arrived] at both whole
    exact whole.count plain both.2.2.2
  · cases taken

private theorem recv_message {msg : String} (plain : Plain msg) {words : List String}
    {temp : String} {buf memory : List Char} {pc : ClientPc} {shown : List String} :
    State.recv ⟨words, temp, buf, pc, terminated msg.toList, [], ⟨memory, .receiving⟩, shown⟩
        (msg.toList.length + 1) = some
      ⟨words, temp, buf, pc, [], [], ⟨overlay (terminated msg.toList) memory, .dispatching⟩,
        shown⟩ := by
  rw [State.recv, if_pos ⟨rfl, receivable_all plain⟩]
  simp only [ByteStream.take_terminated, ByteStream.drop_terminated]
  rfl

private theorem act_testData {words : List String} {temp : String} {buf memory : List Char}
    {shown : List String} :
    State.act ⟨words, temp, buf, .awaiting, [], [],
        ⟨overlay (terminated testData.toList) memory, .dispatching⟩, shown⟩ = some
      ⟨words, temp, buf, .awaiting, [], terminated hello.toList,
        ⟨overlay (terminated testData.toList) memory, .receiving⟩, shown⟩ := rfl

private theorem act_farewell (farewell : Farewell) {words : List String} {temp : String}
    {buf memory : List Char} {shown : List String} :
    State.act ⟨words, temp, buf, .awaiting, [], [],
        ⟨overlay (terminated farewell.text.toList) memory, .dispatching⟩, shown⟩ = some
      ⟨words, temp, buf, .awaiting, [], [],
        ⟨overlay (terminated farewell.text.toList) memory, farewell.status⟩, shown⟩ := by
  cases farewell <;> rfl

theorem At.step (position : At input n state) {label : Label} (whole : AllWhole state label)
    (taken : next state label = some after) : At input (n + 1) after := by
  cases position with
  | @ready k temp buf memory before ordinary =>
      cases label with
      | client count =>
          obtain ⟨later, moved, position⟩ := client_writes before ordinary count
          cases moved.symm.trans taken
          exact position
      | recv => exact (recv_nothing taken rfl).elim
      | act => exact (act_waits taken Status.noConfusion).elim
  | @asked k temp buf memory before ordinary =>
      cases label with
      | client => exact (client_waits taken rfl rfl not_ended_receiving).elim
      | recv count =>
          have all := recv_count taken rfl testData_plain whole
          subst all
          cases (recv_message testData_plain).symm.trans taken
          exact .handled before ordinary
      | act => exact (act_waits taken Status.noConfusion).elim
  | @handled k temp buf memory before ordinary =>
      cases label with
      | client => exact (client_waits taken rfl rfl not_ended_dispatching).elim
      | recv => exact (recv_nothing taken rfl).elim
      | act =>
          cases act_testData.symm.trans taken
          exact .replied before ordinary
  | @replied k temp buf memory before ordinary =>
      cases label with
      | client count =>
          have all : count = hello.toList.length + 1 := by
            have arrived := whole rfl (List.cons_ne_nil _ _)
            simp only [next, State.clientNext] at taken
            split at taken
            · rename_i receivable
              exact Whole.count hello_plain arrived receivable.2.2
            · split at taken
              · rename_i gone
                exact absurd gone.1 (List.cons_ne_nil _ _)
              · cases taken
          subst all
          obtain ⟨later, moved, position⟩ := @client_reads input k temp buf memory before ordinary
          cases moved.symm.trans taken
          exact position
      | recv => exact (recv_nothing taken rfl).elim
      | act => exact (act_waits taken Status.noConfusion).elim
  | @leaving k farewell _ _ first =>
      cases label with
      | client => exact (client_waits taken rfl rfl not_ended_receiving).elim
      | recv count =>
          have plain := farewell_plain farewell
          have all := recv_count taken rfl plain whole
          subst all
          cases (recv_message plain).symm.trans taken
          exact .ending first
      | act => exact (act_waits taken Status.noConfusion).elim
  | ending first =>
      cases label with
      | client => exact (client_waits taken rfl rfl not_ended_dispatching).elim
      | recv => exact (recv_nothing taken rfl).elim
      | act =>
          cases (act_farewell _).symm.trans taken
          exact .alone first
  | @alone k farewell buf memory first =>
      cases label with
      | client count =>
          have nothing : count = 0 := by
            simp only [next, State.clientNext, if_neg not_receivable_nil] at taken
            split at taken
            · rename_i all
              exact all.2.2
            · cases taken
          subst nothing
          obtain ⟨later, moved, position⟩ := @client_finds input k farewell buf memory first
          cases moved.symm.trans taken
          exact position
      | recv => exact (recv_nothing taken rfl).elim
      | act => exact (act_waits taken (farewell_ended farewell).1).elim
  | @returned k farewell _ _ first =>
      cases label with
      | client => cases taken
      | recv => exact (recv_nothing taken rfl).elim
      | act => exact (act_waits taken (farewell_ended farewell).1).elim

theorem At.enabled (position : At input n state) (unfinished : state.pc ≠ .returned) :
    ∃ label later, AllWhole state label ∧ next state label = some later := by
  cases position with
  | @ready k temp buf memory before ordinary =>
      obtain ⟨later, moved, _⟩ := @client_writes input k temp buf memory before ordinary 0
      exact ⟨.client 0, later, fun awaiting => absurd awaiting ClientPc.noConfusion, moved⟩
  | asked => exact ⟨.recv _, _, Plain.whole, recv_message testData_plain⟩
  | handled => exact ⟨.act, _, trivial, act_testData⟩
  | @replied k temp buf memory before ordinary =>
      obtain ⟨later, moved, _⟩ := @client_reads input k temp buf memory before ordinary
      exact ⟨.client 13, later, fun _ _ => @Plain.whole hello, moved⟩
  | @leaving k farewell => exact ⟨.recv _, _, Plain.whole, recv_message (farewell_plain farewell)⟩
  | ending => exact ⟨.act, _, trivial, act_farewell _⟩
  | @alone k farewell buf memory first =>
      obtain ⟨later, moved, _⟩ := @client_finds input k farewell buf memory first
      exact ⟨.client 0, later, fun _ some => absurd rfl some, moved⟩
  | returned => exact absurd rfl unfinished

/-! ### Whole sessions -/

theorem At.ended (position : At input n state) (returned : state.pc = .returned) :
    ∃ k farewell, FirstFarewell input k farewell ∧ n = 4 * (k + 1) ∧
      state.session.status = farewell.status ∧ state.toServer = [] ∧ state.toClient = [] ∧
      state.shown = List.replicate k hello ++ [farewell.text] := by
  cases position with
  | @returned k farewell _ _ first => exact ⟨k, farewell, first, rfl, rfl, rfl, rfl, rfl⟩
  | _ => cases returned

theorem At.shown (position : At input n state) (unfinished : state.pc ≠ .returned) :
    state.shown = List.replicate (n / 4) hello := by
  cases position with
  | @ready k | @asked k | @handled k | @replied k | @leaving k | @ending k | @alone k =>
      exact congrArg (List.replicate · hello) (by omega)
  | returned => exact absurd rfl unfinished

theorem At.bound (position : At input n state) {k : Nat} {farewell : Farewell}
    (first : FirstFarewell input k farewell) : n ≤ 4 * (k + 1) := by
  cases position with
  | ready before =>
      have bound := before.le first.at_
      omega
  | asked before | handled before | replied before =>
      have bound := before.le first.at_
      omega
  | leaving found | ending found | alone found | returned found =>
      have bound := found.before.le first.at_
      omega

theorem at_of_run {labels : List Label} (position : At input n state)
    (along : (session input).Along AllWhole state labels)
    (ran : (session input).run state labels = some after) :
    At input (n + labels.length) after := by
  induction labels generalizing n state with
  | nil =>
      cases ran
      exact position
  | cons label rest ih =>
      obtain ⟨middle, taken, remaining⟩ := System.run_cons ran
      rw [System.Along, taken] at along
      have later := ih (position.step along.1 taken) along.2 remaining
      rwa [Nat.add_assoc, Nat.add_comm 1] at later

/-- The first word that is `!` or `!!` ends the session, and nothing else does. Up to there
each word is answered once; then both processes have closed the connection, and the
client has found its own last message where it looked for the reply. -/
theorem session_ends_at_farewell (input : List String) (buf memory : List Char)
    {labels : List Label} {state : State}
    (along : (session input).Along AllWhole (begin input buf memory) labels)
    (ran : (session input).run (begin input buf memory) labels = some state) :
    (state.pc = .returned → ∃ k farewell, FirstFarewell input k farewell ∧
      labels.length = 4 * (k + 1) ∧ state.session.status = farewell.status ∧
      state.toServer = [] ∧ state.toClient = [] ∧
      state.shown = List.replicate k hello ++ [farewell.text]) ∧
    (state.pc ≠ .returned →
      state.shown = List.replicate (labels.length / 4) hello ∧
      ∃ label later, AllWhole state label ∧ next state label = some later) ∧
    ∀ k farewell, FirstFarewell input k farewell → labels.length ≤ 4 * (k + 1) := by
  have position := at_of_run (at_begin input buf memory) along ran
  rw [Nat.zero_add] at position
  refine ⟨position.ended, fun unfinished => ?_, fun k farewell first => position.bound first⟩
  exact ⟨position.shown unfinished, position.enabled unfinished⟩

theorem session_ends_at_farewell_three :
    ∃ state, (session ["hi", "!!", "!"]).run (begin ["hi", "!!", "!"] [] [])
        [.client 0, .recv 25, .act, .client 13, .client 0, .recv 3, .act, .client 0] = some state ∧
      state.shown = ["Hello to you", "!!"] ∧
      ∃ k farewell, FirstFarewell ["hi", "!!", "!"] k farewell ∧
        state.session.status = farewell.status := by
  have along : (session ["hi", "!!", "!"]).Along AllWhole (begin ["hi", "!!", "!"] [] [])
      [.client 0, .recv 25, .act, .client 13, .client 0, .recv 3, .act, .client 0] := by
    decide
  have ran : ((session ["hi", "!!", "!"]).run (begin ["hi", "!!", "!"] [] [])
      [.client 0, .recv 25, .act, .client 13, .client 0, .recv 3, .act, .client 0]).map
        (fun state => (state.shown, state.pc)) = some (["Hello to you", "!!"], .returned) := by
    decide
  obtain ⟨state, run, last⟩ := Option.map_eq_some_iff.mp ran
  obtain ⟨shown, returned⟩ := Prod.mk.inj last
  obtain ⟨k, farewell, first, _, ended, _⟩ :=
    (session_ends_at_farewell ["hi", "!!", "!"] [] [] along run).1 returned
  exact ⟨state, run, shown, k, farewell, first, ended⟩

end Netwurk.RequestChannel.ClientTCP
