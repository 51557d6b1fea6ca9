/-
Whole sessions of the server thread. Each pass of its loop starts with one
`recv`, whose result the loop does not look at; the passes of a session are
listed with what the peer did, what the loop body read and what it sent.
-/

import Netwurk.RequestChannel.ServerThread

namespace Netwurk.RequestChannel

open CString

def through {α : Type} (ends : α → Bool) : List α → List α
  | [] => []
  | item :: rest => if ends item then [item] else item :: through ends rest

theorem through_cons_ends {α : Type} {ends : α → Bool} {item : α} (last : ends item = true)
    (rest : List α) : through ends (item :: rest) = [item] :=
  if_pos last

theorem through_cons_continues {α : Type} {ends : α → Bool} {item : α}
    (continues : ¬ ends item = true) (rest : List α) :
    through ends (item :: rest) = item :: through ends rest :=
  if_neg continues

structure WholeMessage (capacity : Nat) where
  text : List Char
  nulFree : NulFree text
  fits : text.length < capacity

inductive Outcome (capacity : Nat) where
  | message (msg : WholeMessage capacity)
  | closed
  | failed

namespace Outcome

variable {capacity : Nat}

def received : Outcome capacity → List Char
  | .message msg => terminated msg.text
  | .closed => []
  | .failed => []

def bearsData : Outcome capacity → Bool
  | .message _ => true
  | .closed => false
  | .failed => false

def endsSession : Outcome capacity → Bool
  | .message msg => ['!'].isPrefixOf msg.text
  | .closed => false
  | .failed => false

theorem received_of_dataless {outcome : Outcome capacity} (dataless : ¬ outcome.bearsData = true) :
    outcome.received = [] := by
  cases outcome with
  | message msg => exact absurd rfl dataless
  | closed => rfl
  | failed => rfl

end Outcome

/-- The server thread of the request channel, and the one of the stand-alone
server before it, which has a larger buffer and one reply to everything. -/
inductive Version where
  | reqchannel
  | serverTCP
deriving DecidableEq

namespace Version

def capacity : Version → Nat
  | .reqchannel => MAX_MESSAGE
  | .serverTCP => 1024

def helloToYou : List Char := "Hello to you".toList

def act (version : Version) (session : Session) (value : Nat) : Session × Option (List Char) :=
  match version with
  | .reqchannel => session.act value
  | .serverTCP =>
      if session.buf[0]? = some '!' then
        if session.buf[1]? = some '!' then ({ session with status := .exited }, none)
        else ({ session with status := .closed }, none)
      else ({ session with status := .receiving }, some helloToYou)

end Version

/-- One pass: what `recv` came to, the buffer the loop body read, the status it
left and what it sent. -/
structure Pass (capacity : Nat) where
  outcome : Outcome capacity
  dispatched : List Char
  after : Status
  sent : Option (List Char)

/-- The loop, for the outcomes of its `recv` calls and the values of `rand() % 100`. -/
def Version.passes (version : Version) :
    Session → List (Outcome version.capacity × Fin 100) → List (Pass version.capacity)
  | _, [] => []
  | session, (outcome, value) :: rest =>
      let received := session.recv outcome.received
      let answered := version.act received value
      { outcome := outcome
        dispatched := received.buf
        after := answered.1.status
        sent := answered.2 } ::
        if answered.1.status = .receiving then version.passes answered.1 rest else []

/-- A new thread, whose `buf` is not initialised. -/
def Session.begin (buf : List Char) : Session :=
  { buf := buf
    status := .receiving }

theorem dispatch_eq_exit {buf : List Char} :
    dispatch buf = .exit ↔ buf[0]? = some '!' ∧ buf[1]? = some '!' := by
  unfold dispatch
  split_ifs with bang second <;> simp [*]

theorem dispatch_eq_close {buf : List Char} :
    dispatch buf = .close ↔ buf[0]? = some '!' ∧ ¬ buf[1]? = some '!' := by
  unfold dispatch
  split_ifs with bang second <;> simp [*]

theorem Version.act_cases (version : Version) (session : Session) (value : Nat) :
    (dispatch session.buf = .exit ∧
        version.act session value = ({ session with status := .exited }, none)) ∨
      (dispatch session.buf = .close ∧
        version.act session value = ({ session with status := .closed }, none)) ∨
      (¬ session.buf[0]? = some '!' ∧ ∃ reply,
        version.act session value = ({ session with status := .receiving }, some reply)) := by
  by_cases bang : session.buf[0]? = some '!'
  · by_cases second : session.buf[1]? = some '!'
    · have exits : dispatch session.buf = .exit := dispatch_eq_exit.mpr ⟨bang, second⟩
      refine .inl ⟨exits, ?_⟩
      cases version with
      | reqchannel => simp only [act, Session.act, Session.answer, exits]
      | serverTCP => simp only [act, if_pos bang, if_pos second]
    · have closes : dispatch session.buf = .close := dispatch_eq_close.mpr ⟨bang, second⟩
      refine .inr (.inl ⟨closes, ?_⟩)
      cases version with
      | reqchannel => simp only [act, Session.act, Session.answer, closes]
      | serverTCP => simp only [act, if_pos bang, if_neg second]
  · refine .inr (.inr ⟨bang, ?_⟩)
    cases version with
    | reqchannel =>
        cases kind : dispatch session.buf with
        | exit => exact absurd (dispatch_eq_exit.mp kind).1 bang
        | close => exact absurd (dispatch_eq_close.mp kind).1 bang
        | data => exact ⟨to_string value, by simp only [act, Session.act, Session.answer, kind]⟩
        | unknown => exact ⟨unknownStuff, by simp only [act, Session.act, Session.answer, kind]⟩
    | serverTCP => exact ⟨helloToYou, by simp only [act, if_neg bang]⟩

theorem first_of_message (msg memory : List Char) :
    (overlay (terminated msg) memory)[0]? = some '!' ↔ ['!'].isPrefixOf msg = true := by
  unfold overlay terminated
  cases msg with
  | nil => simp
  | cons c rest => simp [@eq_comm Char '!' c]

theorem Version.passes_cons (version : Version) (session : Session)
    (outcome : Outcome version.capacity) (value : Fin 100)
    (rest : List (Outcome version.capacity × Fin 100)) :
    let buf := overlay outcome.received session.buf
    (dispatch buf = .exit ∧ version.passes session ((outcome, value) :: rest) =
        [⟨outcome, buf, .exited, none⟩]) ∨
      (dispatch buf = .close ∧ version.passes session ((outcome, value) :: rest) =
        [⟨outcome, buf, .closed, none⟩]) ∨
      (¬ buf[0]? = some '!' ∧ ∃ reply, version.passes session ((outcome, value) :: rest) =
        ⟨outcome, buf, .receiving, some reply⟩ :: version.passes (.begin buf) rest) := by
  intro buf
  rcases version.act_cases (session.recv outcome.received) value with stop | stop | answers
  · refine .inl ⟨stop.1, ?_⟩
    rw [passes, stop.2]
    rfl
  · refine .inr (.inl ⟨stop.1, ?_⟩)
    rw [passes, stop.2]
    rfl
  · obtain ⟨noBang, reply, answer⟩ := answers
    refine .inr (.inr ⟨noBang, reply, ?_⟩)
    rw [passes, answer]
    rfl

/-! ### A session that reacts to its peer only -/

namespace Pass

variable {capacity : Nat}

def replied (pass : Pass capacity) : Bool := pass.sent.isSome

def bearsData (pass : Pass capacity) : Bool := pass.outcome.bearsData

end Pass

/-- What a session owes its peer: replies only to data, no reply, exit or second
handling of a message when nothing arrived, and an end once the peer has closed. -/
structure ReactsToData {capacity : Nat} (log : List (Pass capacity)) : Prop where
  repliesCovered : ∀ front back, log = front ++ back →
    (front.filter Pass.replied).length ≤ (front.filter Pass.bearsData).length
  silent : ∀ pass ∈ log, ¬ pass.bearsData = true → pass.sent = none ∧ pass.after ≠ .exited
  handledOnce : ∀ front pass back, log = front ++ pass :: back → ¬ pass.bearsData = true →
    ∀ earlier ∈ front, ∀ msg, earlier.outcome = .message msg →
      ¬ terminated msg.text <+: pass.dispatched
  endsWithPeer : ∀ front pass back, log = front ++ pass :: back → pass.outcome = .closed →
    pass.after = .closed ∧ back = []

def consumed {capacity : Nat} (outcomes : List (Outcome capacity × Fin 100)) :
    List (Outcome capacity × Fin 100) :=
  through (fun entry => entry.1.endsSession) outcomes

def Fed {capacity : Nat} (outcomes : List (Outcome capacity × Fin 100)) : Prop :=
  ∀ entry ∈ consumed outcomes, entry.1.bearsData = true

/-- The peer is gone before its first message and the uninitialised buffer
happens to read as `!`. -/
def ClosedAtOnce {capacity : Nat} (buf : List Char) :
    List (Outcome capacity × Fin 100) → Prop
  | [] => False
  | (outcome, _) :: _ => ¬ outcome.bearsData = true ∧ dispatch buf = .close

theorem fed_message {capacity : Nat} {msg : WholeMessage capacity} {value : Fin 100}
    {rest : List (Outcome capacity × Fin 100)} (noBang : ¬ ['!'].isPrefixOf msg.text = true) :
    Fed ((.message msg, value) :: rest) ↔ Fed rest := by
  unfold Fed consumed
  rw [through_cons_continues (by exact noBang), List.forall_mem_cons]
  exact and_iff_right rfl

theorem fed_bang {capacity : Nat} {msg : WholeMessage capacity} {value : Fin 100}
    {rest : List (Outcome capacity × Fin 100)} (bang : ['!'].isPrefixOf msg.text = true) :
    Fed ((.message msg, value) :: rest) := by
  unfold Fed consumed
  rw [through_cons_ends (by exact bang)]
  intro entry member
  rw [List.mem_singleton.mp member]
  rfl

theorem passes_of_fed (version : Version) (session : Session)
    (outcomes : List (Outcome version.capacity × Fin 100)) (fed : Fed outcomes) :
    ∀ pass ∈ version.passes session outcomes, pass.bearsData = true := by
  induction outcomes generalizing session with
  | nil =>
      intro pass member
      cases member
  | cons entry rest ih =>
      obtain ⟨outcome, value⟩ := entry
      have first : outcome.bearsData = true := by
        apply fed (outcome, value)
        unfold consumed through
        split_ifs <;> exact List.mem_cons_self
      rcases version.passes_cons session outcome value rest with stop | stop | answers
      · rw [stop.2]
        intro pass member
        rw [List.mem_singleton.mp member]
        exact first
      · rw [stop.2]
        intro pass member
        rw [List.mem_singleton.mp member]
        exact first
      · obtain ⟨noBang, reply, same⟩ := answers
        rw [same]
        intro pass member
        rcases List.mem_cons.mp member with here | later
        · rw [here]
          exact first
        · cases outcome with
          | closed => cases first
          | failed => cases first
          | message msg =>
              have tailFed := (fed_message (fun bang =>
                noBang ((first_of_message msg.text session.buf).mpr bang))).mp fed
              exact ih _ tailFed pass later

theorem not_closedAtOnce_of_settled {capacity : Nat} {buf : List Char}
    (settled : ¬ buf[0]? = some '!') (outcomes : List (Outcome capacity × Fin 100)) :
    ¬ ClosedAtOnce buf outcomes := by
  intro closed
  cases outcomes with
  | nil => cases closed
  | cons entry rest => exact settled (dispatch_eq_close.mp closed.2).1

/-- Where a message is missing, the loop replies or exits all the same. The buffer
is settled from the first message on, so chance can only help before it. -/
theorem handles_missing_message (version : Version) (session : Session)
    (outcomes : List (Outcome version.capacity × Fin 100)) (unfed : ¬ Fed outcomes)
    (notClosed : ¬ ClosedAtOnce session.buf outcomes) :
    ∃ pass ∈ version.passes session outcomes,
      ¬ pass.bearsData = true ∧ ¬ (pass.sent = none ∧ pass.after ≠ .exited) := by
  induction outcomes generalizing session with
  | nil =>
      refine absurd ?_ unfed
      intro entry member
      cases member
  | cons entry rest ih =>
      obtain ⟨outcome, value⟩ := entry
      by_cases data : outcome.bearsData = true
      · cases outcome with
        | closed => cases data
        | failed => cases data
        | message msg =>
            have continues : ¬ ['!'].isPrefixOf msg.text = true :=
              fun bang => unfed (fed_bang bang)
            have settled : ¬ (overlay (terminated msg.text) session.buf)[0]? = some '!' :=
              fun bang => continues ((first_of_message _ _).mp bang)
            have restUnfed : ¬ Fed rest := fun fed => unfed ((fed_message continues).mpr fed)
            rcases version.passes_cons session (.message msg) value rest with stop | stop | answers
            · exact absurd (dispatch_eq_exit.mp stop.1).1 settled
            · exact absurd (dispatch_eq_close.mp stop.1).1 settled
            · obtain ⟨_, reply, same⟩ := answers
              obtain ⟨pass, member, holds⟩ :=
                ih (.begin _) restUnfed (not_closedAtOnce_of_settled settled rest)
              exact ⟨pass, by rw [same]; exact List.mem_cons_of_mem _ member, holds⟩
      · have kept : overlay outcome.received session.buf = session.buf := by
          rw [Outcome.received_of_dataless data]
          rfl
        rcases version.passes_cons session outcome value rest with stop | stop | answers
        · refine ⟨⟨outcome, _, .exited, none⟩, by rw [stop.2]; exact List.mem_cons_self, data, ?_⟩
          exact fun silent => silent.2 rfl
        · rw [kept] at stop
          exact absurd ⟨data, stop.1⟩ notClosed
        · obtain ⟨_, reply, same⟩ := answers
          refine ⟨⟨outcome, _, .receiving, some reply⟩, by rw [same]; exact List.mem_cons_self,
            data, ?_⟩
          exact fun silent => Option.some_ne_none reply silent.1

theorem reactsToData_of_messages {capacity : Nat} {log : List (Pass capacity)}
    (messages : ∀ pass ∈ log, pass.bearsData = true) : ReactsToData log where
  repliesCovered := by
    intro front back split
    have all : front.filter Pass.bearsData = front := by
      apply List.filter_eq_self.mpr
      intro pass member
      exact messages pass (by rw [split]; exact List.mem_append_left _ member)
    rw [all]
    exact List.length_filter_le _ _
  silent := fun pass member dataless => absurd (messages pass member) dataless
  handledOnce := by
    intro front pass back split dataless
    exact absurd (messages pass (by rw [split]; simp)) dataless
  endsWithPeer := by
    intro front pass back split closed
    have data := messages pass (by rw [split]; simp)
    rw [Pass.bearsData, closed] at data
    cases data

theorem reactsToData_of_closed {capacity : Nat} {pass : Pass capacity}
    (after : pass.after = .closed) (quiet : pass.sent = none) : ReactsToData [pass] where
  repliesCovered := by
    intro front back split
    have none_replied : front.filter Pass.replied = [] := by
      apply List.filter_eq_nil_iff.mpr
      intro other member
      have same : other = pass := by
        apply List.mem_singleton.mp
        rw [split]
        exact List.mem_append_left _ member
      rw [same, Pass.replied, quiet]
      exact Bool.false_ne_true
    rw [none_replied]
    exact Nat.zero_le _
  silent := by
    intro other member _
    rw [List.mem_singleton.mp member]
    exact ⟨quiet, by rw [after]; decide⟩
  handledOnce := by
    intro front other back split _ earlier member
    obtain ⟨rfl, _⟩ | ⟨_, _, short⟩ := List.cons_eq_append_iff.mp split
    · cases member
    · cases (List.append_eq_nil_iff.mp short.symm).2
  endsWithPeer := by
    intro front other back split _
    obtain ⟨rfl, same⟩ | ⟨_, _, short⟩ := List.cons_eq_append_iff.mp split
    · obtain ⟨rfl, rfl⟩ := List.cons.inj same
      exact ⟨after, rfl⟩
    · cases (List.append_eq_nil_iff.mp short.symm).2

/-- A session reacts to its peer alone exactly when the peer sends whole messages
up to its `!`, or is gone before the first and the buffer reads as `!` by chance. -/
theorem reacts_to_data_iff_fed (version : Version) (buf : List Char)
    (outcomes : List (Outcome version.capacity × Fin 100)) :
    ReactsToData (version.passes (.begin buf) outcomes) ↔
      Fed outcomes ∨ ClosedAtOnce buf outcomes := by
  constructor
  · intro reacts
    by_cases fed : Fed outcomes
    · exact .inl fed
    · by_cases closed : ClosedAtOnce buf outcomes
      · exact .inr closed
      · obtain ⟨pass, member, dataless, handled⟩ :=
          handles_missing_message version (.begin buf) outcomes fed closed
        exact absurd (reacts.silent pass member dataless) handled
  · intro condition
    rcases condition with fed | closed
    · exact reactsToData_of_messages (passes_of_fed version _ outcomes fed)
    · cases outcomes with
      | nil => cases closed
      | cons entry rest =>
          obtain ⟨outcome, value⟩ := entry
          have kept : overlay outcome.received buf = buf := by
            rw [Outcome.received_of_dataless closed.1]
            rfl
          have bang := dispatch_eq_close.mp closed.2
          rcases version.passes_cons (.begin buf) outcome value rest with stop | stop | answers
          · have second := (dispatch_eq_exit.mp stop.1).2
            rw [Session.begin, kept] at second
            exact absurd second bang.2
          · rw [stop.2]
            exact reactsToData_of_closed rfl rfl
          · rw [Session.begin, kept] at answers
            exact absurd bang.1 answers.1

def dataJoeSmith : WholeMessage MAX_MESSAGE :=
  { text := "data Joe Smith".toList
    nulFree := by decide
    fits := by decide }

/-- One request, then an orderly close: the request is answered twice. -/
theorem reacts_to_data_fails_after_close :
    ¬ ReactsToData (Version.reqchannel.passes (.begin [])
      [(.message dataJoeSmith, ⟨17, by decide⟩), (.closed, ⟨42, by decide⟩)]) := by
  intro reacts
  have covered := reacts.repliesCovered _ [] (List.append_nil _).symm
  revert covered
  decide

/-! ### Whole messages: the session is a stateless dispatcher -/

inductive Action where
  | exit
  | close
  | reply (text : List Char)
deriving DecidableEq

def Action.ends : Action → Bool
  | .exit => true
  | .close => true
  | .reply _ => false

def Action.sent : Action → Option (List Char)
  | .exit => none
  | .close => none
  | .reply text => some text

def Action.status : Action → Status
  | .exit => .exited
  | .close => .closed
  | .reply _ => .receiving

def Pass.action {capacity : Nat} (pass : Pass capacity) : Option Action :=
  match pass.after, pass.sent with
  | .exited, none => some .exit
  | .closed, none => some .close
  | .receiving, some text => some (.reply text)
  | _, _ => none

/-- The reference: one message alone decides, with the number drawn for it. -/
def respond (msg : WholeMessage MAX_MESSAGE) (value : Fin 100) : Action :=
  match messageKind msg.text with
  | .exit => .exit
  | .close => .close
  | .data => .reply (to_string value)
  | .unknown => .reply unknownStuff

def delivered (messages : List (WholeMessage MAX_MESSAGE × Fin 100)) :
    List (Outcome MAX_MESSAGE × Fin 100) :=
  messages.map fun entry => (.message entry.1, entry.2)

def referenceActions (messages : List (WholeMessage MAX_MESSAGE × Fin 100)) : List Action :=
  through Action.ends (messages.map fun entry => respond entry.1 entry.2)

def answerText (entry : WholeMessage MAX_MESSAGE × Fin 100) : List Char :=
  if ['d', 'a', 't', 'a'].isPrefixOf entry.1.text then to_string entry.2 else unknownStuff

def startsWithBang (entry : WholeMessage MAX_MESSAGE × Fin 100) : Bool :=
  ['!'].isPrefixOf entry.1.text

theorem Pass.sent_of_action {capacity : Nat} {pass : Pass capacity} {action : Action}
    (acts : pass.action = some action) : pass.sent = action.sent := by
  obtain ⟨outcome, dispatched, after, sent⟩ := pass
  cases after <;> cases sent <;> cases acts <;> rfl

theorem filterMap_sent_of_actions {capacity : Nat} {log : List (Pass capacity)}
    {actions : List Action} (same : log.map Pass.action = actions.map some) :
    log.filterMap Pass.sent = actions.filterMap Action.sent := by
  induction log generalizing actions with
  | nil =>
      cases actions with
      | nil => rfl
      | cons => cases same
  | cons pass log ih =>
      cases actions with
      | nil => cases same
      | cons action actions =>
          obtain ⟨head, tail⟩ := List.cons.inj same
          rw [List.filterMap_cons, List.filterMap_cons, Pass.sent_of_action head, ih tail]

/-- On a buffer that starts with a message, the loop body does what the message
alone asks for. -/
theorem act_of_messageKind {session : Session} {msg : WholeMessage MAX_MESSAGE}
    (kind : dispatch session.buf = messageKind msg.text) (value : Fin 100) :
    session.act value = ({ session with status := (respond msg value).status },
      (respond msg value).sent) := by
  unfold Session.act Session.answer respond
  rw [kind]
  cases messageKind msg.text <;> rfl

theorem passes_message (session : Session) (msg : WholeMessage MAX_MESSAGE) (value : Fin 100)
    (rest : List (Outcome Version.reqchannel.capacity × Fin 100)) :
    ∃ pass, pass.action = some (respond msg value) ∧ ∃ buf,
      Version.reqchannel.passes session ((.message msg, value) :: rest) = pass ::
        if (respond msg value).ends = true then []
        else Version.reqchannel.passes (.begin buf) rest := by
  let arrived : Outcome Version.reqchannel.capacity := .message msg
  have acts : Version.reqchannel.act (session.recv arrived.received) value = _ :=
    act_of_messageKind (dispatch_message msg.text session.buf) value
  refine ⟨⟨arrived, (session.recv arrived.received).buf, (respond msg value).status,
    (respond msg value).sent⟩, ?_, (session.recv arrived.received).buf, ?_⟩
  · cases respond msg value <;> rfl
  · rw [Version.passes, acts]
    cases respond msg value <;> rfl

theorem actions_eq_reference (session : Session)
    (messages : List (WholeMessage MAX_MESSAGE × Fin 100)) :
    (Version.reqchannel.passes session (delivered messages)).map Pass.action =
      (referenceActions messages).map some := by
  induction messages generalizing session with
  | nil => rfl
  | cons entry rest ih =>
      obtain ⟨msg, value⟩ := entry
      obtain ⟨pass, acts, buf, same⟩ := passes_message session msg value (delivered rest)
      change (Version.reqchannel.passes session ((.message msg, value) :: delivered rest)).map
        Pass.action = (through Action.ends (respond msg value :: _)).map some
      rw [same, List.map_cons, acts]
      by_cases ends : (respond msg value).ends = true
      · rw [if_pos ends, through_cons_ends ends]
        rfl
      · rw [if_neg ends, through_cons_continues ends, ih (.begin buf)]
        rfl

theorem respond_of_bang {msg : WholeMessage MAX_MESSAGE} (value : Fin 100)
    (bang : ['!'].isPrefixOf msg.text = true) :
    (respond msg value).ends = true ∧ (respond msg value).sent = none := by
  unfold respond messageKind
  split_ifs <;> exact ⟨rfl, rfl⟩

theorem respond_of_noBang {msg : WholeMessage MAX_MESSAGE} (value : Fin 100)
    (noBang : ¬ ['!'].isPrefixOf msg.text = true) :
    respond msg value = .reply (answerText (msg, value)) := by
  have noExit : ¬ ['!', '!'].isPrefixOf msg.text = true := by
    intro exits
    apply noBang
    obtain ⟨rest, same⟩ := List.isPrefixOf_iff_prefix.mp exits
    rw [← same]
    rfl
  unfold respond messageKind answerText
  rw [if_neg noExit, if_neg noBang]
  split_ifs <;> rfl

theorem reference_sent (messages : List (WholeMessage MAX_MESSAGE × Fin 100)) :
    (referenceActions messages).filterMap Action.sent =
      (messages.takeWhile fun entry => !startsWithBang entry).map answerText := by
  induction messages with
  | nil => rfl
  | cons entry rest ih =>
      obtain ⟨msg, value⟩ := entry
      unfold referenceActions
      rw [List.map_cons]
      by_cases bang : ['!'].isPrefixOf msg.text = true
      · have stops := respond_of_bang value bang
        have starts : startsWithBang (msg, value) = true := bang
        rw [through_cons_ends stops.1, List.filterMap_cons, stops.2, List.takeWhile_cons, starts]
        rfl
      · have answers := respond_of_noBang value bang
        have starts : startsWithBang (msg, value) = false := Bool.eq_false_iff.mpr bang
        rw [answers, through_cons_continues Bool.false_ne_true, List.takeWhile_cons, starts]
        exact congrArg (answerText (msg, value) :: ·) ih

/-- With whole messages the session acts as the reference that looks at each message
alone, and answers those before the first `!` one for one. -/
theorem session_refines_reference (buf : List Char)
    (messages : List (WholeMessage MAX_MESSAGE × Fin 100)) :
    (Version.reqchannel.passes (.begin buf) (delivered messages)).map Pass.action =
        (referenceActions messages).map some ∧
      (Version.reqchannel.passes (.begin buf) (delivered messages)).filterMap Pass.sent =
        (messages.takeWhile fun entry => !startsWithBang entry).map answerText := by
  have same := actions_eq_reference (.begin buf) messages
  exact ⟨same, (filterMap_sent_of_actions same).trans (reference_sent messages)⟩

end Netwurk.RequestChannel
