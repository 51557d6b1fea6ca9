/-
One connection on which whole messages are delivered in order, with the server
thread at its other end. The client side writes a request, reads the reply, and
takes its leave with `!` or `!!`.
-/

import Netwurk.RequestChannel.ServerThread

namespace Netwurk.RequestChannel

open CString

/-- `sent` records what the client wrote and `handled` each message that got a
reply, with the reply. -/
structure Link where
  toServer : List String
  toClient : List String
  session : Session
  sent : List String
  handled : List (String × String)
deriving DecidableEq

namespace Link

/-- A new connection; `memory` is what the stack of the server thread held. -/
def opened (memory : List Char) : Link :=
  { toServer := []
    toClient := []
    session := { buf := memory, status := .receiving }
    sent := []
    handled := [] }

def cwrite (link : Link) (msg : String) : Link :=
  { link with
    toServer := link.toServer ++ [msg]
    sent := link.sent ++ [msg] }

def cread (link : Link) : Option (String × Link) :=
  match link.toClient with
  | [] => none
  | reply :: rest => some (reply, { link with toClient := rest })

def recv (link : Link) : Option Link :=
  match link.session.status, link.toServer with
  | .receiving, msg :: rest => some
      { link with
        toServer := rest
        session := link.session.recv (terminated msg.toList) }
  | _, _ => none

def message (link : Link) : String :=
  String.ofList ((read link.session.buf).getD [])

/-- The loop body of the server thread, with `trach` for the reply to `data`. -/
def act (link : Link) (trach : String) : Option Link :=
  if link.session.status = .dispatching then
    match link.session.answer trach.toList with
    | (session, none) => some { link with session := session }
    | (session, some reply) => some
        { link with
          session := session
          toClient := link.toClient ++ [String.ofList reply]
          handled := link.handled ++ [(link.message, String.ofList reply)] }
  else none

def outstanding (link : Link) : Nat :=
  (link.toServer.filter fun msg => decide (messageKind msg.toList = .data)).length +
    (if link.session.status = .dispatching ∧ dispatch link.session.buf = .data then 1 else 0) +
    link.toClient.length

end Link

structure Request (msg : String) : Prop where
  data : messageKind msg.toList = .data
  free : NulFree msg.toList

inductive Farewell where
  | close
  | exit
deriving DecidableEq

def Farewell.text : Farewell → String
  | close => "!"
  | exit => "!!"

def Farewell.status : Farewell → Status
  | close => .closed
  | exit => .exited

theorem Farewell.not_data (farewell : Farewell) : messageKind farewell.text.toList ≠ .data := by
  cases farewell <;> decide

/-! ### The positions of a connection -/

inductive Phase where
  | idle
  | waiting (request : String)
  | left (farewell : Farewell)

/-- `done` lists the exchanges the client has completed. At most one message is
on the connection, and the phase says whether there is one. -/
inductive Link.At (answers : String → Prop) (done : List (String × String)) :
    Phase → Link → Prop
  | idle {buf : List Char} :
      At answers done .idle ⟨[], [], ⟨buf, .receiving⟩, done.map Prod.fst, done⟩
  | requested {request : String} {buf : List Char} (valid : Request request) :
      At answers done (.waiting request)
        ⟨[request], [], ⟨buf, .receiving⟩, done.map Prod.fst ++ [request], done⟩
  | handling {request : String} {buf : List Char} (valid : Request request) :
      At answers done (.waiting request)
        ⟨[], [], ⟨overlay (terminated request.toList) buf, .dispatching⟩,
          done.map Prod.fst ++ [request], done⟩
  | replied {request reply : String} {buf : List Char} (valid : Request request)
      (answer : answers reply) :
      At answers done (.waiting request)
        ⟨[], [reply], ⟨buf, .receiving⟩, done.map Prod.fst ++ [request],
          done ++ [(request, reply)]⟩
  | leaving {farewell : Farewell} {buf : List Char} :
      At answers done (.left farewell)
        ⟨[farewell.text], [], ⟨buf, .receiving⟩, done.map Prod.fst ++ [farewell.text], done⟩
  | ending {farewell : Farewell} {buf : List Char} :
      At answers done (.left farewell)
        ⟨[], [], ⟨overlay (terminated farewell.text.toList) buf, .dispatching⟩,
          done.map Prod.fst ++ [farewell.text], done⟩
  | ended {farewell : Farewell} {buf : List Char} :
      At answers done (.left farewell)
        ⟨[], [], ⟨buf, farewell.status⟩, done.map Prod.fst ++ [farewell.text], done⟩

namespace Link

variable {answers : String → Prop} {done : List (String × String)} {phase : Phase}
  {link after : Link}

theorem at_opened (memory : List Char) : (opened memory).At answers [] .idle := .idle

theorem At.request (position : link.At answers done .idle) {request : String}
    (valid : Request request) : (link.cwrite request).At answers done (.waiting request) := by
  cases position with
  | idle => exact .requested valid

theorem At.leave (position : link.At answers done .idle) (farewell : Farewell) :
    (link.cwrite farewell.text).At answers done (.left farewell) := by
  cases position with
  | idle => exact .leaving

theorem At.reply {request reply : String} (position : link.At answers done (.waiting request))
    (taken : link.cread = some (reply, after)) :
    answers reply ∧ after.At answers (done ++ [(request, reply)]) .idle := by
  cases position with
  | requested | handling => cases taken
  | @replied _ _ buf _ answer =>
      cases taken
      refine ⟨answer, ?_⟩
      have empty := @At.idle answers (done ++ [(request, reply)]) buf
      simpa using empty

theorem At.recv (position : link.At answers done phase) (taken : link.recv = some after) :
    after.At answers done phase := by
  cases position with
  | requested valid =>
      cases taken
      exact .handling valid
  | leaving =>
      cases taken
      exact .ending
  | idle | handling | replied | ending => cases taken
  | @ended farewell => cases farewell <;> cases taken

private theorem answer_farewell (farewell : Farewell) (buf trach : List Char) :
    (⟨overlay (terminated farewell.text.toList) buf, .dispatching⟩ : Session).answer trach =
      (⟨overlay (terminated farewell.text.toList) buf, farewell.status⟩, none) := by
  unfold Session.answer
  rw [dispatch_message]
  cases farewell
  · rw [show messageKind Farewell.close.text.toList = .close by decide]
    rfl
  · rw [show messageKind Farewell.exit.text.toList = .exit by decide]
    rfl

private theorem answer_request {request : String} (valid : Request request)
    (buf trach : List Char) :
    (⟨overlay (terminated request.toList) buf, .dispatching⟩ : Session).answer trach =
      (⟨overlay (terminated request.toList) buf, .receiving⟩, some trach) := by
  unfold Session.answer
  rw [dispatch_message, valid.data]

theorem At.act (position : link.At answers done phase) {trach : String} (answer : answers trach)
    (taken : link.act trach = some after) : after.At answers done phase := by
  cases position with
  | @handling request buf valid =>
      simp only [Link.act, answer_request valid, String.ofList_toList] at taken
      cases taken
      have text : (read (overlay (terminated request.toList) buf)).getD [] = request.toList := by
        rw [read_overlay_terminated valid.free, Option.getD_some]
      simp only [message, text, String.ofList_toList]
      exact .replied valid answer
  | @ending farewell buf =>
      simp only [Link.act, answer_farewell] at taken
      cases taken
      exact .ended
  | idle | requested | replied | leaving => cases taken
  | @ended farewell => cases farewell <;> cases taken

theorem At.exchange (position : link.At answers done .idle) {request : String}
    (valid : Request request) (trach : String) (answer : answers trach) :
    ∃ received answered read, (link.cwrite request).recv = some received ∧
      received.act trach = some answered ∧ answered.cread = some (trach, read) ∧
        read.At answers (done ++ [(request, trach)]) .idle := by
  cases position with
  | @idle buf =>
      have acts : (⟨[], [], ⟨overlay (terminated request.toList) buf, .dispatching⟩,
          done.map Prod.fst ++ [request], done⟩ : Link).act trach = some
            ⟨[], [trach], ⟨overlay (terminated request.toList) buf, .receiving⟩,
              done.map Prod.fst ++ [request], done ++ [(request, trach)]⟩ := by
        have text : (read (overlay (terminated request.toList) buf)).getD [] =
            request.toList := by
          rw [read_overlay_terminated valid.free, Option.getD_some]
        simp [Link.act, answer_request valid, message, text]
      have replied : Link.At answers done (.waiting request)
          ⟨[], [trach], ⟨overlay (terminated request.toList) buf, .receiving⟩,
            done.map Prod.fst ++ [request], done ++ [(request, trach)]⟩ := .replied valid answer
      exact ⟨_, _, _, rfl, acts, rfl, (replied.reply rfl).2⟩

theorem At.exit (position : link.At answers done .idle) :
    ∃ received, (link.cwrite Farewell.exit.text).recv = some received ∧
      received.session.status = .dispatching ∧ dispatch received.session.buf = .exit ∧
        ∀ trach, ∃ exited, received.act trach = some exited := by
  cases position with
  | @idle buf =>
      refine ⟨_, rfl, rfl, dispatch_message _ _, ?_⟩
      intro trach
      exact ⟨_, rfl⟩

theorem At.exiting (position : link.At answers done phase)
    (dispatching : link.session.status = .dispatching)
    (exits : dispatch link.session.buf = .exit) : phase = .left .exit := by
  cases position with
  | idle | requested | replied | leaving => cases dispatching
  | handling valid =>
      rw [dispatch_message, valid.data] at exits
      cases exits
  | @ending farewell =>
      cases farewell with
      | close =>
          rw [dispatch_message] at exits
          cases exits
      | exit => rfl
  | @ended farewell => cases farewell <;> cases dispatching

/-- While its client waits the connection moves: the server thread can take a
step, or the reply is there. -/
theorem At.waiting_moves {request : String} (position : link.At answers done (.waiting request))
    (trach : String) :
    (∃ after, link.recv = some after) ∨ (∃ after, link.act trach = some after) ∨
      ∃ reply after, link.cread = some (reply, after) := by
  cases position with
  | requested => exact .inl ⟨_, rfl⟩
  | handling valid =>
      right
      left
      simp only [Link.act, answer_request valid]
      exact ⟨_, rfl⟩
  | replied => exact .inr (.inr ⟨_, _, rfl⟩)

theorem At.outstanding_idle (position : link.At answers done .idle) : link.outstanding = 0 := by
  cases position with
  | idle => rfl

theorem At.outstanding_left {farewell : Farewell} (position : link.At answers done (.left farewell)) :
    link.outstanding = 0 := by
  cases position with
  | leaving => simp [outstanding, farewell.not_data]
  | ending => simp [outstanding, dispatch_message, farewell.not_data]
  | ended => cases farewell <;> rfl

theorem At.outstanding_waiting {request : String}
    (position : link.At answers done (.waiting request)) : link.outstanding = 1 := by
  cases position with
  | requested valid => simp [outstanding, valid.data]
  | handling valid => simp [outstanding, dispatch_message, valid.data]
  | replied => rfl

theorem At.serving {request : String} (position : link.At answers done (.waiting request)) :
    link.session.status = .receiving ∨ link.session.status = .dispatching := by
  cases position with
  | requested | replied => exact .inl rfl
  | handling => exact .inr rfl

theorem At.not_exited (position : link.At answers done phase) (stays : phase ≠ .left .exit) :
    link.session.status ≠ .exited := by
  cases position with
  | @ended farewell =>
      cases farewell with
      | close =>
          intro impossible
          cases impossible
      | exit => exact absurd rfl stays
  | _ =>
      intro impossible
      cases impossible

theorem At.idle_handled (position : link.At answers done .idle) : link.handled = done := by
  cases position with
  | idle => rfl

theorem At.left_handled {farewell : Farewell} (position : link.At answers done (.left farewell)) :
    link.handled = done := by
  cases position with
  | leaving | ending | ended => rfl

theorem At.left_sent {farewell : Farewell} (position : link.At answers done (.left farewell)) :
    link.sent = done.map Prod.fst ++ [farewell.text] := by
  cases position with
  | leaving | ending | ended => rfl

theorem At.left_quiet {farewell : Farewell} (position : link.At answers done (.left farewell)) :
    link.toClient = [] := by
  cases position with
  | leaving | ending | ended => rfl

theorem At.idle_quiet (position : link.At answers done .idle) : link.toClient = [] := by
  cases position with
  | idle => rfl

theorem At.idle_sent (position : link.At answers done .idle) :
    link.sent = done.map Prod.fst := by
  cases position with
  | idle => rfl

theorem At.waiting_sent {request : String} (position : link.At answers done (.waiting request)) :
    link.sent = done.map Prod.fst ++ [request] := by
  cases position with
  | requested | handling | replied => rfl

theorem At.waiting_handled {request : String}
    (position : link.At answers done (.waiting request)) :
    link.handled = done ∨
      ∃ reply, link.toClient = [reply] ∧ link.handled = done ++ [(request, reply)] := by
  cases position with
  | requested | handling => exact .inl rfl
  | replied => exact .inr ⟨_, rfl, rfl⟩

end Link

end Netwurk.RequestChannel
