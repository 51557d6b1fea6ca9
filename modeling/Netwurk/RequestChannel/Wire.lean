/-
A connection as two byte streams with the two loops at its ends. It carries at most
one message at a time, so as long as no `recv` ends inside a message it is the
connection on which whole messages are delivered.
-/

import Netwurk.RequestChannel.ByteStream
import Netwurk.RequestChannel.Connection

namespace Netwurk.RequestChannel

open CString
open ByteStream (Receivable)

/-- The messages among bytes that are on their way, each of them up to its NUL. -/
def messages (bytes : List Char) : List String :=
  (bytes.splitOn '\x00').dropLast.map String.ofList

structure Plain (msg : String) : Prop where
  free : NulFree msg.toList
  short : msg.toList.length < MAX_MESSAGE

def onTheWay (msgs : List String) : List Char := msgs.flatMap fun msg => terminated msg.toList

def Framed (bytes : List Char) : Prop :=
  ∃ msgs : List String, (∀ msg ∈ msgs, Plain msg) ∧ bytes = onTheWay msgs

/-- A `recv` of `count` bytes does not end inside the first message. -/
def Whole (available : List Char) (count : Nat) : Prop := '\x00' ∈ available.take count

instance (available : List Char) (count : Nat) : Decidable (Whole available count) :=
  inferInstanceAs (Decidable ('\x00' ∈ available.take count))

theorem messages_onTheWay {msgs : List String} (plain : ∀ msg ∈ msgs, Plain msg) :
    messages (onTheWay msgs) = msgs := by
  induction msgs with
  | nil => rfl
  | cons msg msgs ih =>
      have rest := ih fun other member => plain other (List.mem_cons_of_mem msg member)
      have free := (plain msg List.mem_cons_self).free
      have split : (onTheWay (msg :: msgs)).splitOn '\x00' =
          msg.toList :: (onTheWay msgs).splitOn '\x00' := by
        rw [onTheWay, List.flatMap_cons, terminated, List.append_assoc]
        exact List.splitOn_append_cons_self_of_not_mem free _
      rw [messages, split, List.dropLast_cons_of_ne_nil (List.splitOn_ne_nil '\x00' _),
        List.map_cons, String.ofList_toList]
      exact congrArg (msg :: ·) rest

theorem framed_nil : Framed [] := ⟨[], fun _ none => absurd none List.not_mem_nil, rfl⟩

theorem Framed.eq_onTheWay {bytes : List Char} (framed : Framed bytes) :
    bytes = onTheWay (messages bytes) := by
  obtain ⟨msgs, plain, rfl⟩ := framed
  rw [messages_onTheWay plain]

theorem Framed.plain {bytes : List Char} (framed : Framed bytes) :
    ∀ msg ∈ messages bytes, Plain msg := by
  obtain ⟨msgs, plain, rfl⟩ := framed
  rw [messages_onTheWay plain]
  exact plain

theorem Framed.send {bytes : List Char} (framed : Framed bytes) {msg : String}
    (plain : Plain msg) :
    Framed (bytes ++ terminated msg.toList) ∧
      messages (bytes ++ terminated msg.toList) = messages bytes ++ [msg] := by
  obtain ⟨msgs, all, rfl⟩ := framed
  have longer : ∀ other ∈ msgs ++ [msg], Plain other := by
    intro other member
    rcases List.mem_append.mp member with before | last
    · exact all other before
    · rw [List.mem_singleton.mp last]
      exact plain
  have joined : onTheWay msgs ++ terminated msg.toList = onTheWay (msgs ++ [msg]) := by
    rw [onTheWay, onTheWay, List.flatMap_append, List.flatMap_singleton]
  rw [joined, messages_onTheWay longer, messages_onTheWay all]
  exact ⟨⟨_, longer, rfl⟩, rfl⟩

theorem Framed.nothing {bytes : List Char} (framed : Framed bytes)
    (nothing : messages bytes = []) : bytes = [] := by
  rw [framed.eq_onTheWay, nothing]
  rfl

theorem Framed.single {bytes : List Char} (framed : Framed bytes) {msg : String}
    {rest : List String} (single : (messages bytes).length ≤ 1)
    (arriving : messages bytes = msg :: rest) :
    rest = [] ∧ bytes = terminated msg.toList ∧ Plain msg := by
  rw [arriving] at single
  have alone : rest = [] :=
    List.length_eq_zero_iff.mp (Nat.le_zero.mp (Nat.le_of_succ_le_succ single))
  subst alone
  refine ⟨rfl, ?_, ?_⟩
  · rw [framed.eq_onTheWay, arriving]
    exact List.append_nil _
  · apply framed.plain
    rw [arriving]
    exact List.mem_singleton_self msg

theorem Whole.count {msg : String} (plain : Plain msg) {count : Nat}
    (whole : Whole (terminated msg.toList) count)
    (bound : count ≤ (terminated msg.toList).length) : count = msg.toList.length + 1 := by
  rw [terminated_length] at bound
  apply Nat.le_antisymm bound
  apply Nat.lt_of_not_le
  intro less
  rw [Whole, terminated, List.take_append_of_le_length less] at whole
  exact plain.free (List.mem_of_mem_take whole)

theorem Plain.whole {msg : String} : Whole (terminated msg.toList) (msg.toList.length + 1) := by
  rw [Whole, ByteStream.take_terminated]
  exact List.mem_append_right _ (List.mem_singleton_self _)

theorem Plain.receivable {msg : String} (plain : Plain msg) :
    Receivable (terminated msg.toList) (msg.toList.length + 1) :=
  ⟨Nat.le_add_left 1 _, plain.short, Nat.le_of_eq (terminated_length _).symm⟩

/-! ### The connection -/

inductive Result (Value : Type) where
  | returns (value : Value)
  | exits
  | undefined
  | blocks
deriving DecidableEq

/-- The bytes on their way, the server thread, and the records of `Link`. -/
structure Wire where
  toServer : List Char
  toClient : List Char
  session : Session
  sent : List String
  handled : List (String × String)
deriving DecidableEq

namespace Wire

def opened (memory : List Char) : Wire :=
  { toServer := []
    toClient := []
    session := { buf := memory, status := .receiving }
    sent := []
    handled := [] }

/-- `buf` is what the stack held where the buffer of the function lies. -/
def cwrite (wire : Wire) (buf : List Char) (msg : String) : Result Wire :=
  match NetworkRequestChannel.cwrite true buf msg.toList with
  | none => .undefined
  | some written =>
      if written.returned < 0 then .exits
      else
        .returns { wire with
          toServer := wire.toServer ++ written.handed
          sent := wire.sent ++ [msg] }

/-- One `recv` of `count` bytes. When the server has gone, it returns 0 as soon as
there are no bytes left. -/
def cread (wire : Wire) (gone : Bool) (count : Nat) (buf : List Char) : Result (String × Wire) :=
  if Receivable wire.toClient count ∨ (gone = true ∧ wire.toClient = [] ∧ count = 0) then
    match NetworkRequestChannel.cread buf (wire.toClient.take count) with
    | .returns s _ =>
        .returns (String.ofList s, { wire with toClient := wire.toClient.drop count })
    | .exits => .exits
    | .undefined => .undefined
  else .blocks

def recv (wire : Wire) (count : Nat) : Option Wire :=
  if wire.session.status = .receiving ∧ Receivable wire.toServer count then some
    { wire with
      toServer := wire.toServer.drop count
      session := wire.session.recv (wire.toServer.take count) }
  else none

def message (wire : Wire) : String :=
  String.ofList ((CString.read wire.session.buf).getD [])

def act (wire : Wire) (trach : String) : Option Wire :=
  if wire.session.status = .dispatching then
    match wire.session.answer trach.toList with
    | (session, none) => some { wire with session := session }
    | (session, some reply) => some
        { wire with
          session := session
          toClient := wire.toClient ++ terminated reply
          handled := wire.handled ++ [(wire.message, String.ofList reply)] }
  else none

/-- The connection with its messages in place of the bytes. -/
def view (wire : Wire) : Link :=
  { toServer := messages wire.toServer
    toClient := messages wire.toClient
    session := wire.session
    sent := wire.sent
    handled := wire.handled }

structure Framed (wire : Wire) : Prop where
  toServer : RequestChannel.Framed wire.toServer
  toClient : RequestChannel.Framed wire.toClient

theorem framed_opened (memory : List Char) : (opened memory).Framed := ⟨framed_nil, framed_nil⟩

end Wire

theorem Link.At.single {answers : String → Prop} {done : List (String × String)} {phase : Phase}
    {link : Link} (position : link.At answers done phase) :
    link.toServer.length + link.toClient.length ≤ 1 := by
  cases position with
  | idle | handling | ending | ended => exact Nat.zero_le 1
  | requested | replied | leaving => exact Nat.le_refl 1

namespace Wire

variable {wire after : Wire} {count : Nat}

theorem recv_view (framed : wire.Framed) (single : wire.view.toServer.length ≤ 1)
    (whole : Whole wire.toServer count) (taken : wire.recv count = some after) :
    wire.view.recv = some after.view ∧ after.Framed := by
  unfold recv at taken
  split at taken <;> cases taken
  rename_i both
  obtain ⟨receiving, receivable⟩ := both
  cases arriving : messages wire.toServer with
  | nil =>
      rw [framed.toServer.nothing arriving] at receivable
      have none := receivable.2.2
      have some := receivable.1
      exact absurd (Nat.le_trans some none) (Nat.not_succ_le_zero 0)
  | cons msg rest =>
      obtain ⟨rfl, bytes, plain⟩ := framed.toServer.single single arriving
      rw [bytes] at whole receivable
      have all := whole.count plain receivable.2.2
      subst all
      constructor
      · simp only [Link.recv, view, receiving, arriving]
        rw [bytes, ByteStream.take_terminated, ByteStream.drop_terminated]
        rfl
      · refine ⟨?_, framed.toClient⟩
        simp only [bytes, ByteStream.drop_terminated]
        exact framed_nil

theorem exists_recv (framed : wire.Framed) (single : wire.view.toServer.length ≤ 1) {link : Link}
    (taken : wire.view.recv = some link) :
    ∃ count after, Whole wire.toServer count ∧ wire.recv count = some after := by
  unfold Link.recv at taken
  split at taken <;> cases taken
  rename_i msg rest receiving arriving
  obtain ⟨rfl, bytes, plain⟩ := framed.toServer.single single arriving
  refine ⟨msg.toList.length + 1, _, bytes ▸ Plain.whole, if_pos ⟨receiving, ?_⟩⟩
  rw [bytes]
  exact plain.receivable

theorem unknownStuff_plain : Plain (String.ofList unknownStuff) := ⟨by decide, by decide⟩

theorem act_view (framed : wire.Framed) {trach : String} (plain : Plain trach) :
    (wire.act trach).map view = wire.view.act trach ∧
      ∀ after, wire.act trach = some after → after.Framed := by
  have replied : ∀ session reply, wire.session.answer trach.toList = (session, some reply) →
      Plain (String.ofList reply) := by
    intro session reply answered
    unfold Session.answer at answered
    split at answered <;> cases answered
    · rw [String.ofList_toList]
      exact plain
    · exact unknownStuff_plain
  unfold act Link.act
  by_cases dispatching : wire.session.status = .dispatching
  · rw [if_pos dispatching, if_pos (show wire.view.session.status = .dispatching from dispatching)]
    cases answered : wire.session.answer trach.toList with
    | mk session sent =>
        have viewed : wire.view.session.answer trach.toList = (session, sent) := answered
        cases sent with
        | none =>
            simp only [viewed]
            refine ⟨rfl, ?_⟩
            rintro after ⟨⟩
            exact ⟨framed.toServer, framed.toClient⟩
        | some reply =>
            have sends := framed.toClient.send (replied session reply answered)
            rw [String.toList_ofList] at sends
            simp only [viewed, Option.map_some]
            constructor
            · simp only [view, sends.2]
              rfl
            · rintro after ⟨⟩
              exact ⟨framed.toServer, sends.1⟩
  · rw [if_neg dispatching, if_neg (show ¬ wire.view.session.status = .dispatching from dispatching)]
    exact ⟨rfl, fun _ impossible => by cases impossible⟩

theorem cwrite_view (framed : wire.Framed) {msg : String} (plain : Plain msg)
    (percentFree : '%' ∉ msg.toList) (buf : List Char) :
    ∃ after, wire.cwrite buf msg = .returns after ∧ after.view = wire.view.cwrite msg ∧
      after.Framed := by
  obtain ⟨written, _, write, _, handed, _⟩ :=
    network_delivered plain.free plain.short percentFree true buf []
  have accepted : written.returned = 0 := by
    unfold NetworkRequestChannel.cwrite at write
    rw [if_neg (Nat.not_lt_of_lt plain.short)] at write
    split at write <;> cases write
    rfl
  have sends := framed.toServer.send plain
  refine ⟨{ wire with
    toServer := wire.toServer ++ written.handed
    sent := wire.sent ++ [msg] }, ?_, ?_, ?_⟩
  · simp only [cwrite, write, accepted, Int.lt_irrefl, if_false]
  · simp only [view, handed, sends.2]
    rfl
  · simp only [handed]
    exact ⟨sends.1, framed.toClient⟩

theorem cread_gone (nothing : wire.toClient = []) (buf : List Char) :
    wire.cread true 0 buf = .exits := by
  rw [cread, if_pos (.inr ⟨rfl, nothing, rfl⟩), nothing, List.take_nil]
  rfl

/-- `cread` returns the message that has arrived, and ends the process when there is
none and will be none. -/
theorem cread_view (framed : wire.Framed) (single : wire.view.toClient.length ≤ 1) (gone : Bool)
    (whole : wire.toClient ≠ [] → Whole wire.toClient count) (buf : List Char) :
    (∃ s after, wire.cread gone count buf = .returns (s, after) ∧
        wire.view.cread = some (s, after.view) ∧ after.Framed) ∨
      (wire.cread gone count buf = .exits ∧ gone = true ∧ wire.view.cread = none) ∨
        wire.cread gone count buf = .blocks := by
  cases arriving : messages wire.toClient with
  | nil =>
      have empty := framed.toClient.nothing arriving
      right
      by_cases ended : gone = true ∧ count = 0
      · left
        refine ⟨?_, ended.1, by simp only [Link.cread, view, arriving]⟩
        rw [ended.1, ended.2]
        exact cread_gone empty buf
      · right
        apply if_neg
        rintro (receivable | closed)
        · have bound := Nat.le_trans receivable.1 receivable.2.2
          rw [empty] at bound
          exact absurd bound (Nat.not_succ_le_zero 0)
        · exact ended ⟨closed.1, closed.2.2⟩
  | cons reply rest =>
      obtain ⟨rfl, bytes, plain⟩ := framed.toClient.single single arriving
      have nonempty : wire.toClient ≠ [] := by
        rw [bytes]
        exact List.append_ne_nil_of_right_ne_nil _ (List.cons_ne_nil _ _)
      by_cases receivable : Receivable wire.toClient count
      · left
        have complete := whole nonempty
        rw [bytes] at complete
        have all := complete.count plain (bytes ▸ receivable.2.2)
        subst all
        refine ⟨reply, { wire with toClient := [] }, ?_, ?_, framed.toServer, framed_nil⟩
        · have read : NetworkRequestChannel.cread buf (terminated reply.toList) =
              .returns reply.toList (reply.toList.length + 1) := by
            have nonzero : ¬ (terminated reply.toList).length ≤ 0 := by
              rw [terminated_length]
              exact Nat.not_succ_le_zero _
            unfold NetworkRequestChannel.cread readMessage
            rw [if_neg nonzero, read_overlay_terminated plain.free]
          rw [cread, if_pos (.inl receivable), bytes, ByteStream.take_terminated,
            ByteStream.drop_terminated, read]
          simp only [String.ofList_toList]
        · simp only [Link.cread, view, arriving]
          rfl
      · right
        right
        apply if_neg
        rintro (now | closed)
        · exact receivable now
        · exact nonempty closed.2.1

theorem exists_cread (framed : wire.Framed) (single : wire.view.toClient.length ≤ 1) (gone : Bool)
    {reply : String} {link : Link} (taken : wire.view.cread = some (reply, link))
    (buf : List Char) :
    ∃ count s after, Whole wire.toClient count ∧
      wire.cread gone count buf = .returns (s, after) := by
  unfold Link.cread at taken
  split at taken <;> cases taken
  rename_i rest arriving
  obtain ⟨rfl, bytes, plain⟩ := framed.toClient.single single arriving
  have whole : Whole wire.toClient (reply.toList.length + 1) := bytes ▸ Plain.whole
  have receivable : Receivable wire.toClient (reply.toList.length + 1) := bytes ▸ plain.receivable
  rcases wire.cread_view framed single gone (fun _ => whole) buf with returned | exits | blocks
  · obtain ⟨s, after, returned, _⟩ := returned
    exact ⟨_, s, after, whole, returned⟩
  · have nothing := exits.2.2
    rw [Link.cread, arriving] at nothing
    cases nothing
  · rw [cread, if_pos (.inl receivable)] at blocks
    split at blocks <;> cases blocks

end Wire

end Netwurk.RequestChannel
