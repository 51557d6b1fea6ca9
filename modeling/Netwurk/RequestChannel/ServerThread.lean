/-
The session loop of the data server, one thread for each connection. The loop
ignores what `recv` returns and looks at its buffer, whose tail still holds
bytes of earlier messages, or of the stack before the first one.
-/

import Netwurk.RequestChannel.Message

namespace Netwurk.RequestChannel

open CString

inductive Dispatch where
  | exit
  | close
  | data
  | unknown
deriving DecidableEq

def dispatch (buf : List Char) : Dispatch :=
  if buf[0]? = some '!' then
    if buf[1]? = some '!' then .exit else .close
  else if buf[0]? = some 'd' ∧ buf[1]? = some 'a' ∧ buf[2]? = some 't' ∧ buf[3]? = some 'a' then
    .data
  else .unknown

inductive Status where
  | receiving
  | dispatching
  | closed
  | exited
deriving DecidableEq

structure Session where
  buf : List Char
  status : Status
deriving DecidableEq

/-- `recv` stores what arrived at the start of the buffer; after a failure or an
orderly close nothing is stored and the loop body runs all the same. -/
def Session.recv (session : Session) (received : List Char) : Session :=
  { buf := overlay received session.buf
    status := .dispatching }

def to_string (value : Nat) : List Char := Nat.toDigits 10 value

def unknownStuff : List Char := "unknown stuff".toList

/-- The rest of the loop body, with `trach` for the reply to `data`, and what is sent. -/
def Session.answer (session : Session) (trach : List Char) : Session × Option (List Char) :=
  match dispatch session.buf with
  | .exit => ({ session with status := .exited }, none)
  | .close => ({ session with status := .closed }, none)
  | .data => ({ session with status := .receiving }, some trach)
  | .unknown => ({ session with status := .receiving }, some unknownStuff)

def Session.act (session : Session) (value : Nat) : Session × Option (List Char) :=
  session.answer (to_string value)

def messageKind (msg : List Char) : Dispatch :=
  if ['!', '!'].isPrefixOf msg then .exit
  else if ['!'].isPrefixOf msg then .close
  else if ['d', 'a', 't', 'a'].isPrefixOf msg then .data
  else .unknown

theorem dispatch_message (msg memory : List Char) :
    dispatch (overlay (terminated msg) memory) = messageKind msg := by
  unfold overlay terminated dispatch messageKind
  match msg with
  | [] => simp
  | [c0] => simp [@eq_comm Char '!' c0]
  | [c0, c1] =>
      by_cases first : c0 = '!' <;>
        simp [first, @eq_comm Char '!' c0, @eq_comm Char '!' c1]
  | [c0, c1, c2] =>
      by_cases first : c0 = '!' <;>
        simp [first, @eq_comm Char '!' c0, @eq_comm Char '!' c1]
  | c0 :: c1 :: c2 :: c3 :: rest =>
      by_cases first : c0 = '!' <;>
        simp [first, @eq_comm Char '!' c0, @eq_comm Char '!' c1, @eq_comm Char 'd' c0,
          @eq_comm Char 'a' c1, @eq_comm Char 't' c2, @eq_comm Char 'a' c3]

theorem digitChar_isDigit {c : Char} {value : Nat} (member : c ∈ to_string value) :
    c.isDigit = true :=
  Nat.isDigit_of_mem_toDigits (by decide) (by decide) member

theorem to_string_nulFree (value : Nat) : NulFree (to_string value) := by
  intro member
  have digit := digitChar_isDigit member
  cases digit

theorem to_string_length {value : Nat} (small : value < 100) :
    (to_string value).length ≤ 2 :=
  (Nat.length_toDigits_le_iff (by decide) (by decide)).mpr small

end Netwurk.RequestChannel
