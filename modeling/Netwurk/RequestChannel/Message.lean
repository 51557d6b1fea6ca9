/-
One message through `cwrite` and `cread`, for the network channel and for the
FIFO channel. A message occupies one byte more than its text; `sprintf` and the
two fixed buffers decide what of it arrives.
-/

import Netwurk.Foundation.CString
import Mathlib.Data.List.TakeWhile

namespace Netwurk.RequestChannel

open CString

def MAX_MESSAGE : Nat := 255

/-- The bytes a `sprintf` without further arguments produces from its format.
A directive other than `%%` would read an argument that was not passed, or is
not a directive at all; the result is then undefined. -/
def sprintf : List Char → Option (List Char)
  | [] => some []
  | '%' :: '%' :: rest => (sprintf rest).map ('%' :: ·)
  | '%' :: _ => none
  | c :: rest => (sprintf rest).map (c :: ·)

def c_str (msg : List Char) : List Char := msg.takeWhile (· ≠ '\x00')

/-- `stored` bytes are written to the writer's buffer from index 0 on, `handed`
is what `send` or `write` is given, and `returned` is the code. -/
structure Cwrite where
  stored : Nat
  handed : List Char
  returned : Int
deriving DecidableEq

def writeMessage (accepted : Bool) (msg : List Char) (stored : Nat) (memory : List Char) :
    Cwrite :=
  { stored := stored
    handed := memory.take (msg.length + 1)
    returned := if accepted then 0 else -1 }

def refused : Cwrite :=
  { stored := 0
    handed := []
    returned := -2 }

/-- `accepted` is whether `send` succeeds; `buf` holds what the stack held. -/
def NetworkRequestChannel.cwrite (accepted : Bool) (buf msg : List Char) : Option Cwrite :=
  if msg.length > MAX_MESSAGE then some refused
  else match sprintf (c_str msg) with
    | none => none
    | some out =>
        some (writeMessage accepted msg (out.length + 1) (overlay (terminated out) buf))

/-- The FIFO channel writes from the string itself, which ends with a NUL. -/
def FIFOrc.cwrite (accepted : Bool) (msg : List Char) : Option Cwrite :=
  if msg.length > MAX_MESSAGE then some refused
  else some (writeMessage accepted msg 0 (terminated msg))

/-- A failed `recv` ends the process; a buffer without a NUL is read past its
end; `looked` counts the bytes of the buffer that were inspected. -/
inductive Cread where
  | exits
  | undefined
  | returns (s : List Char) (looked : Nat)
deriving DecidableEq

/-- Both channels: one `recv` or `read` of at most `MAX_MESSAGE` bytes into an
uninitialised buffer, then the string up to the first NUL. -/
def readMessage (buf received : List Char) : Cread :=
  if received.length ≤ 0 then .exits
  else match read (overlay received buf) with
    | none => .undefined
    | some s => .returns s (s.length + 1)

def NetworkRequestChannel.cread (buf received : List Char) : Cread := readMessage buf received

def FIFOrc.cread (buf received : List Char) : Cread := readMessage buf received

theorem sprintf_cons {c : Char} (plain : c ≠ '%') (rest : List Char) :
    sprintf (c :: rest) = (sprintf rest).map (c :: ·) := by
  rw [sprintf]
  · rintro _ rfl _
    exact plain rfl
  · exact plain

theorem sprintf_plain {format : List Char} (plain : '%' ∉ format) :
    sprintf format = some format := by
  induction format with
  | nil => rfl
  | cons c rest ih =>
      have differs : c ≠ '%' := fun same => plain (by rw [same]; exact List.mem_cons_self)
      have tailPlain : '%' ∉ rest := fun member => plain (List.mem_cons_of_mem c member)
      rw [sprintf_cons differs, ih tailPlain]
      rfl

/-- The output never grows, keeps NUL-freeness, and is shorter than a format
that contains a directive. -/
theorem sprintf_output {format out : List Char} (printed : sprintf format = some out)
    (free : NulFree format) :
    NulFree out ∧ out.length ≤ format.length ∧
      ('%' ∈ format → out.length < format.length) := by
  induction format using sprintf.induct generalizing out with
  | case1 =>
      cases printed
      exact ⟨free, Nat.le_refl _, fun member => absurd member List.not_mem_nil⟩
  | case2 rest ih =>
      rw [sprintf] at printed
      obtain ⟨tail, printedTail, same⟩ := Option.map_eq_some_iff.mp printed
      have tailFree : NulFree rest := fun member =>
        free (List.mem_cons_of_mem _ (List.mem_cons_of_mem _ member))
      obtain ⟨outFree, bounded, _⟩ := ih printedTail tailFree
      subst same
      refine ⟨?_, ?_, fun _ => ?_⟩
      · intro member
        rcases List.mem_cons.mp member with first | later
        · cases first
        · exact outFree later
      · simp only [List.length_cons]
        omega
      · simp only [List.length_cons]
        omega
  | case3 rest _ =>
      rw [sprintf] at printed
      · cases printed
      · assumption
  | case4 c rest _ plain ih =>
      rw [sprintf_cons plain] at printed
      obtain ⟨tail, printedTail, same⟩ := Option.map_eq_some_iff.mp printed
      have tailFree : NulFree rest := fun member => free (List.mem_cons_of_mem _ member)
      obtain ⟨outFree, bounded, shrinks⟩ := ih printedTail tailFree
      subst same
      refine ⟨?_, ?_, ?_⟩
      · intro member
        rcases List.mem_cons.mp member with first | later
        · exact free (by rw [first]; exact List.mem_cons_self)
        · exact outFree later
      · simp only [List.length_cons]
        omega
      · intro member
        rcases List.mem_cons.mp member with first | later
        · exact absurd first.symm plain
        · have shorter := shrinks later
          simp only [List.length_cons]
          omega

theorem c_str_of_nulFree {msg : List Char} (free : NulFree msg) : c_str msg = msg := by
  unfold c_str
  rw [List.takeWhile_eq_self_iff]
  intro c member
  have differs : c ≠ '\x00' := fun same => free (same ▸ member)
  simpa using differs

/-! ### When a message arrives as it was written -/

/-- The writer stays in its buffer and sends the text and one NUL; the reader,
given all of it up to its limit, returns the text, inspects only received
bytes and leaves nothing for the next read. -/
def Delivered (write : Option Cwrite) (reader : List Char → Cread) (msg : List Char) : Prop :=
  ∃ written looked, write = some written ∧
    written.stored ≤ MAX_MESSAGE ∧
    written.handed = terminated msg ∧
    reader (written.handed.take MAX_MESSAGE) = .returns msg looked ∧
    looked ≤ (written.handed.take MAX_MESSAGE).length ∧
    written.handed.drop MAX_MESSAGE = []

private theorem read_back {msg : List Char} (free : NulFree msg)
    (short : msg.length < MAX_MESSAGE) (buf : List Char) :
    readMessage buf ((terminated msg).take MAX_MESSAGE) = .returns msg (msg.length + 1) ∧
      msg.length + 1 ≤ ((terminated msg).take MAX_MESSAGE).length ∧
      (terminated msg).drop MAX_MESSAGE = [] := by
  have whole : (terminated msg).take MAX_MESSAGE = terminated msg :=
    List.take_of_length_le (by rw [terminated_length]; exact short)
  have rest : (terminated msg).drop MAX_MESSAGE = [] :=
    List.drop_of_length_le (by rw [terminated_length]; exact short)
  rw [whole]
  refine ⟨?_, Nat.le_of_eq (terminated_length msg).symm, rest⟩
  have nonempty : ¬(terminated msg).length ≤ 0 := by
    rw [terminated_length]
    omega
  unfold readMessage
  rw [if_neg nonempty, read_overlay_terminated free]

private theorem handed_terminated (accepted : Bool) (msg : List Char) (stored : Nat)
    (buf : List Char) :
    (writeMessage accepted msg stored (overlay (terminated msg) buf)).handed =
      terminated msg := by
  unfold writeMessage
  rw [← terminated_length]
  exact overlay_take_length _ _

/-- At the length limit the terminator is the byte the reader does not take. -/
theorem not_delivered_of_full {write : Option Cwrite} {reader : List Char → Cread}
    {msg : List Char} (full : msg.length = MAX_MESSAGE) : ¬ Delivered write reader msg := by
  intro both
  obtain ⟨written, looked, _, _, handed, _, _, rest⟩ := both
  have length := congrArg List.length rest
  rw [handed, List.length_drop, terminated_length, full] at length
  simp at length

theorem network_delivered {msg : List Char} (free : NulFree msg)
    (short : msg.length < MAX_MESSAGE) (plain : '%' ∉ msg) (accepted : Bool)
    (buf readerBuf : List Char) :
    Delivered (NetworkRequestChannel.cwrite accepted buf msg)
      (NetworkRequestChannel.cread readerBuf) msg := by
  have fits : ¬ msg.length > MAX_MESSAGE := by omega
  have written : NetworkRequestChannel.cwrite accepted buf msg =
      some (writeMessage accepted msg (msg.length + 1) (overlay (terminated msg) buf)) := by
    simp only [NetworkRequestChannel.cwrite, if_neg fits, c_str_of_nulFree free,
      sprintf_plain plain]
  refine ⟨_, msg.length + 1, written, short, handed_terminated accepted msg _ buf, ?_⟩
  rw [handed_terminated]
  exact read_back free short readerBuf

theorem network_not_delivered_of_directive {msg : List Char} (free : NulFree msg)
    (directive : '%' ∈ msg) (accepted : Bool) (buf : List Char) (reader : List Char → Cread) :
    ¬ Delivered (NetworkRequestChannel.cwrite accepted buf msg) reader msg := by
  intro both
  obtain ⟨written, looked, write, _, handed, _, _, _⟩ := both
  unfold NetworkRequestChannel.cwrite at write
  rw [c_str_of_nulFree free] at write
  by_cases long : msg.length > MAX_MESSAGE
  · rw [if_pos long] at write
    cases write
    have length := congrArg List.length handed
    rw [terminated_length] at length
    simp [refused] at length
  · rw [if_neg long] at write
    cases printed : sprintf msg with
    | none =>
        rw [printed] at write
        cases write
    | some out =>
        rw [printed] at write
        cases write
        obtain ⟨outFree, _, shorter⟩ := sprintf_output printed free
        have fewer := shorter directive
        -- the terminator of the output ends the string before the message does
        have cut : (overlay (terminated out) buf).take (msg.length + 1) =
            out ++ '\x00' :: (buf.drop (terminated out).length).take
              (msg.length - out.length) := by
          have split : msg.length + 1 =
              (terminated out).length + (msg.length - out.length) := by
            rw [terminated_length]
            omega
          rw [split, overlay, List.take_length_add_append]
          simp [terminated]
        have same : some out = some msg := by
          rw [← read_append_nul outFree, ← cut]
          exact (congrArg read handed).trans (read_terminated free)
        rw [Option.some.inj same] at fewer
        exact Nat.lt_irrefl _ fewer

theorem fifo_delivered {msg : List Char} (free : NulFree msg)
    (short : msg.length < MAX_MESSAGE) (accepted : Bool) (readerBuf : List Char) :
    Delivered (FIFOrc.cwrite accepted msg) (FIFOrc.cread readerBuf) msg := by
  have fits : ¬ msg.length > MAX_MESSAGE := by omega
  have handed : (writeMessage accepted msg 0 (terminated msg)).handed = terminated msg :=
    List.take_of_length_le (Nat.le_of_eq (terminated_length msg))
  refine ⟨writeMessage accepted msg 0 (terminated msg), msg.length + 1, ?_,
    Nat.zero_le _, handed, ?_⟩
  · unfold FIFOrc.cwrite
    rw [if_neg fits]
  · rw [handed]
    exact read_back free short readerBuf

/-- For every NUL-free message that passes the length check, whatever the two
stack buffers held: the network channel delivers it exactly if it is below the
limit and has no `%`, the FIFO channel exactly if it is below the limit. -/
theorem delivered_iff (msg : List Char) (free : NulFree msg) (accepts : msg.length ≤ MAX_MESSAGE)
    (accepted : Bool) (buf readerBuf : List Char) :
    (Delivered (NetworkRequestChannel.cwrite accepted buf msg)
        (NetworkRequestChannel.cread readerBuf) msg ↔
      msg.length < MAX_MESSAGE ∧ '%' ∉ msg) ∧
    (Delivered (FIFOrc.cwrite accepted msg) (FIFOrc.cread readerBuf) msg ↔
      msg.length < MAX_MESSAGE) := by
  have below {write : Option Cwrite} {reader : List Char → Cread}
      (delivered : Delivered write reader msg) : msg.length < MAX_MESSAGE := by
    rcases Nat.lt_or_eq_of_le accepts with short | full
    · exact short
    · exact absurd delivered (not_delivered_of_full full)
  refine ⟨⟨fun delivered => ⟨below delivered, fun directive => ?_⟩, ?_⟩, below, ?_⟩
  · exact network_not_delivered_of_directive free directive accepted buf _ delivered
  · intro both
    obtain ⟨short, plain⟩ := both
    exact network_delivered free short plain accepted buf readerBuf
  · intro short
    exact fifo_delivered free short accepted readerBuf

theorem delivered_iff_request :
    Delivered
        (NetworkRequestChannel.cwrite true (List.replicate 255 'x') "data Joe Smith".toList)
        (NetworkRequestChannel.cread (List.replicate 255 'y')) "data Joe Smith".toList ∧
      Delivered (FIFOrc.cwrite true "data Joe Smith".toList)
        (FIFOrc.cread (List.replicate 255 'y')) "data Joe Smith".toList :=
  have both := delivered_iff "data Joe Smith".toList (by decide) (by decide) true
    (List.replicate 255 'x') (List.replicate 255 'y')
  ⟨both.1.mpr (by decide), both.2.mpr (by decide)⟩

/-- A message of exactly `MAX_MESSAGE` characters passes the check and is not
delivered by either channel; `%%` is not delivered by the network channel. -/
theorem full_message_not_delivered :
    NulFree (List.replicate 255 'a') ∧ (List.replicate 255 'a').length ≤ MAX_MESSAGE ∧
      (¬ Delivered
        (NetworkRequestChannel.cwrite true (List.replicate 255 'x') (List.replicate 255 'a'))
        (NetworkRequestChannel.cread (List.replicate 255 'y')) (List.replicate 255 'a')) ∧
      (¬ Delivered (FIFOrc.cwrite true (List.replicate 255 'a'))
        (FIFOrc.cread (List.replicate 255 'y')) (List.replicate 255 'a')) ∧
      ¬ Delivered (NetworkRequestChannel.cwrite true (List.replicate 255 'x') ['%', '%'])
        (NetworkRequestChannel.cread (List.replicate 255 'y')) ['%', '%'] :=
  ⟨fun member => absurd (List.eq_of_mem_replicate member) (by decide),
    Nat.le_of_eq List.length_replicate, not_delivered_of_full List.length_replicate,
    not_delivered_of_full List.length_replicate,
    network_not_delivered_of_directive (by decide) (by decide) true _ _⟩

end Netwurk.RequestChannel
