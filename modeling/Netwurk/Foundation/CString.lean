/-
Strings that end at their first NUL, in fixed memory. A `char` is a `Char` here;
nothing depends on there being only 256 of them.
-/

import Mathlib.Data.List.Basic

namespace Netwurk.CString

def NulFree (text : List Char) : Prop := '\x00' ∉ text

instance (text : List Char) : Decidable (NulFree text) :=
  inferInstanceAs (Decidable ('\x00' ∉ text))

def terminated (text : List Char) : List Char := text ++ ['\x00']

/-- The string that starts at the first byte; there is none when no terminator
lies in the memory. -/
def read : List Char → Option (List Char)
  | [] => none
  | c :: rest => if c = '\x00' then some [] else (read rest).map (c :: ·)

/-- Memory after `bytes` have been stored from its first index on. -/
def overlay (bytes memory : List Char) : List Char :=
  bytes ++ memory.drop bytes.length

theorem terminated_length (text : List Char) :
    (terminated text).length = text.length + 1 :=
  List.length_append

theorem read_append_nul {text : List Char} (free : NulFree text) (rest : List Char) :
    read (text ++ '\x00' :: rest) = some text := by
  induction text with
  | nil => rfl
  | cons c text ih =>
      have differs : c ≠ '\x00' := fun same => free (by rw [same]; exact List.mem_cons_self)
      have tailFree : NulFree text := fun member => free (List.mem_cons_of_mem c member)
      rw [List.cons_append, read, if_neg differs, ih tailFree]
      rfl

theorem read_terminated {text : List Char} (free : NulFree text) :
    read (terminated text) = some text :=
  read_append_nul free []

theorem read_overlay_terminated {text : List Char} (free : NulFree text)
    (memory : List Char) : read (overlay (terminated text) memory) = some text := by
  unfold overlay terminated
  rw [List.append_assoc]
  exact read_append_nul free _

theorem read_eq_some {memory text : List Char} :
    read memory = some text ↔ NulFree text ∧ ∃ rest, memory = text ++ '\x00' :: rest := by
  constructor
  · intro found
    induction memory generalizing text with
    | nil => cases found
    | cons c memory ih =>
        unfold read at found
        by_cases ends : c = '\x00'
        · rw [if_pos ends] at found
          cases found
          exact ⟨List.not_mem_nil, memory, by rw [ends]; rfl⟩
        · rw [if_neg ends] at found
          obtain ⟨tail, foundTail, same⟩ := Option.map_eq_some_iff.mp found
          obtain ⟨free, rest, split⟩ := ih foundTail
          subst same
          refine ⟨?_, rest, by rw [split]; rfl⟩
          intro member
          rcases List.mem_cons.mp member with first | later
          · exact ends first.symm
          · exact free later
  · intro both
    obtain ⟨free, rest, split⟩ := both
    rw [split]
    exact read_append_nul free rest

theorem overlay_take_length (bytes memory : List Char) :
    (overlay bytes memory).take bytes.length = bytes := by
  unfold overlay
  exact List.take_left

end Netwurk.CString
