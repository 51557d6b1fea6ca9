/-
A counter that hands out numbers in two steps: it is incremented, and read back
later. Numbers stay apart exactly while no increment falls between another
increment and its read.
-/

import Mathlib.Data.List.Perm.Subperm
import Mathlib.Data.List.Sort
import Mathlib.Data.List.Range
import Mathlib.Data.List.Nodup
import Netwurk.Foundation.Transition

namespace Netwurk.TicketCounter

open Transition

/-- `pending` increments have not been read back; `issued` are the numbers read so far. -/
structure Tickets where
  count : Nat
  pending : Nat
  issued : List Nat

inductive Label where
  | increment
  | read
deriving DecidableEq

namespace Tickets

def next (tickets : Tickets) : Label → Option Tickets
  | .increment =>
      some { tickets with
        count := tickets.count + 1
        pending := tickets.pending + 1 }
  | .read =>
      if tickets.pending = 0 then none
      else some { tickets with
        pending := tickets.pending - 1
        issued := tickets.issued ++ [tickets.count] }

def counter : System Tickets Label where
  start := fun tickets => tickets = { count := 0, pending := 0, issued := [] }
  next := next

structure Sound (tickets : Tickets) : Prop where
  total : tickets.pending + tickets.issued.length = tickets.count
  bounded : ∀ number ∈ tickets.issued, 1 ≤ number ∧ number ≤ tickets.count
  ascending : tickets.issued.Pairwise (· ≤ ·)

variable {tickets after : Tickets}

theorem Sound.step (sound : tickets.Sound) {label : Label}
    (taken : next tickets label = some after) : after.Sound := by
  cases label with
  | increment =>
      cases taken
      refine ⟨?_, ?_, sound.ascending⟩
      · have total := sound.total
        change tickets.pending + 1 + tickets.issued.length = tickets.count + 1
        omega
      · intro number member
        have within := sound.bounded number member
        exact ⟨within.1, Nat.le_succ_of_le within.2⟩
  | read =>
      unfold next at taken
      simp only at taken
      split_ifs at taken with empty
      cases taken
      have total := sound.total
      refine ⟨?_, ?_, ?_⟩
      · simp only [List.length_append, List.length_singleton]
        omega
      · intro number member
        rcases List.mem_append.mp member with earlier | last
        · exact sound.bounded number earlier
        · rw [List.mem_singleton.mp last]
          exact ⟨by omega, Nat.le_refl _⟩
      · apply List.pairwise_append.mpr
        refine ⟨sound.ascending, List.pairwise_singleton _ _, ?_⟩
        intro number member other last
        rw [List.mem_singleton.mp last]
        exact (sound.bounded number member).2

theorem sound_of_reachable (reached : counter.Reachable tickets) : tickets.Sound := by
  apply reached.invariant
  · intro begun started
    subst started
    exact ⟨rfl, fun _ member => (by cases member), List.Pairwise.nil⟩
  · intro before label later _ sound taken
    exact sound.step taken

/-- Every number from 1 on has been issued once, and at most one is pending. -/
def Orderly (tickets : Tickets) : Prop :=
  tickets.pending ≤ 1 ∧
    tickets.issued = List.range' 1 (tickets.count - tickets.pending)

def Apart (tickets : Tickets) : Label → Prop
  | .increment => tickets.pending = 0
  | .read => True

theorem orderly_iff_apart (sound : tickets.Sound) {label : Label}
    (taken : next tickets label = some after) :
    after.Orderly ↔ tickets.Orderly ∧ tickets.Apart label := by
  have total := sound.total
  cases label with
  | increment =>
      cases taken
      unfold Orderly Apart
      simp only
      constructor
      · intro orderly
        obtain ⟨few, issued⟩ := orderly
        have none_pending : tickets.pending = 0 := by omega
        rw [none_pending] at issued ⊢
        exact ⟨⟨Nat.zero_le _, issued⟩, rfl⟩
      · intro both
        obtain ⟨⟨_, issued⟩, none_pending⟩ := both
        rw [none_pending] at issued ⊢
        exact ⟨Nat.le_refl _, issued⟩
  | read =>
      unfold next at taken
      simp only at taken
      split_ifs at taken with empty
      cases taken
      unfold Orderly Apart
      simp only [and_true]
      by_cases one : tickets.pending = 1
      · have grown : tickets.count - (tickets.pending - 1) = tickets.count - 1 + 1 := by omega
        have last : 1 + (tickets.count - 1) = tickets.count := by omega
        rw [grown, List.range'_1_concat, last, List.append_left_inj, one]
        simp
      · constructor
        · intro orderly
          obtain ⟨few, issued⟩ := orderly
          have member : tickets.count ∈ tickets.issued ++ [tickets.count] := by simp
          rw [issued, List.mem_range'_1] at member
          omega
        · intro orderly
          omega

/-- Once nothing is pending, the numbers differ exactly when they came in order. -/
theorem nodup_iff_orderly (sound : tickets.Sound) (settled : tickets.pending = 0) :
    tickets.issued.Nodup ↔ tickets.Orderly := by
  have total := sound.total
  rw [settled, Nat.zero_add] at total
  unfold Orderly
  rw [settled, Nat.sub_zero]
  constructor
  · intro distinct
    refine ⟨Nat.zero_le _, ?_⟩
    have within : tickets.issued ⊆ List.range' 1 tickets.count := by
      intro number member
      have bounds := sound.bounded number member
      exact List.mem_range'_1.mpr ⟨bounds.1, by omega⟩
    have whole : tickets.issued.Perm (List.range' 1 tickets.count) := by
      apply (List.subperm_of_subset distinct within).perm_of_length_le
      rw [List.length_range', total]
    exact whole.eq_of_pairwise' sound.ascending (List.pairwise_le_range' ..)
  · intro orderly
    rw [orderly.2]
    exact List.nodup_range'

theorem Orderly.nodup (orderly : tickets.Orderly) : tickets.issued.Nodup := by
  rw [orderly.2]
  exact List.nodup_range'

end Tickets

end Netwurk.TicketCounter
