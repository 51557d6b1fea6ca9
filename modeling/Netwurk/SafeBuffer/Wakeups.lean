/-
No wake-up of the concurrent buffer is lost. Both condition variables obey one
counting law: while a thread waits, what it waits for is covered by credits. A
credit is held by a woken thread until it has used its item or its slot, and by
an operation that has changed the queue until it has signalled.
-/

import Netwurk.SafeBuffer.Fifo
import Netwurk.Foundation.Families

namespace Netwurk.SafeBuffer

open Transition Finset

/-- Strings for waiting consumers, free slots for waiting producers. -/
def supply (capacity : Nat) (q : List String) : Condition → Nat
  | .ne => q.length
  | .nf => capacity - q.length

def Pc.credit : Condition → Pc → Nat
  | .ne, .popWoken => 1
  | .ne, .popTest => 1
  | .ne, .popFront => 1
  | .ne, .popRemove _ => 1
  | .ne, .pushSignal => 1
  | .nf, .pushWoken _ => 1
  | .nf, .pushTest _ => 1
  | .nf, .pushInsert _ => 1
  | .nf, .popSignal _ => 1
  | _, _ => 0

def Pc.wokenFor : Condition → Pc → Bool
  | .ne, .popWoken => true
  | .nf, .pushWoken _ => true
  | _, _ => false

theorem Pc.credit_of_waiting {pc : Pc} {signalled : Condition}
    (waiting : pc.waitsOn = some signalled) (condition : Condition) :
    pc.credit condition = 0 ∧
      pc.wake.credit condition = if condition = signalled then 1 else 0 := by
  cases pc <;> cases waiting <;> cases condition <;> exact ⟨rfl, rfl⟩

theorem Pc.wake_waitsOn (pc : Pc) : pc.wake.waitsOn = none := by
  cases pc <;> rfl

theorem Pc.credit_of_not_holds {pc : Pc} (outside : pc.holds = false) (condition : Condition) :
    pc.credit condition = if pc.wokenFor condition = true then 1 else 0 := by
  cases pc <;> cases outside <;> cases condition <;> rfl

theorem Pc.acquired_credit {pc later : Pc} (acquired : pc.acquired = some later)
    (condition : Condition) :
    pc.credit condition ≤ later.credit condition ∧ later.waitsOn = none := by
  cases pc <;> cases acquired <;> cases condition <;>
    exact ⟨by simp [Pc.credit], rfl⟩

theorem Pc.entry_waitsOn {pc : Pc} (entry : pc.entry = true) : pc.waitsOn = none := by
  cases pc <;> cases entry <;> rfl

theorem Pc.unlocks_credit {pc : Pc} (unlocks : pc.unlocks = true) (condition : Condition) :
    pc.credit condition = 0 := by
  cases pc <;> cases unlocks <;> cases condition <;> rfl

variable {Thread : Type}

theorem not_woken {state : State Thread} {thread : Thread} {woken : Finset Thread}
    {signalled : Condition}
    (waiting : ∀ waiter ∈ woken, (state.pc waiter).waitsOn = some signalled)
    (awake : (state.pc thread).waitsOn = none) : thread ∉ woken := by
  intro member
  rw [waiting thread member] at awake
  cases awake

variable [DecidableEq Thread] [Fintype Thread]

def State.credits (state : State Thread) (condition : Condition) : Nat :=
  ∑ thread, (state.pc thread).credit condition

/-- While a thread waits on the condition variable, the supply is covered. -/
def Covered (capacity : Nat) (condition : Condition) (state : State Thread) : Prop :=
  (∃ thread, (state.pc thread).waitsOn = some condition) →
    supply capacity state.q condition ≤ state.credits condition

variable {maxSize : Int} {capacity : Nat} {condition : Condition} {state after : State Thread}

private theorem setPc_credits (state : State Thread) (thread : Thread) (pc : Pc)
    (condition : Condition) :
    (state.setPc thread pc).credits condition + (state.pc thread).credit condition =
      state.credits condition + pc.credit condition :=
  Families.sum_update_add (fun _ pc => Pc.credit condition pc) state.pc thread pc

private theorem wakeAll_credits {woken : Finset Thread} {signalled : Condition}
    (waiting : ∀ waiter ∈ woken, (state.pc waiter).waitsOn = some signalled)
    (condition : Condition) :
    (state.wakeAll woken).credits condition =
      state.credits condition + if condition = signalled then woken.card else 0 := by
  have pointwise : ∀ thread, ((state.wakeAll woken).pc thread).credit condition =
      (state.pc thread).credit condition +
        if thread ∈ woken then (if condition = signalled then 1 else 0) else 0 := by
    intro thread
    by_cases member : thread ∈ woken
    · obtain ⟨before, later⟩ := Pc.credit_of_waiting (waiting thread member) condition
      simp only [State.wakeAll, if_pos member, before, later, Nat.zero_add]
    · simp only [State.wakeAll, if_neg member, Nat.add_zero]
  unfold State.credits
  rw [sum_congr rfl (fun thread _ => pointwise thread), sum_add_distrib, sum_ite_mem, univ_inter]
  split <;> simp

omit [Fintype Thread] in
private theorem waits_before_setPc {thread : Thread} {pc : Pc}
    (awake : pc.waitsOn ≠ some condition)
    (waits : ∃ other, ((state.setPc thread pc).pc other).waitsOn = some condition) :
    ∃ other, (state.pc other).waitsOn = some condition := by
  obtain ⟨other, waiting⟩ := waits
  by_cases same : other = thread
  · subst other
    simp only [State.setPc, Function.update_self] at waiting
    exact absurd waiting awake
  · simp only [State.setPc, Function.update_of_ne same] at waiting
    exact ⟨other, waiting⟩

omit [Fintype Thread] in
private theorem waits_before_wakeAll {woken : Finset Thread}
    (waits : ∃ other, ((state.wakeAll woken).pc other).waitsOn = some condition) :
    ∃ other, (state.pc other).waitsOn = some condition := by
  obtain ⟨other, waiting⟩ := waits
  simp only [State.wakeAll] at waiting
  split at waiting
  · rw [Pc.wake_waitsOn] at waiting
    cases waiting
  · exact ⟨other, waiting⟩

/-- A move of one thread keeps the law if its credit pays for the change of
the supply. -/
private theorem covered_move (covered : Covered capacity condition state) (thread : Thread)
    (pc : Pc) (moved : after.pc = (state.setPc thread pc).pc)
    (awake : pc.waitsOn ≠ some condition)
    (paid : supply capacity after.q condition + (state.pc thread).credit condition ≤
      supply capacity state.q condition + pc.credit condition) :
    Covered capacity condition after := by
  intro waits
  have credits : after.credits condition + (state.pc thread).credit condition =
      state.credits condition + pc.credit condition := by
    have total := setPc_credits state thread pc condition
    simpa only [State.credits, moved] using total
  rw [moved] at waits
  have before := covered (waits_before_setPc awake waits)
  omega

private theorem covered_wakeAll (covered : Covered capacity condition state)
    (signalled : Condition) {woken : Finset Thread}
    (waiting : ∀ waiter ∈ woken, (state.pc waiter).waitsOn = some signalled) :
    Covered capacity condition (state.wakeAll woken) := by
  intro waits
  have before := covered (waits_before_wakeAll waits)
  rw [wakeAll_credits waiting]
  exact Nat.le_add_right_of_le before

/-- The signaller gives its credit to a thread it wakes; if it wakes nobody,
nobody was waiting. -/
private theorem covered_signal (covered : Covered capacity condition state) {thread : Thread}
    {woken : Finset Thread} {signalled : Condition} {pc : Pc}
    (waiting : ∀ waiter ∈ woken, (state.pc waiter).waitsOn = some signalled)
    (some_woken : woken = ∅ → ∀ waiter, (state.pc waiter).waitsOn ≠ some signalled)
    (outside : thread ∉ woken) (awake : pc.waitsOn = none)
    (spent : (state.pc thread).credit condition ≤
      pc.credit condition + if condition = signalled then 1 else 0) :
    Covered capacity condition ((state.wakeAll woken).setPc thread pc) := by
  intro waits
  have awakened := waits_before_setPc (by rw [awake]; simp) waits
  have before : supply capacity state.q condition ≤ state.credits condition :=
    covered (waits_before_wakeAll awakened)
  have total := setPc_credits (state.wakeAll woken) thread pc condition
  have position : (state.wakeAll woken).pc thread = state.pc thread := by
    simp only [State.wakeAll, if_neg outside]
  rw [position, wakeAll_credits waiting] at total
  change supply capacity state.q condition ≤ _
  by_cases same : condition = signalled
  · subst condition
    have nonempty : woken ≠ ∅ := by
      intro nobody
      obtain ⟨waiter, waits⟩ := waits_before_wakeAll awakened
      exact some_woken nobody waiter waits
    have positive := card_pos.mpr (nonempty_iff_ne_empty.mpr nonempty)
    rw [if_pos rfl] at total spent
    omega
  · rw [if_neg same] at total spent
    omega

theorem covered_step (valid : Valid maxSize state)
    (covered : Covered (toSizeT maxSize) condition state) (taken : Step maxSize state after) :
    Covered (toSizeT maxSize) condition after := by
  cases taken with
  | call thread pc idle entry =>
      refine covered_move covered thread pc rfl ?_ ?_
      · rw [Pc.entry_waitsOn entry]
        simp
      · change supply _ state.q _ + _ ≤ _
        rw [idle]
        cases condition <;> exact Nat.le_add_right _ _
  | acquire thread pc acquired _ =>
      obtain ⟨credit, awake⟩ := Pc.acquired_credit acquired condition
      refine covered_move covered thread pc rfl (by rw [awake]; simp) ?_
      exact Nat.add_le_add_left credit _
  | pushWait thread str at_ full =>
      cases condition with
      | nf =>
          intro _
          have none_free : supply (toSizeT maxSize) state.q .nf = 0 := Nat.sub_eq_zero_of_le full
          exact none_free ▸ Nat.zero_le _
      | ne =>
          refine covered_move covered thread (.pushWait str) rfl
            (by simp [Pc.waitsOn]) ?_
          rw [at_]
          exact Nat.le_refl _
  | pushReady thread str at_ _ =>
      refine covered_move covered thread (.pushInsert str) rfl
        (by simp [Pc.waitsOn]) ?_
      rw [at_]
      cases condition <;> exact Nat.le_refl _
  | insert thread str at_ =>
      have room : (Pc.pushInsert str).Sees (toSizeT maxSize) state.q := at_ ▸ valid.sees thread
      refine covered_move covered thread .pushSignal rfl
        (by simp [Pc.waitsOn]) ?_
      simp only [Pc.Sees] at room
      rw [at_]
      cases condition <;> simp only [supply, Pc.credit, List.length_append,
        List.length_singleton] <;> omega
  | popWait thread at_ empty =>
      cases condition with
      | ne =>
          intro _
          have nothing : supply (toSizeT maxSize) state.q .ne = 0 := by
            rw [empty]
            rfl
          exact nothing ▸ Nat.zero_le _
      | nf =>
          refine covered_move covered thread .popWait rfl
            (by simp [Pc.waitsOn]) ?_
          rw [at_]
          exact Nat.le_refl _
  | popReady thread at_ _ =>
      refine covered_move covered thread .popFront rfl
        (by simp [Pc.waitsOn]) ?_
      rw [at_]
      cases condition <;> exact Nat.le_refl _
  | front thread s rest at_ _ =>
      refine covered_move covered thread (.popRemove s) rfl
        (by simp [Pc.waitsOn]) ?_
      rw [at_]
      cases condition <;> exact Nat.le_refl _
  | remove thread s at_ =>
      have front : (Pc.popRemove s).Sees (toSizeT maxSize) state.q := at_ ▸ valid.sees thread
      obtain ⟨rest, content⟩ := front
      refine covered_move covered thread (.popSignal s) rfl
        (by simp [Pc.waitsOn]) ?_
      rw [at_, content]
      cases condition <;> simp only [supply, Pc.credit, List.tail_cons,
        List.length_cons] <;> omega
  | signalNe thread woken at_ waiting some_woken =>
      refine covered_signal covered waiting some_woken
        (not_woken waiting (by rw [at_]; rfl)) rfl ?_
      rw [at_]
      cases condition <;> simp [Pc.credit]
  | signalNf thread woken s at_ waiting some_woken =>
      refine covered_signal covered waiting some_woken
        (not_woken waiting (by rw [at_]; rfl)) rfl ?_
      rw [at_]
      cases condition <;> simp [Pc.credit]
  | unlock thread unlocks =>
      refine covered_move covered thread .idle rfl
        (by simp [Pc.waitsOn]) ?_
      rw [Pc.unlocks_credit unlocks]
      exact Nat.le_add_right _ _
  | popReturn thread s at_ =>
      refine covered_move covered thread .idle rfl
        (by simp [Pc.waitsOn]) ?_
      rw [at_]
      cases condition <;> exact Nat.le_refl _
  | sizeRead thread at_ =>
      refine covered_move covered thread (.sizeUnlock _) rfl
        (by simp [Pc.waitsOn]) ?_
      rw [at_]
      cases condition <;> exact Nat.le_refl _
  | spurious thread waiting =>
      cases signalled : (state.pc thread).waitsOn with
      | none => exact absurd signalled waiting
      | some condition =>
          refine covered_wakeAll covered condition ?_
          intro waiter member
          rw [mem_singleton.mp member, signalled]

theorem reachable_covered (reached : (monitor Thread maxSize).Reachable state)
    (condition : Condition) : Covered (toSizeT maxSize) condition state := by
  apply reached.invariant
  · rintro _ rfl ⟨thread, waiting⟩
    cases waiting
  · intro before label later reachedBefore covered taken
    exact covered_step (reachable_valid reachedBefore) covered (next_step taken)

/-! ### No wake-up is lost -/

def State.woken (state : State Thread) (condition : Condition) : Nat :=
  (univ.filter fun thread => (state.pc thread).wokenFor condition = true).card

theorem credits_of_free (valid : Valid maxSize state) (free : state.mutOwner = none)
    (condition : Condition) : state.credits condition = state.woken condition := by
  unfold State.credits State.woken
  rw [card_filter]
  apply sum_congr rfl
  intro thread _
  apply Pc.credit_of_not_holds
  cases inside : (state.pc thread).holds with
  | false => rfl
  | true =>
      have owned := (valid.owner thread).mp inside
      rw [free] at owned
      cases owned

private theorem free_of_waiting (valid : Valid maxSize state)
    (waiting : ∀ thread, state.pc thread ≠ .idle → (state.pc thread).waitsOn ≠ none) :
    state.mutOwner = none ∧ ∀ condition, state.woken condition = 0 := by
  have outside : ∀ thread, (state.pc thread).holds = false ∧
      ∀ condition, (state.pc thread).wokenFor condition = false := by
    intro thread
    have waits := waiting thread
    cases at_ : state.pc thread with
    | idle | pushWait _ | popWait => exact ⟨rfl, fun condition => by cases condition <;> rfl⟩
    | _ =>
        rw [at_] at waits
        exact absurd rfl (waits (fun equal => by cases equal))
  constructor
  · cases owner : state.mutOwner with
    | none => rfl
    | some thread =>
        have inside := (valid.owner thread).mpr owner
        rw [(outside thread).1] at inside
        cases inside
  · intro condition
    unfold State.woken
    rw [card_eq_zero, filter_eq_empty_iff]
    intro thread _
    simp [(outside thread).2 condition]

/-- With the mutex free, strings that waiting consumers could take are covered
by woken consumers, and slots that waiting producers could fill by woken
producers. So when all calls wait, none of them could proceed. -/
theorem no_lost_wakeup (positive : 1 ≤ maxSize) (fits : maxSize ≤ INT_MAX)
    (reached : (monitor Thread maxSize).Reachable state) :
    (state.mutOwner = none →
      ((∃ thread, (state.pc thread).waitsOn = some .ne) →
        state.q.length ≤ state.woken .ne) ∧
      ((∃ thread, (state.pc thread).waitsOn = some .nf) →
        maxSize - state.q.length ≤ state.woken .nf)) ∧
    ((∀ thread, state.pc thread ≠ .idle → (state.pc thread).waitsOn ≠ none) →
      ((∃ thread, (state.pc thread).waitsOn = some .ne) → state.q = []) ∧
      ((∃ thread, (state.pc thread).waitsOn = some .nf) → state.q.length = maxSize)) := by
  have valid := reachable_valid reached
  have capacity := toSizeT_of_positive positive fits
  have bounded := valid.bounded
  have covered : state.mutOwner = none → ∀ condition,
      (∃ thread, (state.pc thread).waitsOn = some condition) →
        supply (toSizeT maxSize) state.q condition ≤ state.woken condition := by
    intro free condition waits
    rw [← credits_of_free valid free]
    exact reachable_covered reached condition waits
  refine ⟨fun free => ⟨covered free .ne, fun waits => ?_⟩, fun waiting => ?_⟩
  · have slots := covered free .nf waits
    simp only [supply] at slots
    omega
  · obtain ⟨free, nobody⟩ := free_of_waiting valid waiting
    constructor
    · intro waits
      have strings := covered free .ne waits
      rw [nobody .ne] at strings
      exact List.length_eq_zero_iff.mp (Nat.le_zero.mp strings)
    · intro waits
      have slots := covered free .nf waits
      rw [nobody .nf] at slots
      simp only [supply] at slots
      omega

theorem no_lost_wakeup_waitingConsumers :
    ∃ state : State (Fin 2),
      (monitor (Fin 2) 1).run initial
        [.pop 0, .advance 0, .advance 0, .pop 1, .advance 1, .advance 1] = some state ∧
      state.pc 0 = .popWait ∧ state.pc 1 = .popWait ∧ state.q.length ≤ state.woken .ne := by
  have ran : ∃ state : State (Fin 2),
      (monitor (Fin 2) 1).run initial
        [.pop 0, .advance 0, .advance 0, .pop 1, .advance 1, .advance 1] = some state ∧
      state.mutOwner = none ∧ state.pc 0 = .popWait ∧ state.pc 1 = .popWait :=
    ⟨_, rfl, rfl, rfl, rfl⟩
  obtain ⟨state, ran, free, first, second⟩ := ran
  have reached : (monitor (Fin 2) 1).Reachable state := (System.Reachable.begin rfl).of_run ran
  exact ⟨state, ran, first, second,
    ((no_lost_wakeup (by decide) (by decide) reached).1 free).1 ⟨0, by rw [first]; rfl⟩⟩

end Netwurk.SafeBuffer
