/-
The concurrent buffer as a bounded first-in first-out queue. One invariant ties
the owner of the mutex to the positions inside the critical sections, each such
position to what it may assume of the queue, and the histories to the content;
every schedule of any finite number of threads keeps it.
-/

import Netwurk.SafeBuffer.Monitor
import Netwurk.Foundation.BoundedQueue

namespace Netwurk.SafeBuffer

open Transition

def Pc.holds : Pc → Bool
  | .pushTest _ | .pushInsert _ | .pushSignal | .pushUnlock => true
  | .popTest | .popFront | .popRemove _ | .popSignal _ | .popUnlock _ => true
  | .sizeRead | .sizeUnlock _ => true
  | _ => false

/-- What a thread at this position relies on after its loop has been left. -/
def Pc.Sees (capacity : Nat) (q : List String) : Pc → Prop
  | .pushInsert _ => q.length < capacity
  | .popFront => q ≠ []
  | .popRemove s => ∃ rest, q = s :: rest
  | _ => True

/-- The string a call has removed from the queue and not returned yet. -/
def Pc.carried : Pc → List String
  | .popSignal s | .popUnlock s => [s]
  | _ => []

theorem Pc.sees_of_not_holds {pc : Pc} (outside : pc.holds = false)
    (capacity : Nat) (q : List String) : pc.Sees capacity q := by
  cases pc <;> trivial

@[simp] theorem Pc.wake_holds (pc : Pc) : pc.wake.holds = pc.holds := by
  cases pc <;> rfl

@[simp] theorem Pc.wake_carried (pc : Pc) : pc.wake.carried = pc.carried := by
  cases pc <;> rfl

theorem Pc.wake_sees {pc : Pc} {capacity : Nat} {q : List String}
    (sees : pc.Sees capacity q) : pc.wake.Sees capacity q := by
  cases pc <;> exact sees

theorem Pc.acquired_holds {pc later : Pc} (acquired : pc.acquired = some later) :
    later.holds = true := by
  cases pc <;> cases acquired <;> rfl

theorem Pc.acquired_sees {pc later : Pc} (acquired : pc.acquired = some later)
    (capacity : Nat) (q : List String) : later.Sees capacity q := by
  cases pc <;> cases acquired <;> trivial

theorem Pc.acquired_carried {pc later : Pc} (acquired : pc.acquired = some later) :
    later.carried = pc.carried := by
  cases pc <;> cases acquired <;> rfl

theorem Pc.entry_facts {pc : Pc} (entry : pc.entry = true) :
    pc.holds = false ∧ pc.carried = [] := by
  cases pc <;> first | exact ⟨rfl, rfl⟩ | cases entry

theorem Pc.unlocks_facts {pc : Pc} (unlocks : pc.unlocks = true) :
    pc.holds = true ∧ pc.carried = [] := by
  cases pc <;> first | exact ⟨rfl, rfl⟩ | cases unlocks

/-! ### The invariant -/

variable {Thread : Type} [DecidableEq Thread]

def State.removedBy (state : State Thread) (thread : Thread) : List String :=
  (state.removed.filter (fun entry => entry.1 = thread)).map Prod.snd

structure Valid (maxSize : Int) (state : State Thread) : Prop where
  owner : ∀ thread, (state.pc thread).holds = true ↔ state.mutOwner = some thread
  sees : ∀ thread, (state.pc thread).Sees (toSizeT maxSize) state.q
  bounded : state.q.length ≤ toSizeT maxSize
  conserved : state.removed.map Prod.snd ++ state.q = state.inserted
  results : ∀ thread,
    state.removedBy thread = state.returned thread ++ (state.pc thread).carried

namespace Valid

variable {maxSize : Int} {state : State Thread}

theorem initial : Valid maxSize (initial : State Thread) where
  owner := by
    intro thread
    simp [SafeBuffer.initial, Pc.holds]
  sees := fun _ => trivial
  bounded := Nat.zero_le _
  conserved := rfl
  results := fun _ => rfl

theorem outside_of_ne (valid : Valid maxSize state) {thread other : Thread}
    (holds : (state.pc thread).holds = true) (different : other ≠ thread) :
    (state.pc other).holds = false := by
  cases inside : (state.pc other).holds with
  | false => rfl
  | true =>
      have first := (valid.owner thread).mp holds
      have second := (valid.owner other).mp inside
      rw [first] at second
      exact absurd (Option.some.inj second).symm different

theorem wakeAll (valid : Valid maxSize state) (woken : Finset Thread) :
    Valid maxSize (state.wakeAll woken) where
  owner := by
    intro thread
    rw [← show state.mutOwner = (state.wakeAll woken).mutOwner from rfl, ← valid.owner thread]
    simp only [State.wakeAll]
    split <;> simp only [Pc.wake_holds]
  sees := by
    intro thread
    simp only [State.wakeAll]
    split
    · exact Pc.wake_sees (valid.sees thread)
    · exact valid.sees thread
  bounded := valid.bounded
  conserved := valid.conserved
  results := by
    intro thread
    have kept := valid.results thread
    simp only [State.removedBy, State.wakeAll] at kept ⊢
    split <;> simpa only [Pc.wake_carried] using kept

theorem setPc (valid : Valid maxSize state) {thread : Thread} {pc : Pc}
    (holds : pc.holds = (state.pc thread).holds)
    (sees : pc.Sees (toSizeT maxSize) state.q)
    (carried : pc.carried = (state.pc thread).carried) :
    Valid maxSize (state.setPc thread pc) where
  owner := by
    intro other
    rw [← show state.mutOwner = (state.setPc thread pc).mutOwner from rfl, ← valid.owner other]
    by_cases same : other = thread
    · subst other
      simp only [State.setPc, Function.update_self, holds]
    · simp only [State.setPc, Function.update_of_ne same]
  sees := by
    intro other
    by_cases same : other = thread
    · subst other
      simpa only [State.setPc, Function.update_self] using sees
    · simpa only [State.setPc, Function.update_of_ne same] using valid.sees other
  bounded := valid.bounded
  conserved := valid.conserved
  results := by
    intro other
    have kept := valid.results other
    by_cases same : other = thread
    · subst other
      simpa only [State.removedBy, State.setPc, Function.update_self, carried] using kept
    · simpa only [State.removedBy, State.setPc, Function.update_of_ne same] using kept

theorem acquire (valid : Valid maxSize state) {thread : Thread} {pc : Pc}
    (acquired : (state.pc thread).acquired = some pc) (free : state.mutOwner = none) :
    Valid maxSize { state.setPc thread pc with mutOwner := some thread } where
  owner := by
    intro other
    by_cases same : other = thread
    · subst other
      simp only [State.setPc, Function.update_self, Pc.acquired_holds acquired]
    · have outside : (state.pc other).holds ≠ true := by
        intro inside
        have owned := (valid.owner other).mp inside
        rw [free] at owned
        cases owned
      have different : some thread ≠ some other := fun equal => same (Option.some.inj equal).symm
      simp [State.setPc, Function.update_of_ne same, outside, different]
  sees := by
    intro other
    by_cases same : other = thread
    · subst other
      simpa only [State.setPc, Function.update_self] using
        Pc.acquired_sees acquired (toSizeT maxSize) state.q
    · simpa only [State.setPc, Function.update_of_ne same] using valid.sees other
  bounded := valid.bounded
  conserved := valid.conserved
  results := by
    intro other
    have kept := valid.results other
    by_cases same : other = thread
    · subst other
      simpa only [State.removedBy, State.setPc, Function.update_self,
        Pc.acquired_carried acquired] using kept
    · simpa only [State.removedBy, State.setPc, Function.update_of_ne same] using kept

private theorem release_owner (valid : Valid maxSize state) {thread : Thread} {pc : Pc}
    (holds : (state.pc thread).holds = true) (outside : pc.holds = false) (other : Thread) :
    ((state.release thread pc).pc other).holds = true ↔
      (state.release thread pc).mutOwner = some other := by
  by_cases same : other = thread
  · subst other
    simp [State.release, State.setPc, outside]
  · have others := valid.outside_of_ne holds same
    simp [State.release, State.setPc, Function.update_of_ne same, others]

private theorem release_sees (valid : Valid maxSize state) {thread : Thread} {pc : Pc}
    (outside : pc.holds = false) (other : Thread) :
    ((state.release thread pc).pc other).Sees (toSizeT maxSize) state.q := by
  by_cases same : other = thread
  · subst other
    simpa only [State.release, State.setPc, Function.update_self] using
      Pc.sees_of_not_holds outside (toSizeT maxSize) state.q
  · simpa only [State.release, State.setPc, Function.update_of_ne same] using valid.sees other

theorem release (valid : Valid maxSize state) {thread : Thread} {pc : Pc}
    (holds : (state.pc thread).holds = true) (outside : pc.holds = false)
    (carried : pc.carried = (state.pc thread).carried) :
    Valid maxSize (state.release thread pc) where
  owner := valid.release_owner holds outside
  sees := valid.release_sees outside
  bounded := valid.bounded
  conserved := valid.conserved
  results := by
    intro other
    have kept := valid.results other
    by_cases same : other = thread
    · subst other
      simpa only [State.removedBy, State.release, State.setPc, Function.update_self,
        carried] using kept
    · simpa only [State.removedBy, State.release, State.setPc,
        Function.update_of_ne same] using kept

theorem popReturn (valid : Valid maxSize state) {thread : Thread} {s : String}
    (at_ : state.pc thread = .popUnlock s) :
    Valid maxSize
      { state.release thread .idle with
        returned := Function.update state.returned thread (state.returned thread ++ [s]) } where
  owner := valid.release_owner (by rw [at_]; rfl) rfl
  sees := valid.release_sees rfl
  bounded := valid.bounded
  conserved := valid.conserved
  results := by
    intro other
    have kept := valid.results other
    by_cases same : other = thread
    · subst other
      rw [at_] at kept
      simpa only [State.removedBy, State.release, State.setPc, Function.update_self,
        Pc.carried, List.append_nil] using kept
    · simpa only [State.removedBy, State.release, State.setPc,
        Function.update_of_ne same] using kept

private theorem owner_sees (valid : Valid maxSize state) {thread : Thread} {pc : Pc}
    (holds : (state.pc thread).holds = true) (q : List String)
    (sees : pc.Sees (toSizeT maxSize) q) (other : Thread) :
    ((state.setPc thread pc).pc other).Sees (toSizeT maxSize) q := by
  by_cases same : other = thread
  · subst other
    simpa only [State.setPc, Function.update_self] using sees
  · simp only [State.setPc, Function.update_of_ne same]
    exact Pc.sees_of_not_holds (valid.outside_of_ne holds same) _ _

theorem insert (valid : Valid maxSize state) {thread : Thread} {str : String}
    (at_ : state.pc thread = .pushInsert str) :
    Valid maxSize
      { state.setPc thread .pushSignal with
        q := state.q ++ [str]
        inserted := state.inserted ++ [str] } := by
  have room : (Pc.pushInsert str).Sees (toSizeT maxSize) state.q := at_ ▸ valid.sees thread
  have moved : Valid maxSize (state.setPc thread .pushSignal) :=
    valid.setPc (by rw [at_]; rfl) trivial (by rw [at_]; rfl)
  refine
    { owner := moved.owner
      sees := valid.owner_sees (by rw [at_]; rfl) (state.q ++ [str]) trivial
      bounded := ?_
      conserved := ?_
      results := moved.results }
  · change (state.q ++ [str]).length ≤ toSizeT maxSize
    rw [List.length_append]
    exact room
  · change state.removed.map Prod.snd ++ (state.q ++ [str]) = state.inserted ++ [str]
    rw [← List.append_assoc, valid.conserved]

theorem remove (valid : Valid maxSize state) {thread : Thread} {s : String}
    (at_ : state.pc thread = .popRemove s) :
    Valid maxSize
      { state.setPc thread (.popSignal s) with
        q := state.q.tail
        removed := state.removed ++ [(thread, s)] } := by
  have front : (Pc.popRemove s).Sees (toSizeT maxSize) state.q := at_ ▸ valid.sees thread
  obtain ⟨rest, content⟩ := front
  have holds : (state.pc thread).holds = true := by rw [at_]; rfl
  refine
    { owner := ?_
      sees := valid.owner_sees holds state.q.tail trivial
      bounded := ?_
      conserved := ?_
      results := ?_ }
  · intro other
    change ((state.setPc thread (.popSignal s)).pc other).holds = true ↔
      state.mutOwner = some other
    rw [← valid.owner other]
    by_cases same : other = thread
    · subst other
      simp only [State.setPc, Function.update_self, at_, Pc.holds]
    · simp only [State.setPc, Function.update_of_ne same]
  · have bounded := valid.bounded
    rw [content, List.length_cons] at bounded
    change state.q.tail.length ≤ toSizeT maxSize
    rw [content, List.tail_cons]
    omega
  · change (state.removed ++ [(thread, s)]).map Prod.snd ++ state.q.tail = state.inserted
    rw [← valid.conserved, content]
    simp
  · intro other
    have kept := valid.results other
    by_cases same : other = thread
    · subst other
      rw [at_] at kept
      simp only [State.removedBy, Pc.carried, List.append_nil] at kept
      simp [State.removedBy, State.setPc, List.filter_append, Pc.carried, kept]
    · have different : thread ≠ other := fun equal => same equal.symm
      simp only [State.removedBy] at kept
      simp [State.removedBy, State.setPc, List.filter_append, Function.update_of_ne same,
        different, kept]

theorem step (valid : Valid maxSize state) {after : State Thread}
    (taken : Step maxSize state after) : Valid maxSize after := by
  cases taken with
  | call thread pc idle entry =>
      obtain ⟨outside, carried⟩ := Pc.entry_facts entry
      exact valid.setPc (by rw [idle, outside]; rfl)
        (Pc.sees_of_not_holds outside _ _) (by rw [idle, carried]; rfl)
  | acquire thread pc acquired free => exact valid.acquire acquired free
  | pushWait thread str at_ _ =>
      exact valid.release (by rw [at_]; rfl) rfl (by rw [at_]; rfl)
  | pushReady thread str at_ room =>
      exact valid.setPc (by rw [at_]; rfl) room (by rw [at_]; rfl)
  | insert thread str at_ => exact valid.insert at_
  | popWait thread at_ _ => exact valid.release (by rw [at_]; rfl) rfl (by rw [at_]; rfl)
  | popReady thread at_ present =>
      exact valid.setPc (by rw [at_]; rfl) present (by rw [at_]; rfl)
  | front thread s rest at_ present =>
      exact valid.setPc (by rw [at_]; rfl) ⟨rest, present⟩ (by rw [at_]; rfl)
  | remove thread s at_ => exact valid.remove at_
  | signalNe thread woken at_ waiting _ =>
      have awake : (state.wakeAll woken).pc thread = .pushSignal := by
        simp only [State.wakeAll, at_, Pc.wake, ite_self]
      exact (valid.wakeAll woken).setPc (by rw [awake]; rfl) trivial (by rw [awake]; rfl)
  | signalNf thread woken s at_ waiting _ =>
      have awake : (state.wakeAll woken).pc thread = .popSignal s := by
        simp only [State.wakeAll, at_, Pc.wake, ite_self]
      exact (valid.wakeAll woken).setPc (by rw [awake]; rfl) trivial (by rw [awake]; rfl)
  | unlock thread unlocks =>
      obtain ⟨holds, carried⟩ := Pc.unlocks_facts unlocks
      exact valid.release holds rfl (by rw [carried]; rfl)
  | popReturn thread s at_ => exact valid.popReturn at_
  | sizeRead thread at_ => exact valid.setPc (by rw [at_]; rfl) trivial (by rw [at_]; rfl)
  | spurious thread _ => exact valid.wakeAll {thread}

end Valid

variable [Fintype Thread] {maxSize : Int} {state after : State Thread}

theorem reachable_valid (reached : (monitor Thread maxSize).Reachable state) :
    Valid maxSize state := by
  apply reached.invariant
  · intro begun initial
    subst initial
    exact Valid.initial
  · intro before label later _ valid taken
    exact valid.step (next_step taken)

/-- One thread's statement changes the queue by one atomic insertion, by one
atomic removal, or not at all. -/
theorem next_queue (valid : Valid maxSize state) {label : Label Thread}
    (taken : next maxSize state label = some after) :
    after.q = state.q ∨
      (∃ str, state.q.length < toSizeT maxSize ∧ after.q = state.q ++ [str]) ∨
      ∃ s, state.q = s :: after.q := by
  cases next_step taken with
  | insert thread str at_ =>
      have room : (Pc.pushInsert str).Sees (toSizeT maxSize) state.q := at_ ▸ valid.sees thread
      exact .inr (.inl ⟨str, room, rfl⟩)
  | remove thread s at_ =>
      have front : (Pc.popRemove s).Sees (toSizeT maxSize) state.q := at_ ▸ valid.sees thread
      obtain ⟨rest, content⟩ := front
      refine .inr (.inr ⟨s, ?_⟩)
      change state.q = s :: state.q.tail
      rw [content, List.tail_cons]
  | _ => exact .inl rfl

/-- The monitor refines the queue whose operations are atomic. -/
theorem monitor_refines_queue :
    Refinement (monitor Thread maxSize) (BoundedQueue.atomic String (toSizeT maxSize))
      (fun state => BoundedQueue.ofList (toSizeT maxSize) state.q) where
  start := by
    intro begun initial
    subst initial
    exact BoundedQueue.ext (by simp [initial, BoundedQueue.ofList])
  step := by
    intro before label later reached taken
    have valid := reachable_valid reached
    have content := BoundedQueue.ofList_items valid.bounded
    have contentAfter := BoundedQueue.ofList_items (valid.step (next_step taken)).bounded
    rcases next_queue valid taken with same | ⟨str, room, pushed⟩ | ⟨s, popped⟩
    · exact .inl (by rw [same])
    · refine .inr ⟨.push str, BoundedQueue.push?_eq_some.mpr ?_⟩
      rw [content, contentAfter]
      exact ⟨room, pushed⟩
    · refine .inr ⟨.pop s, ?_⟩
      have front : (BoundedQueue.ofList (toSizeT maxSize) before.q).pop? =
          some (s, BoundedQueue.ofList (toSizeT maxSize) later.q) := by
        rw [BoundedQueue.pop?_eq_some, content, contentAfter]
        exact popped
      simp only [BoundedQueue.atomic, front, if_true]

/-! ### What `size` returns -/

end Netwurk.SafeBuffer
