/-
The two ends of a channel made of FIFOs. An `open` for reading waits until the FIFO
has been opened for writing, and the other way round; a constructor opens two of
them, and the order depends on its side.
-/

import Netwurk.Foundation.Transition
import Netwurk.DataServer.NewChannel

namespace Netwurk.DataServer

open Transition

abbrev Path := List Char

abbrev End := Mode × Path

def Mode.opposite : Mode → Mode
  | .read => .write
  | .write => .read

inductive Call where
  | mkfifo (path : Path)
  | openPipe (mode : Mode) (path : Path)
deriving DecidableEq

def create_pipe (path : Path) : List Call := [.mkfifo path]

def open_write_pipe (path : Path) : List Call := create_pipe path ++ [.openPipe .write path]

def open_read_pipe (path : Path) : List Call := create_pipe path ++ [.openPipe .read path]

def fiforc (my_name : List Char) (my_side : Side) : List Call :=
  match my_side with
  | .server =>
      open_write_pipe (pipe_name my_name .server .write) ++
        open_read_pipe (pipe_name my_name .server .read)
  | .client =>
      open_read_pipe (pipe_name my_name .client .read) ++
        open_write_pipe (pipe_name my_name .client .write)

/-- The calls that are left; `waiting` says that the first is an `open` which has made
its end known and waits for the other. -/
structure Opening where
  calls : List Call
  waiting : Bool
deriving DecidableEq

/-- `gone` is a process that has become `rmv`. -/
inductive Opened where
  | goes (files : List Path) (ends : List End) (opening : Opening)
  | gone
  | blocks
deriving DecidableEq

/-- The next step of a process with the given ends; `peer` are the ends that the other
process has ever opened. `mkfifo` on a FIFO that exists only complains. -/
def Opening.next (files : List Path) (ends peer : List End) (opening : Opening) : Opened :=
  match opening.calls with
  | [] => .blocks
  | .mkfifo path :: rest =>
      .goes (if path ∈ files then files else path :: files) ends ⟨rest, false⟩
  | .openPipe mode path :: rest =>
      if opening.waiting then
        if (mode.opposite, path) ∈ peer then .goes files ends ⟨rest, false⟩ else .blocks
      else if path ∈ files then .goes files (ends ++ [(mode, path)]) ⟨opening.calls, true⟩
      else .gone

def Opening.begin (my_name : List Char) (my_side : Side) : Opening :=
  { calls := fiforc my_name my_side
    waiting := false }

/-! ### Where a constructor is -/

def firstPath (name : List Char) : Path := pipe_name name .client .read

def secondPath (name : List Char) : Path := pipe_name name .client .write

def firstMode : Side → Mode
  | .client => .read
  | .server => .write

/-- What the `count`th step is about: each FIFO takes three of them. -/
def pathAt (name : List Char) (count : Nat) : Path :=
  if count < 3 then firstPath name else secondPath name

def modeAt (side : Side) (count : Nat) : Mode :=
  if count < 3 then firstMode side else (firstMode side).opposite

def Opening.after (name : List Char) (side : Side) (count : Nat) : Opening :=
  { calls := (fiforc name side).drop ((count + 2) / 3 + count / 3)
    waiting := count % 3 = 2 }

/-- The ends it has opened by then. -/
def known (name : List Char) (side : Side) (count : Nat) : List End :=
  (if 2 ≤ count then [(firstMode side, firstPath name)] else []) ++
    (if 5 ≤ count then [((firstMode side).opposite, secondPath name)] else [])

theorem firstPath_ne (name : List Char) : firstPath name ≠ secondPath name :=
  (pipe_name_sides name).2.2.symm

theorem firstMode_opposite {side other : Side} :
    (firstMode side).opposite = firstMode other ↔ side ≠ other := by
  cases side <;> cases other <;> decide

theorem Opening.after_calls {name : List Char} {side : Side} {count : Nat} (within : count ≤ 6) :
    (Opening.after name side count).calls = [] ↔ count = 6 := by
  have calls : (fiforc name side).length = 4 := by cases side <;> rfl
  rw [Opening.after, List.drop_eq_nil_iff, calls]
  omega

theorem mem_known {name : List Char} {side : Side} {count : Nat} {mode : Mode} {path : Path} :
    (mode, path) ∈ known name side count ↔
      2 ≤ count ∧ mode = firstMode side ∧ path = firstPath name ∨
        5 ≤ count ∧ mode = (firstMode side).opposite ∧ path = secondPath name := by
  unfold known
  split_ifs <;> simp_all

theorem Opening.next_after {name : List Char} {side : Side} {count : Nat} (before : count < 6)
    (files : List Path) (ends peer : List End) :
    (Opening.after name side count).next files ends peer =
      if count % 3 = 0 then
        .goes (if pathAt name count ∈ files then files else pathAt name count :: files) ends
          (Opening.after name side (count + 1))
      else if count % 3 = 1 then
        if pathAt name count ∈ files then
          .goes files (ends ++ [(modeAt side count, pathAt name count)])
            (Opening.after name side (count + 1))
        else .gone
      else if ((modeAt side count).opposite, pathAt name count) ∈ peer then
        .goes files ends (Opening.after name side (count + 1))
      else .blocks := by
  match count, before with
  | 0, _ | 1, _ | 2, _ | 3, _ | 4, _ | 5, _ => cases side <;> rfl

theorem known_succ (name : List Char) (side : Side) {count : Nat} (before : count < 6) :
    known name side (count + 1) =
      known name side count ++
        if count % 3 = 1 then [(modeAt side count, pathAt name count)] else [] := by
  match count, before with
  | 0, _ | 1, _ | 2, _ | 3, _ | 4, _ | 5, _ => cases side <;> rfl

theorem opposite_known {name : List Char} {side other : Side} {count peer : Nat}
    (position : count = 2 ∨ count = 5) :
    ((modeAt side count).opposite, pathAt name count) ∈ known name other peer ↔
      side ≠ other ∧ count ≤ peer := by
  rw [mem_known]
  rcases position with rfl | rfl
  · have same : (modeAt side 2).opposite = firstMode other ↔ side ≠ other := firstMode_opposite
    have path : pathAt name 2 = firstPath name := rfl
    simp only [path, same, firstPath_ne, and_false, or_false, and_true]
    exact and_comm
  · have same : (modeAt side 5).opposite = (firstMode other).opposite ↔ side ≠ other := by
      change (firstMode side).opposite.opposite = _ ↔ _
      cases side <;> cases other <;> decide
    have path : pathAt name 5 = secondPath name := rfl
    simp only [path, same, (firstPath_ne name).symm, and_false, false_or, and_true]
    exact and_comm

/-! ### Two constructors for one channel -/

structure Process where
  opening : Opening
  ends : List End
  gone : Bool
deriving DecidableEq

def Process.next (files : List Path) (peer : List End) (process : Process) :
    Option (List Path × Process) :=
  if process.gone then none
  else
    match process.opening.next files process.ends peer with
    | .goes files ends opening => some (files, { opening := opening, ends := ends, gone := false })
    | .gone => some (files, { process with gone := true })
    | .blocks => none

def Process.begin (name : List Char) (side : Side) : Process :=
  { opening := .begin name side
    ends := []
    gone := false }

/-- A process in its `count`th step; `earlier` are the ends of the channels it has
constructed before. -/
structure Process.At (name : List Char) (side : Side) (earlier : List End) (files : List Path)
    (count : Nat) (process : Process) : Prop where
  opening : process.opening = .after name side count
  ends : process.ends = earlier ++ known name side count
  present : process.gone = false
  within : count ≤ 6
  made : count % 3 = 1 → pathAt name count ∈ files

/-- At these positions a constructor waits for its peer. -/
def Waiting (count : Nat) : Prop := count = 2 ∨ count = 5

instance (count : Nat) : Decidable (Waiting count) := inferInstanceAs (Decidable (_ ∨ _))

namespace Process.At

variable {name : List Char} {side : Side} {earlier : List End} {files : List Path} {count : Nat}
  {process : Process}

theorem begin (name : List Char) (side : Side) (files : List Path) :
    (Process.begin name side).At name side [] files 0 where
  opening := rfl
  ends := rfl
  present := rfl
  within := Nat.zero_le 6
  made := fun absent => absurd absent (by decide)

theorem mono (at_ : process.At name side earlier files count) {more : List Path}
    (kept : ∀ path ∈ files, path ∈ more) : process.At name side earlier more count :=
  { at_ with made := fun opens => kept _ (at_.made opens) }

/-- What a process still waits for does not depend on the FIFOs. -/
theorem elsewhere (at_ : process.At name side earlier files count) (late : 5 ≤ count)
    (other : List Path) : process.At name side earlier other count :=
  { at_ with
    made := by
      have within := at_.within
      intro opens
      omega }

theorem next_eq (at_ : process.At name side earlier files count) (before : count < 6)
    (peer : List End) :
    process.next files peer =
      if Waiting count ∧ ((modeAt side count).opposite, pathAt name count) ∉ peer then none
      else
        some (if count % 3 = 0 ∧ pathAt name count ∉ files then pathAt name count :: files else files,
          { opening := .after name side (count + 1)
            ends := earlier ++ known name side (count + 1)
            gone := false }) := by
  have ends := known_succ name side before
  rw [Process.next, if_neg (by rw [at_.present]; exact Bool.false_ne_true), at_.opening, at_.ends,
    Opening.next_after before, ends]
  by_cases makes : count % 3 = 0
  · have moves : ¬ Waiting count := by unfold Waiting; omega
    have other : ¬ count % 3 = 1 := by omega
    by_cases present : pathAt name count ∈ files <;> simp [makes, moves, present]
  · by_cases opens : count % 3 = 1
    · have moves : ¬ Waiting count := by unfold Waiting; omega
      simp [opens, moves, at_.made opens]
    · have waits : Waiting count := by unfold Waiting; omega
      by_cases met : ((modeAt side count).opposite, pathAt name count) ∈ peer <;>
        simp [makes, opens, waits, met]

theorem next_of_returned (at_ : process.At name side earlier files 6) (peer : List End) :
    process.next files peer = none := by
  have calls : process.opening.calls = [] := by
    rw [at_.opening]
    exact (Opening.after_calls (Nat.le_refl 6)).mpr rfl
  simp [Process.next, at_.present, Opening.next, calls]

theorem step (at_ : process.At name side earlier files count) {peer : List End}
    {more : List Path} {after : Process} (taken : process.next files peer = some (more, after)) :
    (Waiting count → ((modeAt side count).opposite, pathAt name count) ∈ peer) ∧
      after.At name side earlier more (count + 1) ∧ (∀ path ∈ files, path ∈ more) ∧
      ∀ path ∈ more, path ∈ files ∨ path = firstPath name ∨ path = secondPath name := by
  have before : count < 6 := by
    apply Nat.lt_of_le_of_ne at_.within
    intro last
    subst last
    rw [at_.next_of_returned] at taken
    cases taken
  rw [at_.next_eq before] at taken
  have next : count % 3 = 0 → pathAt name (count + 1) = pathAt name count := by
    intro makes
    unfold pathAt
    split_ifs <;> first | rfl | omega
  split_ifs at taken with waits makes
  · obtain ⟨rfl, rfl⟩ := Prod.mk.inj (Option.some.inj taken)
    have made : pathAt name count = firstPath name ∨ pathAt name count = secondPath name := by
      unfold pathAt
      split_ifs
      · exact .inl rfl
      · exact .inr rfl
    refine ⟨fun waiting => Classical.not_not.mp fun absent => waits ⟨waiting, absent⟩,
      ⟨rfl, rfl, rfl, before, fun _ => ?_⟩, fun _ member => List.mem_cons_of_mem _ member, ?_⟩
    · rw [next makes.1]
      exact List.mem_cons_self
    · intro path member
      rcases List.mem_cons.mp member with rfl | old
      · exact .inr made
      · exact .inl old
  · obtain ⟨rfl, rfl⟩ := Prod.mk.inj (Option.some.inj taken)
    refine ⟨fun waiting => Classical.not_not.mp fun absent => waits ⟨waiting, absent⟩,
      ⟨rfl, rfl, rfl, before, fun opens => ?_⟩, fun _ member => member, fun _ member => .inl member⟩
    have multiple : count % 3 = 0 := by omega
    rw [next multiple]
    exact Classical.not_not.mp fun absent => makes ⟨multiple, absent⟩

theorem step_files (at_ : process.At name side earlier files count) {peer : List End}
    {more : List Path} {after : Process} (taken : process.next files peer = some (more, after))
    (opens : count % 3 ≠ 0) (before : count < 6) : more = files := by
  rw [at_.next_eq before, if_neg (c := count % 3 = 0 ∧ _) fun both => opens both.1] at taken
  split_ifs at taken
  exact (congrArg Prod.fst (Option.some.inj taken)).symm

theorem enabled (at_ : process.At name side earlier files count) (before : count < 6)
    {peer : List End}
    (meets : Waiting count → ((modeAt side count).opposite, pathAt name count) ∈ peer) :
    ∃ more after, process.next files peer = some (more, after) := by
  rw [at_.next_eq before, if_neg fun both => both.2 (meets both.1)]
  exact ⟨_, _, rfl⟩

end Process.At

def Process.work (process : Process) : Nat :=
  2 * process.opening.calls.length + (if process.opening.waiting then 0 else 1) +
    if process.gone then 0 else 1

theorem Process.work_less {process after : Process} {files more : List Path} {peer : List End}
    (taken : process.next files peer = some (more, after)) : after.work < process.work := by
  have present : process.gone = false := by
    apply Bool.eq_false_iff.mpr
    intro absent
    simp [Process.next, absent] at taken
  simp only [Process.next, present, Bool.false_eq_true, if_false] at taken
  cases calls : process.opening.calls with
  | nil => simp [Opening.next, calls] at taken
  | cons call rest =>
      cases call with
      | mkfifo path =>
          simp only [Opening.next, calls, Option.some.injEq, Prod.mk.injEq] at taken
          obtain ⟨_, rfl⟩ := taken
          simp only [work, calls, present, List.length_cons]
          split_ifs <;> omega
      | openPipe mode path =>
          cases waiting : process.opening.waiting with
          | true =>
              by_cases met : (mode.opposite, path) ∈ peer
              · simp only [Opening.next, calls, waiting, met, if_true, Option.some.injEq,
                  Prod.mk.injEq] at taken
                obtain ⟨_, rfl⟩ := taken
                simp only [work, calls, waiting, present, List.length_cons, if_true,
                  Bool.false_eq_true, if_false]
                omega
              · simp [Opening.next, calls, waiting, met] at taken
          | false =>
              by_cases made : path ∈ files
              · simp only [Opening.next, calls, waiting, made, Bool.false_eq_true, if_false,
                  if_true, Option.some.injEq, Prod.mk.injEq] at taken
                obtain ⟨_, rfl⟩ := taken
                simp [work, calls, waiting, present]
              · simp only [Opening.next, calls, waiting, made, Bool.false_eq_true, if_false,
                  Option.some.injEq, Prod.mk.injEq] at taken
                obtain ⟨_, rfl⟩ := taken
                simp [work, present]

structure Pair where
  files : List Path
  left : Process
  right : Process
deriving DecidableEq

namespace Pair

inductive Label where
  | left
  | right

def next (state : Pair) : Label → Option Pair
  | .left =>
      match state.left.next state.files state.right.ends with
      | some (files, left) => some { state with files := files, left := left }
      | none => none
  | .right =>
      match state.right.next state.files state.left.ends with
      | some (files, right) => some { state with files := files, right := right }
      | none => none

def begin (name : List Char) (left right : Side) (leftover : List Path) : Pair :=
  { files := leftover
    left := .begin name left
    right := .begin name right }

/-- Both constructors run, whatever FIFOs earlier runs have left behind. -/
def system (name : List Char) (left right : Side) (leftover : List Path) : System Pair Label :=
  { start := fun state => state = begin name left right leftover
    next := next }

structure Connected (state : Pair) : Prop where
  left : state.left.gone = false ∧ state.left.opening.calls = []
  right : state.right.gone = false ∧ state.right.opening.calls = []
  two : state.left.ends.length = 2
  opposite : state.right.ends = state.left.ends.map fun opened => (opened.1.opposite, opened.2)

variable {name : List Char} {leftSide rightSide : Side} {leftover : List Path}
  {state after : Pair}

structure Reached (name : List Char) (leftSide rightSide : Side) (left right : Nat)
    (state : Pair) : Prop where
  leftAt : state.left.At name leftSide [] state.files left
  rightAt : state.right.At name rightSide [] state.files right
  leftMet : ∀ {count}, Waiting count → count < left → leftSide ≠ rightSide ∧ count ≤ right
  rightMet : ∀ {count}, Waiting count → count < right → leftSide ≠ rightSide ∧ count ≤ left

theorem Reached.begin (name : List Char) (leftSide rightSide : Side) (leftover : List Path) :
    (begin name leftSide rightSide leftover).Reached name leftSide rightSide 0 0 where
  leftAt := .begin name leftSide leftover
  rightAt := .begin name rightSide leftover
  leftMet := fun _ none => absurd none (Nat.not_lt_zero _)
  rightMet := fun _ none => absurd none (Nat.not_lt_zero _)

theorem Reached.step {left right : Nat} (reached : state.Reached name leftSide rightSide left right)
    {label : Label} (taken : state.next label = some after) :
    after.Reached name leftSide rightSide (left + 1) right ∨
      after.Reached name leftSide rightSide left (right + 1) := by
  cases label with
  | left =>
      left
      cases moved : state.left.next state.files state.right.ends with
      | none => simp only [next, moved, reduceCtorEq] at taken
      | some result =>
          obtain ⟨files, process⟩ := result
          simp only [next, moved, Option.some.injEq] at taken
          subst taken
          obtain ⟨met, later, kept, _⟩ := reached.leftAt.step moved
          refine ⟨later, reached.rightAt.mono kept, ?_, ?_⟩
          · intro count waits less
            by_cases last : count = left
            · subst last
              have opened := met waits
              rw [reached.rightAt.ends, List.nil_append] at opened
              exact (opposite_known waits).mp opened
            · exact reached.leftMet waits (by omega)
          · intro count waits less
            obtain ⟨differ, far⟩ := reached.rightMet waits less
            exact ⟨differ, Nat.le_succ_of_le far⟩
  | right =>
      right
      cases moved : state.right.next state.files state.left.ends with
      | none => simp only [next, moved, reduceCtorEq] at taken
      | some result =>
          obtain ⟨files, process⟩ := result
          simp only [next, moved, Option.some.injEq] at taken
          subst taken
          obtain ⟨met, later, kept, _⟩ := reached.rightAt.step moved
          refine ⟨reached.leftAt.mono kept, later, ?_, ?_⟩
          · intro count waits less
            obtain ⟨differ, far⟩ := reached.leftMet waits less
            exact ⟨differ, Nat.le_succ_of_le far⟩
          · intro count waits less
            by_cases last : count = right
            · subst last
              have opened := met waits
              rw [reached.leftAt.ends, List.nil_append] at opened
              have both := (opposite_known waits).mp opened
              exact ⟨both.1.symm, both.2⟩
            · exact reached.rightMet waits (by omega)

theorem Reached.of_run {labels : List Label} {left right : Nat}
    (reached : state.Reached name leftSide rightSide left right)
    (ran : (system name leftSide rightSide leftover).run state labels = some after) :
    ∃ furtherLeft furtherRight, furtherLeft + furtherRight = left + right + labels.length ∧
      after.Reached name leftSide rightSide furtherLeft furtherRight := by
  induction labels generalizing state left right with
  | nil =>
      cases ran
      exact ⟨left, right, rfl, reached⟩
  | cons label rest ih =>
      obtain ⟨middle, taken, remaining⟩ := System.run_cons ran
      rcases reached.step taken with moved | moved
      · obtain ⟨furtherLeft, furtherRight, total, last⟩ := ih moved remaining
        exact ⟨furtherLeft, furtherRight, by rw [List.length_cons]; omega, last⟩
      · obtain ⟨furtherLeft, furtherRight, total, last⟩ := ih moved remaining
        exact ⟨furtherLeft, furtherRight, by rw [List.length_cons]; omega, last⟩

theorem reached_of_reachable
    (reached : (system name leftSide rightSide leftover).Reachable state) :
    ∃ left right, state.Reached name leftSide rightSide left right := by
  apply reached.invariant
  · intro begun start
    subst start
    exact ⟨0, 0, .begin name leftSide rightSide leftover⟩
  · intro before label later _ held taken
    obtain ⟨left, right, positions⟩ := held
    rcases positions.step taken with moved | moved
    · exact ⟨_, _, moved⟩
    · exact ⟨_, _, moved⟩

def work (state : Pair) : Nat := state.left.work + state.right.work

theorem work_less {label : Label} (taken : state.next label = some after) :
    after.work < state.work := by
  cases label with
  | left =>
      cases moved : state.left.next state.files state.right.ends with
      | none => simp only [next, moved, reduceCtorEq] at taken
      | some result =>
          simp only [next, moved, Option.some.injEq] at taken
          subst taken
          exact Nat.add_lt_add_right (Process.work_less moved) _
  | right =>
      cases moved : state.right.next state.files state.left.ends with
      | none => simp only [next, moved, reduceCtorEq] at taken
      | some result =>
          simp only [next, moved, Option.some.injEq] at taken
          subst taken
          exact Nat.add_lt_add_left (Process.work_less moved) _

theorem Reached.returned {left right : Nat} (differ : leftSide ≠ rightSide)
    (reached : state.Reached name leftSide rightSide left right)
    (stuck : ¬ (system name leftSide rightSide leftover).Enabled state) :
    left = 6 ∧ right = 6 := by
  have leftStays : left = 6 ∨ Waiting left ∧ right < left := by
    apply Classical.byContradiction
    intro moves
    obtain ⟨goes, meets⟩ := not_or.mp moves
    have within := reached.leftAt.within
    obtain ⟨files, process, taken⟩ := @Process.At.enabled _ _ _ _ _ _ reached.leftAt (by omega)
      state.right.ends (by
        intro waits
        rw [reached.rightAt.ends, List.nil_append]
        exact (opposite_known waits).mpr
          ⟨differ, Nat.le_of_not_lt fun behind => meets ⟨waits, behind⟩⟩)
    refine stuck ⟨.left, { state with files := files, left := process }, ?_⟩
    simp only [system, next, taken]
  have rightStays : right = 6 ∨ Waiting right ∧ left < right := by
    apply Classical.byContradiction
    intro moves
    obtain ⟨goes, meets⟩ := not_or.mp moves
    have within := reached.rightAt.within
    obtain ⟨files, process, taken⟩ := @Process.At.enabled _ _ _ _ _ _ reached.rightAt (by omega)
      state.left.ends (by
        intro waits
        rw [reached.leftAt.ends, List.nil_append]
        exact (opposite_known waits).mpr
          ⟨differ.symm, Nat.le_of_not_lt fun behind => meets ⟨waits, behind⟩⟩)
    refine stuck ⟨.right, { state with files := files, right := process }, ?_⟩
    simp only [system, next, taken]
  unfold Waiting at leftStays rightStays
  omega

/-- Two ends of one side never get beyond their first FIFO. -/
theorem Reached.waits {left right : Nat} (same : leftSide = rightSide)
    (reached : state.Reached name leftSide rightSide left right) : left ≤ 2 ∧ right ≤ 2 := by
  constructor
  · apply Nat.le_of_not_lt
    intro beyond
    exact (reached.leftMet (.inl rfl) beyond).1 same
  · apply Nat.le_of_not_lt
    intro beyond
    exact (reached.rightMet (.inl rfl) beyond).1 same

/-- The constructors of two ends take at most twelve steps, and whatever FIFOs are left
from earlier runs and however they interleave, they end connected exactly when one is
the server's and the other the client's. -/
theorem connects_iff_opposite (name : List Char) (leftSide rightSide : Side)
    (leftover : List Path) :
    (∀ labels after, (system name leftSide rightSide leftover).run
        (begin name leftSide rightSide leftover) labels = some after → labels.length ≤ 12) ∧
    ((∀ state, (system name leftSide rightSide leftover).Reachable state →
        ¬ (system name leftSide rightSide leftover).Enabled state → state.Connected) ↔
      leftSide ≠ rightSide) := by
  have begun := Reached.begin name leftSide rightSide leftover
  have bounded : ∀ labels after, (system name leftSide rightSide leftover).run
      (begin name leftSide rightSide leftover) labels = some after → labels.length ≤ 12 := by
    intro labels after ran
    obtain ⟨left, right, total, reached⟩ := begun.of_run ran
    have leftWithin := reached.leftAt.within
    have rightWithin := reached.rightAt.within
    omega
  refine ⟨bounded, ?_, ?_⟩
  · intro connects same
    obtain ⟨state, path, stuck⟩ := @System.exists_end _ _
      (system name leftSide rightSide leftover) work (fun _ _ _ => work_less)
      (begin name leftSide rightSide leftover)
    have reachable := (System.Reachable.begin
      (show (system name leftSide rightSide leftover).start _ from rfl)).of_path path
    obtain ⟨left, right, reached⟩ := reached_of_reachable reachable
    have returned := (connects state reachable stuck).left.2
    rw [reached.leftAt.opening] at returned
    have last := (Opening.after_calls reached.leftAt.within).mp returned
    have early := (reached.waits same).1
    omega
  · intro differ state reachable stuck
    obtain ⟨left, right, reached⟩ := reached_of_reachable reachable
    obtain ⟨rfl, rfl⟩ := reached.returned differ stuck
    refine ⟨⟨reached.leftAt.present, ?_⟩, ⟨reached.rightAt.present, ?_⟩, ?_, ?_⟩
    · rw [reached.leftAt.opening]
      exact (Opening.after_calls (Nat.le_refl 6)).mpr rfl
    · rw [reached.rightAt.opening]
      exact (Opening.after_calls (Nat.le_refl 6)).mpr rfl
    · rw [reached.leftAt.ends]
      rfl
    · have opposite := firstMode_opposite.mpr differ
      rw [reached.leftAt.ends, reached.rightAt.ends]
      simp [known, ← opposite]

end Pair

end Netwurk.DataServer
