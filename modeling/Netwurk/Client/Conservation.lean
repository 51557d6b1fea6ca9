/-
No request and no reply is lost or counted twice. What a patient's request thread
has still to push, what is on its way, and what the patient's row of the histogram
holds always add up to the number of requests.
-/

import Mathlib.Algebra.BigOperators.Ring.Finset
import Netwurk.Client.Shutdown

namespace Netwurk.Client

open Transition RequestChannel

def Worker.holds (patient : Patient) (worker : Worker) : Nat :=
  match worker.pc with
  | .holding request | .reading request | .pushing request _ =>
      if request = patient.key then 1 else 0
  | _ => 0

def StatPc.holds : StatPc → Nat
  | .updating _ => 1
  | _ => 0

/-- The stat thread that takes from the patient's buffer. -/
def counter : Patient → Fin 3
  | .john => 0
  | .jane => 1
  | .joe => 2

theorem patsBuffs_counter (patient : Patient) : patsBuffs (counter patient) = patient := by
  cases patient <;> rfl

theorem counter_patsBuffs (i : Fin 3) : counter (patsBuffs i) = i := by
  revert i
  decide

namespace State

variable {config : Config} {state after : State config}

def unpushed (state : State config) (patient : Patient) : Nat :=
  config.n - (state.patientsThread (requester patient)).progress config.n

def queued (state : State config) (patient : Patient) : Nat :=
  state.requestBuffer.items.count patient.key

def held (state : State config) (patient : Patient) : Nat :=
  ∑ j, (state.workerThreads j).holds patient

/-- Replies in the patient's stat buffer or held by the patient's stat thread. -/
def uncounted (state : State config) (patient : Patient) : Nat :=
  (state.rBuff patient).items.countP notQuit +
    (state.patientsStatThread (counter patient)).pc.holds

def rowTotal (state : State config) (patient : Patient) : Int :=
  ∑ bin, state.hist.hist (Histogram.cell patient.row bin)

private theorem holds_split {worker : Worker} (honest : Honest config)
    (valid : worker.Valid config) (patient : Patient) :
    worker.holds patient = worker.awaiting patient + worker.returning patient notQuit := by
  cases valid with
  | @pushing other response _ _ exchanged =>
      have permitted := (exchanged _ (List.mem_append_right _ List.mem_cons_self)).2
      have data := honest response permitted
      simp [Worker.holds, Worker.awaiting, Worker.returning, answeredFor, notQuit, data]
  | _ => rfl

theorem Sound.taken_split (honest : Honest config) (sound : state.Sound) (patient : Patient) :
    state.requestBuffer.popped.count patient.key =
      (state.rBuff patient).pushed.countP notQuit + state.held patient := by
  rw [sound.accounted.popped, sound.accounted.pushed patient notQuit rfl, held,
    ← Finset.sum_add_distrib]
  apply Finset.sum_congr rfl
  intro j _
  have valid := sound.accounted.valid j
  have answered := valid.answered_count patient notQuit
  rw [valid.popped_count patient, valid.countP_notQuit honest, holds_split honest valid]
  omega

theorem Sound.pushed_split (sound : state.Sound) (patient : Patient) :
    (state.rBuff patient).pushed.countP notQuit =
      state.uncounted patient +
        (state.patientsStatThread (counter patient)).counted.length := by
  have taken : (state.rBuff patient).popped.countP notQuit =
      (state.patientsStatThread (counter patient)).pc.holds +
        (state.patientsStatThread (counter patient)).counted.length := by
    have valid := sound.last.stats (counter patient)
    rw [patsBuffs_counter] at valid
    generalize (state.rBuff patient).popped = popped at valid
    generalize state.patientsStatThread (counter patient) = thread at valid
    have all {counted : List String} (data : "quit" ∉ counted) :
        counted.countP notQuit = counted.length := by
      apply List.countP_eq_length.mpr
      intro response member
      simp only [notQuit, decide_eq_true_eq]
      intro same
      subst same
      exact data member
    cases valid with
    | notStarted => rfl
    | popping data =>
        rw [all data]
        simp [StatPc.holds]
    | updating data more =>
        rw [List.countP_append, all data]
        simp [StatPc.holds, notQuit, more]
        omega
    | ended data =>
        rw [List.countP_append, all data]
        simp [StatPc.holds, notQuit]
  rw [TracedQueue.split, List.countP_append, taken, uncounted]
  omega

theorem Sound.places (honest : Honest config) (sound : state.Sound)
    (requested : state.Requested) (patient : Patient) :
    state.unpushed patient + state.queued patient + state.held patient +
      state.uncounted patient +
        (state.patientsStatThread (counter patient)).counted.length = config.n := by
  have pushed := requested.pushed patient
  have within := Pusher.progress_le (requested.within (requester patient))
  have total := state.requestBuffer.count_pushed patient.key
  have taken := sound.taken_split honest patient
  have replies := sound.pushed_split patient
  unfold unpushed queued
  omega

/-! ### From the stat threads to the histogram -/

/-- A cell counts the responses of its bin as long as they fit into an `int`. -/
def Counted (state : State config) : Prop :=
  ∀ (patient : Patient) (bin : Fin 10),
    (((state.patientsStatThread (counter patient)).counted.countP (inBin bin) : Nat) : Int) ≤
      INT_MAX →
    state.hist.hist (Histogram.cell patient.row bin) =
      (state.patientsStatThread (counter patient)).counted.countP (inBin bin)

private theorem counted_update (counted : state.Counted) {i : Fin 3} {response : String}
    {bin : Fin 10} (here : ∀ other, inBin other response = decide (other = bin))
    (patient : Patient) (other : Fin 10)
    (fits : (((Function.update state.patientsStatThread i
      ⟨.popping, (state.patientsStatThread i).counted ++ [response]⟩ (counter patient)).counted.countP
        (inBin other) : Nat) : Int) ≤ INT_MAX) :
    Function.update state.hist.hist (Histogram.cell (patsBuffs i).row bin)
        (increment (state.hist.hist (Histogram.cell (patsBuffs i).row bin)))
        (Histogram.cell patient.row other) =
      (Function.update state.patientsStatThread i
        ⟨.popping, (state.patientsStatThread i).counted ++ [response]⟩ (counter patient)).counted.countP
          (inBin other) := by
  have before := counted patient other
  by_cases same : patient = patsBuffs i
  · subst same
    rw [counter_patsBuffs] at before fits ⊢
    rw [Function.update_self] at fits ⊢
    rw [List.countP_append, List.countP_singleton, here] at fits ⊢
    by_cases inside : other = bin
    · subst inside
      simp only [decide_true, if_true] at fits ⊢
      rw [Function.update_self, before (by omega), increment_of_lt (by omega)]
      rfl
    · simp only [inside, decide_false, Bool.false_eq_true, if_false, Nat.add_zero] at fits ⊢
      rw [Function.update_of_ne fun equal => inside (Histogram.cell_injective equal).2]
      exact before fits
  · have elsewhere : counter patient ≠ i := by
      intro equal
      apply same
      rw [← equal, patsBuffs_counter]
    rw [Function.update_of_ne elsewhere] at fits ⊢
    rw [Function.update_of_ne fun equal =>
      same (Patient.row_injective (Histogram.cell_injective equal).1)]
    exact before fits

private theorem counted_kept (counted : state.Counted) {i : Fin 3} {thread : StatThread}
    (same : thread.counted = (state.patientsStatThread i).counted)
    (patient : Patient) (bin : Fin 10)
    (fits : (((Function.update state.patientsStatThread i thread
      (counter patient)).counted.countP (inBin bin) : Nat) : Int) ≤ INT_MAX) :
    state.hist.hist (Histogram.cell patient.row bin) =
      (Function.update state.patientsStatThread i thread (counter patient)).counted.countP
        (inBin bin) := by
  have history : (Function.update state.patientsStatThread i thread (counter patient)).counted =
      (state.patientsStatThread (counter patient)).counted := by
    by_cases here : counter patient = i
    · rw [here, Function.update_self, same]
    · rw [Function.update_of_ne here]
  rw [history] at fits ⊢
  exact counted patient bin fits

theorem Counted.step (replies : ∀ reply, config.answers reply = true → Reply reply)
    (sound : state.Sound) (alive : state.Alive) (counted : state.Counted)
    (taken : state.Step after) : after.Counted := by
  cases taken with
  | createStat | statPop | statQuit =>
      intro patient bin fits
      exact counted_kept counted (by rfl) patient bin fits
  | @statUpdate i response hist at_ updated =>
      obtain ⟨bin, here, result⟩ := Histogram.update_reply alive.table (patsBuffs i)
        (replies _ (sound.updating_permitted at_))
      rw [updateKey_eq_key, result] at updated
      cases updated
      intro patient other fits
      exact counted_update counted here patient other fits
  | _ => exact counted

theorem counted_of_reachable (succeeds : config.failing = none)
    (replies : ∀ reply, config.answers reply = true → Reply reply)
    (reached : (client config).Reachable state) : state.Counted := by
  apply reached.invariant
  · intro begun initial
    obtain ⟨memory, rfl⟩ := initial
    exact fun patient bin _ => rfl
  · intro before label later earlier counted taken
    exact counted.step replies (sound_of_reachable earlier)
      (alive_of_reachable succeeds replies earlier) (next_step taken)

theorem Sound.counted_permitted (sound : state.Sound) (patient : Patient) :
    ∀ response ∈ (state.patientsStatThread (counter patient)).counted,
      config.Permits response := by
  intro response member
  have valid := sound.last.stats (counter patient)
  rw [patsBuffs_counter] at valid
  have taken : response ∈ (state.rBuff patient).popped ∧ response ≠ "quit" := by
    generalize (state.rBuff patient).popped = popped at valid
    generalize state.patientsStatThread (counter patient) = thread at valid member
    have data {counted : List String} (absent : "quit" ∉ counted)
        (inside : response ∈ counted) : response ≠ "quit" := by
      intro same
      subst same
      exact absent inside
    cases valid with
    | notStarted => cases member
    | popping absent => exact ⟨member, data absent member⟩
    | updating absent => exact ⟨List.mem_append_left _ member, data absent member⟩
    | ended absent => exact ⟨List.mem_append_left _ member, data absent member⟩
  exact sound.accounted.permitted_of_pushed (TracedQueue.mem_pushed_of_mem_popped taken.1)
    taken.2

end State

theorem exists_bin {response : String} (reply : Reply response) :
    ∃ bin : Fin 10, ∀ other, inBin other response = decide (other = bin) := by
  have fresh : Histogram.fresh.map = Histogram.fresh.map := rfl
  obtain ⟨bin, here, _⟩ := Histogram.update_reply fresh .john reply
  exact ⟨bin, here⟩

theorem sum_countP_bins {counted : List String} (replies : ∀ response ∈ counted, Reply response) :
    ∑ bin, counted.countP (inBin bin) = counted.length := by
  induction counted with
  | nil => simp
  | cons response rest ih =>
      obtain ⟨bin, here⟩ := exists_bin (replies response List.mem_cons_self)
      have before := ih fun other member => replies other (List.mem_cons_of_mem _ member)
      simp only [List.countP_cons, Finset.sum_add_distrib, before, here, decide_eq_true_eq,
        Finset.sum_ite_eq', Finset.mem_univ, if_true, List.length_cons]

namespace State

variable {config : Config} {state : State config}

theorem counted_length_le (honest : Honest config) (sound : state.Sound)
    (requested : state.Requested) (patient : Patient) :
    (state.patientsStatThread (counter patient)).counted.length ≤ config.n := by
  have places := sound.places honest requested patient
  omega

/-- The row of a patient holds all responses that have been counted. -/
theorem Counted.cell_eq (bound : (config.n : Int) ≤ INT_MAX) (honest : Honest config)
    (sound : state.Sound) (requested : state.Requested) (counted : state.Counted)
    (patient : Patient) (bin : Fin 10) :
    state.hist.hist (Histogram.cell patient.row bin) =
        (state.patientsStatThread (counter patient)).counted.countP (inBin bin) ∧
      (state.patientsStatThread (counter patient)).counted.countP (inBin bin) ≤ config.n := by
  have within : (state.patientsStatThread (counter patient)).counted.countP (inBin bin) ≤
      config.n :=
    Nat.le_trans List.countP_le_length (counted_length_le honest sound requested patient)
  refine ⟨counted patient bin ?_, within⟩
  omega

theorem Counted.rowTotal_eq (bound : (config.n : Int) ≤ INT_MAX)
    (replies : ∀ reply, config.answers reply = true → Reply reply) (sound : state.Sound)
    (requested : state.Requested) (counted : state.Counted) (patient : Patient) :
    state.rowTotal patient = (state.patientsStatThread (counter patient)).counted.length := by
  have honest := honest_of_reply replies
  rw [← sum_countP_bins fun response member =>
    replies response (sound.counted_permitted patient response member)]
  unfold rowTotal
  rw [Nat.cast_sum]
  apply Finset.sum_congr rfl
  intro bin _
  exact (counted.cell_eq bound honest sound requested patient bin).1

theorem stats_ended_of_joined (sound : state.Sound) (joined : state.main.joinedStats = 3)
    (i : Fin 3) : (state.patientsStatThread i).pc = .ended :=
  sound.ordered.stats_joined i (by rw [joined]; exact i.isLt)

private theorem joinedWorkers_of_joinedStats {main : Main} (w : Nat)
    (joined : main.joinedStats = 3) : main.joinedWorkers w = w := by
  cases main with
  | joinStat | finished => rfl
  | _ => cases joined

theorem workers_ended_of_joined (ordered : state.InOrder) (joined : state.main.joinedStats = 3)
    (j : Fin config.w) : (state.workerThreads j).pc = .ended :=
  ordered.workers_joined j (by rw [joinedWorkers_of_joinedStats config.w joined]; exact j.isLt)

theorem counted_of_idle (sound : state.Sound) (closed : state.StatsClosed)
    (idle : ∀ j, ¬ (state.workerThreads j).pc.Running) (joined : state.main.joinedStats = 3)
    (patient : Patient) (bin : Fin 10) :
    (state.patientsStatThread (counter patient)).counted.countP (inBin bin) =
      ∑ j, (state.workerThreads j).answered.countP (answeredFor patient (inBin bin)) := by
  have ended := stats_ended_of_joined sound joined (counter patient)
  have drained := closed.drained sound.last ended
  rw [patsBuffs_counter] at drained
  have quit : inBin bin "quit" = false := by
    revert bin
    decide
  have popped : (state.rBuff patient).popped.countP (inBin bin) =
      (state.patientsStatThread (counter patient)).counted.countP (inBin bin) := by
    have valid := sound.last.stats (counter patient)
    rw [patsBuffs_counter] at valid
    generalize (state.rBuff patient).popped = popped at valid
    generalize state.patientsStatThread (counter patient) = thread at valid ended
    cases valid with
    | ended => simp [List.countP_append, quit]
    | _ => cases ended
  have pushed := sound.pushed_of_idle idle patient quit
  rw [TracedQueue.split, drained, List.append_nil, popped] at pushed
  exact pushed

theorem counted_of_joined (ordered : state.InOrder) (sound : state.Sound)
    (closed : state.StatsClosed) (joined : state.main.joinedStats = 3) (patient : Patient)
    (bin : Fin 10) :
    (state.patientsStatThread (counter patient)).counted.countP (inBin bin) =
      ∑ j, (state.workerThreads j).reqChan.handled.countP (answeredFor patient (inBin bin)) := by
  have workers := workers_ended_of_joined ordered joined
  rw [counted_of_idle sound closed (fun j running => running.2 (workers j)) joined]
  apply Finset.sum_congr rfl
  intro j _
  have valid := sound.accounted.valid j
  have left := workers j
  generalize state.workerThreads j = worker at valid left
  cases valid with
  | ended _ phase => rw [phase.left_handled]
  | _ => cases left

theorem nothing_left_of_joined (honest : Honest config) (positive : 1 ≤ config.w)
    (ordered : state.InOrder) (sound : state.Sound) (closed : state.StatsClosed)
    (requested : state.Requested) (joined : state.main.joinedStats = 3) (patient : Patient) :
    (state.patientsStatThread (counter patient)).counted.length = config.n := by
  have ended := stats_ended_of_joined sound joined (counter patient)
  have drained := closed.drained sound.last ended
  rw [patsBuffs_counter] at drained
  have workers := workers_ended_of_joined ordered joined
  have replies := sound.all_replies_pushed honest requested positive workers patient
  have split := sound.pushed_split patient
  have nothing : state.uncounted patient = 0 := by
    simp [uncounted, drained, ended, StatPc.holds]
  omega

end State

/-! ### The whole pipeline -/

variable {config : Config}

/-- For each patient the requests not yet pushed, in the request buffer and with
the workers, the replies not yet counted and the row of the histogram add up to
`n`; after the stat threads have been joined the row holds exactly the replies of
the server. -/
theorem conservation (succeeds : config.failing = none)
    (replies : ∀ reply, config.answers reply = true → Reply reply)
    (bound : (config.n : Int) ≤ INT_MAX) (positive : 1 ≤ config.w)
    (state : State config) (reached : (client config).Reachable state) (patient : Patient) :
    ((state.unpushed patient + state.queued patient + state.held patient +
        state.uncounted patient : Nat) : Int) + state.rowTotal patient = config.n ∧
    state.rowTotal patient ≤ config.n ∧
    (∀ bin, 0 ≤ state.hist.hist (Histogram.cell patient.row bin) ∧
      state.hist.hist (Histogram.cell patient.row bin) ≤ config.n) ∧
    (state.main.joinedStats = 3 →
      state.rowTotal patient = config.n ∧
      ∀ bin, state.hist.hist (Histogram.cell patient.row bin) =
        ((∑ j, (state.workerThreads j).reqChan.handled.countP
          (answeredFor patient (inBin bin)) : Nat) : Int)) := by
  have honest := State.honest_of_reply replies
  have sound := State.sound_of_reachable reached
  have requested := State.requested_of_reachable reached
  have counted := State.counted_of_reachable succeeds replies reached
  have cells := counted.cell_eq bound honest sound requested patient
  have row := counted.rowTotal_eq bound replies sound requested patient
  have places := sound.places honest requested patient
  refine ⟨?_, ?_, ?_, ?_⟩
  · rw [row]
    omega
  · rw [row]
    omega
  · intro bin
    obtain ⟨value, within⟩ := cells bin
    omega
  · intro joined
    have ordered := State.inOrder_of_reachable succeeds reached
    have closed := State.statsClosed_of_reachable succeeds honest reached
    constructor
    · rw [row, State.nothing_left_of_joined honest positive ordered sound closed requested joined]
    · intro bin
      rw [(cells bin).1, State.counted_of_joined ordered sound closed joined]

theorem conservation_wholeRun :
    ∃ state, (client smallest).run (initial smallest fun _ => []) wholeRun = some state ∧
      state.main = .finished ∧ state.hist.hist (Histogram.cell Patient.joe.row 5) = 1 ∧
      ∀ patient, state.rowTotal patient = 1 := by
  have ran : ((client smallest).run (initial smallest fun _ => []) wholeRun).map
      (fun state => (state.main, state.hist.hist (Histogram.cell Patient.joe.row 5))) =
        some (.finished, 1) := by
    decide +kernel
  obtain ⟨state, run, last⟩ := Option.map_eq_some_iff.mp ran
  obtain ⟨finished, cell⟩ := Prod.mk.inj last
  have start : (client smallest).start (initial smallest fun _ => []) := ⟨_, rfl⟩
  have reached := (System.Reachable.begin start).of_run run
  refine ⟨state, run, finished, cell, fun patient => ?_⟩
  have joined : state.main.joinedStats = 3 := by rw [finished]; rfl
  have total := (conservation rfl (fun _ => serverReplies_iff.mp) (by decide) (by decide) state
    reached patient).2.2.2 joined
  exact total.1

end Netwurk.Client
