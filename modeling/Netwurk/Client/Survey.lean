/-
What the client is for: a survey. Every patient is asked `n` times, every answer is
counted once, and nothing else is. However many workers and whatever buffers there
are, the client does what a survey can do, and so what it prints depends on the
answers only.
-/

import Mathlib.Algebra.BigOperators.Fin
import Mathlib.Data.Multiset.AddSub
import Mathlib.Data.Multiset.Filter
import Mathlib.Algebra.Order.Group.Multiset
import Netwurk.Histogram.Table
import Netwurk.Client.Conservation

namespace Netwurk.Client

open Transition RequestChannel

/-- The answers that have been given and those that have been counted. -/
structure Survey where
  answered : Patient → Multiset String
  counted : Patient → Multiset String

namespace Survey

inductive Action where
  | answer (patient : Patient) (reply : String)
  | count (patient : Patient) (reply : String)

/-- An answer can be counted as often as it has been given. -/
def next (n : Nat) (answers : String → Bool) (state : Survey) : Action → Option Survey
  | .answer patient reply =>
      if (state.answered patient).card < n ∧ answers reply = true then
        some { state with
          answered := Function.update state.answered patient
            (state.answered patient + {reply}) }
      else none
  | .count patient reply =>
      if (state.counted patient).count reply < (state.answered patient).count reply then
        some { state with
          counted := Function.update state.counted patient (state.counted patient + {reply}) }
      else none

def initial : Survey :=
  { answered := fun _ => 0
    counted := fun _ => 0 }

end Survey

def survey (n : Nat) (answers : String → Bool) : System Survey Survey.Action :=
  { start := fun state => state = .initial
    next := Survey.next n answers }

namespace Survey

structure Fair (n : Nat) (answers : String → Bool) (state : Survey) : Prop where
  asked : ∀ patient, (state.answered patient).card ≤ n
  genuine : ∀ patient, ∀ reply ∈ state.answered patient, answers reply = true
  once : ∀ patient, state.counted patient ≤ state.answered patient

theorem fair_of_reachable {n : Nat} {answers : String → Bool} {state : Survey}
    (reached : (survey n answers).Reachable state) : state.Fair n answers := by
  apply reached.invariant
  · intro begun initial
    subst initial
    exact ⟨fun _ => Nat.zero_le n, fun _ _ member => absurd member (Multiset.notMem_zero _),
      fun _ => le_refl 0⟩
  · intro before action later _ fair taken
    cases action with
    | answer patient reply =>
        simp only [survey, next] at taken
        split at taken <;> cases taken
        rename_i allowed
        refine ⟨fun other => ?_, fun other text member => ?_, fun other => ?_⟩
        · by_cases same : other = patient
          · subst same
            simp only [Function.update_self, Multiset.card_add, Multiset.card_singleton]
            exact allowed.1
          · simp only [Function.update_of_ne same]
            exact fair.asked other
        · by_cases same : other = patient
          · subst same
            simp only [Function.update_self, Multiset.mem_add, Multiset.mem_singleton] at member
            rcases member with earlier | new
            · exact fair.genuine other text earlier
            · rw [new]
              exact allowed.2
          · simp only [Function.update_of_ne same] at member
            exact fair.genuine other text member
        · by_cases same : other = patient
          · subst same
            simp only [Function.update_self]
            exact le_add_right (fair.once other)
          · simp only [Function.update_of_ne same]
            exact fair.once other
    | count patient reply =>
        simp only [survey, next] at taken
        split at taken <;> cases taken
        rename_i uncounted
        refine ⟨fair.asked, fair.genuine, fun other => ?_⟩
        by_cases same : other = patient
        · subst same
          simp only [Function.update_self]
          apply Multiset.le_iff_count.mpr
          intro text
          have before := Multiset.le_iff_count.mp (fair.once other) text
          rw [Multiset.count_add, Multiset.count_singleton]
          split
          · rename_i equal
            subst equal
            exact uncounted
          · exact before
        · simp only [Function.update_of_ne same]
          exact fair.once other

end Survey

/-! ### The survey a client makes -/

def Worker.replies (patient : Patient) (worker : Worker) : Multiset String :=
  (worker.answered.filter fun exchange => exchange.1 = patient.key).map Prod.snd

theorem Worker.card_replies (patient : Patient) (worker : Worker) :
    (worker.replies patient).card = worker.answered.countP (answeredFor patient everyResponse) := by
  simp only [replies, Multiset.coe_card, List.length_map, List.countP_eq_length_filter]
  congr 1
  apply List.filter_congr
  intro exchange _
  simp [answeredFor, everyResponse]

theorem Worker.count_replies (patient : Patient) (worker : Worker) (reply : String) :
    (worker.replies patient).count reply =
      worker.answered.countP (answeredFor patient fun text => decide (text = reply)) := by
  simp only [replies, Multiset.coe_count, List.count, List.countP_map, List.countP_filter]
  apply List.countP_congr
  intro exchange _
  simp [answeredFor, and_comm]

namespace State

variable {config : Config} {state after : State config}

def survey (state : State config) : Survey :=
  { answered := fun patient => ∑ j, (state.workerThreads j).replies patient
    counted := fun patient => (state.patientsStatThread (counter patient)).counted }

private theorem answered_kept {j : Fin config.w} {worker : Worker}
    (same : worker.answered = (state.workerThreads j).answered) :
    (fun patient => ∑ other, (Function.update state.workerThreads j worker other).replies patient) =
      state.survey.answered := by
  funext patient
  have kept : worker.replies patient = (state.workerThreads j).replies patient := by
    simp only [Worker.replies, same]
  have total := Families.sum_update_grow (fun _ worker => Worker.replies patient worker)
    state.workerThreads j (kept.trans (add_zero _).symm)
  exact total.trans (add_zero _)

private theorem counted_kept_update {i : Fin 3} {thread : StatThread}
    (same : thread.counted = (state.patientsStatThread i).counted) :
    (fun patient => ((Function.update state.patientsStatThread i thread
      (counter patient)).counted : Multiset String)) = state.survey.counted := by
  funext patient
  by_cases here : counter patient = i
  · subst here
    simp only [Function.update_self, same]
    rfl
  · simp only [Function.update_of_ne here]
    rfl

private theorem unanswered (sound : state.Sound) (requested : state.Requested) {patient : Patient}
    {j : Fin config.w} (at_ : (state.workerThreads j).pc = .reading patient.key) :
    (state.survey.answered patient).card < config.n := by
  have pushed := requested.pushed patient
  have bound := Pusher.progress_le (requested.within (requester patient))
  have total := state.requestBuffer.count_pushed patient.key
  have popped : state.requestBuffer.popped.count patient.key =
      (∑ other, ((state.workerThreads other).replies patient).card) +
        ∑ other, (state.workerThreads other).awaiting patient := by
    rw [sound.accounted.popped, ← Finset.sum_add_distrib]
    apply Finset.sum_congr rfl
    intro other _
    rw [Worker.card_replies]
    exact (sound.accounted.valid other).popped_count patient
  have here : 1 ≤ ∑ other, (state.workerThreads other).awaiting patient := by
    calc
      1 = (state.workerThreads j).awaiting patient := by simp [Worker.awaiting, at_]
      _ ≤ _ := Finset.single_le_sum (f := fun other =>
          (state.workerThreads other).awaiting patient) (fun _ _ => Nat.zero_le _)
          (Finset.mem_univ j)
  have cards : (state.survey.answered patient).card =
      ∑ other, ((state.workerThreads other).replies patient).card := by
    simp only [survey, Multiset.card_sum]
  omega

private theorem uncounted_reply (honest : Honest config) (sound : state.Sound) {i : Fin 3}
    {response : String} (at_ : (state.patientsStatThread i).pc = .updating response) :
    (state.survey.counted (patsBuffs i)).count response <
      (state.survey.answered (patsBuffs i)).count response := by
  have data : response ≠ "quit" := honest response (sound.updating_permitted at_)
  have popped : (state.rBuff (patsBuffs i)).popped.count response =
      (state.patientsStatThread i).counted.count response + 1 := by
    have valid := sound.last.stats i
    generalize (state.rBuff (patsBuffs i)).popped = popped at valid
    generalize state.patientsStatThread i = thread at valid at_
    cases valid with
    | updating =>
        cases at_
        rw [List.count_append, List.count_singleton_self]
    | _ => cases at_
  have total := (state.rBuff (patsBuffs i)).count_pushed response
  have pushed : (state.rBuff (patsBuffs i)).pushed.count response ≤
      (state.survey.answered (patsBuffs i)).count response := by
    have split := sound.accounted.pushed (patsBuffs i) (fun text => decide (text = response))
      (decide_eq_false (Ne.symm data))
    have same : (state.rBuff (patsBuffs i)).pushed.count response =
        (state.rBuff (patsBuffs i)).pushed.countP fun text => decide (text = response) := by
      apply List.countP_congr
      intro text _
      simp
    rw [same, split]
    simp only [survey, Multiset.count_sum']
    apply Finset.sum_le_sum
    intro j _
    rw [Worker.count_replies]
    have answered := (sound.accounted.valid j).answered_count (patsBuffs i)
      fun text => decide (text = response)
    omega
  have counted : (state.survey.counted (patsBuffs i)).count response =
      (state.patientsStatThread i).counted.count response := by
    simp only [survey, counter_patsBuffs, Multiset.coe_count]
  omega

private theorem survey_ext {first second : Survey} (answered : first.answered = second.answered)
    (counted : first.counted = second.counted) : first = second := by
  cases first
  cases second
  cases answered
  cases counted
  rfl

private theorem survey_worker {j : Fin config.w} {worker : Worker}
    (same : worker.answered = (state.workerThreads j).answered) :
    (state.setWorker j worker).survey = state.survey :=
  survey_ext (answered_kept same) rfl

private theorem survey_stat {i : Fin 3} {thread : StatThread}
    (same : thread.counted = (state.patientsStatThread i).counted) :
    (state.setStat i thread).survey = state.survey :=
  survey_ext rfl (counted_kept_update same)

private theorem read_survey {j : Fin config.w} {patient : Patient} {response : String}
    {link : Link} :
    (state.setWorker j
      { state.workerThreads j with
        pc := .pushing patient.key response
        reqChan := link
        answered := (state.workerThreads j).answered ++ [(patient.key, response)] }).survey =
      { state.survey with
        answered := Function.update state.survey.answered patient
          (state.survey.answered patient + {response}) } := by
  refine survey_ext ?_ rfl
  funext other
  have grown : Worker.replies other
      { state.workerThreads j with
        pc := .pushing patient.key response
        reqChan := link
        answered := (state.workerThreads j).answered ++ [(patient.key, response)] } =
      (state.workerThreads j).replies other + if patient = other then {response} else 0 := by
    have same : decide (patient.key = other.key) = decide (patient = other) :=
      decide_eq_decide.mpr ⟨Patient.key_injective, congrArg Patient.key⟩
    simp only [Worker.replies, List.filter_append, List.map_append, ← Multiset.coe_add]
    congr 1
    by_cases here : patient = other <;> simp [same, here]
  have total := Families.sum_update_grow (fun _ worker => Worker.replies other worker)
    state.workerThreads j grown
  refine Eq.trans total ?_
  by_cases here : patient = other
  · subst here
    simp only [if_true, Function.update_self]
    rfl
  · simp only [if_neg here, add_zero, Function.update_of_ne (Ne.symm here)]
    rfl

private theorem update_survey {i : Fin 3} {response : String} :
    (state.setStat i
      { pc := .popping
        counted := (state.patientsStatThread i).counted ++ [response] }).survey =
      { state.survey with
        counted := Function.update state.survey.counted (patsBuffs i)
          (state.survey.counted (patsBuffs i) + {response}) } := by
  refine survey_ext rfl ?_
  funext other
  by_cases same : other = patsBuffs i
  · subst same
    simp only [Function.update_self, survey, setStat, counter_patsBuffs, ← Multiset.coe_add]
    rfl
  · have elsewhere : counter other ≠ i := by
      intro equal
      apply same
      rw [← equal, patsBuffs_counter]
    simp only [Function.update_of_ne same, survey, setStat, Function.update_of_ne elsewhere]

/-- A step of the client gives an answer, counts one, or is none of the survey's
business. -/
theorem survey_step (honest : Honest config) (sound : state.Sound) (requested : state.Requested)
    (taken : state.Step after) :
    after.survey = state.survey ∨
      ∃ action, (Client.survey config.n config.answers).next state.survey action =
        some after.survey := by
  cases taken with
  | @workerRead j request response link at_ read =>
      right
      have valid := sound.accounted.valid j
      obtain ⟨patient, rfl, permitted⟩ : ∃ patient : Patient, request = patient.key ∧
          config.answers response = true := by
        generalize state.workerThreads j = worker at valid at_ read
        cases valid with
        | reading _ phase =>
            cases at_
            exact ⟨_, rfl, (phase.reply read).1⟩
        | _ => cases at_
      refine ⟨.answer patient response, ?_⟩
      rw [read_survey]
      exact if_pos ⟨unanswered sound requested at_, permitted⟩
  | @statUpdate i response hist at_ updated =>
      right
      refine ⟨.count (patsBuffs i) response, ?_⟩
      have counted : State.survey { state.setStat i
          { pc := .popping
            counted := (state.patientsStatThread i).counted ++ [response] } with hist := hist } =
          { state.survey with
            counted := Function.update state.survey.counted (patsBuffs i)
              (state.survey.counted (patsBuffs i) + {response}) } :=
        @update_survey config state i response
      exact (if_pos (uncounted_reply honest sound at_)).trans (congrArg some counted.symm)
  | @createWorker i at_ within succeeds =>
      exact .inl (@survey_worker config state ⟨i, within⟩
        { state.workerThreads ⟨i, within⟩ with pc := .popping } rfl)
  | @createStat i at_ within =>
      exact .inl (@survey_stat config state ⟨i, within⟩
        { state.patientsStatThread ⟨i, within⟩ with pc := .popping } rfl)
  | workerPop | workerQuit | workerRequest | workerPush | workerDrop
  | serveWorker => exact .inl (survey_worker rfl)
  | statPop | statQuit => exact .inl (survey_stat rfl)
  | _ => exact .inl rfl

theorem survey_initial (memory : Option (Fin config.w) → List Char) :
    (initial config memory).survey = .initial := by
  have unread : ∀ patient, (initial config memory).survey.answered patient = 0 := by
    intro patient
    change ∑ j, Worker.replies patient (.idle .notStarted (memory (some j))) = 0
    exact Finset.sum_eq_zero fun _ _ => rfl
  exact survey_ext (funext unread) rfl

theorem survey_next (honest : Honest config) (reached : (client config).Reachable state)
    {label : Label config.w} (taken : (client config).next state label = some after) :
    after.survey = state.survey ∨
      ∃ action, (Client.survey config.n config.answers).next state.survey action =
        some after.survey :=
  survey_step honest (sound_of_reachable reached) (requested_of_reachable reached)
    (next_step taken)

theorem survey_reachable (honest : Honest config) (reached : (client config).Reachable state) :
    (Client.survey config.n config.answers).Reachable state.survey := by
  induction reached with
  | start initial =>
      obtain ⟨memory, rfl⟩ := initial
      exact .begin (survey_initial memory)
  | step before _ taken ih =>
      rcases survey_next honest before taken with same | ⟨action, moved⟩
      · rw [same]
        exact ih
      · exact ih.next moved

end State

/-- Whatever the number of workers, the sizes of the buffers and the schedule, the
client makes a survey. -/
theorem client_refines_survey {config : Config} (honest : Honest config) :
    Refinement (client config) (survey config.n config.answers) State.survey where
  start := by
    intro begun initial
    obtain ⟨memory, rfl⟩ := initial
    exact State.survey_initial memory
  step := by
    intro before label later reached taken
    exact State.survey_next honest reached taken

theorem client_refines_survey_wholeRun :
    ∃ state, (client smallest).run (initial smallest fun _ => []) wholeRun = some state ∧
      (survey 1 serverReplies).Reachable state.survey ∧ state.survey.counted .joe = {"57"} := by
  have ran : ((client smallest).run (initial smallest fun _ => []) wholeRun).map
      (fun state => (state.patientsStatThread (counter .joe)).counted) = some ["57"] := by
    decide +kernel
  obtain ⟨state, run, counted⟩ := Option.map_eq_some_iff.mp ran
  have start : (client smallest).start (initial smallest fun _ => []) := ⟨_, rfl⟩
  have reached := (System.Reachable.begin start).of_run run
  have refines :=
    @client_refines_survey smallest (State.honest_of_reply fun _ => serverReplies_iff.mp)
  exact ⟨state, run, refines.reachable reached, congrArg Multiset.ofList counted⟩

/-! ### The end of the survey -/

namespace State

variable {config : Config} {state : State config}

private theorem survey_completed (honest : Honest config) (positive : 1 ≤ config.w)
    (succeeds : config.failing = none) (reached : (client config).Reachable state)
    (joined : state.main.joinedStats = 3) (patient : Patient) :
    (state.survey.answered patient).card = config.n ∧
      state.survey.counted patient = state.survey.answered patient := by
  have fair := Survey.fair_of_reachable (survey_reachable honest reached)
  have all : (state.survey.counted patient).card = config.n :=
    nothing_left_of_joined honest positive (inOrder_of_reachable succeeds reached)
      (sound_of_reachable reached) (statsClosed_of_reachable succeeds honest reached)
      (requested_of_reachable reached) joined patient
  have most := fair.asked patient
  have same := Multiset.eq_of_le_of_card_le (fair.once patient) (by omega)
  refine ⟨?_, same⟩
  rw [← same]
  exact all

/-- How often the survey has an answer of a bin. -/
def tally (survey : Survey) (patient : Patient) (bin : Fin 10) : Nat :=
  (survey.answered patient).countP fun reply => inBin bin reply = true

theorem patsBuffs_row (j : Fin 3) : (patsBuffs j).row = j := by
  revert j
  decide

private theorem cells_of_joined (succeeds : config.failing = none)
    (replies : ∀ reply, config.answers reply = true → Reply reply)
    (bound : (config.n : Int) ≤ INT_MAX) (positive : 1 ≤ config.w)
    (reached : (client config).Reachable state) (joined : state.main.joinedStats = 3)
    (j : Fin 3) (bin : Fin 10) :
    state.hist.hist (Histogram.cell j bin) = tally state.survey (patsBuffs j) bin := by
  have honest := honest_of_reply replies
  have counted := (counted_of_reachable succeeds replies reached).cell_eq bound honest
    (sound_of_reachable reached) (requested_of_reachable reached) (patsBuffs j) bin
  rw [patsBuffs_row] at counted
  have completed := survey_completed honest positive succeeds reached joined (patsBuffs j)
  rw [counted.1, tally, ← completed.2]
  simp only [survey, Multiset.coe_countP, Bool.decide_eq_true]

private theorem total_of_joined (succeeds : config.failing = none)
    (replies : ∀ reply, config.answers reply = true → Reply reply)
    (bound : (config.n : Int) ≤ INT_MAX) (positive : 1 ≤ config.w)
    (reached : (client config).Reachable state) (joined : state.main.joinedStats = 3)
    (j : Fin 3) :
    Histogram.columnTotal state.hist.hist (List.finRange 10) j = config.n := by
  have honest := honest_of_reply replies
  have row := (counted_of_reachable succeeds replies reached).rowTotal_eq bound replies
    (sound_of_reachable reached) (requested_of_reachable reached) (patsBuffs j)
  have all := nothing_left_of_joined honest positive (inOrder_of_reachable succeeds reached)
    (sound_of_reachable reached) (statsClosed_of_reachable succeeds honest reached)
    (requested_of_reachable reached) joined (patsBuffs j)
  rw [all, rowTotal, patsBuffs_row, Fin.sum_univ_def] at row
  exact row

/-- No running total of a column of counts is larger than the total of the column. -/
private theorem fitting_of_counts {hist : Fin 30 → Int} (counts : ∀ target, 0 ≤ hist target)
    (totals : ∀ j, Histogram.columnTotal hist (List.finRange 10) j ≤ INT_MAX) :
    Histogram.Fitting hist := by
  intro front before j
  obtain ⟨back, whole⟩ := before
  have column := totals j
  have sums : ∀ rows : List (Fin 10), 0 ≤ Histogram.columnTotal hist rows j := by
    intro rows
    apply List.sum_nonneg
    intro value member
    obtain ⟨i, _, rfl⟩ := List.mem_map.mp member
    exact counts _
  have first := sums front
  have rest := sums back
  have split : Histogram.columnTotal hist (front ++ back) j =
      Histogram.columnTotal hist front j + Histogram.columnTotal hist back j := by
    simp only [Histogram.columnTotal, List.map_append, List.sum_append]
  rw [whole] at split
  have low : INT_MIN ≤ 0 := by decide
  exact ⟨by omega, by omega⟩

private theorem print_of_joined (succeeds : config.failing = none)
    (replies : ∀ reply, config.answers reply = true → Reply reply)
    (bound : (config.n : Int) ≤ INT_MAX) (positive : 1 ≤ config.w)
    (reached : (client config).Reachable state) (joined : state.main.joinedStats = 3) :
    state.hist.print = some state.hist.table.text ∧ state.hist.table.Ints := by
  have counts : ∀ target, 0 ≤ state.hist.hist target := by
    intro target
    obtain ⟨j, bin, rfl⟩ := Histogram.exists_cell target
    rw [cells_of_joined succeeds replies bound positive reached joined]
    exact Int.natCast_nonneg _
  have totals := total_of_joined succeeds replies bound positive reached joined
  have fitting : Histogram.Fitting state.hist.hist :=
    fitting_of_counts counts fun j => by
      rw [totals]
      exact bound
  refine ⟨Histogram.print_eq_some_iff.mpr ⟨fitting, rfl⟩, ?_, ?_⟩
  · intro bin j
    have low : INT_MIN ≤ 0 := by decide
    have small := Multiset.countP_le_card
      (fun reply => inBin bin reply = true) (state.survey.answered (patsBuffs j))
    have card := (survey_completed (honest_of_reply replies) positive succeeds reached joined
      (patsBuffs j)).1
    have value := cells_of_joined succeeds replies bound positive reached joined j bin
    change Histogram.IsInt (state.hist.hist (Histogram.cell j bin))
    rw [value, tally]
    constructor <;> omega
  · intro j
    exact fitting (List.finRange 10) (List.prefix_refl _) j

end State

/-- The client with any number of workers, any buffers and any schedule makes the whole
survey, and what main prints at the end reads as its tally. -/
theorem survey_printed {config : Config} {state : State config} (succeeds : config.failing = none)
    (replies : ∀ reply, config.answers reply = true → Reply reply)
    (bound : (config.n : Int) ≤ INT_MAX) (positive : 1 ≤ config.w)
    (reached : (client config).Reachable state) (finished : state.main = .finished) :
    (∀ patient, (state.survey.answered patient).card = config.n ∧
      state.survey.counted patient = state.survey.answered patient) ∧
    ∃ text, state.hist.print = some text ∧
      Histogram.readTable text = some
        ((List.finRange 10).map fun bin => (List.finRange 3).map fun j =>
          (State.tally state.survey (patsBuffs j) bin : Int),
        (List.finRange 3).map fun _ => (config.n : Int)) := by
  have joined : state.main.joinedStats = 3 := by
    rw [finished]
    rfl
  obtain ⟨printed, ints⟩ := State.print_of_joined succeeds replies bound positive reached joined
  refine ⟨State.survey_completed (State.honest_of_reply replies) positive succeeds reached joined,
    _, printed, ?_⟩
  rw [Histogram.Table.readTable_text ints]
  have cells : state.hist.table.cells = fun bin j =>
      (State.tally state.survey (patsBuffs j) bin : Int) :=
    funext fun bin => funext fun j =>
      State.cells_of_joined succeeds replies bound positive reached joined j bin
  have totals : state.hist.table.totals = fun _ => (config.n : Int) :=
    funext (State.total_of_joined succeeds replies bound positive reached joined)
  rw [cells, totals]

theorem survey_printed_wholeRun :
    ∃ state text, (client smallest).run (initial smallest fun _ => []) wholeRun = some state ∧
      state.hist.print = some text ∧ ∃ rows, Histogram.readTable text = some (rows, [1, 1, 1]) := by
  have ran : ((client smallest).run (initial smallest fun _ => []) wholeRun).map
      (fun state => state.main) = some .finished := by
    decide +kernel
  obtain ⟨state, run, finished⟩ := Option.map_eq_some_iff.mp ran
  have start : (client smallest).start (initial smallest fun _ => []) := ⟨_, rfl⟩
  have reached := (Transition.System.Reachable.begin start).of_run run
  obtain ⟨_, text, printed, read⟩ := survey_printed rfl (fun _ => serverReplies_iff.mp) (by decide)
    (by decide) reached finished
  exact ⟨state, text, run, printed, _, read⟩

/-- Two clients that have been given the same numbers of answers in every bin print the
same text, and no others do: the numbers of workers, the buffers and the order of
everything leave no trace in it. -/
theorem same_text_iff {first second : Config} {left : State first} {right : State second}
    (succeeds : first.failing = none ∧ second.failing = none)
    (replies : ∀ reply, first.answers reply = true ∨ second.answers reply = true → Reply reply)
    (bounds : (first.n : Int) ≤ INT_MAX ∧ (second.n : Int) ≤ INT_MAX)
    (positive : 1 ≤ first.w ∧ 1 ≤ second.w) (leftReached : (client first).Reachable left)
    (rightReached : (client second).Reachable right) (leftFinished : left.main = .finished)
    (rightFinished : right.main = .finished) :
    left.hist.print = right.hist.print ↔
      ∀ patient bin, State.tally left.survey patient bin = State.tally right.survey patient bin := by
  have leftJoined : left.main.joinedStats = 3 := by rw [leftFinished]; rfl
  have rightJoined : right.main.joinedStats = 3 := by rw [rightFinished]; rfl
  have leftCells := State.cells_of_joined succeeds.1 (fun reply sent => replies reply (.inl sent))
    bounds.1 positive.1 leftReached leftJoined
  have rightCells := State.cells_of_joined succeeds.2 (fun reply sent => replies reply (.inr sent))
    bounds.2 positive.2 rightReached rightJoined
  constructor
  · intro equal patient bin
    obtain ⟨leftPrinted, leftInts⟩ := State.print_of_joined succeeds.1
      (fun reply sent => replies reply (.inl sent)) bounds.1 positive.1 leftReached leftJoined
    obtain ⟨rightPrinted, rightInts⟩ := State.print_of_joined succeeds.2
      (fun reply sent => replies reply (.inr sent)) bounds.2 positive.2 rightReached rightJoined
    rw [leftPrinted, rightPrinted] at equal
    have tables := Histogram.Table.text_injective leftInts rightInts (Option.some.inj equal)
    have cells : left.hist.hist (Histogram.cell (counter patient) bin) =
        right.hist.hist (Histogram.cell (counter patient) bin) :=
      congrArg (fun table => table.cells bin (counter patient)) tables
    rw [leftCells, rightCells, patsBuffs_counter] at cells
    exact Int.natCast_inj.mp cells
  · intro equal
    apply Histogram.print_congr
    funext target
    obtain ⟨j, bin, rfl⟩ := Histogram.exists_cell target
    rw [leftCells, rightCells, equal]

def pair : Config := { smallest with w := 2 }

def overtaken : Fin pair.w := ⟨0, by decide⟩

def overtaking : Fin pair.w := ⟨1, by decide⟩

/-- The second worker overtakes the first, and the stat threads come in another order. -/
def pairRun : List (Label pair.w) :=
  List.flatten
    [List.replicate 11 .main,
      [.request 0, .request 1, .request 2, .request 0, .request 1, .request 2],
      [.worker overtaken, .worker overtaken, .worker overtaking, .worker overtaking],
      [.recv (some overtaking), .act (some overtaking) "5"],
      List.replicate 4 (.worker overtaking),
      [.recv (some overtaking), .act (some overtaking) "99"],
      List.replicate 2 (.worker overtaking),
      [.recv (some overtaken), .act (some overtaken) "57"],
      List.replicate 2 (.worker overtaken),
      [.stat 2, .stat 2, .stat 1, .stat 1, .stat 0, .stat 0],
      List.replicate 5 .main,
      [.quits, .quits, .quits],
      [.worker overtaking, .worker overtaking, .worker overtaken, .worker overtaken],
      List.replicate 9 .main, [.stat 0, .stat 1, .stat 2], List.replicate 4 .main]

theorem same_text_iff_pair :
    ∃ left right, (client smallest).run (initial smallest fun _ => []) wholeRun = some left ∧
      (client pair).run (initial pair fun _ => []) pairRun = some right ∧
      left.hist.print = right.hist.print ∧
      ∀ patient bin, State.tally left.survey patient bin = State.tally right.survey patient bin := by
  have leftRan : ((client smallest).run (initial smallest fun _ => []) wholeRun).map
      (fun state => (state.main, (List.finRange 30).map state.hist.hist)) =
        some (.finished, (List.finRange 30).map fun target =>
          if target.val = 0 ∨ target.val = 19 ∨ target.val = 25 then 1 else 0) := by
    decide +kernel
  have rightRan : ((client pair).run (initial pair fun _ => []) pairRun).map
      (fun state => (state.main, (List.finRange 30).map state.hist.hist)) =
        some (.finished, (List.finRange 30).map fun target =>
          if target.val = 0 ∨ target.val = 19 ∨ target.val = 25 then 1 else 0) := by
    decide +kernel
  obtain ⟨left, leftRun, leftLast⟩ := Option.map_eq_some_iff.mp leftRan
  obtain ⟨right, rightRun, rightLast⟩ := Option.map_eq_some_iff.mp rightRan
  obtain ⟨leftFinished, leftCells⟩ := Prod.mk.inj leftLast
  obtain ⟨rightFinished, rightCells⟩ := Prod.mk.inj rightLast
  have cells : left.hist.hist = right.hist.hist := by
    funext target
    exact List.map_inj_left.mp (leftCells.trans rightCells.symm) target (List.mem_finRange target)
  have printed := Histogram.print_congr cells
  have leftStart : (client smallest).start (initial smallest fun _ => []) := ⟨_, rfl⟩
  have rightStart : (client pair).start (initial pair fun _ => []) := ⟨_, rfl⟩
  refine ⟨left, right, leftRun, rightRun, printed, ?_⟩
  refine (same_text_iff ⟨rfl, rfl⟩ ?_ ⟨by decide, by decide⟩ ⟨by decide, by decide⟩
    ((Transition.System.Reachable.begin leftStart).of_run leftRun)
    ((Transition.System.Reachable.begin rightStart).of_run rightRun) leftFinished
    rightFinished).mp printed
  intro reply sent
  rcases sent with first | second
  · exact serverReplies_iff.mp first
  · exact serverReplies_iff.mp second

end Netwurk.Client
