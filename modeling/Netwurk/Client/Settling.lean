/-
Calls of the client that have changed their queue and not returned yet. What the
other threads do outside the buffers commutes with letting such calls return, so
the client over mutexes and condition variables refines the client whose calls are
atomic, and it comes to the same ends.
-/

import Netwurk.Client.Monitors
import Netwurk.Client.Outcome

namespace Netwurk.Client

open Transition RequestChannel SafeBuffer

section Settling

private theorem settled_twice {Value : Type} (settled : Value → Option String → Value)
    (unchanged : ∀ value, settled value none = value) (value : Value)
    {first second : Option String} (apart : first = none ∨ second = none) :
    settled (settled value first) second = settled value (first.or second) := by
  rcases apart with absent | absent
  · rw [absent, unchanged, Option.none_or]
  · rw [absent, unchanged, Option.or_none]

theorem Pusher.of_settled {pusher : Pusher} {result : Option String}
    (absent : pusher.settled result = .notStarted) : pusher = .notStarted := by
  cases result <;> cases pusher <;> first | exact absent | cases absent

theorem Worker.of_settled {worker : Worker} {result : Option String}
    (absent : (worker.settled result).pc = .notStarted) : worker.pc = .notStarted := by
  cases result with
  | none => exact absent
  | some s =>
      simp only [settled] at absent
      split at absent
      · cases absent
      · split at absent
        · exact absent
        · cases absent
      · exact absent

theorem StatThread.of_settled {thread : StatThread} {result : Option String}
    (absent : (thread.settled result).pc = .notStarted) : thread.pc = .notStarted := by
  cases result with
  | none => exact absent
  | some s =>
      simp only [settled] at absent
      split at absent
      · split at absent <;> cases absent
      · exact absent

@[simp] theorem Worker.settled_reqChan (worker : Worker) (result : Option String) :
    (worker.settled result).reqChan = worker.reqChan := by
  cases result with
  | none => rfl
  | some s =>
      simp only [settled]
      split
      · rfl
      · split <;> rfl
      · rfl

theorem Worker.settled_served (worker : Worker) (result : Option String) (link : Link) :
    { worker with reqChan := link }.settled result =
      { worker.settled result with reqChan := link } := by
  cases result with
  | none => rfl
  | some s =>
      unfold settled
      cases at_ : worker.pc with
      | pushing request response =>
          simp only
          cases bufferFor request <;> simp [at_]
      | _ => simp [at_]

namespace State

variable {config : Config} {state : State config} {results : Caller config.w → Option String}

theorem settle_settle (first second : Caller config.w → Option String)
    (apart : ∀ caller, first caller = none ∨ second caller = none) :
    (state.settle first).settle second =
      state.settle fun caller => (first caller).or (second caller) := by
  simp only [settle, settled_twice Main.settled (fun _ => rfl) _ (apart _),
    settled_twice Pusher.settled (fun _ => rfl) _ (apart _),
    settled_twice Worker.settled (fun _ => rfl) _ (apart _),
    settled_twice StatThread.settled (fun _ => rfl) _ (apart _)]

theorem pending_settle {caller : Caller config.w} (unsettled : results caller = none) :
    (state.settle results).pending caller = state.pending caller := by
  cases caller <;> simp only [pending, settle, unsettled] <;> rfl

theorem settle_setMain (unsettled : results .main = none) (main : Main) :
    (state.setMain main).settle results = (state.settle results).setMain main := by
  simp only [settle, setMain, unsettled]
  rfl

theorem settle_setRequest {i : Fin 3} (unsettled : results (.request i) = none)
    (pusher : Pusher) :
    (state.setRequest i pusher).settle results =
      (state.settle results).setRequest i pusher := by
  simp only [settle, setRequest]
  congr 1
  funext other
  by_cases same : other = i
  · subst other
    simp [unsettled, Pusher.settled]
  · simp [same]

theorem settle_setStat {i : Fin 3} (unsettled : results (.stat i) = none)
    (thread : StatThread) :
    (state.setStat i thread).settle results = (state.settle results).setStat i thread := by
  simp only [settle, setStat]
  congr 1
  funext other
  by_cases same : other = i
  · subst other
    simp [unsettled, StatThread.settled]
  · simp [same]

theorem settle_setWorker {j : Fin config.w} (worker : Worker) :
    (state.setWorker j worker).settle results =
      (state.settle results).setWorker j (worker.settled (results (.worker j))) := by
  simp only [settle, setWorker]
  congr 1
  funext other
  by_cases same : other = j
  · subst other
    simp
  · simp [same]

theorem settle_patientsThread {i : Fin 3} (unsettled : results (.request i) = none) :
    (state.settle results).patientsThread i = state.patientsThread i := by
  simp only [settle, unsettled]
  rfl

theorem settle_workerThreads {j : Fin config.w} (unsettled : results (.worker j) = none) :
    (state.settle results).workerThreads j = state.workerThreads j := by
  simp only [settle, unsettled]
  rfl

theorem settle_patientsStatThread {i : Fin 3} (unsettled : results (.stat i) = none) :
    (state.settle results).patientsStatThread i = state.patientsStatThread i := by
  simp only [settle, unsettled]
  rfl

theorem pending_setMain {main : Main} {caller : Caller config.w} (different : caller ≠ .main) :
    (state.setMain main).pending caller = state.pending caller := by
  cases caller with
  | main => exact absurd rfl different
  | _ => rfl

theorem pending_setRequest {i : Fin 3} {pusher : Pusher} {caller : Caller config.w}
    (different : caller ≠ .request i) :
    (state.setRequest i pusher).pending caller = state.pending caller := by
  cases caller with
  | request other =>
      have elsewhere : other ≠ i := fun same => different (congrArg Caller.request same)
      simp only [pending, setRequest, Function.update_of_ne elsewhere]
  | _ => rfl

theorem pending_setStat {i : Fin 3} {thread : StatThread} {caller : Caller config.w}
    (different : caller ≠ .stat i) :
    (state.setStat i thread).pending caller = state.pending caller := by
  cases caller with
  | stat other =>
      have elsewhere : other ≠ i := fun same => different (congrArg Caller.stat same)
      simp only [pending, setStat, Function.update_of_ne elsewhere]
  | _ => rfl

theorem pending_setWorker {j : Fin config.w} {worker : Worker} {caller : Caller config.w}
    (kept : caller = .worker j → worker.pc = (state.workerThreads j).pc) :
    (state.setWorker j worker).pending caller = state.pending caller := by
  cases caller with
  | worker other =>
      by_cases same : other = j
      · subst other
        simp only [pending, setWorker, Function.update_self, kept rfl]
      · simp only [pending, setWorker, Function.update_of_ne same]
  | _ => rfl

/-- Results belong to threads in calls, and the state in which these are settled
has its threads in the order of main. -/
structure Placed (state : State config) (results : Caller config.w → Option String) : Prop where
  supported : ∀ caller, results caller ≠ none → state.pending caller ≠ none
  ordered : (state.settle results).Ordered

theorem Placed.unsettled (placed : state.Placed results) {caller : Caller config.w}
    (idle : state.pending caller = none) : results caller = none := by
  by_contra some_result
  exact placed.supported caller some_result idle

private theorem Placed.settle_main (placed : state.Placed results)
    (idle : state.pending .main = none) : (state.settle results).main = state.main := by
  simp only [settle, placed.unsettled idle]
  rfl

private theorem Placed.request_idle (placed : state.Placed results)
    (idle : state.pending .main = none) {i : Fin 3} (uncreated : state.main.createdRequests ≤ i.val) :
    state.pending (.request i) = none := by
  rw [← placed.settle_main idle] at uncreated
  have absent := Pusher.of_settled ((placed.ordered.requests_created i).mpr uncreated)
  simp only [pending, absent]

private theorem Placed.stat_idle (placed : state.Placed results)
    (idle : state.pending .main = none) {i : Fin 3} (uncreated : state.main.createdStats ≤ i.val) :
    state.pending (.stat i) = none := by
  rw [← placed.settle_main idle] at uncreated
  have absent := StatThread.of_settled ((placed.ordered.stats_created i).mpr uncreated)
  simp only [pending, absent]

private theorem Placed.worker_idle (placed : state.Placed results)
    (idle : state.pending .main = none) {j : Fin config.w}
    (uncreated : state.main.createdWorkers config.w ≤ j.val) :
    state.pending (.worker j) = none := by
  rw [← placed.settle_main idle] at uncreated
  have absent := Worker.of_settled (placed.ordered.workers_uncreated j uncreated)
  simp only [pending, absent]

private theorem Placed.quits_idle (placed : state.Placed results)
    (idle : state.pending .main = none) (uncreated : state.main.createdQuit = false) :
    state.pending .quits = none := by
  rw [← placed.settle_main idle] at uncreated
  have absent := Pusher.of_settled (placed.ordered.quit_created.mpr uncreated)
  simp only [pending, absent]

/-- A step that commutes with the settling and moves nobody in a call. -/
def Commutes (state after : State config) (results : Caller config.w → Option String)
    (moved : Option (State config)) : Prop :=
  moved = some (after.settle results) ∧
    ∀ caller, state.pending caller ≠ none → after.pending caller = state.pending caller

private theorem commutes_setMain (placed : state.Placed results)
    (idle : state.pending .main = none) (main : Main) :
    Commutes state (state.setMain main) results (some ((state.settle results).setMain main)) := by
  refine ⟨by rw [settle_setMain (placed.unsettled idle)], ?_⟩
  intro caller called
  apply pending_setMain
  intro same
  subst same
  exact called idle

private theorem mainThread_commutes (placed : state.Placed results)
    (idle : state.pending .main = none) {after : State config}
    (taken : state.mainThread = some after) :
    Commutes state after results (state.settle results).mainThread := by
  have unsettled := placed.unsettled idle
  unfold mainThread at taken ⊢
  rw [placed.settle_main idle]
  have not_main : ∀ {caller}, state.pending caller ≠ none → caller ≠ .main := by
    intro caller called same
    subst same
    exact called idle
  cases at_ : state.main with
  | createRequest i =>
      simp only [at_] at taken ⊢
      split at taken <;> cases taken
      · rename_i within
        have still := placed.request_idle idle (i := ⟨i, within⟩) (by rw [at_]; exact Nat.le_refl i)
        rw [dif_pos within]
        refine ⟨?_, fun caller called => ?_⟩
        · rw [settle_setMain unsettled, settle_setRequest (placed.unsettled still)]
        · rw [pending_setMain (not_main called), pending_setRequest]
          intro same
          subst same
          exact called still
      · rename_i last
        rw [dif_neg last]
        exact commutes_setMain placed idle _
  | createStat i =>
      simp only [at_] at taken ⊢
      split at taken <;> cases taken
      · rename_i within
        have still := placed.stat_idle idle (i := ⟨i, within⟩) (by rw [at_]; exact Nat.le_refl i)
        rw [dif_pos within]
        refine ⟨?_, fun caller called => ?_⟩
        · rw [settle_setMain unsettled, settle_setStat (placed.unsettled still),
            settle_patientsStatThread (placed.unsettled still)]
        · rw [pending_setMain (not_main called), pending_setStat]
          intro same
          subst same
          exact called still
      · rename_i last
        rw [dif_neg last]
        exact commutes_setMain placed idle _
  | createWorker i =>
      simp only [at_] at taken ⊢
      split at taken
      · rename_i within
        rw [dif_pos within]
        split at taken <;> cases taken
        · rename_i fails
          rw [if_pos fails]
          refine ⟨?_, fun caller called => ?_⟩
          · simp only [settle, unsettled]
            rfl
          · cases caller with
            | main => exact absurd idle called
            | _ => rfl
        · rename_i succeeds
          rw [if_neg succeeds]
          have still := placed.worker_idle idle (j := ⟨i, within⟩)
            (by rw [at_]; exact Nat.le_refl i)
          have unmoved := placed.unsettled still
          refine ⟨?_, fun caller called => ?_⟩
          · rw [settle_setMain unsettled, settle_setWorker, settle_workerThreads unmoved, unmoved]
            rfl
          · rw [pending_setMain (not_main called), pending_setWorker]
            intro same
            subst same
            exact absurd still called
      · rename_i last
        cases taken
        rw [dif_neg last]
        exact commutes_setMain placed idle _
  | joinRequest i =>
      simp only [at_] at taken ⊢
      split at taken
      · rename_i within
        rw [dif_pos within]
        split at taken <;> cases taken
        rename_i ended
        have still : state.pending (.request ⟨i, within⟩) = none := by
          simp only [pending, ended]
        rw [settle_patientsThread (placed.unsettled still), if_pos ended]
        exact commutes_setMain placed idle _
      · rename_i last
        cases taken
        rw [dif_neg last]
        exact commutes_setMain placed idle _
  | createQuit =>
      simp only [at_] at taken ⊢
      cases taken
      have still := placed.quits_idle idle (by rw [at_]; rfl)
      refine ⟨?_, fun caller called => ?_⟩
      · simp only [settle, unsettled, placed.unsettled still]
        rfl
      · cases caller with
        | main => exact absurd idle called
        | quits => exact absurd still called
        | _ => rfl
  | joinQuit =>
      simp only [at_] at taken ⊢
      split at taken <;> cases taken
      rename_i ended
      have still : (state.settle results).noError = true →
          (state.settle results).quitThread = .ended := by
        intro noError
        have quits : state.pending .quits = none := by simp only [pending, ended noError]
        simp only [settle, placed.unsettled quits]
        exact ended noError
      rw [if_pos still]
      exact commutes_setMain placed idle _
  | joinWorker i =>
      simp only [at_] at taken ⊢
      split at taken
      · rename_i within
        rw [dif_pos within]
        split at taken <;> cases taken
        rename_i ended
        have still : (state.settle results).noError = true →
            ((state.settle results).workerThreads ⟨i, within⟩).pc = .ended := by
          intro noError
          have worker : state.pending (.worker ⟨i, within⟩) = none := by
            simp only [pending, ended noError]
          rw [settle_workerThreads (placed.unsettled worker)]
          exact ended noError
        rw [if_pos still]
        exact commutes_setMain placed idle _
      · rename_i last
        cases taken
        rw [dif_neg last]
        exact commutes_setMain placed idle _
  | kill =>
      simp only [at_] at taken ⊢
      cases taken
      refine ⟨?_, fun caller called => ?_⟩
      · simp only [settle, unsettled]
        rfl
      · cases caller with
        | main => exact absurd idle called
        | _ => rfl
  | pushQuit i =>
      simp only [pending, at_] at idle
      split at idle
      · cases idle
      rename_i last
      simp only [at_, dif_neg last] at taken ⊢
      cases taken
      apply commutes_setMain placed
      simp only [pending, at_, dif_neg last]
  | joinStat i =>
      simp only [at_] at taken ⊢
      split at taken
      · rename_i within
        rw [dif_pos within]
        split at taken <;> cases taken
        rename_i ended
        have still : state.pending (.stat ⟨i, within⟩) = none := by
          simp only [pending, ended]
        rw [settle_patientsStatThread (placed.unsettled still), if_pos ended]
        exact commutes_setMain placed idle _
      · rename_i last
        cases taken
        rw [dif_neg last]
        exact commutes_setMain placed idle _
  | finished =>
      simp only [at_] at taken
      cases taken

private theorem commutes_setRequest {i : Fin 3} (placed : state.Placed results)
    (idle : state.pending (.request i) = none) (pusher : Pusher) :
    Commutes state (state.setRequest i pusher) results
      (some ((state.settle results).setRequest i pusher)) := by
  refine ⟨by rw [settle_setRequest (placed.unsettled idle)], ?_⟩
  intro caller called
  apply pending_setRequest
  intro same
  subst same
  exact called idle

private theorem commutes_setWorker {j : Fin config.w} (placed : state.Placed results)
    (idle : state.pending (.worker j) = none) (worker : Worker) :
    Commutes state (state.setWorker j worker) results
      (some ((state.settle results).setWorker j worker)) := by
  refine ⟨by rw [settle_setWorker, placed.unsettled idle]; rfl, ?_⟩
  intro caller called
  apply pending_setWorker
  intro same
  subst same
  exact absurd idle called

private theorem commutes_crash :
    Commutes state { state with crashed := true } results
      (some { state.settle results with crashed := true }) := by
  refine ⟨rfl, fun caller _ => ?_⟩
  cases caller <;> rfl

private theorem request_commutes {i : Fin 3} (placed : state.Placed results)
    (idle : state.pending (.request i) = none) {after : State config}
    (taken : state.requestThreadFunction i = some after) :
    Commutes state after results ((state.settle results).requestThreadFunction i) := by
  unfold requestThreadFunction at taken ⊢
  rw [settle_patientsThread (placed.unsettled idle)]
  cases at_ : state.patientsThread i with
  | notStarted | ended =>
      simp only [at_] at taken
      cases taken
  | looping k =>
      simp only [at_] at taken ⊢
      split at taken
      · rename_i more
        simp only [pending, at_, if_pos more] at idle
        cases idle
      · rename_i last
        cases taken
        rw [if_neg last]
        exact commutes_setRequest placed idle _

private theorem quits_commutes (placed : state.Placed results)
    (idle : state.pending .quits = none) {after : State config}
    (taken : state.requestQuits = some after) :
    Commutes state after results (state.settle results).requestQuits := by
  have unsettled := placed.unsettled idle
  have same : (state.settle results).quitThread = state.quitThread := by
    simp only [settle, unsettled]
    rfl
  unfold requestQuits at taken ⊢
  rw [same]
  cases at_ : state.quitThread with
  | notStarted | ended =>
      simp only [at_] at taken
      cases taken
  | looping k =>
      simp only [at_] at taken ⊢
      split at taken
      · rename_i more
        simp only [pending, at_, if_pos more] at idle
        cases idle
      · rename_i last
        cases taken
        rw [if_neg last]
        refine ⟨?_, fun caller called => ?_⟩
        · simp only [settle, unsettled]
          rfl
        · cases caller with
          | quits => exact absurd idle called
          | _ => rfl

private theorem worker_commutes {j : Fin config.w} (placed : state.Placed results)
    (idle : state.pending (.worker j) = none) {after : State config}
    (taken : state.workerThreadFunction j = some after) :
    Commutes state after results ((state.settle results).workerThreadFunction j) := by
  unfold workerThreadFunction at taken ⊢
  rw [settle_workerThreads (placed.unsettled idle)]
  cases at_ : (state.workerThreads j).pc with
  | notStarted | ended =>
      simp only [at_] at taken
      cases taken
  | popping =>
      simp only [pending, at_] at idle
      cases idle
  | holding request =>
      simp only [at_] at taken ⊢
      split at taken <;> cases taken
      · rename_i quits
        rw [if_pos quits]
        exact commutes_setWorker placed idle _
      · rename_i data
        rw [if_neg data]
        exact commutes_setWorker placed idle _
  | reading request =>
      simp only [at_] at taken ⊢
      split at taken
      · cases taken
        exact commutes_setWorker placed idle _
      · split at taken <;> cases taken
        rename_i exited
        rw [show (state.settle results).exited = state.exited from rfl, if_pos exited]
        exact commutes_crash
  | pushing request response =>
      cases chosen : bufferFor request with
      | some patient =>
          simp only [pending, at_, chosen] at idle
          cases idle
      | none =>
          simp only [at_, chosen] at taken ⊢
          cases taken
          exact commutes_setWorker placed idle _

private theorem stat_commutes {i : Fin 3} (placed : state.Placed results)
    (idle : state.pending (.stat i) = none) {after : State config}
    (taken : state.statThreadFunction i = some after) :
    Commutes state after results ((state.settle results).statThreadFunction i) := by
  unfold statThreadFunction at taken ⊢
  rw [settle_patientsStatThread (placed.unsettled idle),
    show (state.settle results).hist = state.hist from rfl]
  cases at_ : (state.patientsStatThread i).pc with
  | notStarted | ended =>
      simp only [at_] at taken
      cases taken
  | popping =>
      simp only [pending, at_] at idle
      cases idle
  | updating response =>
      simp only [at_] at taken ⊢
      split at taken <;> cases taken
      · rename_i hist _
        refine ⟨?_, fun caller called => ?_⟩
        · exact congrArg (fun later : State config => some { later with hist := hist })
            (settle_setStat (placed.unsettled idle) _).symm
        · exact @pending_setStat config state i _ caller fun same => called (same ▸ idle)
      · exact commutes_crash

private theorem serve_commutes (connection : Option (Fin config.w)) (link : Link) :
    Commutes state (state.serve connection link) results
      (some ((state.settle results).serve connection link)) := by
  cases connection with
  | none =>
      refine ⟨rfl, fun caller _ => ?_⟩
      cases caller <;> rfl
  | some j =>
      refine ⟨?_, fun caller _ => @pending_setWorker config state j _ caller fun _ => rfl⟩
      have moved := @settle_setWorker config state results j
        { state.workerThreads j with reqChan := link }
      rw [Worker.settled_served] at moved
      exact congrArg (fun later : State config =>
        some { later with exited := decide (link.session.status = Status.exited) }) moved.symm

private theorem settle_link (connection : Option (Fin config.w)) :
    (state.settle results).link connection = state.link connection := by
  cases connection with
  | none => rfl
  | some j => exact Worker.settled_reqChan _ _

theorem next_commutes (placed : state.Placed results) {label : Label config.w}
    (idle : ∀ caller, label.caller = some caller → state.pending caller = none)
    {after : State config} (taken : state.next label = some after) :
    Commutes state after results ((state.settle results).next label) := by
  unfold next at taken ⊢
  rw [show (state.settle results).crashed = state.crashed from rfl,
    show (state.settle results).exited = state.exited from rfl]
  split at taken
  · cases taken
  rename_i running
  rw [if_neg running]
  cases label with
  | main => exact mainThread_commutes placed (idle _ rfl) taken
  | request i => exact request_commutes placed (idle _ rfl) taken
  | quits => exact quits_commutes placed (idle _ rfl) taken
  | worker j => exact worker_commutes placed (idle _ rfl) taken
  | stat i => exact stat_commutes placed (idle _ rfl) taken
  | recv connection =>
      simp only [settle_link] at taken ⊢
      split at taken
      · cases taken
      rename_i serving
      rw [if_neg serving]
      split at taken <;> cases taken
      exact serve_commutes connection _
  | act connection trach =>
      simp only [settle_link] at taken ⊢
      split at taken
      · cases taken
      rename_i serving
      rw [if_neg serving]
      split at taken <;> cases taken
      exact serve_commutes connection _

theorem other_next {label : Label config.w} {after : State config}
    (taken : state.other label = some after) :
    (∀ caller, label.caller = some caller → state.pending caller = none) ∧
      state.next label = some after := by
  unfold other at taken
  split at taken
  · rename_i server
    refine ⟨fun caller acting => ?_, taken⟩
    rw [server] at acting
    cases acting
  · rename_i caller acting
    split at taken
    · rename_i idle
      refine ⟨fun other same => ?_, taken⟩
      rw [acting] at same
      cases same
      exact idle
    · cases taken

theorem other_of_next {label : Label config.w}
    (idle : ∀ caller, label.caller = some caller → state.pending caller = none) :
    state.other label = state.next label := by
  unfold other
  split
  · rfl
  · rename_i caller acting
    exact if_pos (idle caller acting)

end State

end Settling

/-! ### The client over mutexes and condition variables -/

section Results

variable {config : Config} {fits : config.b ≤ INT_MAX}

private theorem placed_of_reachable {state : State config}
    {results : Caller config.w → Option String}
    {queue : ∀ buffer, TracedQueue String ((program config fits).capacity buffer)}
    (supported : (program config fits).Supported state results)
    (reached : (program config fits).atomic.Reachable ⟨state.settle results, queue⟩) :
    state.Placed results := by
  have ordered := (State.sound_of_reachable (atomic_refines_client.reachable reached)).ordered
  exact
    { supported := supported
      ordered :=
        { requests_created := ordered.requests_created
          stats_created := ordered.stats_created
          workers_uncreated := ordered.workers_uncreated
          quit_created := ordered.quit_created
          requests_joined := ordered.requests_joined
          stats_joined := ordered.stats_joined } }

theorem program_lawful : (program config fits).Lawful where
  settle_none := fun _ => rfl
  halted_settle := fun _ _ => rfl
  settle_settle := fun _ first second _ _ apart => State.settle_settle first second apart
  pending_settle := fun _ _ _ _ unsettled => State.pending_settle unsettled
  other_pending := by
    intro state results queue action after supported reached taken
    obtain ⟨idle, taken⟩ := State.other_next taken
    exact (State.next_commutes (placed_of_reachable supported reached) idle taken).2
  other_settle := by
    intro state results queue action after supported reached taken
    obtain ⟨idle, taken⟩ := State.other_next taken
    have placed := placed_of_reachable supported reached
    have settled : ∀ caller, action.caller = some caller →
        (state.settle results).pending caller = none := by
      intro caller acting
      rw [State.pending_settle (placed.unsettled (idle caller acting))]
      exact idle caller acting
    exact (State.other_of_next settled).trans (State.next_commutes placed idle taken).1

abbrev Monitored (config : Config) : Type :=
  Program.Concurrent (State config) (Caller config.w) (Option Patient)

abbrev Statement (config : Config) : Type :=
  Program.Statement (Label config.w) (Caller config.w) (Option Patient)

/-- The client whose buffers run their pthread calls. -/
def monitored (config : Config) (fits : config.b ≤ INT_MAX) :
    System (Monitored config) (Statement config) :=
  (program config fits).concurrent

/-- The client as if every call that has changed its queue were over. -/
def seen (fits : config.b ≤ INT_MAX) (state : Monitored config) : State config :=
  assemble (state.view (program config fits))

private theorem refines_client : Refinement (monitored config fits) (client config) (seen fits) :=
  (Program.concurrent_refines_atomic program_lawful).trans atomic_refines_client

private theorem measure_decreases (state : (program config fits).Atomic)
    (label : Program.AtomicLabel (Label config.w) (Caller config.w))
    (after : (program config fits).Atomic)
    (taken : (program config fits).atomic.next state label = some after) :
    (assemble after).measure < (assemble state).measure := by
  obtain ⟨step, taken⟩ := atomic_next taken
  exact (State.next_step taken).measure_less

/-- Whenever the client with atomic calls can go on, some thread of the client
with mutexes and condition variables can execute a statement, and not merely by
waking up for no reason. -/
private theorem proceeds {state : Monitored config}
    (reached : (monitored config fits).Reachable state)
    (enabled : (client config).Enabled (seen fits state)) :
    ∃ statement after, statement.isSpurious = false ∧
      (monitored config fits).next state statement = some after := by
  have lawful : (program config fits).Lawful := program_lawful
  exact Program.proceeds_of_enabled lawful (Program.consistent_of_reachable lawful reached).1
    (atomic_enabled enabled)

/-- The client with mutexes and condition variables has no deadlock of its own: a
state in which only spurious wake-ups are left is an end of the client with atomic
calls. Such an end can always be reached, and a run that reaches none has spurious
wake-ups without end. -/
theorem monitored_ends (within : config.FailsWithin) (buffers : 3 ≤ config.b)
    (server : config.answers = serverReplies) {state : Monitored config}
    (reached : (monitored config fits).Reachable state) :
    ((∀ statement after, (monitored config fits).next state statement = some after →
      statement.isSpurious = true) → (seen fits state).Outcome) ∧
    (∃ after, (monitored config fits).Path state after ∧ (seen fits after).Outcome) ∧
    ∀ (states : Nat → Monitored config) (statements : Nat → Statement config), states 0 = state →
      (∀ time, (monitored config fits).next (states time) (statements time) =
        some (states (time + 1))) →
      ∀ bound, ∃ time, bound ≤ time ∧ (statements time).isSpurious = true := by
  have lawful : (program config fits).Lawful := program_lawful
  have outcome {state : Monitored config} (reached : (monitored config fits).Reachable state)
      (blocked : ¬ (client config).Enabled (seen fits state)) : (seen fits state).Outcome :=
    State.outcome_of_blocked within buffers (by rw [server]; exact fun _ => serverReplies_iff.mp)
      (by rw [server]; exact exists_serverReply) (refines_client.reachable reached) blocked
  refine ⟨fun idle => ?_, ?_, fun states statements begins forever bound => ?_⟩
  · apply outcome reached
    intro enabled
    obtain ⟨statement, after, purposeful, taken⟩ := proceeds reached enabled
    rw [idle statement after taken] at purposeful
    cases purposeful
  · obtain ⟨after, path, ended⟩ :=
      Program.exists_path_to_end lawful _ measure_decreases reached
    exact ⟨after, path, outcome (reached.of_path path) fun enabled => ended (atomic_enabled enabled)⟩
  · exact Program.spurious_infinitely_often lawful _ measure_decreases states statements
      (begins ▸ reached) forever bound

private theorem seen_items {state : Monitored config}
    (reached : (monitored config fits).Reachable state) :
    (seen fits state).requestBuffer.items = (state.buffer none).q ∧
      ∀ patient, ((seen fits state).rBuff patient).items = (state.buffer (some patient)).q := by
  have lawful : (program config fits).Lawful := program_lawful
  have consistent := (Program.consistent_of_reachable lawful reached).1
  have content (buffer : Option Patient) :
      ((state.view (program config fits)).queue buffer).items = (state.buffer buffer).q := by
    have bounded := (reachable_valid (consistent.monitors buffer)).bounded
    rw [(program config fits).fits] at bounded
    exact TracedQueue.ofHistory_items _ bounded
  exact ⟨content none, fun patient => content (some patient)⟩

/-- Every step of the client with mutexes and condition variables is one step of
the client whose `push` and `pop` are atomic, or none. The contents of the buffers
and the histogram are the same, and while nobody is inside a buffer so are the
threads. -/
theorem monitored_refines_client (fits : config.b ≤ INT_MAX) :
    Refinement (monitored config fits) (client config) (seen fits) ∧
    ∀ state, (monitored config fits).Reachable state →
      (seen fits state).hist = state.shared.hist ∧
      (seen fits state).requestBuffer.items = (state.buffer none).q ∧
      (∀ patient, ((seen fits state).rBuff patient).items = (state.buffer (some patient)).q) ∧
      ((∀ buffer thread, (state.buffer buffer).pc thread = .idle) →
        seen fits state = state.shared.withBuffers (seen fits state).requestBuffer
          (seen fits state).rBuff) := by
  refine ⟨refines_client, fun state reached => ?_⟩
  obtain ⟨requests, replies⟩ := seen_items reached
  refine ⟨rfl, requests, replies, fun outside => ?_⟩
  have outcomes : state.outcomes (program config fits) = fun _ => none := by
    funext thread
    unfold Program.Concurrent.outcomes
    split
    · rfl
    · rw [outside]
      rfl
  have shared : (state.view (program config fits)).shared = state.shared := by
    simp only [Program.Concurrent.view, outcomes]
    rfl
  have same : seen fits state = (state.view (program config fits)).shared.withBuffers
      (seen fits state).requestBuffer (seen fits state).rBuff := rfl
  rw [shared] at same
  exact same

end Results

def untouched : Monitored smallest :=
  { shared := initial smallest fun _ => []
    buffer := fun _ => SafeBuffer.initial }

/-- A request thread has put its request into the queue and is still inside `push`. -/
def insidePush : List (Statement smallest) :=
  [.other .main, .call (.request 0), .advance none (.request 0), .advance none (.request 0),
    .advance none (.request 0)]

theorem smallest_fits : smallest.b ≤ INT_MAX := by decide

theorem monitored_refines_client_insidePush :
    ∃ state, (monitored smallest smallest_fits).run untouched insidePush = some state ∧
      (state.buffer none).pc (.request 0) = .pushSignal ∧
      state.shared.patientsThread 0 = .looping 0 ∧
      (client smallest).Reachable (seen smallest_fits state) ∧
      (seen smallest_fits state).requestBuffer.items = ["data Joe Smith"] := by
  have ran : ((monitored smallest smallest_fits).run untouched insidePush).map
      (fun state => ((state.buffer none).pc (.request 0), state.shared.patientsThread 0,
        (state.buffer none).q)) = some (.pushSignal, .looping 0, ["data Joe Smith"]) := by
    decide +kernel
  obtain ⟨state, run, last⟩ := Option.map_eq_some_iff.mp ran
  obtain ⟨inside, rest⟩ := Prod.mk.inj last
  obtain ⟨looping, queue⟩ := Prod.mk.inj rest
  have started : (monitored smallest smallest_fits).start untouched := ⟨⟨fun _ => [], rfl⟩, rfl⟩
  have reached := (System.Reachable.begin started).of_run run
  obtain ⟨refines, same⟩ := monitored_refines_client smallest_fits
  exact ⟨state, run, inside, looping, refines.reachable reached,
    (same state reached).2.1.trans queue⟩

theorem monitored_ends_smallest :
    ∃ fits : smallest.b ≤ INT_MAX, ∃ after, (monitored smallest fits).Path untouched after ∧
      (seen fits after).Outcome := by
  have fits : smallest.b ≤ INT_MAX := by decide
  have within : smallest.FailsWithin := fun _ failing => by cases failing
  have reached : (monitored smallest fits).Reachable untouched := .begin ⟨⟨fun _ => [], rfl⟩, rfl⟩
  exact ⟨fits, (monitored_ends within (by decide) rfl reached).2.1⟩

end Netwurk.Client
