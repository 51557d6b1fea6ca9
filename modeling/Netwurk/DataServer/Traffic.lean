/-
The workers of a session and the threads that serve their channels. A request and its
reply take five steps: a worker pops the request, writes it, its thread of the server
reads it and writes the reply, and the worker reads the reply. What the two main threads
do in the meantime leaves the channels of the workers alone.
-/

import Netwurk.DataServer.Constructing

namespace Netwurk.DataServer.Session

open Transition CString RequestChannel

def channelOf {w : Nat} (j : Fin w) : List Char := nameOf (j.val + 1)

def Reply (reply : List Char × List Char) : Prop :=
  (∃ patient : Patient, reply.1 = patient.key.toList) ∧
    ∃ value : Fin 100, reply.2 = to_string value

def Worker.taken (patient : Patient) (worker : Worker) : Nat :=
  (worker.answered.countP fun reply => reply.1 = patient.key.toList) +
    match worker.pc with
    | .holding request | .reading request => if request = patient.key.toList then 1 else 0
    | .popping | .ended => 0

def Worker.leaves (worker : Worker) : Prop :=
  worker.pc = .holding "quit".toList ∨ worker.pc = .ended

/-- `main` has constructed the channels of all workers. -/
def ClientPc.collected : ClientPc → Bool
  | .opening _ | .requesting | .reading => false
  | .joining | .deleting _ | .quitting | .leaving | .finished => true

def ClientPc.joined : ClientPc → Bool
  | .opening _ | .requesting | .reading | .joining => false
  | .deleting _ | .quitting | .leaving | .finished => true

theorem ClientPc.joined_of_deleted {j : Nat} {pc : ClientPc} (deleted : pc.deleted j = true) :
    pc.joined = true := by
  cases pc with
  | opening | requesting | reading | joining => cases deleted
  | deleting | quitting | leaving | finished => rfl

theorem toServer_injective {name other : List Char} (same : toServer name = toServer other) :
    name = other :=
  name_of_pipe_name same

theorem toClient_injective {name other : List Char} (same : toClient name = toClient other) :
    name = other :=
  name_of_pipe_name same

theorem channelOf_injective {w : Nat} {i j : Fin w} (same : channelOf i = channelOf j) : i = j :=
  Fin.ext (Nat.succ.inj (nameOf_injective same))

theorem channelOf_ne_control {w : Nat} (j : Fin w) : control ≠ channelOf j := by
  intro same
  have first : 0 = j.val + 1 := @nameOf_injective 0 (j.val + 1) same
  omega

theorem key_free (patient : Patient) : NulFree patient.key.toList := by
  cases patient <;> decide

theorem key_short (patient : Patient) : patient.key.toList.length < MAX_MESSAGE := by
  cases patient <;> decide

theorem key_ne_quit (patient : Patient) : patient.key.toList ≠ "quit".toList := by
  cases patient <;> decide

theorem process_request_key (patient : Patient) (value : Fin 100) :
    process_request patient.key.toList value = .reply (to_string value) := by
  cases patient <;> rfl

theorem to_string_short (value : Fin 100) : (to_string value.val).length < MAX_MESSAGE := by
  revert value
  decide

namespace State

variable {w : Nat} {state after : State w}

/-- A worker that has read `count` replies and its thread of the server: where they are,
what is unread between them, and by which replies the thread is ahead. -/
structure Talks (state : State w) (j : Fin w) (count : Nat) (worker : WorkerPc)
    (handler : HandlerPc) (asked answered : List Char) (ahead : List (List Char × List Char)) :
    Prop where
  number : (state.workers j).answered.length = count
  worker : (state.workers j).pc = worker
  handler : (state.handlers j).pc = handler
  asked : state.content (toServer (channelOf j)) = asked
  answered : state.content (toClient (channelOf j)) = answered
  handled : (state.handlers j).handled = (state.workers j).answered ++ ahead
  replies : ∀ reply ∈ (state.handlers j).handled, Reply reply

/-- The number counts the steps that worker and thread have taken. -/
inductive Exchange (state : State w) (j : Fin w) : Nat → Prop
  | popping {count : Nat} (at_ : state.Talks j count .popping .receiving [] [] []) :
      Exchange state j (5 * count)
  | holding {count : Nat} {patient : Patient}
      (at_ : state.Talks j count (.holding patient.key.toList) .receiving [] [] []) :
      Exchange state j (5 * count + 1)
  | asked {count : Nat} {patient : Patient}
      (at_ : state.Talks j count (.reading patient.key.toList) .receiving
        (terminated patient.key.toList) [] []) :
      Exchange state j (5 * count + 2)
  | answering {count : Nat} {patient : Patient} {value : Fin 100}
      (at_ : state.Talks j count (.reading patient.key.toList)
        (.answering patient.key.toList (to_string value)) [] [] []) :
      Exchange state j (5 * count + 3)
  | answered {count : Nat} {patient : Patient} {value : Fin 100}
      (at_ : state.Talks j count (.reading patient.key.toList) .receiving []
        (terminated (to_string value)) [(patient.key.toList, to_string value)]) :
      Exchange state j (5 * count + 4)
  | quitting {count : Nat}
      (at_ : state.Talks j count (.holding "quit".toList) .receiving [] [] []) :
      Exchange state j (5 * count + 1)
  | left {count : Nat}
      (at_ : state.Talks j count .ended .receiving (terminated "quit".toList) [] []) :
      Exchange state j (5 * count + 2)
  | fallen {count : Nat} (at_ : state.Talks j count .ended .receiving [] [] [])
      (undefined : state.undefined = true) : Exchange state j (5 * count + 3)

theorem Talks.byWorker {j : Fin w} {count count' : Nat} {pc : WorkerPc} {handler : HandlerPc}
    {asked answered asked' answered' : List Char} {ahead ahead' : List (List Char × List Char)}
    (at_ : state.Talks j count pc handler asked answered ahead) {content : Path → List Char}
    {requests : Patient → Nat} (worker : Worker) (number : worker.answered.length = count')
    (server : content (toServer (channelOf j)) = asked')
    (client : content (toClient (channelOf j)) = answered')
    (handled : (state.handlers j).handled = worker.answered ++ ahead') :
    Talks
      { state with
        content := content
        requests := requests
        workers := Function.update state.workers j worker }
      j count' worker.pc handler asked' answered' ahead' where
  number := by simp only [Function.update_self]; exact number
  worker := congrArg Worker.pc (Function.update_self _ _ _)
  handler := at_.handler
  asked := server
  answered := client
  handled := by simp only [Function.update_self]; exact handled
  replies := at_.replies

theorem Talks.byHandler {j : Fin w} {count : Nat} {worker : WorkerPc} {pc : HandlerPc}
    {asked answered asked' answered' : List Char} {ahead ahead' : List (List Char × List Char)}
    (at_ : state.Talks j count worker pc asked answered ahead) {content : Path → List Char}
    {undefined : Bool} (handler : Handler)
    (server : content (toServer (channelOf j)) = asked')
    (client : content (toClient (channelOf j)) = answered')
    (handled : handler.handled = (state.workers j).answered ++ ahead')
    (replies : ∀ reply ∈ handler.handled, Reply reply) :
    Talks
      { state with
        content := content
        handlers := Function.update state.handlers j handler
        undefined := undefined }
      j count worker handler.pc asked' answered' ahead' where
  number := at_.number
  worker := at_.worker
  handler := congrArg Handler.pc (Function.update_self _ _ _)
  asked := server
  answered := client
  handled := by simp only [Function.update_self]; exact handled
  replies := by simp only [Function.update_self]; exact replies

structure Apart (state after : State w) (j : Fin w) : Prop where
  worker : after.workers j = state.workers j
  handler : after.handlers j = state.handlers j
  asked : after.content (toServer (channelOf j)) = state.content (toServer (channelOf j))
  answered : after.content (toClient (channelOf j)) = state.content (toClient (channelOf j))

theorem Apart.talks {j : Fin w} (apart : state.Apart after j) {count : Nat} {worker : WorkerPc}
    {handler : HandlerPc} {asked answered : List Char} {ahead : List (List Char × List Char)}
    (at_ : state.Talks j count worker handler asked answered ahead) :
    after.Talks j count worker handler asked answered ahead where
  number := by rw [apart.worker]; exact at_.number
  worker := by rw [apart.worker]; exact at_.worker
  handler := by rw [apart.handler]; exact at_.handler
  asked := apart.asked.trans at_.asked
  answered := apart.answered.trans at_.answered
  handled := by rw [apart.handler, apart.worker]; exact at_.handled
  replies := by rw [apart.handler]; exact at_.replies

theorem Apart.exchange {j : Fin w} (apart : state.Apart after j)
    (defined : state.undefined = false) {t : Nat} (exchange : state.Exchange j t) :
    after.Exchange j t := by
  cases exchange with
  | popping at_ => exact .popping (apart.talks at_)
  | holding at_ => exact .holding (apart.talks at_)
  | asked at_ => exact .asked (apart.talks at_)
  | answering at_ => exact .answering (apart.talks at_)
  | answered at_ => exact .answered (apart.talks at_)
  | quitting at_ => exact .quitting (apart.talks at_)
  | left at_ => exact .left (apart.talks at_)
  | fallen _ undefined =>
      rw [defined] at undefined
      cases undefined

structure Beside (state after : State w) (j : Fin w) : Prop where
  rest : after =
    { state with
      content := after.content
      requests := after.requests
      workers := after.workers
      handlers := after.handlers
      undefined := after.undefined }
  content : ∀ path, path ≠ toServer (channelOf j) → path ≠ toClient (channelOf j) →
    after.content path = state.content path
  workers : ∀ i, i ≠ j → after.workers i = state.workers i
  handlers : ∀ i, i ≠ j → after.handlers i = state.handlers i

theorem Beside.aside {j : Fin w} (beside : state.Beside after j) : state.Aside after where
  client := by rw [beside.rest]
  clientPc := by rw [beside.rest]
  clientChannels := by rw [beside.rest]
  kept := by
    rw [beside.rest]
    exact fun _ member => member
  server := by rw [beside.rest]
  serverPc := by rw [beside.rest]
  serverChannels := by rw [beside.rest]
  nchannels := by rw [beside.rest]
  files := by rw [beside.rest]
  control :=
    ⟨beside.content _ (fun same => channelOf_ne_control j (toServer_injective same))
        (fun same => toClient_ne _ _ same.symm),
      beside.content _ (toClient_ne _ _)
        (fun same => channelOf_ne_control j (toClient_injective same))⟩

theorem Beside.apart {j : Fin w} (beside : state.Beside after j) {i : Fin w} (other : i ≠ j) :
    state.Apart after i where
  worker := beside.workers i other
  handler := beside.handlers i other
  asked := beside.content _
    (fun same => other (channelOf_injective (toServer_injective same)))
    (fun same => toClient_ne _ _ same.symm)
  answered := beside.content _ (toClient_ne _ _)
    (fun same => other (channelOf_injective (toClient_injective same)))

structure Moves (state after : State w) (j : Fin w) (t : Nat) : Prop where
  beside : state.Beside after j
  exchange : after.Exchange j (t + 1)
  counted : ∀ patient, after.requests patient + (after.workers j).taken patient =
    state.requests patient + (state.workers j).taken patient
  less : ∀ patient, after.requests patient ≤ state.requests patient
  leaves : (after.workers j).leaves → (state.workers j).leaves ∨
    (∀ patient, state.requests patient = 0) ∧ state.clientPc = .joining
  ended : (state.workers j).pc = .ended → (after.workers j).pc = .ended
  undefined : after.undefined = true → (after.workers j).pc = .ended

theorem Moves.of_worker {j : Fin w} {content : Path → List Char} {worker : Worker} {t : Nat}
    (defined : state.undefined = false)
    (own : ∀ path, path ≠ toServer (channelOf j) → path ≠ toClient (channelOf j) →
      content path = state.content path)
    (exchange : Exchange
      { state with content := content, workers := Function.update state.workers j worker }
      j (t + 1))
    (taken : ∀ patient, worker.taken patient = (state.workers j).taken patient)
    (leaves : worker.leaves → (state.workers j).leaves ∨
      (∀ patient, state.requests patient = 0) ∧ state.clientPc = .joining)
    (going : (state.workers j).pc ≠ .ended) :
    state.Moves
      { state with content := content, workers := Function.update state.workers j worker } j t where
  beside := ⟨rfl, own, fun _ other => Function.update_of_ne other _ _, fun _ _ => rfl⟩
  exchange := exchange
  counted := by
    intro patient
    simp only [Function.update_self, taken]
  less := fun _ => Nat.le_refl _
  leaves := by
    simp only [Function.update_self]
    exact leaves
  ended := fun ended => absurd ended going
  undefined := by
    intro undefined
    rw [defined] at undefined
    cases undefined

theorem Moves.of_handler {j : Fin w} {content : Path → List Char} {handler : Handler}
    {undefined : Bool} {t : Nat}
    (own : ∀ path, path ≠ toServer (channelOf j) → path ≠ toClient (channelOf j) →
      content path = state.content path)
    (exchange : Exchange
      { state with
        content := content
        handlers := Function.update state.handlers j handler
        undefined := undefined } j (t + 1))
    (ended : undefined = true → (state.workers j).pc = .ended) :
    state.Moves
      { state with
        content := content
        handlers := Function.update state.handlers j handler
        undefined := undefined } j t where
  beside := ⟨rfl, own, fun _ _ => rfl, fun _ other => Function.update_of_ne other _ _⟩
  exchange := exchange
  counted := fun _ => rfl
  less := fun _ => Nat.le_refl _
  leaves := .inl
  ended := fun ended => ended
  undefined := ended

theorem taken_of_popping {worker : Worker} (pc : worker.pc = .popping) (patient : Patient) :
    worker.taken patient =
      worker.answered.countP fun reply => reply.1 = patient.key.toList := by
  simp only [Worker.taken, pc, Nat.add_zero]

theorem Talks.pop {j : Fin w} {count : Nat}
    (at_ : state.Talks j count .popping .receiving [] [] []) (defined : state.undefined = false)
    {patient : Patient} (some_ : 0 < state.requests patient) :
    state.Moves
      { state.setWorker j { state.workers j with pc := .holding patient.key.toList } with
        requests := Function.update state.requests patient (state.requests patient - 1) }
      j (5 * count) where
  beside :=
    ⟨rfl, fun _ _ _ => rfl, fun _ other => Function.update_of_ne other _ _, fun _ _ => rfl⟩
  exchange := .holding (at_.byWorker { state.workers j with pc := .holding patient.key.toList }
    at_.number at_.asked at_.answered at_.handled)
  counted := by
    intro other
    have idle := taken_of_popping at_.worker other
    by_cases same : other = patient
    · subst same
      simp only [setWorker, Function.update_self, idle]
      simp only [Worker.taken, if_true]
      omega
    · have keys : patient.key.toList ≠ other.key.toList := fun keys =>
        same (Patient.key_injective (String.toList_injective keys)).symm
      simp only [setWorker, Function.update_self, Function.update_of_ne same, idle]
      simp only [Worker.taken, if_neg keys, Nat.add_zero]
  less := by
    intro other
    by_cases same : other = patient
    · subst same
      simp only [Function.update_self]
      omega
    · simp only [Function.update_of_ne same]
      exact Nat.le_refl _
  leaves := by
    intro leaves
    simp only [setWorker, Function.update_self, Worker.leaves] at leaves
    rcases leaves with quit | ended
    · exact absurd (WorkerPc.holding.inj quit) (key_ne_quit patient)
    · cases ended
  ended := by
    intro ended
    rw [at_.worker] at ended
    cases ended
  undefined := by
    intro undefined
    exact absurd undefined (by simp [setWorker, defined])

theorem Exchange.worker {j : Fin w} {t : Nat} (exchange : state.Exchange j t)
    (defined : state.undefined = false) (present : state.server.gone = false)
    (channel : ∀ name, state.clientChannels[j.val + 1]? = some name → name = channelOf j)
    {popped : Option Patient} (taken : state.workerNext j popped = some after) :
    state.Moves after j t := by
  unfold workerNext at taken
  split at taken
  · cases taken
  rename_i name found
  have same := channel name found
  subst same
  cases exchange with
  | popping at_ =>
      simp only [at_.worker] at taken
      cases popped with
      | some patient =>
          simp only [Option.ite_none_right_eq_some, Option.some.injEq] at taken
          obtain ⟨some_, rfl⟩ := taken
          exact at_.pop defined some_
      | none =>
          simp only [Option.ite_none_right_eq_some, Option.some.injEq] at taken
          obtain ⟨due, rfl⟩ := taken
          refine .of_worker defined (fun _ _ _ => rfl) ?_ ?_ (fun _ => .inr due) ?_
          · exact .quitting (at_.byWorker { state.workers j with pc := .holding "quit".toList }
              at_.number at_.asked at_.answered at_.handled)
          · intro patient
            rw [taken_of_popping at_.worker]
            simp only [Worker.taken, if_neg (key_ne_quit patient).symm, Nat.add_zero]
          · rw [at_.worker]
            exact WorkerPc.noConfusion
  | @holding _ patient at_ =>
      simp only [at_.worker, at_.asked, cwrite_short (key_short patient),
        if_neg (key_ne_quit patient), Option.some.injEq] at taken
      subst taken
      refine .of_worker defined (fun _ other _ => Function.update_of_ne other _ _) ?_ ?_ ?_ ?_
      · exact .asked (at_.byWorker { state.workers j with pc := .reading patient.key.toList }
          at_.number (Function.update_self _ _ _)
          ((Function.update_of_ne (toClient_ne _ _) _ _).trans at_.answered) at_.handled)
      · intro other
        simp only [Worker.taken, at_.worker]
      · intro leaves
        rcases leaves with quit | ended
        · cases quit
        · cases ended
      · rw [at_.worker]
        exact WorkerPc.noConfusion
  | asked at_ =>
      simp only [at_.worker, at_.answered, cread, present, if_true, Bool.false_eq_true, if_false,
        reduceCtorEq] at taken
  | answering at_ =>
      simp only [at_.worker, at_.answered, cread, present, if_true, Bool.false_eq_true, if_false,
        reduceCtorEq] at taken
  | @answered count patient value at_ =>
      simp only [at_.worker, at_.answered, cread_terminated (to_string_nulFree value.val)
        (to_string_short value), Option.some.injEq] at taken
      subst taken
      refine .of_worker defined (fun _ _ other => Function.update_of_ne other _ _) ?_ ?_ ?_ ?_
      · have whole : 5 * count + 4 + 1 = 5 * (count + 1) := by omega
        rw [whole]
        refine .popping (at_.byWorker
          { pc := .popping
            answered := (state.workers j).answered ++ [(patient.key.toList, to_string value)] }
          ?_ ?_ (Function.update_self _ _ _) (at_.handled.trans (List.append_nil _).symm))
        · rw [List.length_append, at_.number]
          rfl
        · exact (Function.update_of_ne (toClient_ne _ _).symm _ _).trans at_.asked
      · intro other
        simp only [Worker.taken, at_.worker, List.countP_append, List.countP_singleton,
          decide_eq_true_eq, Nat.add_zero]
      · intro leaves
        rcases leaves with quit | ended
        · cases quit
        · cases ended
      · rw [at_.worker]
        exact WorkerPc.noConfusion
  | quitting at_ =>
      have short : "quit".toList.length < MAX_MESSAGE := by decide
      simp only [at_.worker, at_.asked, cwrite_short short, if_true, Option.some.injEq] at taken
      subst taken
      refine .of_worker defined (fun _ other _ => Function.update_of_ne other _ _) ?_ ?_
        (fun _ => .inl (.inl at_.worker)) ?_
      · exact .left (at_.byWorker { state.workers j with pc := .ended } at_.number
          (Function.update_self _ _ _)
          ((Function.update_of_ne (toClient_ne _ _) _ _).trans at_.answered) at_.handled)
      · intro patient
        simp only [Worker.taken, at_.worker, if_neg (key_ne_quit patient).symm]
      · rw [at_.worker]
        exact WorkerPc.noConfusion
  | left at_ | fallen at_ =>
      simp only [at_.worker, reduceCtorEq] at taken

theorem handlerNext_blocks {j : Fin w} {count : Nat} {worker : WorkerPc} {answered : List Char}
    {ahead : List (List Char × List Char)}
    (at_ : state.Talks j count worker .receiving [] answered ahead) (going : worker ≠ .ended)
    (open_ : state.clientPc.deleted j = true → (state.workers j).pc = .ended)
    (found : state.serverChannels[j.val + 1]? = some (channelOf j)) (value : Fin 100) :
    state.handlerNext j value = none := by
  have kept : state.clientPc.deleted j = false := by
    apply Bool.eq_false_iff.mpr
    intro deleted
    exact going (at_.worker.symm.trans (open_ deleted))
  simp only [handlerNext, found, at_.handler, at_.asked, cread, kept, if_true, Bool.false_eq_true,
    if_false]

theorem Exchange.handler {j : Fin w} {t : Nat} (exchange : state.Exchange j t)
    (defined : state.undefined = false)
    (open_ : state.clientPc.deleted j = true → (state.workers j).pc = .ended)
    (channel : ∀ name, state.serverChannels[j.val + 1]? = some name → name = channelOf j)
    {value : Fin 100} (taken : state.handlerNext j value = some after) :
    state.Moves after j t := by
  have found : state.serverChannels[j.val + 1]? = some (channelOf j) := by
    cases found : state.serverChannels[j.val + 1]? with
    | none => simp only [handlerNext, found, reduceCtorEq] at taken
    | some name => rw [channel name found]
  have blocks : state.handlerNext j value ≠ none := by
    rw [taken]
    exact Option.some_ne_none after
  cases exchange with
  | popping at_ => exact absurd (handlerNext_blocks at_ (by decide) open_ found value) blocks
  | holding at_ =>
      exact absurd (handlerNext_blocks at_ WorkerPc.noConfusion open_ found value) blocks
  | @asked count patient at_ =>
      simp only [handlerNext, found, at_.handler, at_.asked,
        cread_terminated (key_free patient) (key_short patient), if_neg (key_ne_quit patient),
        process_request_key, Option.some.injEq] at taken
      subst taken
      refine .of_handler (fun _ other _ => Function.update_of_ne other _ _) ?_ ?_
      · exact .answering (at_.byHandler
          { state.handlers j with pc := .answering patient.key.toList (to_string value) }
          (Function.update_self _ _ _)
          ((Function.update_of_ne (toClient_ne _ _) _ _).trans at_.answered)
          at_.handled at_.replies)
      · intro undefined
        exact absurd (defined.symm.trans undefined) Bool.false_ne_true
  | @answering count patient value at_ =>
      simp only [handlerNext, found, at_.handler, at_.answered,
        cwrite_short (to_string_short value), Option.some.injEq] at taken
      subst taken
      refine .of_handler (fun _ _ other => Function.update_of_ne other _ _) ?_ ?_
      · refine .answered (at_.byHandler
          { pc := .receiving
            handled := (state.handlers j).handled ++ [(patient.key.toList, to_string value)] }
          ((Function.update_of_ne (toClient_ne _ _).symm _ _).trans at_.asked)
          (Function.update_self _ _ _) ?_ ?_)
        · rw [at_.handled, List.append_nil]
        · intro reply member
          rcases List.mem_append.mp member with before | last
          · exact at_.replies reply before
          · rw [List.mem_singleton.mp last]
            exact ⟨⟨patient, rfl⟩, value, rfl⟩
      · intro undefined
        exact absurd (defined.symm.trans undefined) Bool.false_ne_true
  | answered at_ =>
      exact absurd (handlerNext_blocks at_ WorkerPc.noConfusion open_ found value) blocks
  | quitting at_ =>
      exact absurd (handlerNext_blocks at_ WorkerPc.noConfusion open_ found value) blocks
  | left at_ =>
      have short : "quit".toList.length < MAX_MESSAGE := by decide
      simp only [handlerNext, found, at_.handler, at_.asked,
        cread_terminated (by decide : NulFree "quit".toList) short, if_true,
        Option.some.injEq] at taken
      have same : after =
          { state with
            content := Function.update state.content (toServer (channelOf j)) []
            handlers :=
              Function.update state.handlers j { state.handlers j with pc := .receiving }
            undefined := true } := by
        rw [← taken, ← at_.handler, Function.update_eq_self]
        rfl
      rw [same]
      refine .of_handler (fun _ other _ => Function.update_of_ne other _ _) ?_
        (fun _ => at_.worker)
      exact .fallen (at_.byHandler { state.handlers j with pc := .receiving }
        (Function.update_self _ _ _)
        ((Function.update_of_ne (toClient_ne _ _) _ _).trans at_.answered)
        at_.handled at_.replies) rfl
  | fallen _ undefined =>
      rw [defined] at undefined
      cases undefined

/-! ### The two main threads -/

structure Central (state after : State w) : Prop where
  requests : after.requests = state.requests
  workers : after.workers = state.workers
  handlers : after.handlers = state.handlers
  content : ∀ path, path ≠ toServer control → path ≠ toClient control →
    after.content path = state.content path

theorem Central.apart (central : state.Central after) (j : Fin w) : state.Apart after j where
  worker := congrFun central.workers j
  handler := congrFun central.handlers j
  asked := central.content _
    (fun same => channelOf_ne_control j (toServer_injective same).symm)
    (fun same => toClient_ne _ _ same.symm)
  answered := central.content _ (toClient_ne _ _)
    (fun same => channelOf_ne_control j (toClient_injective same).symm)

structure ClientCentral (state after : State w) : Prop extends state.Central after where
  undefined : after.undefined = state.undefined
  collected : state.clientPc.collected = true → after.clientPc.collected = true
  joined : after.clientPc.joined = true →
    state.clientPc.joined = true ∨ ∀ j, (state.workers j).pc = .ended

theorem clientNext_central (taken : state.clientNext = some after) :
    state.ClientCentral after := by
  have early : ∀ {pc}, state.clientPc = pc → pc.collected = false →
      state.clientPc.collected = true → after.clientPc.collected = true := by
    intro pc here no yes
    rw [here, no] at yes
    cases yes
  have late : state.clientPc.joined = true → after.clientPc.joined = true →
      state.clientPc.joined = true ∨ ∀ j, (state.workers j).pc = .ended := fun yes _ => .inl yes
  unfold clientNext at taken
  split at taken
  · rename_i name pc
    split at taken
    · cases taken
      refine ⟨⟨rfl, rfl, rfl, fun _ _ _ => rfl⟩, rfl, early pc rfl, ?_⟩
      intro yes
      split at yes <;> cases yes
    · split at taken <;> cases taken
      refine ⟨⟨rfl, rfl, rfl, fun _ _ _ => rfl⟩, rfl, early pc rfl, ?_⟩
      intro yes
      exact .inl yes
  · rename_i pc
    split at taken <;> cases taken
    · refine ⟨⟨rfl, rfl, rfl, fun _ other _ => Function.update_of_ne other _ _⟩, rfl,
        early pc rfl, ?_⟩
      intro yes
      cases yes
    · exact ⟨⟨rfl, rfl, rfl, fun _ _ _ => rfl⟩, rfl, early pc rfl, fun yes => .inl yes⟩
  · rename_i pc
    split at taken <;> cases taken
    · refine ⟨⟨rfl, rfl, rfl, fun _ _ other => Function.update_of_ne other _ _⟩, rfl,
        early pc rfl, ?_⟩
      intro yes
      cases yes
    · exact ⟨⟨rfl, rfl, rfl, fun _ _ _ => rfl⟩, rfl, early pc rfl, fun yes => .inl yes⟩
  · split at taken <;> cases taken
    rename_i ended
    exact ⟨⟨rfl, rfl, rfl, fun _ _ _ => rfl⟩, rfl, fun _ => rfl, fun _ => .inr ended⟩
  · rename_i i pc
    have joined : state.clientPc.joined = true := by rw [pc]; rfl
    split at taken <;> cases taken <;>
      exact ⟨⟨rfl, rfl, rfl, fun _ _ _ => rfl⟩, rfl, fun _ => rfl, late joined⟩
  · rename_i pc
    have joined : state.clientPc.joined = true := by rw [pc]; rfl
    split at taken <;> cases taken
    · exact ⟨⟨rfl, rfl, rfl, fun _ other _ => Function.update_of_ne other _ _⟩, rfl,
        fun _ => rfl, late joined⟩
    · exact ⟨⟨rfl, rfl, rfl, fun _ _ _ => rfl⟩, rfl, fun yes => yes, late joined⟩
  · rename_i pc
    have joined : state.clientPc.joined = true := by rw [pc]; rfl
    cases taken
    exact ⟨⟨rfl, rfl, rfl, fun _ _ _ => rfl⟩, rfl, fun _ => rfl, late joined⟩
  · cases taken

/-- Only "quit" makes the server's `main` leave its loop. -/
theorem serverNext_central {value : Fin 100} (taken : state.serverNext value = some after) :
    state.Central after ∧ after.clientPc = state.clientPc ∧
      (after.undefined = state.undefined ∨
        ∃ closed rest, cread (state.content (toServer control)) closed =
          .got "quit".toList rest) := by
  unfold serverNext at taken
  split at taken
  · split at taken
    · cases taken
      exact ⟨⟨rfl, rfl, rfl, fun _ _ _ => rfl⟩, rfl, .inl rfl⟩
    · split at taken <;> cases taken
      exact ⟨⟨rfl, rfl, rfl, fun _ _ _ => rfl⟩, rfl, .inl rfl⟩
  · split at taken
    · rename_i request rest read
      split at taken
      · rename_i quit
        cases taken
        subst quit
        exact ⟨⟨rfl, rfl, rfl, fun _ other _ => Function.update_of_ne other _ _⟩, rfl,
          .inr ⟨_, rest, read⟩⟩
      · split at taken
        · cases taken
          exact ⟨⟨rfl, rfl, rfl, fun _ other _ => Function.update_of_ne other _ _⟩, rfl, .inl rfl⟩
        · split at taken <;> cases taken
          exact ⟨⟨rfl, rfl, rfl, fun _ other _ => Function.update_of_ne other _ _⟩, rfl, .inl rfl⟩
    · cases taken
      exact ⟨⟨rfl, rfl, rfl, fun _ _ _ => rfl⟩, rfl, .inl rfl⟩
    · cases taken
    · cases taken
  · split at taken <;> cases taken
    · exact ⟨⟨rfl, rfl, rfl, fun _ _ other => Function.update_of_ne other _ _⟩, rfl, .inl rfl⟩
    · exact ⟨⟨rfl, rfl, rfl, fun _ _ _ => rfl⟩, rfl, .inl rfl⟩
  · split at taken <;> cases taken
    · exact ⟨⟨rfl, rfl, rfl, fun _ _ other => Function.update_of_ne other _ _⟩, rfl, .inl rfl⟩
    · exact ⟨⟨rfl, rfl, rfl, fun _ _ _ => rfl⟩, rfl, .inl rfl⟩

theorem Phase.asked {p q : Nat} (phase : state.Phase p q) :
    state.content (toServer control) = [] ∨
      state.content (toServer control) = terminated "newchannel".toList ∨
      state.clientPc.joined = true := by
  cases phase with
  | opening _ _ _ unread | requesting _ _ _ _ _ unread | naming _ _ _ _ _ _ unread
  | named _ _ _ _ _ unread | joining _ _ _ _ unread | deleting _ _ _ _ _ unread
  | quitting _ _ _ _ unread | left _ _ _ _ _ unread => exact .inl unread.server
  | requested _ _ _ _ _ unread => exact .inr (.inl unread.server)
  | @quit finished _ _ pc =>
      refine .inr (.inr ?_)
      rw [pc]
      cases finished <;> rfl

theorem Phase.channels {p q : Nat} (phase : state.Phase p q) :
    (∃ k, state.clientChannels = (List.range k).map nameOf) ∧
      ∃ k, state.serverChannels = (List.range k).map nameOf := by
  have serverAt : ∀ {k s}, state.ServerAt k s →
      ∃ k, state.serverChannels = (List.range k).map nameOf := by
    intro k s server
    cases server with
    | opening server => exact ⟨k, server.channels⟩
    | receiving server => exact ⟨k + 1, server.channels⟩
  cases phase with
  | opening _ client server => exact ⟨⟨_, client.channels⟩, serverAt server⟩
  | requesting _ client _ server | requested _ client _ server | joining client _ server
  | deleting _ client _ server | quitting client _ server | quit client _ server =>
      exact ⟨⟨_, client.channels⟩, serverAt server⟩
  | naming _ client _ server | left client _ server =>
      exact ⟨⟨_, client.channels⟩, _, server.channels⟩
  | named _ client _ server => exact ⟨⟨_, client.channels⟩, _, server.channels⟩

theorem name_of_channels {channels : List (List Char)} {k : Nat}
    (names : channels = (List.range k).map nameOf) {j : Fin w} {name : List Char}
    (found : channels[j.val + 1]? = some name) : name = channelOf j := by
  rw [names, List.getElem?_map, Option.map_eq_some_iff] at found
  obtain ⟨number, inside, rfl⟩ := found
  obtain ⟨bound, same⟩ := List.getElem?_eq_some_iff.mp inside
  rw [List.getElem_range] at same
  rw [← same]
  rfl

theorem Phase.has {p q : Nat} (phase : state.Phase p q)
    (collected : state.clientPc.collected = true) : state.ClientHas (w + 1) := by
  cases phase with
  | opening _ client =>
      rw [client.pc] at collected
      cases collected
  | requesting _ _ pc | requested _ _ pc | naming _ _ pc | named _ _ pc =>
      rw [pc] at collected
      cases collected
  | joining client | deleting _ client | quitting client | quit client | left client => exact client

theorem Phase.bounds {p q : Nat} (phase : state.Phase p q) :
    p ≤ 10 * w + 11 ∧ q ≤ 9 * w + 8 := by
  cases phase with
  | opening _ client server =>
      have within := client.at_.within
      have serverWithin := server.le_seven
      omega
  | requesting _ _ _ server | requested _ _ _ server | joining _ _ server | deleting _ _ _ server
  | quitting _ _ server =>
      have serverWithin := server.le_seven
      omega
  | naming | named => omega
  | @quit finished _ _ _ server =>
      have serverWithin := server.le_seven
      have bit := finished.toNat_le
      omega
  | @left finished =>
      have bit := finished.toNat_le
      omega

/-! ### All workers -/

structure Traffic (n t : Nat) (state : State w) : Prop where
  exchanges : ∃ steps : Fin w → Nat, (∀ j, state.Exchange j (steps j)) ∧ ∑ j, steps j = t
  requests : ∀ patient, state.requests patient + ∑ j, (state.workers j).taken patient = n
  leaves : ∀ j, (state.workers j).leaves →
    (∀ patient, state.requests patient = 0) ∧ state.clientPc.collected = true
  joined : state.clientPc.joined = true → ∀ j, (state.workers j).pc = .ended
  undefined : state.undefined = true →
    state.clientPc.joined = true ∨ ∃ j, (state.workers j).pc = .ended

theorem Traffic.begin (w n : Nat) (leftover : List Path) :
    (begin w n leftover).Traffic n 0 where
  exchanges := by
    refine ⟨fun _ => 0, fun j => ?_, Finset.sum_const_zero⟩
    exact @Exchange.popping _ _ _ 0 ⟨rfl, rfl, rfl, rfl, rfl, rfl, fun _ member => nomatch member⟩
  requests := by
    intro patient
    have idle : ∀ j, ((Session.begin w n leftover).workers j).taken patient = 0 := fun _ => rfl
    simp only [idle, Finset.sum_const_zero]
    rfl
  leaves := by
    intro j leaves
    rcases leaves with quit | ended
    · cases quit
    · cases ended
  joined := by
    intro joined
    cases joined
  undefined := by
    intro undefined
    cases undefined

theorem Traffic.thread {n t : Nat} (traffic : state.Traffic n t)
    (defined : state.undefined = false) {j : Fin w}
    (moves : ∀ {s}, state.Exchange j s → state.Moves after j s) : after.Traffic n (t + 1) := by
  obtain ⟨steps, exchanges, total⟩ := traffic.exchanges
  have moved := moves (exchanges j)
  have aside := moved.beside.aside
  have workers : after.workers = Function.update state.workers j (after.workers j) := by
    funext i
    by_cases same : i = j
    · subst same
      rw [Function.update_self]
    · rw [Function.update_of_ne same, moved.beside.workers i same]
  have less : (∀ patient, state.requests patient = 0) → ∀ patient, after.requests patient = 0 := by
    intro nothing patient
    have bound := moved.less patient
    rw [nothing patient] at bound
    omega
  refine ⟨⟨Function.update steps j (steps j + 1), ?_, ?_⟩, ?_, ?_, ?_, ?_⟩
  · intro i
    by_cases same : i = j
    · subst same
      rw [Function.update_self]
      exact moved.exchange
    · rw [Function.update_of_ne same]
      exact (moved.beside.apart same).exchange defined (exchanges i)
  · have grown : steps j + 1 = steps j + 1 := rfl
    rw [Families.sum_update_grow (fun _ count => count) steps j grown, total]
  · intro patient
    have before := traffic.requests patient
    have counted := moved.counted patient
    have sums := Families.sum_update_add (fun _ worker => worker.taken patient) state.workers j
      (after.workers j)
    rw [← workers] at sums
    omega
  · intro i leaves
    by_cases same : i = j
    · subst same
      rcases moved.leaves leaves with before | ⟨nothing, joining⟩
      · obtain ⟨nothing, collected⟩ := traffic.leaves i before
        exact ⟨less nothing, by rw [aside.clientPc]; exact collected⟩
      · exact ⟨less nothing, by rw [aside.clientPc, joining]; rfl⟩
    · rw [moved.beside.workers i same] at leaves
      obtain ⟨nothing, collected⟩ := traffic.leaves i leaves
      exact ⟨less nothing, by rw [aside.clientPc]; exact collected⟩
  · intro joined i
    rw [aside.clientPc] at joined
    have ended := traffic.joined joined i
    by_cases same : i = j
    · subst same
      exact moved.ended ended
    · rw [moved.beside.workers i same]
      exact ended
  · intro undefined
    exact .inr ⟨j, moved.undefined undefined⟩

theorem Traffic.client {n t : Nat} (traffic : state.Traffic n t)
    (defined : state.undefined = false) (central : state.ClientCentral after) :
    after.Traffic n t where
  exchanges := by
    obtain ⟨steps, exchanges, total⟩ := traffic.exchanges
    exact ⟨steps, fun j => (central.apart j).exchange defined (exchanges j), total⟩
  requests := by
    rw [central.requests, central.workers]
    exact traffic.requests
  leaves := by
    intro j leaves
    rw [central.workers] at leaves
    obtain ⟨nothing, collected⟩ := traffic.leaves j leaves
    exact ⟨by rw [central.requests]; exact nothing, central.collected collected⟩
  joined := by
    intro joined
    rw [central.workers]
    rcases central.joined joined with before | ended
    · exact traffic.joined before
    · exact ended
  undefined := by
    intro undefined
    rw [central.undefined, defined] at undefined
    cases undefined

theorem Traffic.server {n t p q : Nat} (traffic : state.Traffic n t)
    (defined : state.undefined = false) (phase : state.Phase p q) {value : Fin 100}
    (taken : state.serverNext value = some after) : after.Traffic n t := by
  obtain ⟨central, pc, undefined⟩ := serverNext_central taken
  refine ⟨?_, ?_, ?_, ?_, ?_⟩
  · obtain ⟨steps, exchanges, total⟩ := traffic.exchanges
    exact ⟨steps, fun j => (central.apart j).exchange defined (exchanges j), total⟩
  · rw [central.requests, central.workers]
    exact traffic.requests
  · rw [central.requests, central.workers, pc]
    exact traffic.leaves
  · rw [central.workers, pc]
    exact traffic.joined
  · intro now
    rcases undefined with same | ⟨closed, rest, read⟩
    · rw [same, defined] at now
      cases now
    · rw [pc]
      rcases phase.asked with nothing | newchannel | joined
      · rw [nothing] at read
        cases closed <;> cases read
      · rw [newchannel, cread_terminated (by decide) (by decide)] at read
        exact absurd (Read.got.inj read).1 (by decide)
      · exact .inl joined

theorem sum_key (patient : Patient) :
    ∑ other : Patient, (if patient.key.toList = other.key.toList then 1 else 0) = 1 := by
  cases patient <;> decide

theorem length_of_replies {replies : List (List Char × List Char)}
    (valid : ∀ reply ∈ replies, Reply reply) :
    replies.length =
      ∑ patient : Patient, replies.countP fun reply => reply.1 = patient.key.toList := by
  induction replies with
  | nil => rfl
  | cons reply rest ih =>
      obtain ⟨patient, key⟩ := (valid reply List.mem_cons_self).1
      simp only [List.countP_cons, decide_eq_true_eq, key, Finset.sum_add_distrib, sum_key,
        List.length_cons]
      rw [ih fun other member => valid other (List.mem_cons_of_mem _ member)]

theorem Talks.count_eq {j : Fin w} {count : Nat} {worker : WorkerPc} {handler : HandlerPc}
    {asked answered : List Char} {ahead : List (List Char × List Char)}
    (at_ : state.Talks j count worker handler asked answered ahead) :
    count = ∑ patient : Patient,
      (state.workers j).answered.countP fun reply => reply.1 = patient.key.toList := by
  rw [← at_.number]
  apply length_of_replies
  intro reply member
  apply at_.replies
  rw [at_.handled]
  exact List.mem_append_left _ member

theorem Talks.taken_le {j : Fin w} {count : Nat} {worker : WorkerPc} {handler : HandlerPc}
    {asked answered : List Char} {ahead : List (List Char × List Char)}
    (at_ : state.Talks j count worker handler asked answered ahead) :
    count ≤ ∑ patient : Patient, (state.workers j).taken patient := by
  conv_lhs => rw [at_.count_eq]
  exact Finset.sum_le_sum fun patient _ => Nat.le_add_right _ _

theorem Talks.taken_busy {j : Fin w} {count : Nat} {worker : WorkerPc} {handler : HandlerPc}
    {asked answered : List Char} {ahead : List (List Char × List Char)} {patient : Patient}
    (at_ : state.Talks j count worker handler asked answered ahead)
    (busy : worker = .holding patient.key.toList ∨ worker = .reading patient.key.toList) :
    ∑ other : Patient, (state.workers j).taken other = count + 1 := by
  have pc := at_.worker
  rcases busy with rfl | rfl <;>
    simp only [Worker.taken, pc, Finset.sum_add_distrib, sum_key, ← at_.count_eq]

theorem Exchange.bound {j : Fin w} {t : Nat} (exchange : state.Exchange j t) :
    t ≤ 5 * (∑ patient : Patient, (state.workers j).taken patient) + 3 := by
  cases exchange with
  | popping at_ | quitting at_ | left at_ | fallen at_ =>
      have enough := at_.taken_le
      omega
  | holding at_ =>
      have busy := at_.taken_busy (.inl rfl)
      omega
  | asked at_ | answering at_ | answered at_ =>
      have busy := at_.taken_busy (.inr rfl)
      omega

theorem Traffic.bound {n t : Nat} (traffic : state.Traffic n t) : t ≤ 15 * n + 3 * w := by
  obtain ⟨steps, exchanges, total⟩ := traffic.exchanges
  have all : ∑ patient : Patient, ∑ j, (state.workers j).taken patient ≤ 3 * n :=
    calc ∑ patient : Patient, ∑ j, (state.workers j).taken patient
        ≤ ∑ _patient : Patient, n := Finset.sum_le_sum fun patient _ => by
          have counted := traffic.requests patient
          omega
      _ = 3 * n := by
          rw [Finset.sum_const, smul_eq_mul]
          rfl
  have swapped : ∑ j, ∑ patient : Patient, (state.workers j).taken patient ≤ 3 * n := by
    rw [Finset.sum_comm]
    exact all
  calc t = ∑ j, steps j := total.symm
    _ ≤ ∑ j, (5 * (∑ patient : Patient, (state.workers j).taken patient) + 3) :=
        Finset.sum_le_sum fun j _ => (exchanges j).bound
    _ = 5 * (∑ j, ∑ patient : Patient, (state.workers j).taken patient) + 3 * w := by
        rw [Finset.sum_add_distrib, ← Finset.mul_sum, Finset.sum_const, Finset.card_univ,
          Fintype.card_fin, smul_eq_mul, Nat.mul_comm w 3]
    _ ≤ 15 * n + 3 * w := by omega

theorem found_channel {channels : List (List Char)}
    (names : channels = (List.range (w + 1)).map nameOf) (j : Fin w) :
    channels[j.val + 1]? = some (channelOf j) := by
  rw [names, List.getElem?_map, List.getElem?_range (Nat.succ_lt_succ j.isLt)]
  rfl

theorem Exchange.enabled {j : Fin w} {t : Nat} (exchange : state.Exchange j t)
    (going : (state.workers j).pc ≠ .ended) (joining : state.clientPc = .joining)
    (client : state.clientChannels[j.val + 1]? = some (channelOf j))
    (server : state.serverChannels[j.val + 1]? = some (channelOf j)) :
    (∃ popped after, state.workerNext j popped = some after) ∨
      ∃ value after, state.handlerNext j value = some after := by
  cases exchange with
  | popping at_ =>
      left
      by_cases none_left : ∀ patient, state.requests patient = 0
      · refine ⟨none, ?_⟩
        simp only [workerNext, client, at_.worker, if_pos (And.intro none_left joining)]
        exact ⟨_, rfl⟩
      · obtain ⟨patient, some_⟩ := Classical.not_forall.mp none_left
        refine ⟨some patient, ?_⟩
        simp only [workerNext, client, at_.worker, if_pos (Nat.pos_of_ne_zero some_)]
        exact ⟨_, rfl⟩
  | @holding _ patient at_ =>
      left
      refine ⟨none, ?_⟩
      simp only [workerNext, client, at_.worker, at_.asked, cwrite_short (key_short patient)]
      exact ⟨_, rfl⟩
  | @asked _ patient at_ =>
      right
      refine ⟨0, ?_⟩
      simp only [handlerNext, server, at_.handler, at_.asked,
        cread_terminated (key_free patient) (key_short patient), if_neg (key_ne_quit patient),
        process_request_key]
      exact ⟨_, rfl⟩
  | @answering _ patient value at_ =>
      right
      refine ⟨0, ?_⟩
      simp only [handlerNext, server, at_.handler, at_.answered,
        cwrite_short (to_string_short value)]
      exact ⟨_, rfl⟩
  | @answered _ patient value at_ =>
      left
      refine ⟨none, ?_⟩
      simp only [workerNext, client, at_.worker, at_.answered,
        cread_terminated (to_string_nulFree value.val) (to_string_short value)]
      exact ⟨_, rfl⟩
  | quitting at_ =>
      left
      have short : "quit".toList.length < MAX_MESSAGE := by decide
      refine ⟨none, ?_⟩
      simp only [workerNext, client, at_.worker, at_.asked, cwrite_short short]
      exact ⟨_, rfl⟩
  | left at_ | fallen at_ => exact absurd at_.worker going

/-! ### Whole sessions -/

/-- Where a session is after `p` steps of the client's `main`, `q` of the server's and `t`
of the other threads. -/
structure Underway (leftover : List Path) (n p q t : Nat) (state : State w) : Prop where
  phase : state.Phase p q
  tidy : state.Tidy leftover p
  traffic : state.Traffic n t

theorem Underway.begin (w n : Nat) (leftover : List Path) :
    (begin w n leftover).Underway leftover n 0 0 0 where
  phase := @Phase.opening w (Session.begin w n leftover) 0 0 0 (Nat.zero_le w)
    ⟨.begin control .client leftover, rfl, rfl⟩
    (.opening ⟨.begin control .server leftover, rfl, rfl, rfl⟩) ⟨rfl, rfl⟩
    (fun _ _ less => absurd less (Nat.not_lt_zero _))
    (fun _ _ less => absurd less (Nat.not_lt_zero _))
  tidy :=
    ⟨fun _ _ => Iff.rfl, fun k _ _ far => absurd far (by omega), fun far => absurd far (by omega)⟩
  traffic := .begin w n leftover

theorem Underway.thread {leftover : List Path} {n p q t : Nat}
    (under : state.Underway leftover n p q t) (defined : state.undefined = false) {j : Fin w}
    (moves : ∀ {s}, state.Exchange j s → state.Moves after j s) :
    after.Underway leftover n p q (t + 1) := by
  obtain ⟨steps, exchanges, _⟩ := under.traffic.exchanges
  have aside := (moves (exchanges j)).beside.aside
  exact ⟨under.phase.aside defined aside, under.tidy.same aside.files,
    under.traffic.thread defined moves⟩

theorem Underway.step (int : (w : Int) ≤ INT_MAX) {leftover : List Path} {n p q t : Nat}
    (under : state.Underway leftover n p q t) {label : Label w}
    (taken : state.next label = some after) :
    ∃ p' q' t', p' + q' + t' = p + q + t + 1 ∧ after.Underway leftover n p' q' t' := by
  obtain ⟨clientPresent, serverPresent⟩ := under.phase.present
  obtain ⟨⟨_, clientNames⟩, _, serverNames⟩ := under.phase.channels
  have defined : state.undefined = false := by
    cases undefined : state.undefined with
    | false => rfl
    | true => simp only [next, undefined, if_true, reduceCtorEq] at taken
  cases label with
  | client =>
      simp only [next, defined, clientPresent, Bool.false_eq_true, if_false] at taken
      exact ⟨p + 1, q, t, by omega, under.phase.clientStep int defined taken,
        under.tidy.clientStep under.phase taken,
        under.traffic.client defined (clientNext_central taken)⟩
  | server value =>
      simp only [next, defined, serverPresent, Bool.false_eq_true, if_false] at taken
      exact ⟨p, q + 1, t, by omega, under.phase.serverStep int defined taken,
        under.tidy.serverStep under.phase taken,
        under.traffic.server defined under.phase taken⟩
  | worker j popped =>
      simp only [next, defined, clientPresent, Bool.false_eq_true, if_false] at taken
      exact ⟨p, q, t + 1, by omega, under.thread defined fun exchange =>
        exchange.worker defined serverPresent (fun _ => name_of_channels clientNames) taken⟩
  | handler j value =>
      simp only [next, defined, serverPresent, Bool.false_eq_true, if_false] at taken
      refine ⟨p, q, t + 1, by omega, under.thread defined fun exchange =>
        exchange.handler defined (fun deleted => ?_) (fun _ => name_of_channels serverNames) taken⟩
      exact under.traffic.joined (ClientPc.joined_of_deleted deleted) j

theorem underway_of_reachable (int : (w : Int) ≤ INT_MAX) {n : Nat} {leftover : List Path}
    (reached : (session w n leftover).Reachable state) :
    ∃ p q t, state.Underway leftover n p q t := by
  apply reached.invariant
  · intro begun start
    subst start
    exact ⟨0, 0, 0, .begin w n leftover⟩
  · intro before label later _ held taken
    obtain ⟨p, q, t, under⟩ := held
    obtain ⟨p', q', t', _, moved⟩ := under.step int taken
    exact ⟨p', q', t', moved⟩

theorem Underway.of_run (int : (w : Int) ≤ INT_MAX) {leftover : List Path} {n p q t : Nat}
    {labels : List (Label w)} (under : state.Underway leftover n p q t)
    (ran : (session w n leftover).run state labels = some after) :
    ∃ p' q' t', p' + q' + t' = p + q + t + labels.length ∧ after.Underway leftover n p' q' t' := by
  induction labels generalizing state p q t with
  | nil =>
      cases ran
      exact ⟨p, q, t, rfl, under⟩
  | cons label rest ih =>
      obtain ⟨middle, taken, remaining⟩ := System.run_cons ran
      obtain ⟨p', q', t', step, moved⟩ := under.step int taken
      obtain ⟨p'', q'', t'', total, last⟩ := ih moved remaining
      exact ⟨p'', q'', t'', by rw [List.length_cons]; omega, last⟩

/-- What the threads of the session have told each other so far: no request is lost or
answered twice, and each reply is one to the request that it is taken for. -/
structure Matched (n : Nat) (state : State w) : Prop where
  requests : ∀ patient, state.requests patient + ∑ j, (state.workers j).taken patient = n
  replies : ∀ j, ∀ reply ∈ (state.handlers j).handled, Reply reply
  answered : ∀ j, (state.handlers j).handled = (state.workers j).answered ∨
    ∃ reply, (state.handlers j).handled = (state.workers j).answered ++ [reply]

theorem Exchange.matched {j : Fin w} {t : Nat} (exchange : state.Exchange j t) :
    (∀ reply ∈ (state.handlers j).handled, Reply reply) ∧
      ((state.handlers j).handled = (state.workers j).answered ∨
        ∃ reply, (state.handlers j).handled = (state.workers j).answered ++ [reply]) := by
  cases exchange with
  | popping at_ | holding at_ | asked at_ | answering at_ | quitting at_ | left at_ | fallen at_ =>
      exact ⟨at_.replies, .inl (at_.handled.trans (List.append_nil _))⟩
  | answered at_ => exact ⟨at_.replies, .inr ⟨_, at_.handled⟩⟩

theorem Traffic.matched {n t : Nat} (traffic : state.Traffic n t) : state.Matched n := by
  obtain ⟨steps, exchanges, _⟩ := traffic.exchanges
  exact ⟨traffic.requests, fun j => (exchanges j).matched.1, fun j => (exchanges j).matched.2⟩

/-- A thread of the server has read "quit": the client has had all its channels, and no
request is left that no worker has popped. -/
structure AtQuit (state : State w) : Prop where
  undefined : state.undefined = true
  requests : ∀ patient, state.requests patient = 0
  channels : state.clientChannels = (List.range (w + 1)).map nameOf
  distinct : state.clientChannels.Nodup

theorem Underway.atQuit {leftover : List Path} {n p q t : Nat}
    (under : state.Underway leftover n p q t) (positive : 1 ≤ w)
    (undefined : state.undefined = true) : state.AtQuit := by
  have ended : ∃ j, (state.workers j).pc = .ended := by
    rcases under.traffic.undefined undefined with joined | ended
    · exact ⟨⟨0, positive⟩, under.traffic.joined joined _⟩
    · exact ended
  obtain ⟨j, ended⟩ := ended
  obtain ⟨nothing, collected⟩ := under.traffic.leaves j (.inr ended)
  have has := under.phase.has collected
  refine ⟨undefined, nothing, has.channels, ?_⟩
  rw [has.channels]
  exact List.Nodup.map nameOf_injective List.nodup_range

theorem Underway.enabled (int : (w : Int) ≤ INT_MAX) {leftover : List Path} {n p q t : Nat}
    (under : state.Underway leftover n p q t) (defined : state.undefined = false) :
    ∃ label after, state.next label = some after := by
  obtain ⟨clientPresent, serverPresent⟩ := under.phase.present
  cases client : state.clientNext with
  | some after =>
      refine ⟨.client, after, ?_⟩
      simp only [next, defined, clientPresent, Bool.false_eq_true, if_false, client]
  | none =>
      cases server : state.serverNext 0 with
      | some after =>
          refine ⟨.server 0, after, ?_⟩
          simp only [next, defined, serverPresent, Bool.false_eq_true, if_false, server]
      | none =>
          obtain ⟨joining, working, clientHas, serverHas⟩ :=
            under.phase.waits int defined client server
          obtain ⟨j, going⟩ := Classical.not_forall.mp working
          obtain ⟨steps, exchanges, _⟩ := under.traffic.exchanges
          rcases (exchanges j).enabled going joining (found_channel clientHas.channels j)
            (found_channel serverHas.channels j) with ⟨popped, after, taken⟩ | ⟨value, after, taken⟩
          · refine ⟨.worker j popped, after, ?_⟩
            simp only [next, defined, clientPresent, Bool.false_eq_true, if_false, taken]
          · refine ⟨.handler j value, after, ?_⟩
            simp only [next, defined, serverPresent, Bool.false_eq_true, if_false, taken]

theorem Underway.files {leftover : List Path} {n p q t : Nat}
    (under : state.Underway leftover n p q t) (finished : state.clientPc = .finished)
    (path : Path) : path ∈ state.files ↔ path ∈ leftover ∧ Foreign w path := by
  have last := under.phase.finished_at finished
  constructor
  · intro member
    have foreign : Foreign w path := by
      intro k bound
      cases k with
      | zero =>
          obtain ⟨first, second⟩ := under.tidy.control (by omega)
          exact ⟨fun same => first (same ▸ member), fun same => second (same ▸ member)⟩
      | succ k =>
          obtain ⟨first, second⟩ := under.tidy.workers (k + 1) (by omega) bound (by omega)
          exact ⟨fun same => first (same ▸ member), fun same => second (same ▸ member)⟩
    exact ⟨(under.tidy.others path foreign).mp member, foreign⟩
  · intro both
    exact (under.tidy.others path both.2).mpr both.1

end State

/-- Whatever FIFOs are left from earlier runs and however all threads of the two processes
interleave, a constructor returns only when its channel is connected and every worker gets
the replies to its own requests, until a thread of the server reads "quit". That comes
within a number of steps that is known in advance. If the client has ended by then, no
FIFO of the session is left. -/
theorem session_until_quit {w n : Nat} (int : (w : Int) ≤ INT_MAX) (positive : 1 ≤ w)
    (leftover : List Path) :
    (∀ state, (session w n leftover).Reachable state → state.Connected ∧ state.Matched n) ∧
    (∀ labels after, (session w n leftover).run (begin w n leftover) labels = some after →
      labels.length ≤ 22 * w + 15 * n + 19) ∧
    (∀ state, (session w n leftover).Reachable state →
      (¬ (session w n leftover).Enabled state ↔ state.undefined = true) ∧
      (state.undefined = true → state.AtQuit)) ∧
    ∀ state, (session w n leftover).Reachable state → state.clientPc = .finished →
      ∀ path, path ∈ state.files ↔ path ∈ leftover ∧ State.Foreign w path := by
  refine ⟨?_, ?_, ?_, ?_⟩
  · intro state reached
    obtain ⟨p, q, t, under⟩ := State.underway_of_reachable int reached
    exact ⟨under.phase.connected, under.traffic.matched⟩
  · intro labels after ran
    obtain ⟨p, q, t, total, last⟩ := (State.Underway.begin w n leftover).of_run int ran
    obtain ⟨client, server⟩ := last.phase.bounds
    have others := last.traffic.bound
    omega
  · intro state reached
    obtain ⟨p, q, t, under⟩ := State.underway_of_reachable int reached
    refine ⟨⟨?_, ?_⟩, under.atQuit positive⟩
    · intro stuck
      cases undefined : state.undefined with
      | true => rfl
      | false => exact absurd (under.enabled int undefined) stuck
    · intro undefined
      rintro ⟨label, after, taken⟩
      simp only [session, State.next, undefined, if_true, reduceCtorEq] at taken
  · intro state reached finished
    obtain ⟨p, q, t, under⟩ := State.underway_of_reachable int reached
    exact under.files finished

def exchangeOf (patient : Patient) (value : Fin 100) : List (State.Label 1) :=
  [.worker 0 (some patient), .worker 0 none, .handler 0 value, .handler 0 value, .worker 0 none]

/-- A session with one worker and a request for each patient, in which a FIFO is left from
an earlier run and the client ends before the worker's "quit" is read. -/
def oneWorker : List (State.Label 1) :=
  [(2, 2), (3, 3), (3, 4), (3, 2), (3, 5), (2, 0)].flatMap (fun turn =>
      List.replicate turn.1 .client ++ List.replicate turn.2 (.server 0)) ++
    exchangeOf .joe 7 ++ exchangeOf .jane 42 ++ exchangeOf .john 99 ++
    [.worker 0 none, .worker 0 none] ++ List.replicate 5 .client ++ [.handler 0 0]

theorem session_until_quit_oneWorker :
    ∃ state, (session 1 1 [firstPath control]).run (begin 1 1 [firstPath control]) oneWorker =
        some state ∧
      (state.workers 0).answered = [("data Joe Smith".toList, "7".toList),
        ("data Jane Smith".toList, "42".toList), ("data John Smith".toList, "99".toList)] ∧
      state.Connected ∧ state.Matched 1 ∧ state.AtQuit ∧
      ¬ (session 1 1 [firstPath control]).Enabled state ∧ oneWorker.length ≤ 56 ∧
      state.clientPc = .finished ∧
      ∀ path, path ∈ state.files ↔ path ∈ [firstPath control] ∧ State.Foreign 1 path := by
  have ran : ((session 1 1 [firstPath control]).run (begin 1 1 [firstPath control]) oneWorker).map
      (fun state => (state.undefined, state.clientPc, (state.workers 0).answered)) =
        some (true, .finished, [("data Joe Smith".toList, "7".toList),
          ("data Jane Smith".toList, "42".toList), ("data John Smith".toList, "99".toList)]) := by
    decide +kernel
  obtain ⟨state, run, last⟩ := Option.map_eq_some_iff.mp ran
  obtain ⟨undefined, rest⟩ := Prod.mk.inj last
  obtain ⟨finished, answered⟩ := Prod.mk.inj rest
  have reached : (session 1 1 [firstPath control]).Reachable state :=
    (System.Reachable.begin rfl).of_run run
  obtain ⟨always, bounded, ends, files⟩ :=
    @session_until_quit 1 1 (by decide) (by decide) [firstPath control]
  obtain ⟨connected, matched⟩ := always state reached
  obtain ⟨stops, atQuit⟩ := ends state reached
  exact ⟨state, run, answered, connected, matched, atQuit undefined, stops.mpr undefined,
    bounded oneWorker state run, finished, files state reached finished⟩

end Netwurk.DataServer.Session
