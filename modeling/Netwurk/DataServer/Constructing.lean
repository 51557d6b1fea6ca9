/-
The main threads of the client and of the server in a session. Each channel is
constructed by both in nine steps, the request for the next one included. Where the two
are is one invariant, from which follow what they wait for, that no channel is lost, and
what becomes of the FIFOs.
-/

import Netwurk.DataServer.Session

namespace Netwurk.DataServer.Session

open Transition CString RequestChannel

/-! ### Where the processes are -/

namespace State

variable {w : Nat} {state after : State w}

structure ClientOpening (state : State w) (k c : Nat) : Prop where
  at_ : state.client.At (nameOf k) .client (earlier .client k) state.files c
  pc : state.clientPc = .opening (nameOf k)
  channels : state.clientChannels = (List.range k).map nameOf

structure ClientHas (state : State w) (k : Nat) : Prop where
  ends : state.client.ends = earlier .client k
  present : state.client.gone = false
  channels : state.clientChannels = (List.range k).map nameOf

structure ServerOpening (state : State w) (k s : Nat) : Prop where
  at_ : state.server.At (nameOf k) .server (earlier .server k) state.files s
  pc : state.serverPc = .opening (nameOf k)
  channels : state.serverChannels = (List.range k).map nameOf
  nchannels : state.nchannels = k

structure ServerHas (state : State w) (k : Nat) : Prop where
  ends : state.server.ends = earlier .server k
  present : state.server.gone = false
  channels : state.serverChannels = (List.range k).map nameOf

inductive ServerAt (state : State w) (k : Nat) : Nat → Prop
  | opening {s : Nat} : state.ServerOpening k s → ServerAt state k s
  | receiving : state.ServerHas (k + 1) → state.nchannels = k → state.serverPc = .receiving →
      ServerAt state k 7

structure Unread (state : State w) (asked answered : List Char) : Prop where
  server : state.content (toServer control) = asked
  client : state.content (toClient control) = answered

/-- Each construction takes nine steps, the request for the next included. The numbers
are the steps that client and server have taken. -/
inductive Phase (state : State w) : Nat → Nat → Prop
  | opening {k c s : Nat} (bound : k ≤ w) (client : state.ClientOpening k c)
      (server : state.ServerAt k s) (unread : state.Unread [] [])
      (clientMet : ∀ count, Waiting count → count < c → count ≤ s)
      (serverMet : ∀ count, Waiting count → count < s → count ≤ c) :
      Phase state (9 * k + c) (9 * k + s)
  | requesting {k s : Nat} (bound : k < w) (client : state.ClientHas (k + 1))
      (pc : state.clientPc = .requesting) (server : state.ServerAt k s) (late : 5 ≤ s)
      (unread : state.Unread [] []) : Phase state (9 * k + 7) (9 * k + s)
  | requested {k s : Nat} (bound : k < w) (client : state.ClientHas (k + 1))
      (pc : state.clientPc = .reading) (server : state.ServerAt k s) (late : 5 ≤ s)
      (unread : state.Unread (terminated "newchannel".toList) []) :
      Phase state (9 * k + 8) (9 * k + s)
  | naming {k : Nat} (bound : k < w) (client : state.ClientHas (k + 1))
      (pc : state.clientPc = .reading) (server : state.ServerHas (k + 1))
      (nchannels : state.nchannels = k + 1) (serverPc : state.serverPc = .naming (nameOf (k + 1)))
      (unread : state.Unread [] []) : Phase state (9 * k + 8) (9 * k + 8)
  | named {k s : Nat} (bound : k < w) (client : state.ClientHas (k + 1))
      (pc : state.clientPc = .reading) (server : state.ServerOpening (k + 1) s) (early : s ≤ 2)
      (unread : state.Unread [] (terminated (nameOf (k + 1)))) :
      Phase state (9 * k + 8) (9 * (k + 1) + s)
  | joining {s : Nat} (client : state.ClientHas (w + 1)) (pc : state.clientPc = .joining)
      (server : state.ServerAt w s) (late : 5 ≤ s) (unread : state.Unread [] []) :
      Phase state (9 * w + 7) (9 * w + s)
  | deleting {i s : Nat} (bound : i ≤ w) (client : state.ClientHas (w + 1))
      (pc : state.clientPc = .deleting i) (server : state.ServerAt w s) (late : 5 ≤ s)
      (unread : state.Unread [] []) : Phase state (9 * w + 8 + i) (9 * w + s)
  | quitting {s : Nat} (client : state.ClientHas (w + 1)) (pc : state.clientPc = .quitting)
      (server : state.ServerAt w s) (late : 5 ≤ s) (unread : state.Unread [] []) :
      Phase state (10 * w + 9) (9 * w + s)
  | quit {finished : Bool} {s : Nat} (client : state.ClientHas (w + 1))
      (pc : state.clientPc = if finished then .finished else .leaving)
      (server : state.ServerAt w s) (late : 5 ≤ s)
      (unread : state.Unread (terminated "quit".toList) []) :
      Phase state (10 * w + 10 + finished.toNat) (9 * w + s)
  | left {finished : Bool} (client : state.ClientHas (w + 1))
      (pc : state.clientPc = if finished then .finished else .leaving)
      (server : state.ServerHas (w + 1)) (serverPc : state.serverPc = .receiving)
      (undefined : state.undefined = true) (unread : state.Unread [] []) :
      Phase state (10 * w + 10 + finished.toNat) (9 * w + 8)

structure ServerMoves (state after : State w) : Prop where
  client : after.client = state.client
  clientPc : after.clientPc = state.clientPc
  clientChannels : after.clientChannels = state.clientChannels
  kept : ∀ path ∈ state.files, path ∈ after.files

theorem ServerMoves.clientOpening (moves : state.ServerMoves after) {k c : Nat}
    (client : state.ClientOpening k c) : after.ClientOpening k c where
  at_ := by
    rw [moves.client]
    exact client.at_.mono moves.kept
  pc := moves.clientPc.trans client.pc
  channels := moves.clientChannels.trans client.channels

theorem ServerMoves.clientHas (moves : state.ServerMoves after) {k : Nat}
    (client : state.ClientHas k) : after.ClientHas k where
  ends := by rw [moves.client]; exact client.ends
  present := by rw [moves.client]; exact client.present
  channels := moves.clientChannels.trans client.channels

theorem ServerOpening.step {k s : Nat} (server : state.ServerOpening k s) {value : Fin 100}
    (taken : state.serverNext value = some after) :
    after.ServerAt k (s + 1) ∧ state.ServerMoves after ∧ after.content = state.content ∧
      (s ≠ 6 → ServerOpening after k (s + 1)) ∧
      (Waiting s → ((modeAt .server s).opposite, pathAt (nameOf k) s) ∈ state.client.ends) := by
  simp only [serverNext, server.pc] at taken
  by_cases last : s = 6
  · subst last
    have calls : state.server.opening.calls = [] := by
      rw [server.at_.opening]
      exact (Opening.after_calls (Nat.le_refl 6)).mpr rfl
    rw [if_pos calls, Option.some.injEq] at taken
    subst taken
    refine ⟨.receiving ⟨?_, server.at_.present, ?_⟩ server.nchannels rfl,
      ⟨rfl, rfl, rfl, fun _ member => member⟩, rfl, fun absent => absurd rfl absent, ?_⟩
    · rw [server.at_.ends, earlier_succ]
    · change state.serverChannels ++ [nameOf k] = _
      rw [server.channels, List.range_succ, List.map_append]
      rfl
    · intro waits
      unfold Waiting at waits
      omega
  · have calls : ¬ state.server.opening.calls = [] := by
      rw [server.at_.opening, Opening.after_calls server.at_.within]
      exact last
    rw [if_neg calls] at taken
    cases moved : state.server.next state.files state.client.ends with
    | none => simp only [moved, reduceCtorEq] at taken
    | some result =>
        obtain ⟨files, process⟩ := result
        simp only [moved, Option.some.injEq] at taken
        subst taken
        obtain ⟨met, later, kept, _⟩ := server.at_.step moved
        have opening : ServerOpening
            { state with
              files := files
              server := process
              serverPc := .opening (nameOf k) } k (s + 1) :=
          ⟨later, rfl, server.channels, server.nchannels⟩
        exact ⟨.opening opening, ⟨rfl, rfl, rfl, kept⟩, rfl, fun _ => opening, met⟩

theorem serverNext_blocks (pc : state.serverPc = .receiving)
    (unread : state.content (toServer control) = []) (open_ : state.clientPc ≠ .finished)
    (value : Fin 100) : state.serverNext value = none := by
  simp [serverNext, pc, unread, cread, open_]

theorem ServerAt.ends {k s : Nat} (server : state.ServerAt k s) {count : Nat}
    (waits : Waiting count) (far : count ≤ s) :
    ((modeAt .client count).opposite, pathAt (nameOf k) count) ∈ state.server.ends := by
  have differ : Side.client ≠ Side.server := Side.noConfusion
  cases server with
  | opening server =>
      rw [server.at_.ends]
      exact (opposite_opening waits).mpr ⟨differ, .inr ⟨rfl, far⟩⟩
  | receiving server =>
      rw [server.ends]
      exact (opposite_earlier waits).mpr ⟨differ, Nat.lt_succ_self k⟩

theorem ServerAt.far_of_ends {k s : Nat} (server : state.ServerAt k s) {count : Nat}
    (waits : Waiting count)
    (met : ((modeAt .client count).opposite, pathAt (nameOf k) count) ∈ state.server.ends) :
    count ≤ s := by
  cases server with
  | opening server =>
      rw [server.at_.ends] at met
      rcases ((opposite_opening waits).mp met).2 with before | here
      · exact absurd before (Nat.lt_irrefl k)
      · exact here.2
  | receiving _ =>
      unfold Waiting at waits
      omega

theorem ServerAt.le_seven {k s : Nat} (server : state.ServerAt k s) : s ≤ 7 := by
  cases server with
  | opening server => exact Nat.le_succ_of_le server.at_.within
  | receiving => exact Nat.le_refl 7

/-- A server that has told its last end goes on by itself until it waits for a request. -/
theorem ServerAt.step {k s : Nat} (server : state.ServerAt k s)
    (unread : state.content (toServer control) = []) (open_ : state.clientPc ≠ .finished)
    {value : Fin 100} (taken : state.serverNext value = some after) :
    after.ServerAt k (s + 1) ∧ state.ServerMoves after ∧ after.content = state.content ∧
      (Waiting s → ((modeAt .server s).opposite, pathAt (nameOf k) s) ∈ state.client.ends) := by
  cases server with
  | opening server =>
      obtain ⟨later, moves, content, _, met⟩ := server.step taken
      exact ⟨later, moves, content, met⟩
  | receiving _ _ pc =>
      rw [serverNext_blocks pc unread open_] at taken
      cases taken

theorem Unread.of_content {first second : List Char} (unread : state.Unread first second)
    (same : after.content = state.content) : after.Unread first second where
  server := by rw [same]; exact unread.server
  client := by rw [same]; exact unread.client

theorem Unread.toServer {first second bytes : List Char} (unread : state.Unread first second)
    (changed : after.content = Function.update state.content (Session.toServer control) bytes) :
    after.Unread bytes second where
  server := by rw [changed, Function.update_self]
  client := by
    rw [changed, Function.update_of_ne (toClient_ne control control)]
    exact unread.client

theorem Unread.toClient {first second bytes : List Char} (unread : state.Unread first second)
    (changed : after.content = Function.update state.content (Session.toClient control) bytes) :
    after.Unread first bytes where
  server := by
    rw [changed, Function.update_of_ne (toClient_ne control control).symm]
    exact unread.server
  client := by rw [changed, Function.update_self]

theorem Phase.serverStep (int : (w : Int) ≤ INT_MAX) {p q : Nat} (phase : state.Phase p q)
    (defined : state.undefined = false) {value : Fin 100}
    (taken : state.serverNext value = some after) : after.Phase p (q + 1) := by
  cases phase with
  | @opening k c s bound client server unread clientMet serverMet =>
      have open_ : state.clientPc ≠ .finished := by rw [client.pc]; exact ClientPc.noConfusion
      obtain ⟨later, moves, content, met⟩ := server.step unread.server open_ taken
      refine .opening bound (moves.clientOpening client) later (unread.of_content content) ?_ ?_
      · intro count waits less
        exact Nat.le_succ_of_le (clientMet count waits less)
      · intro count waits less
        by_cases now : count = s
        · subst now
          have opened := met waits
          rw [client.at_.ends] at opened
          rcases ((opposite_opening waits).mp opened).2 with before | here
          · exact absurd before (Nat.lt_irrefl k)
          · exact here.2
        · exact serverMet count waits (by omega)
  | requesting bound client pc server late unread =>
      have open_ : state.clientPc ≠ .finished := by rw [pc]; exact ClientPc.noConfusion
      obtain ⟨later, moves, content, _⟩ := server.step unread.server open_ taken
      exact .requesting bound (moves.clientHas client) (moves.clientPc.trans pc) later (by omega)
        (unread.of_content content)
  | @requested k s bound client pc server late unread =>
      cases server with
      | opening server =>
          obtain ⟨later, moves, content, _⟩ := server.step taken
          exact .requested bound (moves.clientHas client) (moves.clientPc.trans pc) later (by omega)
            (unread.of_content content)
      | receiving server nchannels serverPc =>
          have room : (k : Int) < INT_MAX := by omega
          have asked : process_request "newchannel".toList value = .newchannel := rfl
          have other : "newchannel".toList ≠ "quit".toList := by decide
          simp only [serverNext, serverPc, unread.server,
            cread_terminated (by decide : NulFree "newchannel".toList) (by decide), if_neg other,
            asked, nchannels, if_pos room, Option.some.injEq] at taken
          subst taken
          exact .naming bound ⟨client.ends, client.present, client.channels⟩ pc
            ⟨server.ends, server.present, server.channels⟩ rfl rfl
            (unread.toServer rfl)
  | @naming k bound client pc server nchannels serverPc unread =>
      have short : (nameOf (k + 1)).length < MAX_MESSAGE := nameOf_short (by omega)
      simp only [serverNext, serverPc, unread.client, cwrite_short short,
        Option.some.injEq] at taken
      subst taken
      have position : 9 * k + 8 + 1 = 9 * (k + 1) + 0 := by omega
      rw [position]
      refine .named bound ⟨client.ends, client.present, client.channels⟩ pc
        ⟨⟨rfl, ?_, server.present, Nat.zero_le 6, fun opens => absurd opens (by decide)⟩, rfl,
          server.channels, nchannels⟩ (by decide)
        (unread.toClient rfl)
      exact server.ends.trans (List.append_nil _).symm
  | @named k s bound client pc server early unread =>
      obtain ⟨_, moves, content, opening, met⟩ := server.step taken
      have told : s ≠ 2 := by
        intro waits
        have opened := met (.inl waits)
        rw [client.ends] at opened
        exact absurd ((opposite_earlier (.inl waits)).mp opened).2 (Nat.lt_irrefl _)
      exact .named bound (moves.clientHas client) (moves.clientPc.trans pc) (opening (by omega))
        (by omega) (unread.of_content content)
  | joining client pc server late unread =>
      have open_ : state.clientPc ≠ .finished := by rw [pc]; exact ClientPc.noConfusion
      obtain ⟨later, moves, content, _⟩ := server.step unread.server open_ taken
      exact .joining (moves.clientHas client) (moves.clientPc.trans pc) later (by omega)
        (unread.of_content content)
  | deleting bound client pc server late unread =>
      have open_ : state.clientPc ≠ .finished := by rw [pc]; exact ClientPc.noConfusion
      obtain ⟨later, moves, content, _⟩ := server.step unread.server open_ taken
      exact .deleting bound (moves.clientHas client) (moves.clientPc.trans pc) later (by omega)
        (unread.of_content content)
  | quitting client pc server late unread =>
      have open_ : state.clientPc ≠ .finished := by rw [pc]; exact ClientPc.noConfusion
      obtain ⟨later, moves, content, _⟩ := server.step unread.server open_ taken
      exact .quitting (moves.clientHas client) (moves.clientPc.trans pc) later (by omega)
        (unread.of_content content)
  | @quit finished s client pc server late unread =>
      cases server with
      | opening server =>
          obtain ⟨later, moves, content, _⟩ := server.step taken
          exact .quit (moves.clientHas client) (moves.clientPc.trans pc) later (by omega)
            (unread.of_content content)
      | receiving server _ serverPc =>
          simp only [serverNext, serverPc, unread.server,
            cread_terminated (by decide : NulFree "quit".toList) (by decide), if_true,
            Option.some.injEq] at taken
          subst taken
          exact .left ⟨client.ends, client.present, client.channels⟩ pc
            ⟨server.ends, server.present, server.channels⟩ rfl rfl (unread.toServer rfl)
  | left _ _ _ _ undefined =>
      rw [defined] at undefined
      cases undefined

structure ClientMoves (state after : State w) : Prop where
  server : after.server = state.server
  serverPc : after.serverPc = state.serverPc
  serverChannels : after.serverChannels = state.serverChannels
  nchannels : after.nchannels = state.nchannels

theorem ClientMoves.serverHas (moves : state.ClientMoves after) {k : Nat}
    (server : state.ServerHas k) : after.ServerHas k where
  ends := by rw [moves.server]; exact server.ends
  present := by rw [moves.server]; exact server.present
  channels := moves.serverChannels.trans server.channels

/-- A constructor that has made its FIFOs does not mind when they are removed. -/
theorem ClientMoves.serverAt (moves : state.ClientMoves after) {k s : Nat}
    (server : state.ServerAt k s)
    (files : (∀ path ∈ state.files, path ∈ after.files) ∨ 5 ≤ s) : after.ServerAt k s := by
  cases server with
  | opening server =>
      refine .opening ⟨?_, moves.serverPc.trans server.pc,
        moves.serverChannels.trans server.channels, moves.nchannels.trans server.nchannels⟩
      rw [moves.server]
      rcases files with kept | late
      · exact server.at_.mono kept
      · exact server.at_.elsewhere late _
  | receiving server nchannels pc =>
      exact .receiving (moves.serverHas server) (moves.nchannels.trans nchannels)
        (moves.serverPc.trans pc)

theorem ServerAt.keep {k s : Nat} (server : state.ServerAt k s) (late : 5 ≤ s)
    (same : after.server = state.server) (pc : after.serverPc = state.serverPc)
    (channels : after.serverChannels = state.serverChannels)
    (nchannels : after.nchannels = state.nchannels) : after.ServerAt k s :=
  ClientMoves.serverAt ⟨same, pc, channels, nchannels⟩ server (.inr late)

theorem ClientOpening.step {k c : Nat} (client : state.ClientOpening k c)
    (taken : state.clientNext = some after) :
    state.ClientMoves after ∧ after.content = state.content ∧
      (∀ path ∈ state.files, path ∈ after.files) ∧
      (c ≠ 6 → after.ClientOpening k (c + 1) ∧
        (Waiting c → ((modeAt .client c).opposite, pathAt (nameOf k) c) ∈ state.server.ends)) ∧
      (c = 6 → after.ClientHas (k + 1) ∧
        after.clientPc = if k < w then .requesting else .joining) := by
  simp only [clientNext, client.pc] at taken
  by_cases last : c = 6
  · subst last
    have calls : state.client.opening.calls = [] := by
      rw [client.at_.opening]
      exact (Opening.after_calls (Nat.le_refl 6)).mpr rfl
    have number : state.clientChannels.length = k := by
      rw [client.channels, List.length_map, List.length_range]
    rw [if_pos calls, number, Option.some.injEq] at taken
    subst taken
    refine ⟨⟨rfl, rfl, rfl, rfl⟩, rfl, fun _ member => member, fun absent => absurd rfl absent,
      fun _ => ⟨⟨?_, client.at_.present, ?_⟩, rfl⟩⟩
    · rw [client.at_.ends, earlier_succ]
    · change state.clientChannels ++ [nameOf k] = _
      rw [client.channels, List.range_succ, List.map_append]
      rfl
  · have calls : ¬ state.client.opening.calls = [] := by
      rw [client.at_.opening, Opening.after_calls client.at_.within]
      exact last
    rw [if_neg calls] at taken
    cases moved : state.client.next state.files state.server.ends with
    | none => simp only [moved, reduceCtorEq] at taken
    | some result =>
        obtain ⟨files, process⟩ := result
        simp only [moved, Option.some.injEq] at taken
        subst taken
        obtain ⟨met, later, kept, _⟩ := client.at_.step moved
        exact ⟨⟨rfl, rfl, rfl, rfl⟩, rfl, kept, fun _ => ⟨⟨later, rfl, client.channels⟩, met⟩,
          fun now => absurd now last⟩

theorem ServerAt.present {k s : Nat} (server : state.ServerAt k s) :
    state.server.gone = false := by
  cases server with
  | opening server => exact server.at_.present
  | receiving server => exact server.present

theorem clientNext_blocks (pc : state.clientPc = .reading)
    (unread : state.content (toClient control) = []) (present : state.server.gone = false) :
    state.clientNext = none := by
  simp [clientNext, pc, unread, cread, present]

theorem Phase.clientStep (int : (w : Int) ≤ INT_MAX) {p q : Nat} (phase : state.Phase p q)
    (defined : state.undefined = false) (taken : state.clientNext = some after) :
    after.Phase (p + 1) q := by
  cases phase with
  | @opening k c s bound client server unread clientMet serverMet =>
      obtain ⟨moves, content, kept, going, returned⟩ := client.step taken
      have serverLater := moves.serverAt server (.inl kept)
      have unreadLater := unread.of_content content
      by_cases last : c = 6
      · subst last
        obtain ⟨has, pc⟩ := returned rfl
        have late : 5 ≤ s := clientMet 5 (.inr rfl) (by decide)
        by_cases more : k < w
        · rw [if_pos more] at pc
          exact .requesting more has pc serverLater late unreadLater
        · rw [if_neg more] at pc
          have whole : k = w := by omega
          subst whole
          exact .joining has pc serverLater late unreadLater
      · obtain ⟨opening, met⟩ := going last
        refine .opening bound opening serverLater unreadLater ?_ ?_
        · intro count waits less
          by_cases now : count = c
          · subst now
            exact server.far_of_ends waits (met waits)
          · exact clientMet count waits (by omega)
        · intro count waits less
          exact Nat.le_succ_of_le (serverMet count waits less)
  | requesting bound client pc server late unread =>
      simp only [clientNext, pc, unread.server,
        cwrite_short (by decide : "newchannel".toList.length < MAX_MESSAGE),
        Option.some.injEq] at taken
      subst taken
      exact .requested bound ⟨client.ends, client.present, client.channels⟩ rfl
        (server.keep late rfl rfl rfl rfl) late (unread.toServer rfl)
  | requested bound client pc server late unread =>
      rw [clientNext_blocks pc unread.client server.present] at taken
      cases taken
  | naming bound client pc server nchannels serverPc unread =>
      rw [clientNext_blocks pc unread.client server.present] at taken
      cases taken
  | @named k s bound client pc server early unread =>
      have short : (nameOf (k + 1)).length < MAX_MESSAGE := nameOf_short (by omega)
      simp only [clientNext, pc, unread.client, cread_terminated (nameOf_free (k + 1)) short,
        Option.some.injEq] at taken
      subst taken
      have position : 9 * k + 8 + 1 = 9 * (k + 1) + 0 := by omega
      rw [position]
      refine .opening bound ⟨⟨rfl, ?_, client.present, Nat.zero_le 6,
          fun opens => absurd opens (by decide)⟩, rfl, client.channels⟩
        (.opening ⟨server.at_, server.pc, server.channels, server.nchannels⟩)
        (unread.toClient rfl) (fun _ _ less => absurd less (Nat.not_lt_zero _)) ?_
      · exact client.ends.trans (List.append_nil _).symm
      · intro count waits less
        unfold Waiting at waits
        omega
  | joining client pc server late unread =>
      simp only [clientNext, pc, Option.ite_none_right_eq_some, Option.some.injEq] at taken
      obtain ⟨_, rfl⟩ := taken
      exact .deleting (Nat.zero_le w) ⟨client.ends, client.present, client.channels⟩ rfl
        (server.keep late rfl rfl rfl rfl) late
        ⟨unread.server, unread.client⟩
  | @deleting i s bound client pc server late unread =>
      by_cases more : i < w
      · have found : state.clientChannels[i + 1]? = some (nameOf (i + 1)) := by
          rw [client.channels, List.getElem?_map, List.getElem?_range (by omega : i + 1 < w + 1)]
          rfl
        simp only [clientNext, pc, found, Option.some.injEq] at taken
        subst taken
        exact .deleting more ⟨client.ends, client.present, client.channels⟩ rfl
          (server.keep late rfl rfl rfl rfl) late
          ⟨unread.server, unread.client⟩
      · have none_left : state.clientChannels[i + 1]? = none := by
          rw [client.channels]
          exact List.getElem?_eq_none (by rw [List.length_map, List.length_range]; omega)
        have position : 9 * w + 8 + i + 1 = 10 * w + 9 := by omega
        simp only [clientNext, pc, none_left, Option.some.injEq] at taken
        subst taken
        rw [position]
        exact .quitting ⟨client.ends, client.present, client.channels⟩ rfl
          (server.keep late rfl rfl rfl rfl) late
          ⟨unread.server, unread.client⟩
  | quitting client pc server late unread =>
      simp only [clientNext, pc, unread.server,
        cwrite_short (by decide : "quit".toList.length < MAX_MESSAGE), Option.some.injEq] at taken
      subst taken
      exact @Phase.quit _ _ false _ ⟨client.ends, client.present, client.channels⟩ rfl
        (server.keep late rfl rfl rfl rfl) late (unread.toServer rfl)
  | @quit finished s client pc server late unread =>
      cases finished with
      | true => simp [clientNext, pc] at taken
      | false =>
          simp only [clientNext, pc, Bool.false_eq_true, if_false, Option.some.injEq] at taken
          subst taken
          exact @Phase.quit _ _ true _ ⟨client.ends, client.present, client.channels⟩ rfl
            (server.keep late rfl rfl rfl rfl) late
            ⟨unread.server, unread.client⟩
  | left _ _ _ _ undefined =>
      rw [defined] at undefined
      cases undefined

/-! ### Somebody can go on -/

theorem ClientOpening.enabled {k c : Nat} (client : state.ClientOpening k c)
    (meets : Waiting c → ((modeAt .client c).opposite, pathAt (nameOf k) c) ∈ state.server.ends) :
    ∃ after, state.clientNext = some after := by
  by_cases last : c = 6
  · have calls : state.client.opening.calls = [] := by
      rw [client.at_.opening, Opening.after_calls client.at_.within]
      exact last
    simp only [clientNext, client.pc, if_pos calls]
    exact ⟨_, rfl⟩
  · have calls : ¬ state.client.opening.calls = [] := by
      rw [client.at_.opening, Opening.after_calls client.at_.within]
      exact last
    have within := client.at_.within
    obtain ⟨files, process, moved⟩ := client.at_.enabled (by omega) meets
    simp only [clientNext, client.pc, if_neg calls, moved]
    exact ⟨_, rfl⟩

theorem ServerOpening.enabled {k s : Nat} (server : state.ServerOpening k s)
    (meets : Waiting s → ((modeAt .server s).opposite, pathAt (nameOf k) s) ∈ state.client.ends)
    (value : Fin 100) : ∃ after, state.serverNext value = some after := by
  by_cases last : s = 6
  · have calls : state.server.opening.calls = [] := by
      rw [server.at_.opening, Opening.after_calls server.at_.within]
      exact last
    simp only [serverNext, server.pc, if_pos calls]
    exact ⟨_, rfl⟩
  · have calls : ¬ state.server.opening.calls = [] := by
      rw [server.at_.opening, Opening.after_calls server.at_.within]
      exact last
    have within := server.at_.within
    obtain ⟨files, process, moved⟩ := server.at_.enabled (by omega) meets
    simp only [serverNext, server.pc, if_neg calls, moved]
    exact ⟨_, rfl⟩

theorem ServerAt.enabled {k s : Nat} (server : state.ServerAt k s)
    (client : state.ClientHas (k + 1)) {value : Fin 100}
    (receives : state.serverPc = .receiving → state.nchannels = k →
      ∃ after, state.serverNext value = some after) :
    ∃ after, state.serverNext value = some after := by
  cases server with
  | opening server =>
      apply server.enabled
      intro waits
      rw [client.ends]
      exact (opposite_earlier waits).mpr ⟨Side.noConfusion, Nat.lt_succ_self k⟩
  | receiving _ nchannels pc => exact receives pc nchannels

theorem receives_newchannel (pc : state.serverPc = .receiving)
    (unread : state.content (toServer control) = terminated "newchannel".toList)
    (room : (state.nchannels : Int) < INT_MAX) (value : Fin 100) :
    ∃ after, state.serverNext value = some after := by
  have asked : process_request "newchannel".toList value = .newchannel := rfl
  have other : "newchannel".toList ≠ "quit".toList := by decide
  simp only [serverNext, pc, unread,
    cread_terminated (by decide : NulFree "newchannel".toList) (by decide), if_neg other, asked,
    if_pos room]
  exact ⟨_, rfl⟩

theorem receives_quit (pc : state.serverPc = .receiving)
    (unread : state.content (toServer control) = terminated "quit".toList) (value : Fin 100) :
    ∃ after, state.serverNext value = some after := by
  simp only [serverNext, pc, unread,
    cread_terminated (by decide : NulFree "quit".toList) (by decide), if_true]
  exact ⟨_, rfl⟩

theorem Phase.present {p q : Nat} (phase : state.Phase p q) :
    state.client.gone = false ∧ state.server.gone = false := by
  cases phase with
  | opening _ client server => exact ⟨client.at_.present, server.present⟩
  | requesting _ client _ server | requested _ client _ server | joining client _ server
  | deleting _ client _ server | quitting client _ server | quit client _ server =>
      exact ⟨client.present, server.present⟩
  | naming _ client _ server | left client _ server => exact ⟨client.present, server.present⟩
  | named _ client _ server => exact ⟨client.present, server.at_.present⟩

theorem Phase.waits (int : (w : Int) ≤ INT_MAX) {p q : Nat} (phase : state.Phase p q)
    (defined : state.undefined = false) (clientStops : state.clientNext = none) {value : Fin 100}
    (serverStops : state.serverNext value = none) :
    state.clientPc = .joining ∧ (¬ ∀ j, (state.workers j).pc = .ended) ∧
      state.ClientHas (w + 1) ∧ state.ServerHas (w + 1) := by
  have noClient : ¬ ∃ after, state.clientNext = some after := by
    simp [clientStops]
  have noServer : ¬ ∃ after, state.serverNext value = some after := by
    simp [serverStops]
  cases phase with
  | @opening k c s bound client server unread clientMet serverMet =>
      exfalso
      have behind : Waiting c ∧ s < c := by
        apply Classical.byContradiction
        intro goes
        exact noClient (client.enabled fun waits =>
          server.ends waits (Nat.le_of_not_lt fun less => goes ⟨waits, less⟩))
      obtain ⟨waits, less⟩ := behind
      cases server with
      | opening server =>
          refine noServer (server.enabled (fun serverWaits => ?_) value)
          rw [client.at_.ends]
          exact (opposite_opening serverWaits).mpr
            ⟨Side.noConfusion, .inr ⟨rfl, Nat.le_of_lt less⟩⟩
      | receiving =>
          unfold Waiting at waits
          omega
  | requesting bound client pc server late unread =>
      exfalso
      refine noClient ?_
      simp only [clientNext, pc, unread.server,
        cwrite_short (by decide : "newchannel".toList.length < MAX_MESSAGE)]
      exact ⟨_, rfl⟩
  | requested bound client pc server late unread =>
      exfalso
      exact noServer (server.enabled client fun serverPc nchannels =>
        receives_newchannel serverPc unread.server (by omega) value)
  | @naming k bound client pc server nchannels serverPc unread =>
      exfalso
      have short : (nameOf (k + 1)).length < MAX_MESSAGE := nameOf_short (by omega)
      refine noServer ?_
      simp only [serverNext, serverPc, unread.client, cwrite_short short]
      exact ⟨_, rfl⟩
  | @named k s bound client pc server early unread =>
      exfalso
      have short : (nameOf (k + 1)).length < MAX_MESSAGE := nameOf_short (by omega)
      refine noClient ?_
      simp only [clientNext, pc, unread.client, cread_terminated (nameOf_free (k + 1)) short]
      exact ⟨_, rfl⟩
  | joining client pc server late unread =>
      refine ⟨pc, ?_, client, ?_⟩
      · intro ended
        apply noClient
        simp only [clientNext, pc, if_pos ended]
        exact ⟨_, rfl⟩
      · cases server with
        | opening server =>
            exfalso
            refine noServer (server.enabled (fun serverWaits => ?_) value)
            rw [client.ends]
            exact (opposite_earlier serverWaits).mpr ⟨Side.noConfusion, Nat.lt_succ_self w⟩
        | receiving server => exact server
  | @deleting i s bound client pc server late unread =>
      exfalso
      cases found : state.clientChannels[i + 1]? with
      | some name =>
          refine noClient ?_
          simp only [clientNext, pc, found]
          exact ⟨_, rfl⟩
      | none =>
          refine noClient ?_
          simp only [clientNext, pc, found]
          exact ⟨_, rfl⟩
  | quitting client pc server late unread =>
      exfalso
      refine noClient ?_
      simp only [clientNext, pc, unread.server,
        cwrite_short (by decide : "quit".toList.length < MAX_MESSAGE)]
      exact ⟨_, rfl⟩
  | quit client pc server late unread =>
      exfalso
      exact noServer (server.enabled client fun serverPc _ =>
        receives_quit serverPc unread.server value)
  | left _ _ _ _ undefined =>
      rw [defined] at undefined
      cases undefined

structure Aside (state after : State w) : Prop extends
    state.ServerMoves after, state.ClientMoves after where
  files : after.files = state.files
  control : after.content (toServer control) = state.content (toServer control) ∧
    after.content (toClient control) = state.content (toClient control)

theorem Aside.unread (aside : state.Aside after) {asked answered : List Char}
    (unread : state.Unread asked answered) : after.Unread asked answered where
  server := aside.control.1.trans unread.server
  client := aside.control.2.trans unread.client

theorem Aside.serverOpening (aside : state.Aside after) {k s : Nat}
    (server : state.ServerOpening k s) : after.ServerOpening k s where
  at_ := by
    rw [aside.server]
    exact server.at_.mono aside.kept
  pc := aside.serverPc.trans server.pc
  channels := aside.serverChannels.trans server.channels
  nchannels := aside.nchannels.trans server.nchannels

theorem Phase.aside {p q : Nat} (phase : state.Phase p q) (defined : state.undefined = false)
    (aside : state.Aside after) : after.Phase p q := by
  have serverAt : ∀ {k s}, state.ServerAt k s → after.ServerAt k s :=
    fun server => aside.toClientMoves.serverAt server (.inl aside.kept)
  cases phase with
  | opening bound client server unread clientMet serverMet =>
      exact .opening bound (aside.clientOpening client) (serverAt server) (aside.unread unread)
        clientMet serverMet
  | requesting bound client pc server late unread =>
      exact .requesting bound (aside.clientHas client) (aside.clientPc.trans pc) (serverAt server)
        late (aside.unread unread)
  | requested bound client pc server late unread =>
      exact .requested bound (aside.clientHas client) (aside.clientPc.trans pc) (serverAt server)
        late (aside.unread unread)
  | naming bound client pc server nchannels serverPc unread =>
      exact .naming bound (aside.clientHas client) (aside.clientPc.trans pc)
        (aside.serverHas server) (aside.nchannels.trans nchannels) (aside.serverPc.trans serverPc)
        (aside.unread unread)
  | named bound client pc server early unread =>
      exact .named bound (aside.clientHas client) (aside.clientPc.trans pc)
        (aside.serverOpening server) early (aside.unread unread)
  | joining client pc server late unread =>
      exact .joining (aside.clientHas client) (aside.clientPc.trans pc) (serverAt server) late
        (aside.unread unread)
  | deleting bound client pc server late unread =>
      exact .deleting bound (aside.clientHas client) (aside.clientPc.trans pc) (serverAt server)
        late (aside.unread unread)
  | quitting client pc server late unread =>
      exact .quitting (aside.clientHas client) (aside.clientPc.trans pc) (serverAt server) late
        (aside.unread unread)
  | quit client pc server late unread =>
      exact .quit (aside.clientHas client) (aside.clientPc.trans pc) (serverAt server) late
        (aside.unread unread)
  | left _ _ _ _ undefined =>
      rw [defined] at undefined
      cases undefined

/-! ### What becomes of the FIFOs -/

theorem mem_removed {files : List Path} {name : List Char} {side : Side} {path : Path} :
    path ∈ removed files name side ↔
      path ∈ files ∧ path ≠ firstPath name ∧ path ≠ secondPath name := by
  simp only [removed, List.mem_filter, decide_eq_true_eq]
  cases side with
  | client => rfl
  | server => exact and_congr_right fun _ => and_comm

theorem serverNext_files {value : Fin 100} (taken : state.serverNext value = some after) :
    after.files = state.files ∨
      (∃ name process, state.serverPc = .opening name ∧
        state.server.next state.files state.client.ends = some (after.files, process)) := by
  unfold serverNext at taken
  split at taken
  · split at taken
    · cases taken
      exact .inl rfl
    · rename_i pc _
      split at taken
      · rename_i moved
        cases taken
        exact .inr ⟨_, _, pc, moved⟩
      · cases taken
  · split at taken
    · split at taken
      · cases taken
        exact .inl rfl
      · split at taken
        · cases taken
          exact .inl rfl
        · split at taken <;> cases taken
          exact .inl rfl
    · cases taken
      exact .inl rfl
    · cases taken
    · cases taken
  · split at taken <;> cases taken <;> exact .inl rfl
  · split at taken <;> cases taken <;> exact .inl rfl

theorem clientNext_files (taken : state.clientNext = some after) :
    after.files = state.files ∨
      (∃ name process, state.clientPc = .opening name ∧
        state.client.next state.files state.server.ends = some (after.files, process)) ∨
      (∃ i name, state.clientPc = .deleting i ∧ state.clientChannels[i + 1]? = some name ∧
        after.files = removed state.files name .client) ∨
      (state.clientPc = .leaving ∧ after.files = removed state.files control .client) := by
  unfold clientNext at taken
  split at taken
  · split at taken
    · cases taken
      exact .inl rfl
    · rename_i pc _
      split at taken
      · rename_i moved
        cases taken
        exact .inr (.inl ⟨_, _, pc, moved⟩)
      · cases taken
  · split at taken <;> cases taken <;> exact .inl rfl
  · split at taken <;> cases taken <;> exact .inl rfl
  · split at taken <;> cases taken
    exact .inl rfl
  · rename_i i pc
    split at taken
    · rename_i name found
      cases taken
      exact .inr (.inr (.inl ⟨i, name, pc, found, rfl⟩))
    · cases taken
      exact .inl rfl
  · split at taken <;> cases taken <;> exact .inl rfl
  · rename_i pc
    cases taken
    exact .inr (.inr (.inr ⟨pc, rfl⟩))
  · cases taken

def Foreign (w : Nat) (path : Path) : Prop :=
  ∀ k ≤ w, path ≠ firstPath (nameOf k) ∧ path ≠ secondPath (nameOf k)

/-- The FIFOs of the other names are left alone, and those of the session are gone by
the time the client has deleted their channels. -/
structure Tidy (leftover : List Path) (p : Nat) (state : State w) : Prop where
  others : ∀ path, Foreign w path → (path ∈ state.files ↔ path ∈ leftover)
  workers : ∀ k, 1 ≤ k → k ≤ w → 9 * w + 8 + k ≤ p →
    firstPath (nameOf k) ∉ state.files ∧ secondPath (nameOf k) ∉ state.files
  control : 10 * w + 11 ≤ p → firstPath control ∉ state.files ∧ secondPath control ∉ state.files

theorem Phase.serverOpening {p q : Nat} (phase : state.Phase p q) {name : List Char}
    (pc : state.serverPc = .opening name) :
    ∃ k s, k ≤ w ∧ state.ServerOpening k s ∧ (9 * w + 8 ≤ p → 5 ≤ s) := by
  have opened : ∀ {k s}, state.ServerAt k s → state.ServerOpening k s := by
    intro k s server
    cases server with
    | opening server => exact server
    | receiving _ _ at_ =>
        rw [at_] at pc
        cases pc
  cases phase with
  | @opening k c s bound client server =>
      have within := client.at_.within
      exact ⟨k, s, bound, opened server, fun _ => by omega⟩
  | @requesting k s bound _ _ server late | @requested k s bound _ _ server late =>
      exact ⟨k, s, Nat.le_of_lt bound, opened server, fun _ => late⟩
  | naming _ _ _ _ _ at_ =>
      rw [at_] at pc
      cases pc
  | @named k s bound _ _ server early =>
      exact ⟨k + 1, s, bound, server, fun _ => by omega⟩
  | @joining s _ _ server late | @quitting s _ _ server late | @deleting _ s _ _ _ server late
  | @quit _ s _ _ server late =>
      exact ⟨w, s, Nat.le_refl w, opened server, fun _ => late⟩
  | left _ _ _ at_ =>
      rw [at_] at pc
      cases pc

theorem Phase.deleting_at {p q i : Nat} (phase : state.Phase p q) (at_ : p = 9 * w + 8 + i)
    (more : i < w) :
    state.clientPc = .deleting i ∧ state.clientChannels = (List.range (w + 1)).map nameOf := by
  cases phase with
  | opening _ client =>
      have within := client.at_.within
      omega
  | @deleting j _ _ client pc =>
      have same : j = i := by omega
      subst same
      exact ⟨pc, client.channels⟩
  | requesting | requested | naming | named | joining | quitting | quit | left => omega

theorem Phase.leaving_at {p q : Nat} (phase : state.Phase p q) (at_ : p = 10 * w + 10) :
    state.clientPc = .leaving := by
  cases phase with
  | opening _ client =>
      have within := client.at_.within
      omega
  | requesting | requested | naming | named | joining | deleting | quitting => omega
  | @quit finished _ _ pc | @left finished _ pc =>
      cases finished with
      | false => exact pc
      | true =>
          simp only [Bool.toNat_true] at at_
          omega

theorem Phase.finished_at {p q : Nat} (phase : state.Phase p q)
    (pc : state.clientPc = .finished) : p = 10 * w + 11 := by
  cases phase with
  | opening _ client =>
      rw [client.pc] at pc
      cases pc
  | requesting _ _ at_ | requested _ _ at_ | naming _ _ at_ | named _ _ at_ | joining _ at_
  | deleting _ _ at_ | quitting _ at_ =>
      rw [at_] at pc
      cases pc
  | @quit finished _ _ at_ | @left finished _ at_ =>
      rw [at_] at pc
      cases finished with
      | false => cases pc
      | true => rfl

theorem Phase.clientOpening {p q : Nat} (phase : state.Phase p q) {name : List Char}
    (pc : state.clientPc = .opening name) :
    ∃ k c, k ≤ w ∧ state.ClientOpening k c ∧ p ≤ 9 * w + 6 := by
  cases phase with
  | @opening k c s bound client server =>
      have within := client.at_.within
      exact ⟨k, c, bound, client, by omega⟩
  | requesting _ _ at_ | requested _ _ at_ | naming _ _ at_ | named _ _ at_ | joining _ at_
  | deleting _ _ at_ | quitting _ at_ =>
      rw [at_] at pc
      cases pc
  | @quit finished _ _ at_ | @left finished _ at_ =>
      rw [at_] at pc
      cases finished <;> cases pc

theorem Tidy.remove {leftover : List Path} {p k : Nat} {side : Side}
    (tidy : state.Tidy leftover p) (bound : k ≤ w)
    (files : after.files = removed state.files (nameOf k) side) : after.Tidy leftover p where
  others := by
    intro path foreign
    rw [files, mem_removed, and_iff_left (foreign k bound)]
    exact tidy.others path foreign
  workers := by
    intro j positive small far
    obtain ⟨first, second⟩ := tidy.workers j positive small far
    rw [files, mem_removed, mem_removed]
    exact ⟨fun member => first member.1, fun member => second member.1⟩
  control := by
    intro far
    obtain ⟨first, second⟩ := tidy.control far
    rw [files, mem_removed, mem_removed]
    exact ⟨fun member => first member.1, fun member => second member.1⟩

theorem Tidy.same {leftover : List Path} {p : Nat} (tidy : state.Tidy leftover p)
    (files : after.files = state.files) : after.Tidy leftover p where
  others := by rw [files]; exact tidy.others
  workers := by rw [files]; exact tidy.workers
  control := by rw [files]; exact tidy.control

theorem Tidy.make {leftover : List Path} {p k count : Nat} {side : Side} {earlier : List End}
    {process later : Process} {peer : List End} (tidy : state.Tidy leftover p) (bound : k ≤ w)
    (at_ : process.At (nameOf k) side earlier state.files count)
    (moved : process.next state.files peer = some (after.files, later))
    (early : 9 * w + 8 ≤ p → 5 ≤ count) : after.Tidy leftover p := by
  obtain ⟨_, _, kept, only⟩ := at_.step moved
  have within := at_.within
  have same : 9 * w + 8 ≤ p → after.files = state.files := by
    intro far
    have five := early far
    by_cases last : count = 6
    · subst last
      rw [at_.next_of_returned] at moved
      cases moved
    · exact at_.step_files moved (by omega) (by omega)
  refine ⟨?_, ?_, ?_⟩
  · intro path foreign
    rw [← tidy.others path foreign]
    constructor
    · intro member
      rcases only path member with old | first | second
      · exact old
      · exact absurd first (foreign k bound).1
      · exact absurd second (foreign k bound).2
    · exact kept path
  · intro j positive small far
    rw [same (by omega)]
    exact tidy.workers j positive small far
  · intro far
    rw [same (by omega)]
    exact tidy.control far

theorem Tidy.serverStep {leftover : List Path} {p q : Nat} (tidy : state.Tidy leftover p)
    (phase : state.Phase p q) {value : Fin 100} (taken : state.serverNext value = some after) :
    after.Tidy leftover p := by
  rcases serverNext_files taken with same | ⟨name, process, pc, moved⟩
  · exact tidy.same same
  · obtain ⟨k, s, bound, server, late⟩ := phase.serverOpening pc
    exact tidy.make bound server.at_ moved late

theorem Tidy.advance {leftover : List Path} {p : Nat} (tidy : state.Tidy leftover p)
    (worker : ∀ k, k ≤ w → p + 1 = 9 * w + 8 + k → 1 ≤ k →
      firstPath (nameOf k) ∉ state.files ∧ secondPath (nameOf k) ∉ state.files)
    (last : p + 1 = 10 * w + 11 → firstPath DataServer.control ∉ state.files ∧
      secondPath DataServer.control ∉ state.files) : state.Tidy leftover (p + 1) where
  others := tidy.others
  workers := by
    intro k positive small far
    by_cases now : p + 1 = 9 * w + 8 + k
    · exact worker k small now positive
    · exact tidy.workers k positive small (by omega)
  control := by
    intro far
    by_cases now : p + 1 = 10 * w + 11
    · exact last now
    · exact tidy.control (by omega)

theorem Phase.channel_bound {p q i : Nat} (phase : state.Phase p q)
    (pc : state.clientPc = .deleting i) {name : List Char}
    (found : state.clientChannels[i + 1]? = some name) : ∃ k ≤ w, name = nameOf k := by
  cases phase with
  | opening _ client =>
      rw [client.pc] at pc
      cases pc
  | requesting _ _ at_ | requested _ _ at_ | naming _ _ at_ | named _ _ at_ | joining _ at_
  | quitting _ at_ =>
      rw [at_] at pc
      cases pc
  | deleting _ client _ =>
      rw [client.channels, List.getElem?_map, Option.map_eq_some_iff] at found
      obtain ⟨k, inside, rfl⟩ := found
      have member := List.mem_range.mp (List.mem_of_getElem? inside)
      exact ⟨k, by omega, rfl⟩
  | @quit finished _ _ at_ | @left finished _ at_ =>
      rw [at_] at pc
      cases finished <;> cases pc

theorem Tidy.clientStep {leftover : List Path} {p q : Nat} (tidy : state.Tidy leftover p)
    (phase : state.Phase p q) (taken : state.clientNext = some after) :
    after.Tidy leftover (p + 1) := by
  have before : after.Tidy leftover p := by
    rcases clientNext_files taken with same | ⟨name, process, pc, moved⟩ |
      ⟨i, name, pc, found, gone⟩ | ⟨_, gone⟩
    · exact tidy.same same
    · obtain ⟨k, c, bound, client, early⟩ := phase.clientOpening pc
      exact tidy.make bound client.at_ moved fun far => by omega
    · obtain ⟨k, bound, rfl⟩ := phase.channel_bound pc found
      exact tidy.remove bound gone
    · exact @Tidy.remove w state after leftover p 0 .client tidy (Nat.zero_le w) gone
  apply before.advance
  · intro k small now positive
    obtain ⟨i, rfl⟩ : ∃ i, k = i + 1 := ⟨k - 1, by omega⟩
    obtain ⟨pc, channels⟩ := @Phase.deleting_at _ _ _ _ i phase (by omega) small
    have found : state.clientChannels[i + 1]? = some (nameOf (i + 1)) := by
      rw [channels, List.getElem?_map, List.getElem?_range (by omega : i + 1 < w + 1)]
      rfl
    simp only [clientNext, pc, found, Option.some.injEq] at taken
    subst taken
    simp only [mem_removed, ne_eq, not_true_eq_false, false_and, and_false, not_false_eq_true,
      and_self]
  · intro now
    have pc := phase.leaving_at (by omega)
    simp only [clientNext, pc, Option.some.injEq] at taken
    subst taken
    simp only [mem_removed, ne_eq, not_true_eq_false, false_and, and_false, not_false_eq_true,
      and_self]

/-- Nobody is gone, and a constructor has returned only when the other process has opened
the same FIFOs at their other ends. -/
structure Connected (state : State w) : Prop where
  present : state.client.gone = false ∧ state.server.gone = false
  client : ∀ name ∈ state.clientChannels, ∀ opened ∈ known name .client 6,
    (opened.1.opposite, opened.2) ∈ state.server.ends
  server : ∀ name ∈ state.serverChannels, ∀ opened ∈ known name .server 6,
    (opened.1.opposite, opened.2) ∈ state.client.ends

theorem client_ne_server : Side.client ≠ Side.server := Side.noConfusion

theorem opposite_mem_earlier {k : Nat} {side other : Side} (differ : side ≠ other)
    {ends : List End} (has : ∀ opened ∈ earlier other k, opened ∈ ends)
    {channels : List (List Char)}
    (names : channels = (List.range k).map nameOf) :
    ∀ name ∈ channels, ∀ opened ∈ known name side 6, (opened.1.opposite, opened.2) ∈ ends := by
  intro name member opened told
  rw [names] at member
  obtain ⟨i, inside, rfl⟩ := List.mem_map.mp member
  apply has
  refine List.mem_flatMap.mpr ⟨i, inside, ?_⟩
  obtain ⟨mode, path⟩ := opened
  have opposite := firstMode_opposite.mpr differ
  rw [mem_known] at told ⊢
  rcases told with ⟨far, rfl, rfl⟩ | ⟨far, rfl, rfl⟩
  · exact .inl ⟨by decide, opposite, rfl⟩
  · exact .inr ⟨by decide, congrArg Mode.opposite opposite, rfl⟩

theorem ServerAt.has {k s : Nat} (server : state.ServerAt k s) :
    (∀ opened ∈ earlier .server k, opened ∈ state.server.ends) ∧
      (5 ≤ s → ∀ opened ∈ earlier .server (k + 1), opened ∈ state.server.ends) := by
  cases server with
  | opening server =>
      rw [server.at_.ends]
      refine ⟨fun opened member => List.mem_append_left _ member, fun late opened member => ?_⟩
      rw [earlier_succ] at member
      have whole : known (nameOf k) .server s = known (nameOf k) .server 6 := by
        simp [known, late, (by omega : 2 ≤ s)]
      rw [whole]
      exact member
  | receiving server _ _ =>
      rw [server.ends]
      refine ⟨fun opened member => ?_, fun _ opened member => member⟩
      rw [earlier_succ]
      exact List.mem_append_left _ member

theorem ServerAt.served {k s : Nat} (server : state.ServerAt k s)
    (own : ∀ opened ∈ earlier .client k, opened ∈ state.client.ends)
    (last : s = 7 → ∀ opened ∈ earlier .client (k + 1), opened ∈ state.client.ends) :
    ∀ name ∈ state.serverChannels, ∀ opened ∈ known name .server 6,
      (opened.1.opposite, opened.2) ∈ state.client.ends := by
  cases server with
  | opening server => exact opposite_mem_earlier client_ne_server.symm own server.channels
  | receiving server => exact opposite_mem_earlier client_ne_server.symm (last rfl) server.channels

theorem ClientHas.connected {k s : Nat} (client : state.ClientHas (k + 1))
    (server : state.ServerAt k s) (late : 5 ≤ s) (present : state.server.gone = false) :
    state.Connected where
  present := ⟨client.present, present⟩
  client := opposite_mem_earlier client_ne_server (server.has.2 late) client.channels
  server := by
    have own : ∀ opened ∈ earlier .client (k + 1), opened ∈ state.client.ends := by
      rw [client.ends]
      exact fun _ member => member
    refine server.served (fun opened member => own opened ?_) fun _ => own
    rw [earlier_succ]
    exact List.mem_append_left _ member

theorem ClientHas.connected_of_server {k : Nat} (client : state.ClientHas k)
    (ends : ∀ opened ∈ earlier .server k, opened ∈ state.server.ends)
    (channels : state.serverChannels = (List.range k).map nameOf)
    (present : state.server.gone = false) : state.Connected where
  present := ⟨client.present, present⟩
  client := opposite_mem_earlier client_ne_server ends client.channels
  server := by
    refine opposite_mem_earlier client_ne_server.symm ?_ channels
    rw [client.ends]
    exact fun _ member => member

theorem Phase.connected {p q : Nat} (phase : state.Phase p q) : state.Connected := by
  have present := phase.present
  cases phase with
  | @opening k c s bound client server unread clientMet serverMet =>
      have own : ∀ opened ∈ earlier .client k, opened ∈ state.client.ends := by
        rw [client.at_.ends]
        exact fun _ member => List.mem_append_left _ member
      refine ⟨present, opposite_mem_earlier client_ne_server server.has.1 client.channels,
        server.served own ?_⟩
      intro waits opened member
      have late : 5 ≤ c := serverMet 5 (.inr rfl) (by omega)
      have whole : known (nameOf k) .client c = known (nameOf k) .client 6 := by
        simp [known, late, (by omega : 2 ≤ c)]
      rw [client.at_.ends, whole, ← earlier_succ]
      exact member
  | requesting _ client _ server late | requested _ client _ server late
  | joining client _ server late | deleting _ client _ server late
  | quitting client _ server late | quit client _ server late =>
      exact client.connected server late present.2
  | naming _ client _ server =>
      refine client.connected_of_server ?_ server.channels present.2
      rw [server.ends]
      exact fun _ member => member
  | named _ client _ server =>
      refine client.connected_of_server ?_ server.channels present.2
      rw [server.at_.ends]
      exact fun _ member => List.mem_append_left _ member
  | left client _ server =>
      refine client.connected_of_server ?_ server.channels present.2
      rw [server.ends]
      exact fun _ member => member

end State

end Netwurk.DataServer.Session
