/-
The options of the client. What `getopt` reports is read one option after the other;
the last of a kind counts, and whatever is given the request buffer has room for
three requests, so each of the three stat buffers has room for a response.
-/

import Netwurk.Client.Outcome

namespace Netwurk.Client

open Transition RequestChannel

/-- The conversion is undefined when the number is no `int`. -/
def atoi (str : String) : Option Int :=
  let (negative, text) := signed (str.toList.dropWhile isspace)
  let magnitude : Int := Nat.ofDigitChars 10 (text.takeWhile Char.isDigit) 0
  let value := if negative then -magnitude else magnitude
  if INT_MIN ≤ value ∧ value ≤ INT_MAX then some value else none

structure Settings where
  n : Int
  w : Int
  b : Int
  h : String
  p : String
  run_local : Bool
deriving DecidableEq

/-- `b` is `3 * n` for the `n` it is initialised after. -/
def defaults : Settings :=
  { n := 100
    w := 1
    b := 3 * 100
    h := "127.0.0.1"
    p := "8080"
    run_local := true }

/-- An option as `getopt` reports it, with its `optarg`; `?` is one that it does not know. -/
abbrev Given := Char × String

def lcl_hst1 : String := "localhost"

def lcl_hst2 : String := "127.0.0.1"

def Settings.option (settings : Settings) (given : Given) : Option Settings :=
  let (opt, optarg) := given
  if opt = 'n' then (atoi optarg).map fun n => { settings with n := n }
  else if opt = 'w' then (atoi optarg).map fun w => { settings with w := w }
  else if opt = 'b' then
    (atoi optarg).map fun b => { settings with b := if b < 3 then 3 else b }
  else if opt = 'i' then some settings
  else if opt = 'h' then
    if optarg = lcl_hst1 ∨ optarg = lcl_hst2 then
      some { settings with
        h := "127.0.0.1"
        run_local := true }
    else
      some { settings with
        h := optarg
        run_local := false }
  else if opt = 'p' then some { settings with p := optarg }
  else some settings

def parse (options : List Given) : Option Settings := options.foldlM Settings.option defaults

/-! ### What one option does -/

inductive Settings.Read (settings : Settings) : Given → Settings → Prop
  | requests {optarg : String} {n : Int} (converted : atoi optarg = some n) :
      Read settings ('n', optarg) { settings with n := n }
  | workers {optarg : String} {w : Int} (converted : atoi optarg = some w) :
      Read settings ('w', optarg) { settings with w := w }
  | buffer {optarg : String} {b : Int} (converted : atoi optarg = some b) :
      Read settings ('b', optarg) { settings with b := if b < 3 then 3 else b }
  | ownHost {optarg : String} (here : optarg = lcl_hst1 ∨ optarg = lcl_hst2) :
      Read settings ('h', optarg) { settings with
        h := "127.0.0.1"
        run_local := true }
  | otherHost {optarg : String} (elsewhere : ¬ (optarg = lcl_hst1 ∨ optarg = lcl_hst2)) :
      Read settings ('h', optarg) { settings with
        h := optarg
        run_local := false }
  | port {optarg : String} : Read settings ('p', optarg) { settings with p := optarg }
  | ignored {opt : Char} {optarg : String} (other : opt ∉ ['n', 'w', 'b', 'h', 'p']) :
      Read settings (opt, optarg) settings

theorem Settings.read_of_option {settings after : Settings} {given : Given}
    (taken : settings.option given = some after) : settings.Read given after := by
  obtain ⟨opt, optarg⟩ := given
  unfold option at taken
  by_cases requests : opt = 'n'
  · subst requests
    obtain ⟨n, converted, rfl⟩ := Option.map_eq_some_iff.mp taken
    exact .requests converted
  by_cases workers : opt = 'w'
  · subst workers
    obtain ⟨w, converted, rfl⟩ := Option.map_eq_some_iff.mp taken
    exact .workers converted
  by_cases buffer : opt = 'b'
  · subst buffer
    obtain ⟨b, converted, rfl⟩ := Option.map_eq_some_iff.mp taken
    exact .buffer converted
  simp only [if_neg requests, if_neg workers, if_neg buffer] at taken
  by_cases channel : opt = 'i'
  · rw [if_pos channel] at taken
    cases taken
    exact .ignored (by rw [channel]; decide)
  rw [if_neg channel] at taken
  by_cases host : opt = 'h'
  · subst host
    rw [if_pos rfl] at taken
    split at taken <;> cases taken
    · exact .ownHost ‹_›
    · exact .otherHost ‹_›
  rw [if_neg host] at taken
  by_cases port : opt = 'p'
  · subst port
    rw [if_pos rfl] at taken
    cases taken
    exact .port
  · rw [if_neg port] at taken
    cases taken
    exact .ignored (by simp [requests, workers, buffer, host, port])

def lastOf (letter : Char) : List Given → Option String
  | [] => none
  | (opt, optarg) :: rest =>
      match lastOf letter rest with
      | some later => some later
      | none => if opt = letter then some optarg else none

theorem foldlM_field {Value : Type} {field : Settings → Value} {letter : Char}
    {effect : String → Option Value}
    (changes : ∀ settings opt optarg after, Settings.Read settings (opt, optarg) after →
      some (field after) = if opt = letter then effect optarg else some (field settings))
    {options : List Given} {settings final : Settings}
    (parsed : options.foldlM Settings.option settings = some final) :
    some (field final) = (lastOf letter options).elim (some (field settings)) effect := by
  induction options generalizing settings with
  | nil =>
      cases parsed
      rfl
  | cons given rest ih =>
      obtain ⟨opt, optarg⟩ := given
      rw [List.foldlM_cons] at parsed
      obtain ⟨middle, first, remaining⟩ := Option.bind_eq_some_iff.mp parsed
      have later := ih remaining
      have now := changes settings opt optarg middle (Settings.read_of_option first)
      rw [lastOf]
      cases last : lastOf letter rest with
      | some text =>
          rw [last] at later
          exact later
      | none =>
          rw [last] at later
          by_cases same : opt = letter
          · rw [if_pos same] at now ⊢
            exact later.trans now
          · rw [if_neg same] at now ⊢
            exact later.trans now

theorem foldlM_invariant {holds : Settings → Prop}
    (preserved : ∀ settings given after, holds settings → Settings.Read settings given after →
      holds after)
    {options : List Given} {settings final : Settings} (initially : holds settings)
    (parsed : options.foldlM Settings.option settings = some final) : holds final := by
  induction options generalizing settings with
  | nil =>
      cases parsed
      exact initially
  | cons given rest ih =>
      rw [List.foldlM_cons] at parsed
      obtain ⟨middle, first, remaining⟩ := Option.bind_eq_some_iff.mp parsed
      exact ih (preserved settings given middle initially (Settings.read_of_option first)) remaining

namespace Settings

/-- The buffers have room, and the client starts a server exactly when it is the one at
the local address that it will ask. -/
structure Sound (settings : Settings) : Prop where
  buffers : 3 ≤ settings.b
  asksOwn : settings.run_local = true ↔ settings.h = "127.0.0.1"

private theorem sound_read (settings : Settings) (given : Given) (after : Settings)
    (sound : settings.Sound) (read : settings.Read given after) : after.Sound := by
  cases read with
  | requests | workers | port | ignored => exact ⟨sound.buffers, sound.asksOwn⟩
  | buffer =>
      refine ⟨?_, sound.asksOwn⟩
      dsimp only
      split <;> omega
  | ownHost => exact ⟨sound.buffers, iff_of_true rfl rfl⟩
  | otherHost elsewhere =>
      exact ⟨sound.buffers, iff_of_false Bool.noConfusion fun same => elsewhere (.inr same)⟩

structure Decided (settings : Settings) (options : List Given) : Prop where
  n : some settings.n = (lastOf 'n' options).elim (some 100) atoi
  w : some settings.w = (lastOf 'w' options).elim (some 1) atoi
  b : some settings.b = (lastOf 'b' options).elim (some 300) fun optarg => (atoi optarg).map (max 3)
  h : some settings.h = (lastOf 'h' options).elim (some "127.0.0.1") fun optarg =>
    some (if optarg = lcl_hst1 then "127.0.0.1" else optarg)
  p : some settings.p = (lastOf 'p' options).elim (some "8080") some

theorem sound_of_parse {options : List Given} {settings : Settings}
    (parsed : parse options = some settings) : settings.Sound :=
  foldlM_invariant sound_read ⟨by decide, by decide⟩ parsed

theorem decided_of_parse {options : List Given} {settings : Settings}
    (parsed : parse options = some settings) : settings.Decided options where
  n := by
    refine foldlM_field ?_ parsed
    intro settings opt optarg after read
    cases read with
    | requests converted => exact converted.symm
    | ignored other => exact (if_neg fun same => other (by rw [same]; decide)).symm
    | _ => rfl
  w := by
    refine foldlM_field ?_ parsed
    intro settings opt optarg after read
    cases read with
    | workers converted => exact converted.symm
    | ignored other => exact (if_neg fun same => other (by rw [same]; decide)).symm
    | _ => rfl
  b := by
    refine foldlM_field ?_ parsed
    intro settings opt optarg after read
    cases read with
    | @buffer _ b converted =>
        have larger : (if b < 3 then 3 else b) = max 3 b := by split <;> omega
        rw [if_pos rfl, converted, Option.map_some, ← larger]
    | ignored other => exact (if_neg fun same => other (by rw [same]; decide)).symm
    | _ => rfl
  h := by
    refine foldlM_field ?_ parsed
    intro settings opt optarg after read
    cases read with
    | ownHost here =>
        rw [if_pos rfl]
        rcases here with rfl | rfl <;> rfl
    | otherHost elsewhere =>
        rw [if_pos rfl, if_neg fun same => elsewhere (.inl same)]
    | ignored other => exact (if_neg fun same => other (by rw [same]; decide)).symm
    | _ => rfl
  p := by
    refine foldlM_field ?_ parsed
    intro settings opt optarg after read
    cases read with
    | port => rfl
    | ignored other => exact (if_neg fun same => other (by rw [same]; decide)).symm
    | _ => rfl

/-- What main starts its threads with. A loop up to a negative `n` makes no request; the
array of a negative number of workers is not defined. -/
def config (settings : Settings) (failing : Option Nat) : Option Config :=
  if settings.w < 0 then none
  else some
    { n := settings.n.toNat
      w := settings.w.toNat
      b := settings.b.toNat
      answers := serverReplies
      failing := failing }

theorem Sound.config_buffers {settings : Settings} (sound : settings.Sound)
    {failing : Option Nat} {config : Config} (started : settings.config failing = some config) :
    3 ≤ config.b ∧ config.answers = serverReplies := by
  unfold Settings.config at started
  split at started <;> cases started
  have room := sound.buffers
  refine ⟨?_, rfl⟩
  dsimp only
  omega

end Settings

/-- Whatever the command line, each field comes from the last option with its letter, the
client asks the server it has started or another one, and every run of the client that is
started with these settings comes to one of its ends. -/
theorem command_line_outcome {options : List Given} {settings : Settings}
    (parsed : parse options = some settings) :
    settings.Decided options ∧ settings.Sound ∧
      ∀ failing config, settings.config failing = some config → config.FailsWithin →
        ∀ state, (client config).Reachable state →
          (∃ after, (client config).Path state after ∧ ¬ (client config).Enabled after ∧
            after.Outcome) ∧
          ∀ states : Nat → State config, ¬ ∀ time, ∃ label,
            (client config).next (states time) label = some (states (time + 1)) := by
  have sound := Settings.sound_of_parse parsed
  refine ⟨Settings.decided_of_parse parsed, sound, ?_⟩
  intro failing config started within state reached
  obtain ⟨buffers, server⟩ := sound.config_buffers started
  have decreases : ∀ state label after, (client config).next state label = some after →
      after.measure < state.measure :=
    fun _ _ _ taken => (State.next_step taken).measure_less
  constructor
  · obtain ⟨after, path, ended⟩ := System.exists_end State.measure decreases state
    exact ⟨after, path, ended, State.outcome_of_blocked within buffers
      (by rw [server]; exact fun _ => serverReplies_iff.mp) (by rw [server]; exact exists_serverReply)
      (reached.of_path path) ended⟩
  · exact System.no_infinite_run State.measure decreases

theorem command_line_outcome_small :
    ∃ settings config, parse [('b', "1"), ('w', "4"), ('h', "localhost"), ('w', " +2x")] =
        some settings ∧
      settings.config none = some config ∧ config.w = 2 ∧ config.b = 3 ∧
      ∃ after, (client config).Path (initial config fun _ => []) after ∧ after.Outcome := by
  have parsed : parse [('b', "1"), ('w', "4"), ('h', "localhost"), ('w', " +2x")] =
      some { defaults with
        w := 2
        b := 3 } := by
    decide
  have within : ∀ k, (none : Option Nat) = some k → k < 2 := fun _ impossible => by cases impossible
  obtain ⟨_, _, outcome⟩ := command_line_outcome parsed
  obtain ⟨after, path, _, ends⟩ :=
    (outcome none _ rfl within (initial _ fun _ => []) (.begin ⟨_, rfl⟩)).1
  exact ⟨_, _, parsed, rfl, rfl, rfl, after, path, ends⟩

end Netwurk.Client
