import Mathlib.Data.List.Induction
import FastoNoSQL.Redis.Config
import FastoNoSQL.Runs
import FastoNoSQL.Types

set_option autoImplicit false

/-!
# Latency statistics

`LatencyMode` of `core/redis/db_connection.cpp`: its accumulators, and the result
objects whose texts it replaces while samples arrive.
-/

namespace FastoNoSQL.Redis.Latency

open Bytes

/-- `min`, `max`, `tot` and `count`. -/
structure Window where
  min : UInt64 := 0
  max : UInt64 := 0
  tot : UInt64 := 0
  count : UInt64 := 0
deriving DecidableEq

def Window.add (window : Window) (latency : UInt64) : Window :=
  let count := window.count + 1
  if count = 1 then ⟨latency, latency, latency, count⟩
  else
    { min := if latency < window.min then latency else window.min
      max := if latency > window.max then latency else window.max
      tot := window.tot + latency
      count }

/-- The text of a result object; `average` prints the quotient of a total and a count with two decimals. -/
def Window.text (average : UInt64 → UInt64 → Text) (window : Window) : Text :=
  ascii "min: " ++ natText window.min.toNat ++ ascii ", max: " ++ natText window.max.toNat ++ ascii ", avg: " ++
    average window.tot window.count ++ ascii " (" ++ natText window.count.toNat ++ ascii " samples)"

structure Sample where
  latency : UInt64
  curTime : Int64
deriving Inhabited

-- `LATENCY_HISTORY_DEFAULT_INTERVAL` without an interval of the configuration.
def historyInterval (config : Config) : UInt64 := if config.interval ≠ 0 then config.interval / 1000 else 15000

-- The difference is converted to an unsigned number for the comparison.
def closes (config : Config) (historyStart curTime : Int64) : Bool :=
  config.latencyHistory ≠ 0 && (curTime - historyStart).toUInt64 > historyInterval config

/-- The accumulators, what each result object was made from, the last one being `child`, and the start of
the window. -/
structure State (A : Type) where
  accumulated : A
  lines : List A
  historyStart : Int64

section Loop

variable {A S : Type} (curTime : S → Int64) (empty : A) (add : A → S → A) (config : Config)

/-- What the loop does once a sample was measured, whatever it accumulates. -/
def step (state : State A) (sample : S) : State A :=
  let accumulated := add state.accumulated sample
  if state.lines.isEmpty then { state with accumulated, lines := [accumulated] }
  else if closes config state.historyStart (curTime sample) then
    ⟨empty, state.lines ++ [accumulated], curTime sample⟩
  else { state with accumulated, lines := state.lines.dropLast ++ [accumulated] }

end Loop

def sampleStep (config : Config) : State Window → Sample → State Window :=
  step Sample.curTime {} (fun window sample => window.add sample.latency) config

/-- A round of the loop: the time before the command and, with a reply, the time after it. -/
structure Round where
  start : Int64
  reply : Option Int64

/-- The loop of `LatencyMode`; after the last round it is interrupted. -/
def loop (config : Config) (state : State Window) : List Round → ErrorValue × State Window
  | [] => (makeErrorValue "Interrupted.", state)
  | round :: rounds =>
    match round.reply with
    | none => (makeErrorValue "I/O error", state)
    | some curTime => loop config (sampleStep config state ⟨(curTime - round.start).toUInt64, curTime⟩) rounds

/-- `LatencyMode` on a connection: its error and the texts of the result objects. -/
def latencyMode (average : UInt64 → UInt64 → Text) (config : Config) (historyStart : Int64) (rounds : List Round) :
    ErrorValue × List Text :=
  let (err, state) := loop config ⟨{}, [], historyStart⟩ rounds
  (err, state.lines.map (Window.text average))

-- What was measured until the connection failed.
def samples : List Round → List Sample
  | [] => []
  | round :: rounds =>
    match round.reply with
    | none => []
    | some curTime => ⟨(curTime - round.start).toUInt64, curTime⟩ :: samples rounds

theorem loop_eq (config : Config) (state : State Window) (rounds : List Round) :
    (loop config state rounds).2 = Runs.run (sampleStep config) state (samples rounds) := by
  induction rounds generalizing state with
  | nil => rfl
  | cons round rounds ih =>
      cases reply : round.reply with
      | none => simp [loop, samples, reply]
      | some curTime => simp [loop, samples, reply, ih]

/-! ## The samples of a line -/

def State.map {A B : Type} (g : A → B) (state : State A) : State B :=
  ⟨g state.accumulated, state.lines.map g, state.historyStart⟩

section Simulation

variable {A B S T : Type} {curTime : S → Int64} {curTime' : T → Int64} {empty : A} {empty' : B} {add : A → S → A}
  {add' : B → T → B} (config : Config) (f : S → T) (g : A → B)

-- What is accumulated has no influence on when a window is closed.
theorem step_map (times : ∀ sample, curTime' (f sample) = curTime sample) (start : g empty = empty')
    (adds : ∀ accumulated sample, g (add accumulated sample) = add' (g accumulated) (f sample)) (state : State A)
    (sample : S) :
    (step curTime empty add config state sample).map g =
      step curTime' empty' add' config (state.map g) (f sample) := by
  unfold step
  simp only [State.map, List.isEmpty_map, times, ← adds]
  split
  · rfl
  · split
    · simp [start]
    · simp

theorem run_map (times : ∀ sample, curTime' (f sample) = curTime sample) (start : g empty = empty')
    (adds : ∀ accumulated sample, g (add accumulated sample) = add' (g accumulated) (f sample)) (samples : List S)
    (state : State A) :
    (Runs.run (step curTime empty add config) state samples).map g =
      Runs.run (step curTime' empty' add' config) (state.map g) (samples.map f) := by
  induction samples generalizing state with
  | nil => rfl
  | cons sample samples ih =>
      rw [Runs.run_cons, ih, step_map config f g times start adds, List.map_cons, Runs.run_cons]

end Simulation

section Contents

variable (config : Config) (historyStart : Int64) (samples : List Sample)

def sampleAt (position : Nat) : Sample := samples.getD position default

/-- The step once more, with the positions of the samples that were accumulated. -/
def positionStep : State (List Nat) → Nat → State (List Nat) :=
  step (fun position => (sampleAt samples position).curTime) [] (fun window position => window ++ [position]) config

def after (n : Nat) : State (List Nat) :=
  Runs.run (positionStep config samples) ⟨[], [], historyStart⟩ (List.range n)

-- The positions of the samples that each line was made from.
def contents : List (List Nat) := (after config historyStart samples samples.length).lines

def accumulate (window : List Nat) : Window :=
  window.foldl (fun accumulated position => accumulated.add (sampleAt samples position).latency) {}

theorem map_sampleAt : (List.range samples.length).map (sampleAt samples) = samples := by
  apply List.ext_getElem
  · simp
  · intro position _ within
    simp [sampleAt, within]

theorem run_sampleStep :
    (Runs.run (sampleStep config) ⟨{}, [], historyStart⟩ samples).lines =
      (contents config historyStart samples).map (accumulate samples) := by
  have same : (after config historyStart samples samples.length).map (accumulate samples) =
      Runs.run (sampleStep config) ⟨{}, [], historyStart⟩ ((List.range samples.length).map (sampleAt samples)) :=
    run_map config (sampleAt samples) (accumulate samples) (fun _ => rfl) rfl (by intros; exact List.foldl_append) _ _
  rw [map_sampleAt] at same
  rw [← same]
  rfl

end Contents

theorem latencyMode_lines (average : UInt64 → UInt64 → Text) (config : Config) (historyStart : Int64)
    (rounds : List Round) :
    (latencyMode average config historyStart rounds).2 =
      (contents config historyStart (samples rounds)).map fun window =>
        (accumulate (samples rounds) window).text average := by
  simp only [latencyMode, loop_eq, run_sampleStep, List.map_map]
  rfl

/-! ## Windows -/

/-- The four numbers are those of the latencies. -/
structure States (window : Window) (latencies : List UInt64) : Prop where
  min : window.min ∈ latencies ∧ ∀ latency ∈ latencies, window.min ≤ latency
  max : window.max ∈ latencies ∧ ∀ latency ∈ latencies, latency ≤ window.max
  tot : window.tot.toNat = (latencies.map UInt64.toNat).sum
  count : window.count.toNat = latencies.length

theorem states_single (window : Window) (zero : window.count = 0) (latency : UInt64) :
    States (window.add latency) [latency] := by
  have first : window.count + 1 = 1 := by simp [zero]
  simp only [Window.add, first, if_true]
  constructor <;> simp

theorem States.add {window : Window} {latencies : List UInt64} (states : States window latencies) (latency : UInt64)
    (some_ : latencies ≠ []) (few : latencies.length + 1 < 2 ^ 64)
    (small : (latencies.map UInt64.toNat).sum + latency.toNat < 2 ^ 64) :
    States (window.add latency) (latencies ++ [latency]) := by
  have one : (1 : UInt64).toNat = 1 := rfl
  have positive := List.length_pos_iff.mpr some_
  have count : (window.count + 1).toNat = latencies.length + 1 := by
    rw [UInt64.toNat_add, states.count, one]
    omega
  have later : window.count + 1 ≠ 1 := by
    intro first
    rw [first, one] at count
    omega
  simp only [Window.add, later, if_false]
  refine ⟨?_, ?_, ?_, ?_⟩
  · simp only [List.forall_mem_append, List.forall_mem_singleton]
    rw [List.mem_append, List.mem_singleton]
    split
    next below =>
      exact ⟨Or.inr rfl, fun other member => UInt64.le_trans (UInt64.le_of_lt below) (states.min.2 other member),
        UInt64.le_refl latency⟩
    next above => exact ⟨Or.inl states.min.1, states.min.2, UInt64.not_lt.mp above⟩
  · simp only [List.forall_mem_append, List.forall_mem_singleton]
    rw [List.mem_append, List.mem_singleton]
    split
    next above =>
      exact ⟨Or.inr rfl, fun other member => UInt64.le_trans (states.max.2 other member) (UInt64.le_of_lt above),
        UInt64.le_refl latency⟩
    next below => exact ⟨Or.inl states.max.1, states.max.2, UInt64.not_lt.mp below⟩
  · rw [List.map_append, List.sum_append, UInt64.toNat_add, states.tot]
    simpa using small
  · simpa using count

theorem states_foldl (latencies : List UInt64) (some_ : latencies ≠ []) (few : latencies.length < 2 ^ 64)
    (small : (latencies.map UInt64.toNat).sum < 2 ^ 64) : States (latencies.foldl Window.add {}) latencies := by
  induction latencies using List.reverseRecOn with
  | nil => exact absurd rfl some_
  | append_singleton latencies latency ih =>
      rw [List.foldl_append]
      cases latencies with
      | nil => exact states_single {} rfl latency
      | cons first latencies =>
          simp only [List.length_append, List.length_singleton] at few
          rw [List.map_append, List.sum_append, List.map_singleton, List.sum_singleton] at small
          exact (ih (by simp) (by omega) (by omega)).add latency (by simp) few small

/-! ## One window -/

section Run

variable (config : Config) (historyStart : Int64) (samples : List Sample)

-- As long as no window is closed there is one line, made from everything.
def Open (n : Nat) : Prop :=
  after config historyStart samples n = ⟨List.range n, if n = 0 then [] else [List.range n], historyStart⟩

/-- The sample that closed the first window is in no line, or was in two: the second line does not begin with it. -/
def Broken (n : Nat) : Prop :=
  ∃ closing second more, 0 < closing ∧ closing < n ∧
    (after config historyStart samples n).lines = List.range closing :: second :: more ∧ second ≠ [] ∧
    second.head? ≠ some closing ∧ ∀ position ∈ (after config historyStart samples n).accumulated, closing < position

theorem after_succ (n : Nat) :
    after config historyStart samples (n + 1) =
      positionStep config samples (after config historyStart samples n) n := by
  simp [after, Runs.run, List.range_succ]

variable {config historyStart samples}

theorem Open.succ {n : Nat} (opened : Open config historyStart samples n)
    (going : n = 0 ∨ closes config historyStart (sampleAt samples n).curTime = false) :
    Open config historyStart samples (n + 1) := by
  rw [Open, after_succ, opened]
  cases n with
  | zero => rfl
  | succ n =>
      have goes : closes config historyStart (sampleAt samples (n + 1)).curTime = false := by simpa using going
      simp [positionStep, step, goes, List.range_succ]

theorem Open.close {n : Nat} (opened : Open config historyStart samples n) (later : 0 < n)
    (closed : closes config historyStart (sampleAt samples n).curTime = true) :
    Broken config historyStart samples (n + 1) := by
  have next : after config historyStart samples (n + 1) =
      ⟨[], [List.range n, List.range (n + 1)], (sampleAt samples n).curTime⟩ := by
    rw [after_succ, opened]
    simp [positionStep, step, closed, List.range_succ, later.ne']
  refine ⟨n, List.range (n + 1), [], later, Nat.lt_succ_self n, by rw [next], by simp, ?_, by simp [next]⟩
  rw [List.range_succ_eq_map, List.head?_cons, ne_eq, Option.some.injEq]
  exact later.ne

theorem Broken.succ {n : Nat} (broken : Broken config historyStart samples n) :
    Broken config historyStart samples (n + 1) := by
  obtain ⟨closing, second, more, positive, passed, lines, some_, other, above⟩ := broken
  obtain ⟨⟨accumulated, lines', start⟩, same⟩ : ∃ state, state = after config historyStart samples n := ⟨_, rfl⟩
  rw [← same] at lines above
  obtain rfl : lines' = List.range closing :: second :: more := lines
  have next := after_succ config historyStart samples n
  rw [← same, positionStep, step] at next
  have beyond : ∀ position ∈ accumulated ++ [n], closing < position := by
    rw [List.forall_mem_append, List.forall_mem_singleton]
    exact ⟨above, passed⟩
  by_cases closed : closes config start (sampleAt samples n).curTime = true
  · simp only [List.isEmpty_cons, Bool.false_eq_true, if_false, closed, if_true] at next
    refine ⟨closing, second, more ++ [accumulated ++ [n]], positive, Nat.lt_succ_of_lt passed, ?_, some_, other, ?_⟩
    · rw [next]
      rfl
    · simp [next]
  · simp only [List.isEmpty_cons, Bool.false_eq_true, if_false, closed] at next
    cases more with
    | nil =>
        -- The second line is replaced by what came after the sample that closed the first window.
        refine ⟨closing, accumulated ++ [n], [], positive, Nat.lt_succ_of_lt passed, ?_, by simp, ?_, ?_⟩
        · rw [next]
          rfl
        · intro first
          exact Nat.lt_irrefl closing (beyond closing (List.mem_of_head? first))
        · rwa [next]
    | cons third more =>
        refine ⟨closing, second, (third :: more).dropLast ++ [accumulated ++ [n]], positive, Nat.lt_succ_of_lt passed,
          ?_, some_, other, ?_⟩
        · rw [next]
          rfl
        · rwa [next]

theorem after_cases (n : Nat) :
    (Open config historyStart samples n ∧
      ∀ position, 0 < position → position < n →
        closes config historyStart (sampleAt samples position).curTime = false) ∨
    (Broken config historyStart samples n ∧
      ∃ position, 0 < position ∧ position < n ∧
        closes config historyStart (sampleAt samples position).curTime = true) := by
  induction n with
  | zero => exact Or.inl ⟨rfl, fun position _ below => absurd below (Nat.not_lt_zero _)⟩
  | succ n ih =>
      rcases ih with ⟨opened, going⟩ | ⟨broken, position, positive, below, closed⟩
      · by_cases closed : 0 < n ∧ closes config historyStart (sampleAt samples n).curTime = true
        · exact Or.inr ⟨opened.close closed.1 closed.2, n, closed.1, Nat.lt_succ_self n, closed.2⟩
        · rw [not_and, Bool.not_eq_true] at closed
          refine Or.inl ⟨opened.succ (n.eq_zero_or_pos.imp_right closed), fun position positive below => ?_⟩
          rcases Nat.lt_succ_iff_lt_or_eq.mp below with earlier | rfl
          · exact going position positive earlier
          · exact closed positive
      · exact Or.inr ⟨broken.succ, position, positive, Nat.lt_succ_of_lt below, closed⟩

theorem Open.flatten {n : Nat} (opened : Open config historyStart samples n) :
    (after config historyStart samples n).lines.flatten = List.range n := by
  rw [opened]
  cases n with
  | zero => rfl
  | succ n => simp

theorem Open.mem_contents (opened : Open config historyStart samples samples.length) (window : List Nat) :
    window ∈ contents config historyStart samples ↔ samples ≠ [] ∧ window = List.range samples.length := by
  rw [contents, opened]
  cases samples with
  | nil => simp
  | cons first samples => simp

theorem Broken.flatten {n : Nat} (broken : Broken config historyStart samples n) :
    (after config historyStart samples n).lines.flatten ≠ List.range n := by
  obtain ⟨closing, second, more, positive, passed, lines, some_, other, -⟩ := broken
  intro same
  rw [lines, List.flatten_cons, List.flatten_cons] at same
  have at_ := congrArg (·[closing]?) same
  obtain ⟨first, second, rfl⟩ := List.exists_cons_of_ne_nil some_
  simp [passed] at at_
  exact other (by simp [at_])

end Run

/-! ## Every sample in one line -/

/-- The lines of a run stand for consecutive windows with every sample in one of them, and each line is the
text of the numbers of its window. -/
structure Accounts (average : UInt64 → UInt64 → Text) (config : Config) (historyStart : Int64) (rounds : List Round) :
    Prop where
  lines : (latencyMode average config historyStart rounds).2 =
    (contents config historyStart (samples rounds)).map fun window => (accumulate (samples rounds) window).text average
  once : (contents config historyStart (samples rounds)).flatten = List.range (samples rounds).length
  stated : ∀ window ∈ contents config historyStart (samples rounds),
    States (accumulate (samples rounds) window)
      (window.map fun position => (sampleAt (samples rounds) position).latency)

def latencies (rounds : List Round) : List UInt64 := (samples rounds).map Sample.latency

theorem accumulate_eq (samples : List Sample) (window : List Nat) :
    accumulate samples window =
      (window.map fun position => (sampleAt samples position).latency).foldl Window.add {} := by
  rw [accumulate, List.foldl_map]

theorem map_latency (rounds : List Round) :
    ((List.range (samples rounds).length).map fun position => (sampleAt (samples rounds) position).latency) =
      latencies rounds := by
  rw [latencies, ← map_sampleAt (samples rounds), List.map_map, map_sampleAt]
  rfl

theorem going_iff (config : Config) (historyStart : Int64) (samples : List Sample) :
    (∀ sample ∈ samples.tail, closes config historyStart sample.curTime = false) ↔
      ∀ position, 0 < position → position < samples.length →
        closes config historyStart (sampleAt samples position).curTime = false := by
  cases samples with
  | nil => simp
  | cons first samples =>
      rw [List.tail_cons, List.forall_mem_iff_forall_getElem]
      constructor
      · intro going position positive below
        obtain ⟨position, rfl⟩ := Nat.exists_eq_succ_of_ne_zero positive.ne'
        have within : position < samples.length := Nat.lt_of_succ_lt_succ below
        simpa [sampleAt, within] using going position within
      · intro going position within
        simpa [sampleAt, within] using going (position + 1) (Nat.succ_pos position) (Nat.succ_lt_succ within)

/-- Every sample is accounted for when no sample after the first closes a window and the numbers fit in 64 bits. -/
theorem accounts_iff (average : UInt64 → UInt64 → Text) (config : Config) (historyStart : Int64) (rounds : List Round) :
    Accounts average config historyStart rounds ↔
      (∀ sample ∈ (samples rounds).tail, closes config historyStart sample.curTime = false) ∧
        (latencies rounds).length < 2 ^ 64 ∧ ((latencies rounds).map UInt64.toNat).sum < 2 ^ 64 := by
  rw [going_iff]
  constructor
  · intro accounts
    rcases after_cases (samples rounds).length with ⟨opened, going⟩ | ⟨broken, -⟩
    · refine ⟨going, ?_⟩
      by_cases nothing : samples rounds = []
      · simp [latencies, nothing]
      · have stated := accounts.stated _ ((opened.mem_contents _).mpr ⟨nothing, rfl⟩)
        rw [map_latency] at stated
        rw [← stated.count, ← stated.tot]
        exact ⟨UInt64.toNat_lt _, UInt64.toNat_lt _⟩
    · exact absurd accounts.once broken.flatten
  · rintro ⟨going, few, small⟩
    rcases after_cases (samples rounds).length with ⟨opened, -⟩ | ⟨-, position, positive, below, closed⟩
    · refine ⟨latencyMode_lines average config historyStart rounds, opened.flatten, ?_⟩
      intro window member
      obtain ⟨some_, rfl⟩ := (opened.mem_contents window).mp member
      rw [accumulate_eq, map_latency]
      exact states_foldl (latencies rounds) (by simpa [latencies] using some_) few small
    · rw [going position positive below] at closed
      simp at closed

/-- Latencies 1, 2 and 4 with an interval of one second, which the second sample ends: it is in no line. -/
def closingRounds : List Round := [⟨0, some 1⟩, ⟨1498, some 1500⟩, ⟨1596, some 1600⟩]

def closingConfig : Config := { host := ⟨ascii "127.0.0.1", 6379⟩, latencyHistory := 1, interval := 1000000 }

theorem accounts_not_closing :
    (latencyMode (fun tot count => natText (tot / count).toNat) closingConfig 0 closingRounds).2 =
      [ascii "min: 1, max: 1, avg: 1 (1 samples)", ascii "min: 4, max: 4, avg: 4 (1 samples)"] ∧
    ¬Accounts (fun tot count => natText (tot / count).toNat) closingConfig 0 closingRounds := by
  constructor
  · decide
  · intro accounts
    exact absurd accounts.once (by decide)

end FastoNoSQL.Redis.Latency
