import FastoNoSQL.Bytes.DoubleSums
import FastoNoSQL.Driver.Execute

set_option autoImplicit false

/-!
# The loops of an execute request

`IDriver::HandleExecuteEvent` with all that it reports: the progress before each
command, the commands themselves and the one answer.
-/

namespace FastoNoSQL

open Bytes

inductive ExecuteOp where
  -- None where the conversion from `double` to `int` is undefined.
  | progress (value : Option Int)
  -- A call of `Execute`; a null command has been through `NOTREACHED`.
  | command (cmd : Option Text)
  | responce (error : Option ErrorValue)

def ExecuteOp.progress? : ExecuteOp → Option (Option Int)
  | progress value => some value
  | _ => none

def ExecuteOp.command? : ExecuteOp → Option (Option Text)
  | command cmd => some cmd
  | _ => none

def ExecuteOp.responce? : ExecuteOp → Option (Option ErrorValue)
  | responce error => some error
  | _ => none

structure LoopState (State : Type) where
  state : State
  curProgress : Double
  ops : List ExecuteOp

def interruptedExec : ErrorValue := makeErrorValue "Interrupted exec."

namespace Driver

variable {State : Type} (driver : Driver State)

-- An error is returned where the source jumps to `done`.
def loopCommands (step : Double) : List Text → LoopState State → LoopState State × Option ErrorValue
  | [], loop => (loop, none)
  | command :: commands, loop =>
    if driver.isInterrupted loop.state then (loop, some interruptedExec)
    else
      let curProgress := loop.curProgress.add step
      let cmd := createCommand command
      match driver.execute cmd { state := loop.state } with
      | (run, err) =>
        let loop := ⟨run.state, curProgress, loop.ops ++ [.progress curProgress.toInt32?, .command cmd]⟩
        match err with
        | some err => if err.isError then (loop, some err) else loopCommands step commands loop
        | none => loopCommands step commands loop

def loopRepeats (step : Double) (commands : List Text) : Nat → LoopState State → LoopState State × Option ErrorValue
  | 0, loop => (loop, none)
  | count + 1, loop =>
    match driver.loopCommands step commands loop with
    | (loop, some err) => (loop, some err)
    | (loop, none) => loopRepeats step commands count loop

-- The product is one of `size_t`.
def progressStep (commands : Nat) (repetitions : UInt64) : Double :=
  (Double.ofNat 99).div (Double.ofNat (UInt64.ofNat commands * (repetitions + 1)).toNat)

def executeOps (lib : Common) (text : Text) (repetitions : UInt64) (state : State) : List ExecuteOp :=
  if text = [] then
    [.progress (some 0), .responce (some (makeErrorValue "Empty command line.")), .progress (some 100)]
  else
    let commands := lib.tokenize text [byte '\n']
    if commands = [] then
      [.progress (some 0), .responce (some (makeErrorValue "Invaid command line.")), .progress (some 100)]
    else
      match driver.loopRepeats (progressStep commands.length repetitions) commands (repetitions + 1).toNat
        ⟨state, .finite false 0, [.progress (some 0)]⟩ with
      | (loop, err) => loop.ops ++ [.responce err, .progress (some 100)]

/-! ## What a request means -/

-- The error that stops the request, when the command of a line runs in a state.
def stops (line : Text) (state : State) : Option ErrorValue :=
  (driver.execute (some line) { state }).2.filter ErrorValue.isError

def after (line : Text) (state : State) : State := (driver.execute (some line) { state }).1.state

/-- The commands that run of a sequence of lines, and the error that ends it; lines that are empty are
passed over. -/
def expected : List Text → State → List Text × Option ErrorValue
  | [], _ => ([], none)
  | line :: lines, state =>
    if driver.isInterrupted state then ([], some interruptedExec)
    else if stableCommand line = [] then expected lines state
    else
      match driver.stops (stableCommand line) state with
      | some err => ([stableCommand line], some err)
      | none =>
        let rest := expected lines (driver.after (stableCommand line) state)
        (stableCommand line :: rest.1, rest.2)

-- The sequence gets to a line that is a carriage return alone.
def meetsBlank : List Text → State → Prop
  | [], _ => False
  | line :: lines, state =>
    driver.isInterrupted state = false ∧
      (stableCommand line = [] ∨
        driver.stops (stableCommand line) state = none ∧ meetsBlank lines (driver.after (stableCommand line) state))

instance decidableMeetsBlank : (lines : List Text) → (state : State) → Decidable (driver.meetsBlank lines state)
  | [], _ => .isFalse id
  | line :: lines, state =>
    have := decidableMeetsBlank lines (driver.after (stableCommand line) state)
    inferInstanceAs (Decidable (_ ∧ (_ ∨ _ ∧ _)))

def textLines (text : Text) : List Text := (text.splitOn (byte '\n')).filter (· ≠ [])

def lineSequence (text : Text) (repetitions : UInt64) : List Text :=
  (List.replicate (repetitions.toNat + 1) (textLines text)).flatten

def expectedOf (text : Text) (repetitions : UInt64) (state : State) : List Text × Option ErrorValue :=
  if textLines text = [] then ([], some (makeErrorValue "Invaid command line."))
  else driver.expected (lineSequence text repetitions) state

end Driver

/-- The commands that are given to `Execute`, the answers and the progress of a request. -/
structure Obeys (ops : List ExecuteOp) (expected : List Text × Option ErrorValue) : Prop where
  commands : ops.filterMap ExecuteOp.command? = expected.1.map some
  responce : ops.filterMap ExecuteOp.responce? = [expected.2]
  progress : ∃ values : List Int, ops.filterMap ExecuteOp.progress? = values.map some ∧ values.Pairwise (· ≤ ·) ∧
    values.getLast? = some 100

namespace Driver

/-! ## The loops against the sequence -/

section Loops

variable {State : Type} (driver : Driver State) (step : Double)

-- What is reported for the commands after `count` others.
def trace : Nat → List Text → List ExecuteOp
  | _, [] => []
  | count, line :: lines =>
    .progress (sumOf step (count + 1)).toInt32? :: .command (some line) :: trace (count + 1) lines

theorem loopCommands_append (first second : List Text) (loop : LoopState State) :
    driver.loopCommands step (first ++ second) loop =
      match driver.loopCommands step first loop with
      | (loop, some err) => (loop, some err)
      | (loop, none) => driver.loopCommands step second loop := by
  induction first generalizing loop with
  | nil => rfl
  | cons line lines ih =>
      rw [List.cons_append, loopCommands, loopCommands]
      cases driver.isInterrupted loop.state with
      | true => rfl
      | false =>
          simp only [Bool.false_eq_true, if_false, ih]
          cases driver.execute (createCommand line) { state := loop.state } with
          | mk run err =>
              cases err with
              | none => rfl
              | some err => cases stopping : err.isError <;> simp [stopping]

theorem loopRepeats_eq (commands : List Text) (count : Nat) (loop : LoopState State) :
    driver.loopRepeats step commands count loop =
      driver.loopCommands step (List.replicate count commands).flatten loop := by
  induction count generalizing loop with
  | zero => rfl
  | succ count ih =>
      rw [List.replicate_succ, List.flatten_cons, loopCommands_append, loopRepeats]
      simp only [ih]

theorem loopCommands_cons (line : Text) (lines : List Text) (loop : LoopState State)
    (ready : driver.isInterrupted loop.state = false) (nonempty : stableCommand line ≠ []) :
    driver.loopCommands step (line :: lines) loop =
      let next : LoopState State :=
        ⟨driver.after (stableCommand line) loop.state, loop.curProgress.add step,
          loop.ops ++ [.progress (loop.curProgress.add step).toInt32?, .command (some (stableCommand line))]⟩
      match driver.stops (stableCommand line) loop.state with
      | some err => (next, some err)
      | none => driver.loopCommands step lines next := by
  rw [loopCommands, createCommand, if_neg nonempty, stops, after]
  simp only [ready, Bool.false_eq_true, if_false]
  cases driver.execute (some (stableCommand line)) { state := loop.state } with
  | mk run err =>
      cases err with
      | none => rfl
      | some err => cases stopping : err.isError <;> simp [stopping, Option.filter]

theorem loopCommands_trace (lines : List Text) (count : Nat) (loop : LoopState State)
    (summed : loop.curProgress = sumOf step count) (clean : ¬ driver.meetsBlank lines loop.state) :
    (driver.loopCommands step lines loop).1.ops =
        loop.ops ++ trace step count (driver.expected lines loop.state).1 ∧
      (driver.loopCommands step lines loop).2 = (driver.expected lines loop.state).2 := by
  induction lines generalizing count loop with
  | nil => simp [loopCommands, expected, trace]
  | cons line lines ih =>
      cases ready : driver.isInterrupted loop.state with
      | true => simp [loopCommands, expected, ready, trace]
      | false =>
          simp only [meetsBlank, ready, true_and, not_or, not_and] at clean
          obtain ⟨nonempty, later⟩ := clean
          rw [loopCommands_cons driver step line lines loop ready nonempty, expected]
          simp only [ready, Bool.false_eq_true, if_false, if_neg nonempty, summed]
          cases stopping : driver.stops (stableCommand line) loop.state with
          | some err => simp [trace, sumOf]
          | none =>
              have rest := ih (count + 1) ⟨driver.after (stableCommand line) loop.state, (sumOf step count).add step,
                loop.ops ++ [.progress ((sumOf step count).add step).toInt32?,
                  .command (some (stableCommand line))]⟩ rfl
                (later stopping)
              simpa [trace, sumOf] using rest

theorem loopCommands_meets (lines : List Text) (loop : LoopState State) (meets : driver.meetsBlank lines loop.state) :
    .command none ∈ (driver.loopCommands step lines loop).1.ops := by
  have kept (lines : List Text) (loop : LoopState State) : loop.ops ⊆ (driver.loopCommands step lines loop).1.ops := by
    induction lines generalizing loop with
    | nil => exact List.Subset.refl _
    | cons line lines ih =>
        rw [loopCommands]
        cases driver.isInterrupted loop.state with
        | true => exact List.Subset.refl _
        | false =>
            simp only [Bool.false_eq_true, if_false]
            cases driver.execute (createCommand line) { state := loop.state } with
            | mk run err =>
                have grown := List.subset_append_left loop.ops
                  [.progress (loop.curProgress.add step).toInt32?, .command (createCommand line)]
                have rest := ih ⟨run.state, loop.curProgress.add step, loop.ops ++
                  [.progress (loop.curProgress.add step).toInt32?, .command (createCommand line)]⟩
                cases err with
                | none => exact List.Subset.trans grown rest
                | some err =>
                    cases stopping : err.isError with
                    | true => simp [stopping]
                    | false => simpa [stopping] using List.Subset.trans grown rest
  induction lines generalizing loop with
  | nil => cases meets
  | cons line lines ih =>
      obtain ⟨ready, found⟩ := meets
      by_cases blank : stableCommand line = []
      · have null : createCommand line = none := by simp [createCommand, blank]
        have stopped : driver.execute none { state := loop.state } = ({ state := loop.state }, invalidInput) := rfl
        rw [loopCommands]
        simp [ready, null, stopped, invalidInput, makeErrorValue]
      · obtain ⟨stopping, later⟩ := found.resolve_left blank
        rw [loopCommands_cons driver step line lines loop ready blank, stopping]
        exact ih _ later

/-! The loops of `handleExecuteEvent` are these, what is reported apart. -/

theorem execute_of_state (cmd : Option Text) (run run' : Run State) (same : run.state = run'.state) :
    (driver.execute cmd run).1.state = (driver.execute cmd run').1.state ∧
      (driver.execute cmd run).2 = (driver.execute cmd run').2 ∧ (driver.execute cmd run).1.error = run.error := by
  cases cmd with
  | none => exact ⟨same, rfl, rfl⟩
  | some command =>
      rw [execute, execute]
      by_cases empty : command = []
      · rw [if_pos empty, if_pos empty]
        exact ⟨same, rfl, rfl⟩
      · rw [if_neg empty, if_neg empty, same]
        cases Sds.sdssplitargslong command with
        | none => exact ⟨same, rfl, rfl⟩
        | some argv => exact ⟨rfl, rfl, rfl⟩

structure Matches (before after : LoopState State) (err : Option ErrorValue) (run : Run State) : Prop where
  state : after.state = run.state
  error : err = run.error
  quiet : after.ops.filterMap ExecuteOp.responce? = before.ops.filterMap ExecuteOp.responce?

theorem loopCommands_run (lines : List Text) (loop : LoopState State) (run : Run State) (same : loop.state = run.state)
    (going : run.error = none) :
    Matches loop (driver.loopCommands step lines loop).1 (driver.loopCommands step lines loop).2
      (driver.runCommands lines run) := by
  induction lines generalizing loop run with
  | nil => exact ⟨same, going.symm, rfl⟩
  | cons line lines ih =>
      rw [loopCommands, runCommands, ← same]
      cases driver.isInterrupted loop.state with
      | true =>
          rw [if_pos rfl, if_pos rfl]
          exact ⟨rfl, rfl, rfl⟩
      | false =>
          obtain ⟨left, answered, kept⟩ :=
            driver.execute_of_state (createCommand line) run { state := loop.state } same.symm
          rw [going] at kept
          simp only [Bool.false_eq_true, if_false]
          cases first : driver.execute (createCommand line) { state := loop.state } with
          | mk other err =>
              cases second : driver.execute (createCommand line) run with
              | mk next err' =>
                  rw [first, second] at left answered
                  rw [second] at kept
                  obtain rfl : err' = err := answered
                  let reported : LoopState State := ⟨other.state, loop.curProgress.add step,
                    loop.ops ++ [.progress (loop.curProgress.add step).toInt32?, .command (createCommand line)]⟩
                  have quiet : reported.ops.filterMap ExecuteOp.responce? = loop.ops.filterMap ExecuteOp.responce? := by
                    rw [List.filterMap_append]
                    exact List.append_nil _
                  have rest := ih reported next left.symm kept
                  have rest : Matches loop _ _ _ := ⟨rest.state, rest.error, rest.quiet.trans quiet⟩
                  cases err' with
                  | none => exact rest
                  | some err =>
                      cases stopping : err.isError with
                      | true => simpa [stopping] using ⟨left.symm, rfl, quiet⟩
                      | false => simpa [stopping] using rest

theorem loopRepeats_run (commands : List Text) (count : Nat) (loop : LoopState State) (run : Run State)
    (same : loop.state = run.state) (going : run.error = none) :
    Matches loop (driver.loopRepeats step commands count loop).1 (driver.loopRepeats step commands count loop).2
      (driver.repeatCommands commands count run) := by
  induction count generalizing loop run with
  | zero => exact ⟨same, going.symm, rfl⟩
  | succ count ih =>
      have first := driver.loopCommands_run step commands loop run same going
      rw [loopRepeats, repeatCommands]
      cases reported : driver.loopCommands step commands loop with
      | mk next err =>
          rw [reported] at first
          cases err with
          | some err => simpa [← first.error] using first
          | none =>
              have rest := ih next (driver.runCommands commands run) first.state first.error.symm
              have rest : Matches loop _ _ _ := ⟨rest.state, rest.error, rest.quiet.trans first.quiet⟩
              simpa [← first.error] using rest

end Loops

/-! ## The request -/

section Requests

variable {State : Type} (driver : Driver State)

-- The sequence of commands that a sequence of lines stands for.
def commandsOfLines (lines : List Text) : List Text := (lines.map stableCommand).filter (· ≠ [])

-- What is expected is a beginning of the sequence, and all of it when no error ends it.
theorem expected_prefix (lines : List Text) (state : State) :
    (driver.expected lines state).1 <+: commandsOfLines lines ∧
      ((driver.expected lines state).2 = none → (driver.expected lines state).1 = commandsOfLines lines) := by
  induction lines generalizing state with
  | nil => exact ⟨List.prefix_refl _, fun _ => rfl⟩
  | cons line lines ih =>
      rw [expected]
      cases driver.isInterrupted state with
      | true => exact ⟨List.nil_prefix, nofun⟩
      | false =>
          simp only [Bool.false_eq_true, if_false]
          by_cases blank : stableCommand line = []
          · have passed : commandsOfLines (line :: lines) = commandsOfLines lines := by simp [commandsOfLines, blank]
            rw [if_pos blank, passed]
            exact ih state
          · have taken : commandsOfLines (line :: lines) = stableCommand line :: commandsOfLines lines := by
              simp [commandsOfLines, blank]
            rw [if_neg blank, taken]
            cases driver.stops (stableCommand line) state with
            | some err => exact ⟨by simp, nofun⟩
            | none =>
                obtain ⟨front, whole⟩ := ih (driver.after (stableCommand line) state)
                exact ⟨(List.prefix_cons_inj _).mpr front, fun ended => by rw [whole ended]⟩

variable (step : Double)

theorem trace_ops (count : Nat) (lines : List Text) :
    (trace step count lines).filterMap ExecuteOp.command? = lines.map some ∧
      (trace step count lines).filterMap ExecuteOp.responce? = [] ∧
      (trace step count lines).filterMap ExecuteOp.progress? =
        (List.range lines.length).map fun index => (sumOf step (count + index + 1)).toInt32? := by
  induction lines generalizing count with
  | nil => simp [trace]
  | cons line lines ih =>
      obtain ⟨commands, answers, progress⟩ := ih (count + 1)
      refine ⟨by simp only [trace, List.filterMap_cons, ExecuteOp.command?, commands, List.map_cons],
        by simp only [trace, List.filterMap_cons, ExecuteOp.responce?, answers], ?_⟩
      rw [List.length_cons, List.range_succ_eq_map, List.map_cons, List.map_map]
      simp only [trace, ExecuteOp.progress?, List.filterMap_cons, progress, Nat.add_zero, List.cons.injEq, true_and]
      apply List.map_congr_left
      intro index _
      simp only [Function.comp_apply, Nat.succ_eq_add_one, Nat.add_assoc, Nat.add_comm index 1]

-- The progress that is reported grows to 100 when the last sum is not over it.
theorem progress_grows_iff (nonneg : isNegative step = false) (count : Nat) :
    (∃ values : List Int,
      ((List.range (count + 1)).map fun index => (sumOf step index).toInt32?) ++ [some 100] = values.map some ∧
        values.Pairwise (· ≤ ·) ∧ values.getLast? = some 100) ↔
      ∃ value, (sumOf step count).toInt32? = some value ∧ value ≤ 100 := by
  constructor
  · intro ⟨values, shape, sorted, _⟩
    obtain ⟨front, back, rfl, frontShape, backShape⟩ := List.map_eq_append_iff.mp shape.symm
    have member : (sumOf step count).toInt32? ∈ front.map some := by
      rw [frontShape]
      exact List.mem_map.mpr ⟨count, by simp, rfl⟩
    obtain ⟨value, inFront, same⟩ := List.mem_map.mp member
    have last : (100 : Int) ∈ back := by
      have inBack : some (100 : Int) ∈ back.map some := by rw [backShape]; exact List.mem_singleton_self _
      simpa using inBack
    exact ⟨value, same.symm, (List.pairwise_append.mp sorted).2.2 value inFront 100 last⟩
  · intro ⟨value, shown, few⟩
    have each (index : Nat) (le : index ≤ count) :
        ∃ before, (sumOf step index).toInt32? = some before ∧ before ≤ 100 := by
      obtain ⟨before, shown, le⟩ := toInt32_sumOf_le step nonneg index count le value shown
      exact ⟨before, shown, Int.le_trans le few⟩
    let shownAt (index : Nat) : Int := (sumOf step index).toInt32?.getD 0
    have isShown (index : Nat) (member : index ∈ List.range (count + 1)) :
        (sumOf step index).toInt32? = some (shownAt index) ∧ shownAt index ≤ 100 := by
      obtain ⟨before, shown, le⟩ := each index (Nat.lt_succ_iff.mp (List.mem_range.mp member))
      simp only [shownAt, shown, Option.getD_some]
      exact ⟨trivial, le⟩
    refine ⟨(List.range (count + 1)).map shownAt ++ [100], ?_, ?_, by simp⟩
    · rw [List.map_append, List.map_map]
      congr 1
      exact List.map_congr_left fun index member => (isShown index member).1
    · rw [List.pairwise_append]
      refine ⟨?_, List.pairwise_singleton _ _, ?_⟩
      · rw [List.pairwise_map]
        refine List.pairwise_le_range.imp_of_mem ?_
        intro first last _ inRange le
        have later := (isShown last inRange).1
        obtain ⟨before, shown, grows⟩ := toInt32_sumOf_le step nonneg first last le _ later
        simpa only [shownAt, shown, Option.getD_some] using grows
      · intro first inFront last inBack
        obtain ⟨index, inRange, rfl⟩ := List.mem_map.mp inFront
        rw [List.mem_singleton.mp inBack]
        exact (isShown index inRange).2

theorem progressStep_nonneg (commands : Nat) (repetitions : UInt64) :
    isNegative (progressStep commands repetitions) = false :=
  isNegative_div _ _ (isNegative_ofUnits _) (isNegative_ofUnits _)

-- The commands and the answer of such a request are right; only its progress may not grow.
theorem obeys_trace_iff (step : Double) (nonneg : isNegative step = false)
    (expected : List Text × Option ErrorValue) :
    Obeys ([.progress (some 0)] ++ trace step 0 expected.1 ++ [.responce expected.2, .progress (some 100)]) expected ↔
      ∃ value, (sumOf step expected.1.length).toInt32? = some value ∧ value ≤ 100 := by
  rw [← progress_grows_iff step nonneg]
  obtain ⟨commands, answers, progress⟩ := trace_ops step 0 expected.1
  have first := toInt32_sumOf_zero step
  have shown : ([ExecuteOp.progress (some 0)] ++ trace step 0 expected.1 ++
      [ExecuteOp.responce expected.2, ExecuteOp.progress (some 100)]).filterMap ExecuteOp.progress? =
      ((List.range (expected.1.length + 1)).map fun index => (sumOf step index).toInt32?) ++ [some 100] := by
    rw [List.filterMap_append, List.filterMap_append, progress, List.range_succ_eq_map, List.map_cons,
      List.map_map, first]
    simp only [Nat.zero_add, List.append_assoc, List.cons_append, Function.comp_def, Nat.succ_eq_add_one]
    rfl
  constructor
  · intro obeys
    rw [← shown]
    exact obeys.progress
  · intro grows
    refine ⟨?_, ?_, shown ▸ grows⟩
    · rw [List.filterMap_append, List.filterMap_append, commands]
      exact List.append_nil _
    · rw [List.filterMap_append, List.filterMap_append, answers]
      rfl

/-- A request runs its commands in order, answers once and reports growing progress, exactly when it does
not get to a line that is a carriage return alone and the steps of its progress add up to 100 at most. -/
theorem executes_iff (lib : Common) (lawful : lib.Lawful) (text : Text) (nonempty : text ≠ []) (repetitions : UInt64)
    (below : repetitions.toNat + 1 < 2 ^ 64) (state : State) :
    Obeys (driver.executeOps lib text repetitions state) (driver.expectedOf text repetitions state) ↔
      ¬ driver.meetsBlank (lineSequence text repetitions) state ∧
        ∃ value, (sumOf (progressStep (textLines text).length repetitions)
          (driver.expectedOf text repetitions state).1.length).toInt32? = some value ∧ value ≤ 100 := by
  have lines : lib.tokenize text [byte '\n'] = textLines text := lawful.tokenize_eq text (byte '\n')
  have count : (repetitions + 1).toNat = repetitions.toNat + 1 := by
    rw [UInt64.toNat_add]
    exact Nat.mod_eq_of_lt below
  rw [executeOps, if_neg nonempty, lines, expectedOf]
  by_cases none : textLines text = []
  · have noLines : lineSequence text repetitions = [] := by simp [lineSequence, none]
    have shown := toInt32_sumOf_zero (progressStep (textLines text).length repetitions)
    simp only [none, if_true, noLines, meetsBlank, not_false_eq_true, true_and, List.length_nil]
    rw [none] at shown
    refine ⟨fun _ => ⟨0, shown, by decide⟩, fun _ => ⟨rfl, rfl, [0, 100], rfl, by simp, rfl⟩⟩
  · rw [if_neg none, if_neg none, loopRepeats_eq, count]
    have nonneg := progressStep_nonneg (textLines text).length repetitions
    generalize progressStep (textLines text).length repetitions = step at nonneg
    show Obeys ((driver.loopCommands step (lineSequence text repetitions)
      ⟨state, .finite false 0, [.progress (some 0)]⟩).1.ops ++
      [.responce (driver.loopCommands step (lineSequence text repetitions)
        ⟨state, .finite false 0, [.progress (some 0)]⟩).2,
        .progress (some 100)]) (driver.expected (lineSequence text repetitions) state) ↔ _
    by_cases meets : driver.meetsBlank (lineSequence text repetitions) state
    · -- The null command is none of those that are expected.
      have null := driver.loopCommands_meets step (lineSequence text repetitions)
        ⟨state, .finite false 0, [.progress (some 0)]⟩ meets
      simp only [meets, not_true_eq_false, false_and, iff_false]
      intro obeys
      have found : (Option.none : Option Text) ∈
          (driver.expected (lineSequence text repetitions) state).1.map some := by
        rw [← obeys.commands]
        exact List.mem_filterMap.mpr ⟨.command Option.none, List.mem_append_left _ null, rfl⟩
      simp at found
    · obtain ⟨ops, error⟩ := driver.loopCommands_trace step (lineSequence text repetitions) 0
        ⟨state, .finite false 0, [.progress (some 0)]⟩ rfl meets
      rw [ops, error, obeys_trace_iff step nonneg]
      simp only [meets, not_false_eq_true, true_and]

-- The answer and what is left behind are those of `handleExecuteEvent`.
theorem executeOps_responce (lib : Common) (text : Text) (repetitions : UInt64) (state : State) :
    (driver.executeOps lib text repetitions state).filterMap ExecuteOp.responce? =
      [(driver.handleExecuteEvent lib text repetitions state).error] := by
  rw [executeOps, handleExecuteEvent]
  by_cases empty : text = []
  · rw [if_pos empty, if_pos empty]
    rfl
  · rw [if_neg empty, if_neg empty]
    by_cases none : lib.tokenize text [byte '\n'] = []
    · simp only [none, if_true]
      rfl
    · have repeated := driver.loopRepeats_run (progressStep (lib.tokenize text [byte '\n']).length repetitions)
        (lib.tokenize text [byte '\n']) (repetitions + 1).toNat ⟨state, .finite false 0, [.progress (some 0)]⟩
        { state } rfl rfl
      simp only [none, if_false]
      rw [← repeated.error, List.filterMap_append, repeated.quiet]
      rfl

theorem expectedOf_length_le (text : Text) (repetitions : UInt64) (state : State) :
    (driver.expectedOf text repetitions state).1.length ≤ (textLines text).length * (repetitions.toNat + 1) := by
  rw [expectedOf]
  split
  · exact Nat.zero_le _
  · have front := (driver.expected_prefix (lineSequence text repetitions) state).1.length_le
    have fewer : (commandsOfLines (lineSequence text repetitions)).length ≤ (lineSequence text repetitions).length := by
      rw [commandsOfLines]
      exact (List.length_filter_le _ _).trans (Nat.le_of_eq (List.length_map _))
    have whole : (lineSequence text repetitions).length = (textLines text).length * (repetitions.toNat + 1) := by
      simp [lineSequence, Nat.mul_comm]
    omega

-- For a text of which `2^40` commands at most are run, the carriage returns alone decide.
theorem executes_iff_of_few (lib : Common) (lawful : lib.Lawful) (text : Text) (nonempty : text ≠ [])
    (repetitions : UInt64)
    (few : (textLines text).length * (repetitions.toNat + 1) ≤ 2 ^ 40) (below : repetitions.toNat + 1 < 2 ^ 64)
    (state : State) :
    Obeys (driver.executeOps lib text repetitions state) (driver.expectedOf text repetitions state) ↔
      ¬ driver.meetsBlank (lineSequence text repetitions) state := by
  have shown : ∃ value, (sumOf (progressStep (textLines text).length repetitions)
      (driver.expectedOf text repetitions state).1.length).toInt32? = some value ∧ value ≤ 100 := by
    by_cases none : textLines text = []
    · rw [expectedOf, if_pos none]
      exact ⟨0, toInt32_sumOf_zero _, by decide⟩
    · have product : (UInt64.ofNat (textLines text).length * (repetitions + 1)).toNat =
          (textLines text).length * (repetitions.toNat + 1) := by
        have count : (repetitions + 1).toNat = repetitions.toNat + 1 := by
          rw [UInt64.toNat_add]
          exact Nat.mod_eq_of_lt below
        have fewer : (textLines text).length ≤ (textLines text).length * (repetitions.toNat + 1) :=
          Nat.le_mul_of_pos_right _ (Nat.succ_pos _)
        rw [UInt64.toNat_mul, count, UInt64.toNat_ofNat', Nat.mod_eq_of_lt (a := (textLines text).length) (by omega)]
        exact Nat.mod_eq_of_lt (by omega)
      rw [progressStep, product]
      exact toInt32_sumOf_parts _ (Nat.mul_pos (List.length_pos_iff.mpr none) (Nat.succ_pos _)) few _
        (driver.expectedOf_length_le text repetitions state)
  rw [driver.executes_iff lib lawful text nonempty repetitions below state, and_iff_left shown]

end Requests

section Witness

def idle : Driver Unit where
  executeImpl _ _ := ((), none)
  isInterrupted _ := false

theorem ping_executes :
    Obeys (idle.executeOps .std (ascii "PING") 2 ()) (idle.expectedOf (ascii "PING") 2 ()) := by
  refine (idle.executes_iff .std Common.std_lawful (ascii "PING") (by decide) 2 (by decide)
    ()).mpr ⟨?_, 99, ?_, by decide⟩
  · decide
  · decide +kernel

theorem lone_return_fails :
    ¬ Obeys (idle.executeOps .std (ascii "a\n\x0d\nb") 0 ()) (idle.expectedOf (ascii "a\n\x0d\nb") 0 ()) := by
  intro obeys
  have commands := obeys.commands
  revert commands
  decide +kernel

end Witness

end Driver

end FastoNoSQL
