import FastoNoSQL.Bytes.Pieces
import FastoNoSQL.Command.Translator
import FastoNoSQL.Sds.Inversion

set_option autoImplicit false

/-!
# Execute requests

`IDriver::HandleExecuteEvent` and `IDriver::Execute` of `core/driver/idriver.cpp`
with `StableCommand` of `core/command/command.cpp`: a text is cut into lines,
each line into arguments, and the back-end runs the argument vectors in turn
until one of them fails.
-/

namespace FastoNoSQL

open Bytes Sds

/-- What a back-end's driver adds: `ExecuteImpl` and the interruption flag. -/
structure Driver (State : Type) where
  executeImpl : State → List Text → State × Option ErrorValue
  isInterrupted : State → Bool

def stableCommand (command : Text) : Text :=
  if command.getLast? = some (byte '\r') then command.dropLast else command

-- `CreateCommand` and `CreateCommandFast`: the input of the command object, null when empty.
def createCommand (input : Text) : Option Text :=
  if stableCommand input = [] then none else some (stableCommand input)

/-- A request under way; `executed` are the argument vectors given to `ExecuteImpl`. -/
structure Run (State : Type) where
  state : State
  executed : List (List Text) := []
  error : Option ErrorValue := none

namespace Driver

variable {State : Type} (driver : Driver State)

def invalidInput : Option ErrorValue := some (makeErrorValue "Invalid input argument(s)")

def execute (cmd : Option Text) (run : Run State) : Run State × Option ErrorValue :=
  match cmd with
  | none => (run, invalidInput)
  | some command =>
    if command = [] then (run, invalidInput)
    else
      match sdssplitargslong command with
      | none => (run, invalidInput)
      | some argv =>
        let (state, err) := driver.executeImpl run.state argv
        ({ run with state := state, executed := run.executed ++ [argv] }, err)

-- The inner loop; it leaves `error` set exactly when the source jumps to `done`.
def runCommands : List Text → Run State → Run State
  | [], run => run
  | command :: commands, run =>
    if driver.isInterrupted run.state then
      { run with error := some (makeErrorValue "Interrupted exec.") }
    else
      match driver.execute (createCommand command) run with
      | (run, some err) => if err.isError then { run with error := some err } else runCommands commands run
      | (run, none) => runCommands commands run

def repeatCommands (commands : List Text) : Nat → Run State → Run State
  | 0, run => run
  | count + 1, run =>
    let run := driver.runCommands commands run
    if run.error.isSome then run else repeatCommands commands count run

-- `IDriver::HandleExecuteEvent`; `repeat + 1` is computed in `size_t`.
def handleExecuteEvent (lib : Common) (text : Text) (repetitions : UInt64) (state : State) : Run State :=
  if text = [] then { state, error := some (makeErrorValue "Empty command line.") }
  else
    let commands := lib.tokenize text [byte '\n']
    if commands = [] then { state, error := some (makeErrorValue "Invaid command line.") }
    else driver.repeatCommands commands (repetitions + 1).toNat { state }

/-! ## What a request executes -/

theorem execute_executed (cmd : Option Text) (run : Run State) (argv : List Text)
    (member : argv ∈ (driver.execute cmd run).1.executed) :
    argv ∈ run.executed ∨ ∃ command ∈ cmd, sdssplitargslong command = some argv := by
  unfold execute at member
  split at member
  · exact Or.inl member
  split at member
  · exact Or.inl member
  split at member
  · exact Or.inl member
  next command _ _ vector split =>
    rcases List.mem_append.mp member with old | new
    · exact Or.inl old
    · exact Or.inr ⟨command, rfl, by rw [split, List.mem_singleton.mp new]⟩

-- Every argument vector was split from one of the commands.
theorem runCommands_executed (commands : List Text) (run : Run State) (argv : List Text)
    (member : argv ∈ (driver.runCommands commands run).executed) :
    argv ∈ run.executed ∨
      ∃ command ∈ commands, sdssplitargslong (stableCommand command) = some argv := by
  induction commands generalizing run with
  | nil => exact Or.inl member
  | cons command commands ih =>
      have start : argv ∈ (driver.execute (createCommand command) run).1.executed →
          argv ∈ run.executed ∨
            ∃ command' ∈ command :: commands, sdssplitargslong (stableCommand command') = some argv := by
        intro found
        rcases driver.execute_executed _ run argv found with old | ⟨input, created, split⟩
        · exact Or.inl old
        · obtain rfl : stableCommand command = input := by
            unfold createCommand at created
            split at created <;> simp_all
          exact Or.inr ⟨command, by simp, split⟩
      have later (next : Run State) (same : next = (driver.execute (createCommand command) run).1)
          (found : argv ∈ (driver.runCommands commands next).executed) :
          argv ∈ run.executed ∨
            ∃ command' ∈ command :: commands, sdssplitargslong (stableCommand command') = some argv := by
        rcases ih next found with old | ⟨command', member', split⟩
        · exact start (same ▸ old)
        · exact Or.inr ⟨command', List.mem_cons_of_mem command member', split⟩
      unfold runCommands at member
      split at member
      · exact Or.inl member
      split at member
      next next err result =>
        split at member
        · exact start (by rw [result]; exact member)
        · exact later next (by rw [result]) member
      next next result => exact later next (by rw [result]) member

theorem runCommands_singleton (command : Text) (state : State) (ready : driver.isInterrupted state = false) :
    (driver.runCommands [command] { state }).executed =
      (driver.execute (createCommand command) { state }).1.executed := by
  unfold runCommands
  simp only [ready, Bool.false_eq_true, if_false]
  split
  next next err result =>
    split
    · rw [result]
    · rw [result, runCommands]
  next next result => rw [result, runCommands]

theorem repeatCommands_one (commands : List Text) (run : Run State) :
    driver.repeatCommands commands 1 run = driver.runCommands commands run := by
  simp [repeatCommands]

theorem execute_split (command : Text) (state : State) (argv : List Text) (nonempty : command ≠ []) :
    (driver.execute (some command) { state }).1.executed = [argv] ↔ sdssplitargslong command = some argv := by
  simp only [execute, nonempty, if_false]
  cases split : sdssplitargslong command with
  | none => simp
  | some vector => simp

end Driver

/-! ## Lines -/

theorem stableCommand_length (command : Text) : (stableCommand command).length ≤ command.length := by
  unfold stableCommand
  split
  · simp
  · exact Nat.le_refl _

theorem mem_of_mem_stableCommand (command : Text) (c : UInt8) (member : c ∈ stableCommand command) :
    c ∈ command := by
  unfold stableCommand at member
  split at member
  · exact List.dropLast_subset command member
  · exact member

theorem stableCommand_eq_of_length (command : Text)
    (same : (stableCommand command).length = command.length) :
    stableCommand command = command ∧ command.getLast? ≠ some (byte '\r') := by
  unfold stableCommand at same ⊢
  split
  next ends =>
    have nonempty : command ≠ [] := fun empty => by simp [empty] at ends
    have positive := List.length_pos_iff.mpr nonempty
    rw [if_pos ends, List.length_dropLast] at same
    omega
  next ends => exact ⟨rfl, ends⟩

theorem stableCommand_concat (front : Text) (c : UInt8) :
    stableCommand (front ++ [c]) = if c = byte '\r' then front else front ++ [c] := by
  simp [stableCommand]

theorem stableCommand_append (text last : Text) :
    stableCommand (text ++ byte ' ' :: last) = text ++ byte ' ' :: stableCommand last := by
  have blank : byte ' ' ≠ byte '\r' := by decide
  rcases List.eq_nil_or_concat last with rfl | ⟨front, c, rfl⟩
  · rw [stableCommand_concat, if_neg blank]
    rfl
  · have shape : text ++ byte ' ' :: (front ++ [c]) = (text ++ byte ' ' :: front) ++ [c] := by simp
    rw [List.concat_eq_append, shape, stableCommand_concat, stableCommand_concat]
    split
    · rfl
    · simp

namespace Driver

variable {State : Type} (driver : Driver State)

theorem handleExecuteEvent_line (lib : Common) (lawful : lib.Lawful) (text : Text) (state : State)
    (argv : List Text) (ready : driver.isInterrupted state = false) (stable : stableCommand text ≠ [])
    (line : byte '\n' ∉ text) :
    (driver.handleExecuteEvent lib text 0 state).executed = [argv] ↔
      sdssplitargslong (stableCommand text) = some argv := by
  have nonempty : text ≠ [] := fun empty => stable (by simp [empty, stableCommand])
  have commands : lib.tokenize text [byte '\n'] = [text] := by
    rw [lawful.tokenize_eq, List.splitOn_eq_singleton line]
    simp [nonempty]
  have once : ((0 : UInt64) + 1).toNat = 1 := rfl
  have created : createCommand text = some (stableCommand text) := by simp [createCommand, stable]
  rw [handleExecuteEvent, if_neg nonempty, commands, once]
  simp only [List.cons_ne_nil, if_false, driver.repeatCommands_one, driver.runCommands_singleton text state ready,
    created]
  exact driver.execute_split (stableCommand text) state argv stable

-- Every argument vector that a request executes was split from a line of its text.
theorem handleExecuteEvent_executed (lib : Common) (lawful : lib.Lawful) (text : Text) (state : State)
    (argv : List Text) (member : argv ∈ (driver.handleExecuteEvent lib text 0 state).executed) :
    ∃ line ∈ text.splitOn (byte '\n'), sdssplitargslong (stableCommand line) = some argv := by
  have once : ((0 : UInt64) + 1).toNat = 1 := rfl
  simp only [handleExecuteEvent, once, driver.repeatCommands_one] at member
  split at member
  · simp at member
  split at member
  · simp at member
  rcases driver.runCommands_executed _ _ argv member with old | ⟨command, found, split⟩
  · simp at old
  · rw [lawful.tokenize_eq] at found
    exact ⟨command, (List.mem_filter.mp found).1, split⟩

end Driver

/-! ## One command line -/

section CommandLine

variable (word : Text) (init : List Text) (last : Text)

theorem stableCommand_unwords :
    stableCommand (unwords (word :: (init ++ [last]))) = unwords (word :: (init ++ [stableCommand last])) := by
  rw [← List.cons_append, unwords_concat _ _ (by simp), stableCommand_append, ← unwords_concat _ _ (by simp),
    List.cons_append]

-- A line that is split into what it was written from has bare arguments, and no carriage return was taken from its
-- end.
theorem bare_of_stable_split (isWord' : isWord word = true) (short : Short (init ++ [last]))
    (split : splitFrom .blank 0 (unwords (word :: (init ++ [stableCommand last]))) =
      some (word :: (init ++ [last]))) :
    (∀ part ∈ init ++ [last], isBare part = true) ∧ last.getLast? ≠ some (byte '\r') := by
  have bareWord := (isBare_of_isWord word isWord').1
  have ends : Ends (byte ' ' :: unwords (init ++ [stableCommand last])) := rfl
  rw [unwords_cons word _ (by simp), splitFrom_bare word _ ends bareWord, splitFrom_blank_space,
    Option.map_eq_some_iff] at split
  obtain ⟨parts, split, same⟩ := split
  obtain rfl := (List.cons.inj same).2
  obtain ⟨same, bare, alone⟩ :=
    words_of_split init last (stableCommand last) (stableCommand_length last) short split
  obtain ⟨whole, plainEnd⟩ := stableCommand_eq_of_length last same
  rw [whole] at alone
  refine ⟨?_, plainEnd⟩
  rw [List.forall_mem_append]
  exact ⟨bare, by simpa using bare_of_split_first last [] alone⟩

-- No line of a text with line breaks is split into the words of the whole text.
theorem line_split_ne (short : Short (init ++ [last])) (line : Text)
    (piece : line ∈ (unwords (word :: (init ++ [last]))).splitOn (byte '\n'))
    (broken : byte '\n' ∈ unwords (word :: (init ++ [last]))) :
    sdssplitargslong (stableCommand line) ≠ some (word :: (init ++ [last])) := by
  intro split
  obtain ⟨clean, -, shorter⟩ := mem_splitOn (byte '\n') _ line piece
  have inLine (c : UInt8) (member : c ∈ cString (stableCommand line)) : c ∈ line :=
    mem_of_mem_stableCommand line c ((List.takeWhile_prefix _).subset member)
  have cost := newline_cost (cString (stableCommand line)) .blank 0 _ (Nat.zero_le _)
    (fun member => clean (inLine _ member)) (by simp [Scan.pending]) split
    ((mem_unwords _ (byte '\n') (by decide)).mp broken)
  have cut : (cString (stableCommand line)).length ≤ (stableCommand line).length :=
    (List.takeWhile_prefix _).length_le
  have stable := stableCommand_length line
  have length := length_unwords word (init ++ [last])
  have count : (init ++ [last]).length ≤ 4 := by
    rcases short with few | ⟨first, second, rest, same, two, -⟩
    · omega
    · rw [same, List.length_cons, List.length_cons, two]
  have fewer := shorter broken
  simp only [Scan.pending, Scan.debt, List.length_nil] at cost
  omega

theorem executed_iff_bare {State : Type} (driver : Driver State) (lib : Common) (lawful : lib.Lawful)
    (state : State) (ready : driver.isInterrupted state = false) (isWord' : isWord word = true)
    (wordLine : byte '\n' ∉ word) (short : Short (init ++ [last]))
    (clean : ∀ part ∈ init ++ [last], (0 : UInt8) ∉ part) :
    (driver.handleExecuteEvent lib (unwords (word :: (init ++ [last]))) 0 state).executed =
        [word :: (init ++ [last])] ↔
      (∀ part ∈ init ++ [last], isBare part = true ∧ byte '\n' ∉ part) ∧
        last.getLast? ≠ some (byte '\r') := by
  obtain ⟨bareWord, cleanWord⟩ := isBare_of_isWord word isWord'
  have newline : byte '\n' ∉ unwords (word :: (init ++ [last])) ↔
      ∀ part ∈ init ++ [last], byte '\n' ∉ part := by
    rw [mem_unwords _ _ (by decide)]
    simp only [List.mem_cons, exists_eq_or_imp, wordLine, false_or, not_exists, not_and]
  have stable : stableCommand (unwords (word :: (init ++ [last]))) ≠ [] := by
    rw [stableCommand_unwords, unwords_cons word _ (by simp)]
    simp
  constructor
  · intro executed
    by_cases broken : byte '\n' ∈ unwords (word :: (init ++ [last]))
    · exfalso
      obtain ⟨line, piece, split⟩ :=
        driver.handleExecuteEvent_executed lib lawful _ state _ (executed ▸ List.mem_singleton_self _)
      exact line_split_ne word init last short line piece broken split
    · rw [driver.handleExecuteEvent_line lib lawful _ state _ ready stable broken, stableCommand_unwords,
        sdssplitargslong, cString_eq_self] at executed
      · obtain ⟨bare, plainEnd⟩ := bare_of_stable_split word init last isWord' short executed
        exact ⟨fun part member => ⟨bare part member, newline.mp broken part member⟩, plainEnd⟩
      · rw [nul_not_mem_unwords]
        intro part member nul
        rcases List.mem_cons.mp member with rfl | member
        · exact cleanWord nul
        · rcases List.mem_append.mp member with inInit | inLast
          · exact clean part (by simp [inInit]) nul
          · rw [List.mem_singleton.mp inLast] at nul
            exact clean last (by simp) (mem_of_mem_stableCommand last 0 nul)
  · rintro ⟨bare, plainEnd⟩
    have line := newline.mpr fun part member => (bare part member).2
    have whole : stableCommand last = last := by simp [stableCommand, plainEnd]
    rw [driver.handleExecuteEvent_line lib lawful _ state _ ready stable line, stableCommand_unwords, whole]
    apply sdssplitargslong_unwords
    · simpa [bareWord] using fun part member => (bare part member).1
    · simpa [cleanWord] using clean

end CommandLine

end FastoNoSQL
