import FastoNoSQL.Driver.Objects

set_option autoImplicit false

/-!
# The results of a request

The rows of objects that the replies to the commands of a request ask for, and
how the driver attaches them one by one.
-/

namespace FastoNoSQL.OutputTree

open Bytes

/-! ## The results of a command -/

mutual

-- The array of a reply with the arrays below it.
def nestedArray (ar : FastoObject) (number : Nat) : Redis.Reply → Rose FastoObject
  | .array elements =>
    .node (.array ar number) (nestedArrays (.array ar number) (number + 1) elements) .nil
  | _ => .nil

def nestedArrays (ar : FastoObject) (number : Nat) : List Redis.Reply → Rose FastoObject
  | [] => .nil
  | element :: elements =>
    let tree := nestedArray ar number element
    tree.append (nestedArrays ar (number + tree.values.length) elements)

end

/-- The direct result of an output, with the arrays nested in it. -/
def Output.result (out : FastoObject) (number : Nat) : Output → Rose FastoObject
  | .value _ => .leaf (.plain out number)
  | .reply (.array elements) =>
    .node (.array out number) (nestedArrays (.array out number) (number + 1) elements) .nil
  | .reply (.error _) => .nil
  | .reply _ => .leaf (.plain out number)
  | .keyAdded _ _ => .nil

def Output.childless : Output → Bool
  | .reply (.error _) | .keyAdded _ _ => true
  | _ => false

section InTurn

variable {A : Type} (ops : Nat → A → List Op) (results : Nat → A → Rose FastoObject)

-- The results of one thing after the other, numbered as the objects are.
def resultsInTurn : Nat → List A → Rose FastoObject
  | _, [] => .nil
  | number, first :: rest =>
    (results number first).append (resultsInTurn (number + (added (ops number first)).length) rest)

end InTurn

def outputResults (out : FastoObject) : Nat → List Output → Rose FastoObject :=
  resultsInTurn (Output.ops out) (Output.result out)

/-- The direct results of a command, those of `SlaveMode` made for a command object of its own. -/
def Execution.results (root : FastoObject) (number : Nat) (execution : Execution) : Rose FastoObject :=
  match createCommand execution.line with
  | none => .nil
  | some input =>
    let cmd := .command root number input
    if handler input = some .sync then
      if execution.synced then outputResults (.command cmd (number + 1) syncRequest) (number + 2) execution.outputs
      else .nil
    else outputResults cmd (number + 1) execution.outputs

-- The direct results of the commands, in the order of execution.
def Request.results (n : Nat) (request : Request) : Rose FastoObject :=
  resultsInTurn (Execution.ops (.root n)) (Execution.results (.root n)) 1 request.commands

-- Whether the replies are read by `SlaveMode`.
def Execution.inSlaveMode (execution : Execution) : Bool :=
  match createCommand execution.line with
  | none => false
  | some input => handler input = some .sync && execution.synced

/-! ## What attaching does -/

-- The object below whose item an object is shown: its parent, for the results of a command the parent of that.
def anchor : FastoObject → Option FastoObject
  | .array (.command parent _ _) _ | .plain (.command parent _ _) _ => some parent
  | .array (.array parent number) _ | .plain (.array parent number) _ => some (.array parent number)
  | _ => none

/-- Every object is new, and attached to one that was attached before. -/
def Attaches : List FastoObject → List Op → Prop
  | _, [] => True
  | _, .createRoot _ _ :: _ => False
  | before, .addChildren child _ :: ops =>
    (∃ parent ∈ before, child.parent = some parent) ∧ child ∉ before ∧
      (child.isCommand = true ∨ (anchor child).isSome = true) ∧ Attaches (before ++ [child]) ops
  | before, .append array _ :: ops => (∃ parent number, array = .array parent number) ∧ Attaches before ops
  | before, .keyAdded _ _ :: ops => Attaches before ops

theorem attaches_append (before : List FastoObject) (first last : List Op) :
    Attaches before (first ++ last) ↔ Attaches before first ∧ Attaches (before ++ added first) last := by
  induction first generalizing before with
  | nil => simp [Attaches]
  | cons op first ih =>
      cases op with
      | createRoot root text => simp [Attaches]
      | addChildren child value =>
          have joined : before ++ added (.addChildren child value :: first) = (before ++ [child]) ++ added first := by
            simp [added, Op.child?]
          rw [joined, List.cons_append, Attaches, Attaches, ih]
          simp only [and_assoc]
      | append array value =>
          rw [List.cons_append, Attaches, Attaches, ih, and_assoc]
          rfl
      | keyAdded key value => exact ih before

/-- The objects made for `out` are numbered on, and attached in an order that works. -/
structure Orderly (out : FastoObject) (number : Nat) (ops : List Op) : Prop where
  numbers : (added ops).map FastoObject.number = List.range' number (added ops).length
  attaches : ∀ before, out ∈ before → (∀ object ∈ before, object.number < number) → Attaches before ops

namespace Orderly

variable {out child : FastoObject} {number : Nat} {ops first last : List Op}

theorem bounds (orderly : Orderly out number ops) (object : FastoObject) (member : object ∈ added ops) :
    number ≤ object.number ∧ object.number < number + (added ops).length := by
  have listed := List.mem_map_of_mem (f := FastoObject.number) member
  rw [orderly.numbers] at listed
  simpa using List.mem_range'_1.mp listed

theorem nodup (orderly : Orderly out number ops) : (added ops).Nodup := by
  apply List.Nodup.of_map FastoObject.number
  rw [orderly.numbers]
  exact List.nodup_range'

theorem attaches_alone (orderly : Orderly out number ops) (before : out.number < number) : Attaches [out] ops :=
  orderly.attaches [out] (List.mem_singleton_self out) (by simpa using before)

theorem nil : Orderly out number [] := ⟨rfl, fun _ _ _ => trivial⟩

theorem append (orderly : Orderly out number first) (next : Orderly out (number + (added first).length) last) :
    Orderly out number (first ++ last) where
  numbers := by
    rw [added_append, List.map_append, orderly.numbers, next.numbers, List.length_append, List.range'_append_1]
  attaches before member below := by
    rw [attaches_append]
    refine ⟨orderly.attaches before member below, next.attaches _ (List.mem_append_left _ member) ?_⟩
    intro object inBoth
    rcases List.mem_append.mp inBoth with old | new
    · exact Nat.lt_add_right _ (below object old)
    · exact (orderly.bounds object new).2

-- A new object is attached before anything is made for it.
theorem node (orderly : Orderly child (number + 1) ops) (value : ObjectValue) (made : child.parent = some out)
    (place : child.number = number) (seen : child.isCommand = true ∨ (anchor child).isSome = true) :
    Orderly out number (.addChildren child value :: ops) where
  numbers := by
    show (child :: added ops).map FastoObject.number = List.range' number (child :: added ops).length
    rw [List.map_cons, orderly.numbers, place, List.length_cons, List.range'_succ]
  attaches before member below := by
    refine ⟨⟨out, member, made⟩, ?_, seen, orderly.attaches _ (by simp) ?_⟩
    · intro old
      exact absurd (below child old) (by omega)
    · intro object inBoth
      rcases List.mem_append.mp inBoth with old | new
      · exact Nat.lt_succ_of_lt (below object old)
      · rw [List.mem_singleton.mp new, place]
        exact Nat.lt_succ_self number

theorem command (parent : FastoObject) (input : Text)
    (orderly : Orderly (.command parent number input) (number + 1) ops) :
    Orderly parent number (.addChildren (.command parent number input) (.command input) :: ops) :=
  orderly.node _ rfl rfl (Or.inl rfl)

end Orderly

theorem orderly_inTurn {A : Type} {out : FastoObject} {ops : Nat → A → List Op}
    (orderly : ∀ number first, Orderly out number (ops number first)) (number : Nat) (list : List A) :
    Orderly out number (inTurn ops number list) := by
  induction list generalizing number with
  | nil => exact Orderly.nil
  | cons first rest ih => exact (orderly number first).append (ih _)

/-- The objects made for `out` are those of a row that belongs below `parent`. -/
structure Makes (out parent : FastoObject) (number : Nat) (ops : List Op) (tree : Rose FastoObject) : Prop where
  orderly : Orderly out number ops
  added_eq : added ops = tree.values
  anchored : tree.Anchored anchor parent

namespace Makes

variable {out parent child : FastoObject} {number : Nat} {ops first last : List Op} {tree trees : Rose FastoObject}

theorem nil : Makes out parent number [] .nil := ⟨Orderly.nil, rfl, trivial⟩

theorem append (makes : Makes out parent number first tree)
    (next : Makes out parent (number + (added first).length) last trees) :
    Makes out parent number (first ++ last) (tree.append trees) where
  orderly := makes.orderly.append next.orderly
  added_eq := by rw [added_append, makes.added_eq, next.added_eq, Rose.values_append]
  anchored := (Rose.anchored_append anchor parent tree trees).mpr ⟨makes.anchored, next.anchored⟩

theorem node (makes : Makes child child (number + 1) ops tree) (value : ObjectValue) (made : child.parent = some out)
    (place : child.number = number) (here : anchor child = some parent) :
    Makes out parent number (.addChildren child value :: ops) (.node child tree .nil) where
  orderly := makes.orderly.node value made place (Or.inr (by rw [here]; rfl))
  added_eq := by
    show child :: added ops = child :: (tree.values ++ [])
    rw [makes.added_eq, List.append_nil]
  anchored := ⟨here, makes.anchored, trivial⟩

theorem appended (owner : FastoObject) (n : Nat) (value : ObjectValue) :
    Makes out parent number [.append (.array owner n) value] .nil where
  orderly := ⟨rfl, fun _ _ _ => ⟨⟨owner, n, rfl⟩, trivial⟩⟩
  added_eq := rfl
  anchored := trivial

end Makes

mutual

theorem makes_array (owner : FastoObject) (n number : Nat) (reply : Redis.Reply) :
    Makes (.array owner n) (.array owner n) number (cliFormatReplyRawArray (.array owner n) number reply)
      (nestedArray (.array owner n) number reply) := by
  cases reply with
  | array elements => exact (makes_arrays _ number (number + 1) elements).node _ rfl rfl rfl
  | _ => exact Makes.appended owner n _

theorem makes_arrays (owner : FastoObject) (n number : Nat) (elements : List Redis.Reply) :
    Makes (.array owner n) (.array owner n) number (formatElements (.array owner n) number elements)
      (nestedArrays (.array owner n) number elements) := by
  cases elements with
  | nil => exact Makes.nil
  | cons element elements =>
      have first := makes_array owner n number element
      rw [formatElements, nestedArrays, ← first.added_eq]
      exact first.append (makes_arrays owner n _ elements)

end

theorem makes_output (owner : FastoObject) (n number : Nat) (inputCommand : Text) (output : Output) :
    Makes (.command owner n inputCommand) owner number (output.ops (.command owner n inputCommand) number)
      (output.result (.command owner n inputCommand) number) := by
  have plain (value : ObjectValue) : Makes (.command owner n inputCommand) owner number
      [.addChildren (.plain (.command owner n inputCommand) number) value]
      (.leaf (.plain (.command owner n inputCommand) number)) := Makes.nil.node value rfl rfl rfl
  cases output with
  | value result => exact plain _
  | keyAdded key result => exact ⟨⟨rfl, fun _ _ _ => trivial⟩, rfl, trivial⟩
  | reply reply =>
      cases reply with
      | array elements => exact (makes_arrays _ number (number + 1) elements).node _ rfl rfl rfl
      | error text => exact Makes.nil
      | _ => exact plain _

theorem makes_outputs (owner : FastoObject) (n number : Nat) (inputCommand : Text) (outputs : List Output) :
    Makes (.command owner n inputCommand) owner number
      (inTurn (Output.ops (.command owner n inputCommand)) number outputs)
      (outputResults (.command owner n inputCommand) number outputs) := by
  induction outputs generalizing number with
  | nil => exact Makes.nil
  | cons output outputs ih => exact (makes_output owner n number inputCommand output).append (ih _)

/-! ## Growing the rows of a request -/

theorem orderly_execution (n number : Nat) (execution : Execution) :
    Orderly (.root n) number (execution.ops (.root n) number) := by
  rw [Execution.ops]
  cases createCommand execution.line with
  | none => exact Orderly.nil
  | some input =>
      dsimp only
      apply Orderly.command
      split
      · rw [slaveMode]
        split
        · exact Orderly.command _ _ (makes_outputs _ _ _ _ _).orderly
        · exact Orderly.nil
      · exact (makes_outputs _ _ _ _ _).orderly

-- The objects of a command are command objects and its results, which belong below the root or, in slave mode, below
-- the first of the command objects.
theorem execution_spec (n number : Nat) (execution : Execution) :
    ∃ commands parent, (∀ object ∈ commands, object.isCommand = true) ∧
      added (execution.ops (.root n) number) = commands ++ (execution.results (.root n) number).values ∧
      (execution.results (.root n) number).Anchored anchor parent ∧
      if execution.inSlaveMode then parent ∈ commands else parent = .root n := by
  rw [Execution.ops, Execution.results, Execution.inSlaveMode]
  cases createCommand execution.line with
  | none => exact ⟨[], .root n, by simp, rfl, trivial, rfl⟩
  | some input =>
      by_cases sync : handler input = some .sync
      · cases synced : execution.synced with
        | false =>
            refine ⟨[.command (.root n) number input], .root n, by simp [FastoObject.isCommand], ?_, ?_, ?_⟩
            · simp [sync, slaveMode, synced, added, Op.child?, Rose.values]
            · simp [sync, Rose.Anchored]
            · simp [sync]
        | true =>
            have makes := makes_outputs (.command (.root n) number input) (number + 1) (number + 2) syncRequest
              execution.outputs
            refine ⟨[.command (.root n) number input,
                .command (.command (.root n) number input) (number + 1) syncRequest],
              .command (.root n) number input, by simp [FastoObject.isCommand], ?_, ?_, ?_⟩
            · simp only [sync, slaveMode, synced, if_true, ← makes.added_eq]
              rfl
            · simpa [sync] using makes.anchored
            · simp [sync]
      · have makes := makes_outputs (.root n) number (number + 1) input execution.outputs
        refine ⟨[.command (.root n) number input], .root n, by simp [FastoObject.isCommand], ?_, ?_, ?_⟩
        · simp only [sync, if_false, ← makes.added_eq]
          rfl
        · simpa [sync] using makes.anchored
        · simp [sync]

-- The results of a command that are shown.
def Execution.shown (root : FastoObject) (number : Nat) (execution : Execution) : Rose FastoObject :=
  if execution.inSlaveMode then .nil else execution.results root number

def Request.shown (n : Nat) (request : Request) : Rose FastoObject :=
  resultsInTurn (Execution.ops (.root n)) (Execution.shown (.root n)) 1 request.commands

theorem not_command_of_anchored {parent object : FastoObject} {tree : Rose FastoObject}
    (anchored : tree.Anchored anchor parent) (member : object ∈ tree.values) : object.isCommand = false := by
  induction tree generalizing parent with
  | nil => simp [Rose.values] at member
  | node value children rest below ih =>
      obtain ⟨here, inChildren, inRest⟩ := anchored
      simp only [Rose.values, List.mem_cons, List.mem_append] at member
      rcases member with rfl | inside | outside
      · cases object with
        | command => cases here
        | _ => rfl
      · exact below inChildren inside
      · exact ih inRest outside

section Grow

variable (n number : Nat)

theorem shown_spec (execution : Execution) (object : FastoObject)
    (member : object ∈ (execution.shown (.root n) number).values) :
    object ∈ added (execution.ops (.root n) number) ∧ object.isCommand = false := by
  obtain ⟨commands, parent, -, made, anchored, -⟩ := execution_spec n number execution
  rw [Execution.shown] at member
  split at member
  · simp [Rose.values] at member
  · exact ⟨made ▸ List.mem_append_right commands member, not_command_of_anchored anchored member⟩

theorem foldl_grow_commands (commands : List FastoObject) (whole : Rose FastoObject)
    (only : ∀ object ∈ commands, object.isCommand = true) : commands.foldl (Rose.grow anchor) whole = whole := by
  induction commands with
  | nil => rfl
  | cons command commands ih =>
      rw [List.forall_mem_cons] at only
      have ignored : Rose.grow anchor whole command = whole := by
        cases command with
        | command => rfl
        | _ => cases only.1
      rw [List.foldl_cons, ignored, ih only.2]

-- Commands are not shown, and the results of one are added below the root unless they are lost.
theorem foldl_grow_execution (execution : Execution) (whole : Rose FastoObject) (rooted : .root n ∈ whole.values)
    (items : ∀ object ∈ whole.values, object.isCommand = false ∧ object.number < number) :
    (added (execution.ops (.root n) number)).foldl (Rose.grow anchor) whole =
      whole.graft (.root n) (execution.shown (.root n) number) := by
  obtain ⟨commands, parent, only, made, anchored, place⟩ := execution_spec n number execution
  have orderly := orderly_execution n number execution
  have nodup := orderly.nodup
  have fresh (object : FastoObject) (member : object ∈ added (execution.ops (.root n) number)) :
      object ∉ whole.values := by
    intro old
    exact absurd (items object old).2 (Nat.not_lt.mpr (orderly.bounds object member).1)
  rw [made] at nodup fresh
  rw [List.nodup_append'] at nodup
  rw [made, List.foldl_append, foldl_grow_commands commands whole only]
  have grown (outside : parent ∉ (execution.results (.root n) number).values) :=
    Rose.foldl_grow anchored nodup.2.1 (fun object member => fresh object (List.mem_append_right _ member)) outside
  rw [Execution.shown]
  cases slave : execution.inSlaveMode with
  | false =>
      obtain rfl : parent = .root n := by simpa [slave] using place
      rw [grown fun member => fresh _ (List.mem_append_right _ member) rooted]
      rfl
  | true =>
      have inCommands : parent ∈ commands := by simpa [slave] using place
      rw [grown fun member => nodup.2.2 inCommands member, if_pos rfl, Rose.graft_nil,
        Rose.graft_of_not_mem (fresh parent (List.mem_append_left _ inCommands))]

theorem foldl_grow_executions (executions : List Execution) (whole : Rose FastoObject)
    (rooted : .root n ∈ whole.values)
    (items : ∀ object ∈ whole.values, object.isCommand = false ∧ object.number < number) :
    (added (inTurn (Execution.ops (.root n)) number executions)).foldl (Rose.grow anchor) whole =
      whole.graft (.root n)
        (resultsInTurn (Execution.ops (.root n)) (Execution.shown (.root n)) number executions) := by
  induction executions generalizing number whole with
  | nil => exact (Rose.graft_nil _).symm
  | cons execution executions ih =>
      have orderly := orderly_execution n number execution
      have absent : FastoObject.root n ∉ (execution.shown (.root n) number).values := by
        intro member
        have new := (orderly.bounds _ (shown_spec n number execution _ member).1).1
        exact absurd (items _ rooted).2 (Nat.not_lt.mpr new)
      rw [inTurn, resultsInTurn, added_append, List.foldl_append,
        foldl_grow_execution n number execution whole rooted items, ih, Rose.graft_graft absent]
      · exact Rose.mem_values_graft_of_mem rooted
      · intro object member
        rcases Rose.mem_values_graft member with old | new
        · exact ⟨(items object old).1, Nat.lt_add_right _ (items object old).2⟩
        · obtain ⟨made, item⟩ := shown_spec n number execution object new
          exact ⟨item, (orderly.bounds object made).2⟩

end Grow

/-! ## The results that are lost -/

-- No reply that `SlaveMode` reads makes an object.
def Execution.Kept (execution : Execution) : Prop :=
  execution.inSlaveMode = true → ∀ output ∈ execution.outputs, output.childless = true

def Request.Kept (request : Request) : Prop := ∀ execution ∈ request.commands, execution.Kept

theorem outputResults_eq_nil_iff (out : FastoObject) (number : Nat) (outputs : List Output) :
    outputResults out number outputs = .nil ↔ ∀ output ∈ outputs, output.childless = true := by
  have append_eq_nil (first last : Rose FastoObject) : first.append last = .nil ↔ first = .nil ∧ last = .nil := by
    cases first <;> simp [Rose.append]
  induction outputs generalizing number with
  | nil => simp [outputResults, resultsInTurn]
  | cons output outputs ih =>
      have single : output.result out number = .nil ↔ output.childless = true := by
        cases output with
        | reply reply => cases reply <;> simp [Output.result, Output.childless, Rose.leaf]
        | _ => simp [Output.result, Output.childless, Rose.leaf]
      rw [List.forall_mem_cons, outputResults, resultsInTurn, append_eq_nil, single]
      exact and_congr_right fun _ => ih _

theorem execution_shown_eq_iff (root : FastoObject) (number : Nat) (execution : Execution) :
    execution.shown root number = execution.results root number ↔ execution.Kept := by
  rw [Execution.shown, Execution.Kept]
  cases slave : execution.inSlaveMode with
  | false => simp
  | true =>
      simp only [if_true, true_implies]
      rw [Execution.inSlaveMode] at slave
      rw [Execution.results]
      cases created : createCommand execution.line with
      | none => simp [created] at slave
      | some input =>
          obtain ⟨sync, synced⟩ : handler input = some .sync ∧ execution.synced = true := by
            simpa [created] using slave
          simp only [sync, synced, if_true]
          rw [← outputResults_eq_nil_iff]
          exact eq_comm

theorem length_execution_shown (root : FastoObject) (number : Nat) (execution : Execution) :
    (execution.shown root number).values.length ≤ (execution.results root number).values.length ∧
      (¬ execution.Kept →
        (execution.shown root number).values.length < (execution.results root number).values.length) := by
  rw [← execution_shown_eq_iff root number, Execution.shown]
  split
  · cases execution.results root number <;> simp [Rose.values]
  · simp

-- All results of the commands are shown, or there are fewer items than results.
theorem shown_or_fewer (n number : Nat) (executions : List Execution) :
    let shown := resultsInTurn (Execution.ops (.root n)) (Execution.shown (.root n)) number executions
    let results := resultsInTurn (Execution.ops (.root n)) (Execution.results (.root n)) number executions
    (∀ execution ∈ executions, execution.Kept) ∧ shown = results ∨
      ¬ (∀ execution ∈ executions, execution.Kept) ∧ shown.values.length < results.values.length := by
  induction executions generalizing number with
  | nil => exact Or.inl ⟨by simp, rfl⟩
  | cons execution executions ih =>
      have first := length_execution_shown (.root n) number execution
      simp only [resultsInTurn, Rose.values_append, List.length_append, List.forall_mem_cons]
      rcases ih (number + (added (execution.ops (.root n) number)).length) with ⟨all, rest⟩ | ⟨lost, rest⟩
      · by_cases kept : execution.Kept
        · rw [rest, (execution_shown_eq_iff (.root n) number execution).mpr kept]
          exact Or.inl ⟨⟨kept, all⟩, rfl⟩
        · rw [rest]
          exact Or.inr ⟨fun both => kept both.1, Nat.add_lt_add_right (first.2 kept) _⟩
      · exact Or.inr ⟨fun both => lost both.2, Nat.add_lt_add_of_le_of_lt first.1 rest⟩

end FastoNoSQL.OutputTree
