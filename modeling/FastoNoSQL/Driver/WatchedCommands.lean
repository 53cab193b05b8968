import FastoNoSQL.Driver.WatchLocker
import Mathlib.Data.Nat.Find

set_option autoImplicit false

/-!
# Watched commands

A request without history, in `HandleExecuteEvent` of `core/driver/idriver.cpp`:
its lines are executed round after round, and a `FirstChildUpdateRootLocker`
observes the objects.
-/

namespace FastoNoSQL.OutputTree

open Bytes

/-! ## A request without history -/

-- The lines are executed in turn, again and again; an outcome tells whether `SendSync` succeeds, and what is made.
def execution (commands : List Text) (outcomes : Nat → Bool × List Output) (k : Nat) : Execution :=
  { line := commands.getD (k % commands.length) [], synced := (outcomes k).1, outputs := (outcomes k).2 }

def executions (commands : List Text) (outcomes : Nat → Bool × List Output) (m : Nat) : List Execution :=
  (List.range m).map (execution commands outcomes)

/-- The observer of a request after `m` executions. -/
def watch (n : Nat) (text : Text) (commands : List Text) (outcomes : Nat → Bool × List Output) (m : Nat) :
    WatchLocker :=
  ({ commands := commands.length } : WatchLocker).performs
    (.createRoot (.root n) text :: inTurn (Execution.ops (.root n)) 1 (executions commands outcomes m))

-- The text of the command object that the execution after `k` others is for.
def textAt (commands : List Text) (k : Nat) : Text := stableCommand (commands.getD (k % commands.length) [])

theorem inputCommand_execution (commands : List Text) (outcomes : Nat → Bool × List Output) (k : Nat) :
    (execution commands outcomes k).inputCommand = textAt commands k := by
  rw [Execution.inputCommand, createCommand]
  split
  · next empty => exact empty.symm
  · rfl

theorem inTurn_concat {A : Type} (ops : Nat → A → List Op) (number : Nat) (list : List A) (last : A) :
    inTurn ops number (list ++ [last]) =
      inTurn ops number list ++ ops (number + (added (inTurn ops number list)).length) last := by
  induction list generalizing number with
  | nil => simp [inTurn]
  | cons first rest ih =>
      rw [List.cons_append, inTurn, ih, inTurn, List.append_assoc, added_append, List.length_append, Nat.add_assoc]

namespace WatchLocker

variable {locker : WatchLocker}

/-! ## The executions of a request -/

section Executions

variable (n : Nat) (text : Text) (commands : List Text) (outcomes : Nat → Bool × List Output)

-- The number of the object that is made after `m` executions.
def place (m : Nat) : Nat :=
  1 + (added (inTurn (Execution.ops (.root n)) 1 (executions commands outcomes m))).length

def node (k : Nat) : FastoObject :=
  .command (.root n) (place n commands outcomes k) (execution commands outcomes k).inputCommand

theorem node_isCommand (k : Nat) : (node n commands outcomes k).isCommand = true := rfl

theorem node_parent (k : Nat) : (node n commands outcomes k).parent = some (.root n) := rfl

theorem inTurn_executions_succ (m : Nat) :
    inTurn (Execution.ops (.root n)) 1 (executions commands outcomes (m + 1)) =
      inTurn (Execution.ops (.root n)) 1 (executions commands outcomes m) ++
        (execution commands outcomes m).ops (.root n) (place n commands outcomes m) := by
  rw [executions, List.range_succ, List.map_append, List.map_singleton, inTurn_concat]
  rfl

theorem watch_succ (m : Nat) :
    watch n text commands outcomes (m + 1) =
      (watch n text commands outcomes m).performs
        ((execution commands outcomes m).ops (.root n) (place n commands outcomes m)) := by
  rw [watch, inTurn_executions_succ, performs_cons, performs_append]
  rfl

theorem place_succ (m : Nat) :
    place n commands outcomes (m + 1) =
      place n commands outcomes m +
        (added ((execution commands outcomes m).ops (.root n) (place n commands outcomes m))).length := by
  rw [place, inTurn_executions_succ, added_append, List.length_append, ← Nat.add_assoc]
  rfl

theorem place_lt {i j : Nat} (before : i < j) (direct : ∀ k < j, (execution commands outcomes k).Direct) :
    place n commands outcomes i < place n commands outcomes j := by
  induction j with
  | zero => omega
  | succ j ih =>
      have grows : place n commands outcomes j < place n commands outcomes (j + 1) := by
        rw [place_succ, Execution.ops_of_direct _ _ _ (direct j (Nat.lt_succ_self j))]
        simp [added, Op.child?]
      rcases Nat.lt_succ_iff_lt_or_eq.mp before with earlier | rfl
      · exact (ih earlier fun k below => direct k (Nat.lt_succ_of_lt below)).trans grows
      · exact grows

end Executions

section Watching

variable (n : Nat) (text : Text) (commands : List Text) (outcomes : Nat → Bool × List Output)

/-- What the node at position `k` shows after `m` executions: its own first result when its text was watched before,
else the last result of the latest execution of its text. -/
def Latest (m k : Nat) (value : Option ObjectValue) : Prop :=
  ((∃ j < k, textAt commands j = textAt commands k) → value = (execution commands outcomes k).first) ∧
    ((∀ j < k, textAt commands j ≠ textAt commands k) →
      ∃ j < m, textAt commands j = textAt commands k ∧ (∀ i < m, j < i → textAt commands i ≠ textAt commands k) ∧
        value = (execution commands outcomes j).last)

/-- The first commands are watched, and show what was latest. -/
structure Watching (m : Nat) (locker : WatchLocker) : Prop where
  limit : locker.commands = commands.length
  watchedCmds : locker.watchedCmds = (List.range (min m commands.length)).map (node n commands outcomes)
  forwarded : locker.forwarded = locker.watchedCmds
  observed : FastoObject.root n ∈ locker.objects.observed
  shown : ∃ panel, locker.Follows (place n commands outcomes m) panel ∧
    ∀ k < min m commands.length, Latest commands outcomes m k (panel (node n commands outcomes k))

theorem watching_start : Watching n commands outcomes 0 (watch n text commands outcomes 0) := by
  refine ⟨rfl, ?_, rfl, List.mem_singleton_self _, fun _ => none, ⟨fun _ _ => ⟨rfl, rfl⟩, ?_, ?_, rfl⟩, ?_⟩
  · rw [Nat.zero_min]
    rfl
  · intro watched member
    cases member
  · intro watched member
    cases member
  · intro k below
    simp at below

variable {n text commands outcomes} {m : Nat}

/-- The first position of a text is watched by then. -/
theorem exists_first (given : commands ≠ []) (m : Nat) :
    ∃ first < min (m + 1) commands.length, textAt commands first = textAt commands m ∧
      ∀ j < first, textAt commands j ≠ textAt commands m := by
  have length : 0 < commands.length := List.length_pos_iff.mpr given
  have same : textAt commands (m % commands.length) = textAt commands m := by
    rw [textAt, Nat.mod_mod, textAt]
  have exists_ : ∃ first, textAt commands first = textAt commands m := ⟨_, same⟩
  refine ⟨Nat.find exists_, ?_, Nat.find_spec exists_, fun j before => Nat.find_min exists_ before⟩
  have inRound : m % commands.length < commands.length := Nat.mod_lt m length
  have early := Nat.find_min' exists_ same
  have own := Nat.find_min' exists_ rfl
  omega

theorem node_inj {i j : Nat} (before : i ≤ m) (old : j ≤ m) (direct : ∀ k < m, (execution commands outcomes k).Direct)
    (same : node n commands outcomes i = node n commands outcomes j) : i = j := by
  have numbers : place n commands outcomes i = place n commands outcomes j := congrArg FastoObject.number same
  rcases Nat.lt_trichotomy i j with less | rfl | more
  · exact absurd numbers (place_lt n commands outcomes less fun k below => direct k (by omega)).ne
  · rfl
  · exact absurd numbers (place_lt n commands outcomes more fun k below => direct k (by omega)).ne'

theorem Latest.isSome {k : Nat} {value : Option ObjectValue} (latest : Latest commands outcomes m k value)
    (below : k < m) (direct : ∀ j < m, (execution commands outcomes j).Direct) : value ≠ none := by
  by_cases repeated : ∃ j < k, textAt commands j = textAt commands k
  · rw [latest.1 repeated]
    simpa [Execution.first] using (direct k below).2.2
  · push Not at repeated
    obtain ⟨j, before, -, -, rfl⟩ := latest.2 repeated
    simpa [Execution.last] using (direct j before).2.2

/-- The first position of the text of the next command shows its last result, a new one its first result. -/
theorem Latest.step {panel : Panel} {first : Nat} (m : Nat)
    (direct : ∀ k < m + 1, (execution commands outcomes k).Direct)
    (same : textAt commands first = textAt commands m) (before : ∀ j < first, textAt commands j ≠ textAt commands m)
    (early : first ≤ m)
    (shown : ∀ k < min m commands.length, Latest commands outcomes m k (panel (node n commands outcomes k)))
    (k : Nat) (below : k < min (m + 1) commands.length) :
    Latest commands outcomes (m + 1) k
      ((values (execution commands outcomes m).outputs).foldl
        (showResult (node n commands outcomes m) (node n commands outcomes first))
        (Function.update panel (node n commands outcomes m) none) (node n commands outcomes k)) := by
  have results := (direct m (Nat.lt_succ_self m)).2.2
  have apart {i j : Nat} (older : i ≤ m) (old : j ≤ m) (other : i ≠ j) :
      node n commands outcomes i ≠ node n commands outcomes j :=
    fun equal => other (node_inj older old (fun k within => direct k (Nat.lt_succ_of_lt within)) equal)
  rw [Nat.lt_min] at below
  by_cases isFirst : k = first
  · subst isFirst
    rw [panel_watched _ _ _ _ results]
    constructor
    · rintro ⟨j, earlier, equal⟩
      exact absurd (equal.trans same) (before j earlier)
    · intro _
      exact ⟨m, Nat.lt_succ_self m, same.symm, fun i within later => by omega, rfl⟩
  · by_cases isNew : k = m
    · subst isNew
      rw [panel_cmd _ _ _ _ (apart le_rfl early isFirst), Function.update_self]
      constructor
      · intro _
        rfl
      · intro new
        exact absurd same (new first (by omega))
    · have within : k < m := by omega
      rw [panel_other _ _ _ _ (apart within.le le_rfl isNew) (apart within.le early isFirst),
        Function.update_of_ne (apart within.le le_rfl isNew)]
      obtain ⟨repeated, single⟩ := shown k (Nat.lt_min.mpr ⟨within, below.2⟩)
      refine ⟨repeated, fun new => ?_⟩
      obtain ⟨j, earlier, equal, latest, value⟩ := single new
      refine ⟨j, Nat.lt_succ_of_lt earlier, equal, ?_, value⟩
      intro i least later
      rcases Nat.lt_succ_iff_lt_or_eq.mp least with older | rfl
      · exact latest i older later
      · intro again
        rcases Nat.lt_trichotomy k first with less | rfl | more
        · exact before k less again.symm
        · exact isFirst rfl
        · exact new first more (same.trans again)

theorem Watching.grown {locker : WatchLocker} (watching : Watching n commands outcomes m locker) :
    locker.watchedCmds ++ locker.new (node n commands outcomes m) =
      (List.range (min (m + 1) commands.length)).map (node n commands outcomes) := by
  rw [new, watching.limit, watching.watchedCmds, List.length_map, List.length_range]
  by_cases less : m < commands.length
  · rw [if_neg (by omega), Nat.min_eq_left less.le, Nat.min_eq_left less, List.range_succ, List.map_append,
      List.map_singleton]
  · rw [if_pos (by omega), Nat.min_eq_right (by omega), Nat.min_eq_right (by omega), List.append_nil]

theorem Watching.step {locker : WatchLocker} (watching : Watching n commands outcomes m locker) (given : commands ≠ [])
    (direct : ∀ k < m + 1, (execution commands outcomes k).Direct)
    (flat : ∀ output ∈ (execution commands outcomes m).outputs, output.flat = true) :
    Watching n commands outcomes (m + 1)
      (locker.performs ((execution commands outcomes m).ops (.root n) (place n commands outcomes m))) := by
  obtain ⟨panel, follows, shown⟩ := watching.shown
  obtain ⟨first, within, same, before⟩ := exists_first given m
  rw [Nat.lt_min] at within
  have found :
      (locker.watchedCmds ++ locker.new (node n commands outcomes m)).find?
        (fun object => object.inputCommand = (node n commands outcomes m).inputCommand) =
          some (node n commands outcomes first) := by
    rw [watching.grown, List.find?_map]
    have least : (List.range (min (m + 1) commands.length)).find?
        ((fun object => decide (object.inputCommand = (node n commands outcomes m).inputCommand)) ∘
          node n commands outcomes) = some first := by
      rw [List.find?_range_eq_some]
      simp only [Function.comp_apply, node, FastoObject.inputCommand, inputCommand_execution, decide_eq_true_eq,
        List.mem_range, Nat.lt_min, Bool.not_eq_true', decide_eq_false_iff_not]
      exact ⟨same, within, before⟩
    rw [least, Option.map_some]
  have ready : panel (node n commands outcomes first) ≠ none ∧
      node n commands outcomes first ≠ node n commands outcomes m ∨
        node n commands outcomes first = node n commands outcomes m := by
    rcases Nat.lt_succ_iff_lt_or_eq.mp within.1 with less | rfl
    · refine Or.inl ⟨?_, fun equal => ?_⟩
      · exact (shown first (Nat.lt_min.mpr ⟨less, within.2⟩)).isSome less fun j older => direct j (by omega)
      · exact less.ne (node_inj less.le le_rfl (fun k older => direct k (by omega)) equal)
    · exact Or.inr rfl
  obtain ⟨after, limit, watched, forwarded, observed⟩ :=
    follows.execution watching.observed _ (direct m (Nat.lt_succ_self m)) flat found ready
  rw [← place_succ] at after
  refine ⟨limit.trans watching.limit, watched.trans watching.grown, ?_, observed, _, after, ?_⟩
  · rw [forwarded, watched, watching.forwarded]
  · exact Latest.step m direct same before (Nat.lt_succ_iff.mp within.1) shown

/-- The observer of a request whose commands have direct results without nested arrays. -/
theorem watching (given : commands ≠ []) (m : Nat) (direct : ∀ k < m, (execution commands outcomes k).Direct)
    (flat : ∀ k < m, ∀ output ∈ (execution commands outcomes k).outputs, output.flat = true) :
    Watching n commands outcomes m (watch n text commands outcomes m) := by
  induction m with
  | zero => exact watching_start n text commands outcomes
  | succ m ih =>
      rw [watch_succ]
      exact (ih (fun k below => direct k (by omega)) fun k below => flat k (by omega)).step given direct
        (flat m (Nat.lt_succ_self m))

end Watching

/-! ## Nested arrays -/

section Nested

theorem childrenAdded_objects (locker : WatchLocker) (child : FastoObject) :
    (locker.childrenAdded child).objects = locker.objects := by
  rw [childrenAdded]
  split
  · split <;> rfl
  · split
    · rfl
    · split <;> rfl

theorem childrenAdded_notReached (child : FastoObject) (reached : locker.notReached = true) :
    (locker.childrenAdded child).notReached = true := by
  rw [childrenAdded]
  split
  · split <;> exact reached
  · split
    · rfl
    · split <;> exact reached

/-- Only a root takes objects from the observer, and `NOTREACHED` is not undone. -/
theorem addChildren_mono (locker : WatchLocker) (child : FastoObject) (initial : ObjectValue) :
    locker.objects.observed ⊆ (locker.addChildren child initial).objects.observed ∧
      (locker.notReached = true → (locker.addChildren child initial).notReached = true) := by
  have grown := Objects.observed_addChildren locker.objects child initial
  rw [addChildren]
  split
  · exact ⟨List.Subset.refl _, id⟩
  · split
    · rw [childrenAdded_objects]
      exact ⟨grown, fun reached => childrenAdded_notReached child reached⟩
    · exact ⟨grown, id⟩

theorem performs_mono (locker : WatchLocker) {before : List FastoObject} {ops : List Op}
    (attaches : Attaches before ops) :
    locker.objects.observed ⊆ (locker.performs ops).objects.observed ∧
      (locker.notReached = true → (locker.performs ops).notReached = true) := by
  induction ops generalizing locker before with
  | nil => exact ⟨List.Subset.refl _, id⟩
  | cons op ops ih =>
      rw [performs_cons]
      cases op with
      | createRoot root text => exact attaches.elim
      | addChildren child value =>
          have first := locker.addChildren_mono child value
          have rest := ih (locker.addChildren child value) attaches.2.2.2
          exact ⟨List.Subset.trans first.1 rest.1, fun reached => rest.2 (first.2 reached)⟩
      | append array value => exact ih (locker.perform (.append array value)) attaches.2
      | keyAdded key value => exact ih (locker.perform (.keyAdded key value)) attaches

-- The parent of a nested array is no command.
theorem addChildren_nested {array child : FastoObject} (initial : ObjectValue) (made : child.parent = some array)
    (inArray : array.isCommand = false) (plain : child.isCommand = false)
    (observed : array ∈ locker.objects.observed) : (locker.addChildren child initial).notReached = true := by
  simp only [addChildren, made, observed, if_true, childrenAdded, plain, findCmdChildNode, Option.bind_some, inArray,
    Bool.false_eq_true, if_false]

theorem formatElements_nested (owner : FastoObject) (n number : Nat) (before : n < number)
    (elements : List Redis.Reply) (nested : ∃ element ∈ elements, (scalar? element).isSome = false)
    (observed : FastoObject.array owner n ∈ locker.objects.observed) :
    (locker.performs (formatElements (.array owner n) number elements)).notReached = true := by
  induction elements generalizing locker number with
  | nil => simp at nested
  | cons element elements ih =>
      have rest (number : Nat) (later : n < number) :
          Attaches [.array owner n] (formatElements (.array owner n) number elements) :=
        (makes_arrays owner n number elements).orderly.attaches_alone later
      rw [formatElements, performs_append]
      cases element with
      | array inner =>
          have inside := (makes_arrays (.array owner n) number (number + 1) inner).orderly.attaches_alone
            (Nat.lt_succ_self number)
          refine (performs_mono _ (rest _ (Nat.lt_add_right _ before))).2 ?_
          rw [cliFormatReplyRawArray, performs_cons]
          exact (performs_mono _ inside).2 (addChildren_nested _ rfl rfl rfl observed)
      | _ =>
          refine ih _ (Nat.lt_add_right _ before) ?_ observed
          simpa [scalar?] using nested

theorem output_nested (owner : FastoObject) (n number : Nat) (inputCommand : Text) (output : Output)
    (observed : FastoObject.command owner n inputCommand ∈ locker.objects.observed) (nested : output.flat = false) :
    (locker.performs (output.ops (.command owner n inputCommand) number)).notReached = true := by
  cases output with
  | reply reply =>
      cases reply with
      | array elements =>
          rw [Output.flat, List.all_eq_false] at nested
          rw [Output.ops, cliFormatReplyRaw, performs_cons]
          refine formatElements_nested _ number (number + 1) (Nat.lt_succ_self number) elements
            (by simpa using nested) ?_
          have attached : FastoObject.array (.command owner n inputCommand) number ∈
              (locker.objects.addChildren (.array (.command owner n inputCommand) number) (.array [])).1.observed := by
            simp [Objects.addChildren, FastoObject.parent, Objects.make, observed]
          simp only [perform, addChildren, FastoObject.parent, observed, if_true, childrenAdded_objects]
          exact attached
      | _ => simp [Output.flat] at nested
  | _ => simp [Output.flat] at nested

theorem outputs_nested (owner : FastoObject) (n number : Nat) (inputCommand : Text) (outputs : List Output)
    (before : n < number) (observed : FastoObject.command owner n inputCommand ∈ locker.objects.observed)
    (nested : ∃ output ∈ outputs, output.flat = false) :
    (locker.performs (inTurn (Output.ops (.command owner n inputCommand)) number outputs)).notReached = true := by
  induction outputs generalizing locker number with
  | nil => simp at nested
  | cons output outputs ih =>
      have first := (makes_output owner n number inputCommand output).orderly.attaches_alone before
      have later := Nat.lt_add_right (added (output.ops (.command owner n inputCommand) number)).length before
      rw [inTurn, performs_append]
      by_cases flat : output.flat = true
      · refine ih _ later ((performs_mono _ first).1 observed) ?_
        simpa [flat] using nested
      · refine (performs_mono _ ((makes_outputs owner n _ inputCommand outputs).orderly.attaches_alone later)).2 ?_
        exact output_nested owner n number inputCommand output observed (by simpa using flat)

variable (n : Nat) (text : Text) (commands : List Text) (outcomes : Nat → Bool × List Output)

theorem attaches_execution (m : Nat) :
    Attaches [.root n] ((execution commands outcomes m).ops (.root n) (place n commands outcomes m)) :=
  (orderly_execution n _ (execution commands outcomes m)).attaches_alone (Nat.lt_add_right _ Nat.one_pos)

theorem watch_observed (m : Nat) : FastoObject.root n ∈ (watch n text commands outcomes m).objects.observed := by
  induction m with
  | zero => exact List.mem_singleton_self _
  | succ m ih =>
      rw [watch_succ]
      exact (performs_mono _ (attaches_execution n commands outcomes m)).1 ih

/-- A nested array reaches `NOTREACHED`. -/
theorem watch_nested {m k : Nat} (below : k < m) (direct : (execution commands outcomes k).Direct)
    (nested : ∃ output ∈ (execution commands outcomes k).outputs, output.flat = false) :
    (watch n text commands outcomes m).notReached = true := by
  induction m with
  | zero => omega
  | succ m ih =>
      rw [watch_succ]
      rcases Nat.lt_succ_iff_lt_or_eq.mp below with earlier | rfl
      · exact (performs_mono _ (attaches_execution n commands outcomes m)).2 (ih earlier)
      · have cmd := addChildren_command_keeps (node_isCommand n commands outcomes k) (node_parent n commands outcomes k)
          (watch_observed n text commands outcomes k) (.command (execution commands outcomes k).inputCommand)
        rw [Execution.ops_of_direct _ _ _ direct, performs_cons]
        exact outputs_nested _ _ _ _ _ (Nat.lt_succ_self _) cmd.2.2.2.1 nested

end Nested

/-! ## Rounds -/

section Rounds

variable (n : Nat) (text : Text) (commands : List Text) (outcomes : Nat → Bool × List Output)

/-- The nodes of the commands are forwarded, and show the first results of the latest round. -/
structure Watched (m : Nat) : Prop where
  reached : (watch n text commands outcomes m).notReached = false
  distinct : (watch n text commands outcomes m).forwarded.Nodup
  forwarded : (watch n text commands outcomes m).forwarded.map FastoObject.inputCommand =
    (commands.take m).map stableCommand
  latest : ∀ round i, (round + 1) * commands.length ≤ m → i < commands.length →
    let locker := watch n text commands outcomes ((round + 1) * commands.length)
    ∃ node first, locker.forwarded[i]? = some node ∧ (locker.childrens node).head? = some first ∧
      (execution commands outcomes (round * commands.length + i)).first = some (locker.shows first)

/-- In a round, a text that was executed before has the result of the first round, and one that was not has the result
that it has last. -/
structure SettledAt (round i : Nat) : Prop where
  repeated : (∃ j < i, textAt commands j = textAt commands i) →
    (execution commands outcomes (round * commands.length + i)).first = (execution commands outcomes i).first
  single : (∀ j < i, textAt commands j ≠ textAt commands i) →
    ∀ j < commands.length, textAt commands j = textAt commands i →
      (∀ k < commands.length, j < k → textAt commands k ≠ textAt commands i) →
        (execution commands outcomes (round * commands.length + i)).first =
          (execution commands outcomes (round * commands.length + j)).last

/-- No array is nested in another, and every completed round is settled. -/
structure Settled (m : Nat) : Prop where
  flat : ∀ k < m, ∀ output ∈ (execution commands outcomes k).outputs, output.flat = true
  rounds : ∀ round i, (round + 1) * commands.length ≤ m → i < commands.length → SettledAt commands outcomes round i

theorem textAt_add (round i : Nat) : textAt commands (round * commands.length + i) = textAt commands i := by
  rw [textAt, Nat.mul_add_mod', textAt]

variable {n text commands outcomes} {m : Nat}

-- The latest execution of a text is its last one in the round.
theorem last_of_latest {round i j : Nat} (within : i < commands.length)
    (before : j < (round + 1) * commands.length) (same : textAt commands j = textAt commands i)
    (latest : ∀ k < (round + 1) * commands.length, j < k → textAt commands k ≠ textAt commands i) :
    ∃ last < commands.length, j = round * commands.length + last ∧ textAt commands last = textAt commands i ∧
      ∀ k < commands.length, last < k → textAt commands k ≠ textAt commands i := by
  have length : (round + 1) * commands.length = round * commands.length + commands.length := Nat.succ_mul _ _
  have late : round * commands.length + i ≤ j := by
    by_contra earlier
    exact latest _ (by omega) (Nat.lt_of_not_le earlier) (textAt_add commands round i)
  obtain ⟨last, rfl⟩ := Nat.exists_eq_add_of_le (Nat.le_of_add_right_le late)
  rw [textAt_add] at same
  refine ⟨last, by omega, rfl, same, fun k below later again => ?_⟩
  exact latest (round * commands.length + k) (by omega) (by omega) (by rw [textAt_add, again])

theorem Latest.eq_first_iff {round i : Nat} {value : Option ObjectValue} (within : i < commands.length)
    (latest : Latest commands outcomes ((round + 1) * commands.length) i value) :
    (execution commands outcomes (round * commands.length + i)).first = value ↔
      SettledAt commands outcomes round i := by
  by_cases repeated : ∃ j < i, textAt commands j = textAt commands i
  · rw [latest.1 repeated]
    refine ⟨fun first => ⟨fun _ => first, ?_⟩, fun settled => settled.repeated repeated⟩
    intro new
    obtain ⟨j, before, same⟩ := repeated
    exact absurd same (new j before)
  · have new : ∀ j < i, textAt commands j ≠ textAt commands i := by
      push Not at repeated
      exact repeated
    obtain ⟨j, before, same, after, rfl⟩ := latest.2 new
    obtain ⟨last, inRound, rfl, sameLast, afterLast⟩ := last_of_latest within before same after
    refine ⟨fun first => ⟨fun again => absurd again repeated, ?_⟩, fun settled => ?_⟩
    · intro _ other below equal others
      have unique : other = last := by
        rcases Nat.lt_trichotomy other last with less | here | more
        · exact absurd sameLast (others last inRound less)
        · exact here
        · exact absurd equal (afterLast other below more)
      rw [first, unique]
    · exact settled.single new last inRound sameLast afterLast

/-- The nodes that are forwarded, with what they show. -/
theorem shown_of_flat (given : commands ≠ []) (direct : ∀ k < m, (execution commands outcomes k).Direct)
    (flat : ∀ k < m, ∀ output ∈ (execution commands outcomes k).outputs, output.flat = true)
    {i : Nat} (within : i < commands.length) (early : i < m) :
    let locker := watch n text commands outcomes m
    ∃ node first, locker.forwarded[i]? = some node ∧ (locker.childrens node).head? = some first ∧
      Latest commands outcomes m i (some (locker.shows first)) := by
  have all : Watching n commands outcomes m (watch n text commands outcomes m) := watching given m direct flat
  obtain ⟨panel, follows, shown⟩ := all.shown
  have below : i < min m commands.length := Nat.lt_min.mpr ⟨early, within⟩
  have latest := shown i below
  have member : node n commands outcomes i ∈ (watch n text commands outcomes m).watchedCmds := by
    rw [all.watchedCmds]
    exact List.mem_map_of_mem (List.mem_range.mpr below)
  have first := follows.first _ member
  obtain ⟨result, value⟩ := Option.ne_none_iff_exists'.mp (latest.isSome early direct)
  rw [value] at latest first
  obtain ⟨child, head, -, tracks⟩ := first
  refine ⟨node n commands outcomes i, child, ?_, head, ?_⟩
  · rw [all.forwarded, all.watchedCmds]
    simp [below]
  · rw [tracks.shows]
    exact latest

theorem inputCommand_nodes (m : Nat) :
    ((List.range (min m commands.length)).map (node n commands outcomes)).map FastoObject.inputCommand =
      (commands.take m).map stableCommand := by
  apply List.ext_getElem
  · simp
  · intro k inNodes inCommands
    have within : k < commands.length := by
      simp only [List.length_map, List.length_range, Nat.lt_min] at inNodes
      exact inNodes.2
    simp only [List.map_map, List.getElem_map, List.getElem_range, Function.comp_apply, node, FastoObject.inputCommand,
      inputCommand_execution, textAt, Nat.mod_eq_of_lt within, List.getElem_take]
    rw [List.getD_eq_getElem?_getD, List.getElem?_eq_getElem within, Option.getD_some]

/-- Each node shows the first result of its latest execution exactly when the results are settled. -/
theorem watched_iff (given : commands ≠ []) (direct : ∀ k < m, (execution commands outcomes k).Direct) :
    Watched n text commands outcomes m ↔ Settled commands outcomes m := by
  have shown (flat : ∀ k < m, ∀ output ∈ (execution commands outcomes k).outputs, output.flat = true) (round i : Nat)
      (complete : (round + 1) * commands.length ≤ m) (within : i < commands.length) :
      let locker := watch n text commands outcomes ((round + 1) * commands.length)
      ∃ node first, locker.forwarded[i]? = some node ∧ (locker.childrens node).head? = some first ∧
        ((execution commands outcomes (round * commands.length + i)).first = some (locker.shows first) ↔
          SettledAt commands outcomes round i) := by
    have early : i < (round + 1) * commands.length := by
      rw [Nat.succ_mul]
      omega
    obtain ⟨node, first, nodes, head, latest⟩ :=
      shown_of_flat given (fun k below => direct k (below.trans_le complete))
        (fun k below => flat k (below.trans_le complete)) within early
    exact ⟨node, first, nodes, head, latest.eq_first_iff within⟩
  constructor
  · intro watched
    have flat : ∀ k < m, ∀ output ∈ (execution commands outcomes k).outputs, output.flat = true := by
      intro k below output member
      by_contra nested
      have reached := watch_nested n text commands outcomes below (direct k below)
        ⟨output, member, by simpa using nested⟩
      rw [watched.reached] at reached
      cases reached
    refine ⟨flat, fun round i complete within => ?_⟩
    obtain ⟨node, first, nodes, head, settled⟩ := shown flat round i complete within
    obtain ⟨node', first', nodes', head', latest⟩ := watched.latest round i complete within
    obtain rfl : node = node' := Option.some.inj (nodes.symm.trans nodes')
    obtain rfl : first = first' := Option.some.inj (head.symm.trans head')
    exact settled.mp latest
  · intro settled
    have all : Watching n commands outcomes m (watch n text commands outcomes m) :=
      watching given m direct settled.flat
    obtain ⟨panel, follows, -⟩ := all.shown
    refine ⟨follows.reached, ?_, ?_, fun round i complete within => ?_⟩
    · rw [all.forwarded, all.watchedCmds]
      refine List.Nodup.map_on (fun i inRange j alsoInRange same => ?_) List.nodup_range
      rw [List.mem_range, Nat.lt_min] at inRange alsoInRange
      exact node_inj inRange.1.le alsoInRange.1.le direct same
    · rw [all.forwarded, all.watchedCmds, inputCommand_nodes]
    · obtain ⟨node, first, nodes, head, latest⟩ := shown settled.flat round i complete within
      exact ⟨node, first, nodes, head, latest.mpr (settled.rounds round i complete within)⟩

/-! ### Two requests -/

-- `GET a` finds another value in the second round.
def getOutcomes (k : Nat) : Bool × List Output := (false, [.reply (.string (if k = 0 then ascii "x" else ascii "y"))])

theorem inputCommand_single (command : Text) (outcomes : Nat → Bool × List Output) (k : Nat) :
    (execution [command] outcomes k).inputCommand = stableCommand command := by
  rw [inputCommand_execution, textAt, List.length_singleton, Nat.mod_one]
  rfl

theorem watched_iff_get : Watched 0 (ascii "GET a") [ascii "GET a"] getOutcomes 2 := by
  have direct : ∀ k < 2, (execution [ascii "GET a"] getOutcomes k).Direct := by
    intro k _
    rw [Execution.Direct, inputCommand_single]
    exact ⟨by decide, by decide +kernel, by simp [values, execution, getOutcomes, Output.value?, scalar?]⟩
  refine (watched_iff (by simp) direct).mpr ⟨?_, ?_⟩
  · intro k _ output member
    obtain rfl := List.mem_singleton.mp member
    rfl
  · intro round i _ within
    obtain rfl : i = 0 := Nat.lt_one_iff.mp within
    refine ⟨?_, fun _ j inRound _ _ => ?_⟩
    · rintro ⟨j, before, -⟩
      omega
    · obtain rfl : j = 0 := Nat.lt_one_iff.mp inRound
      rfl

def slotsOutcomes (_ : Nat) : Bool × List Output :=
  (false, [.reply (.array [.array [.integer 0], .string (ascii "x")])])

theorem slots_not_watched :
    (∀ k < 1, (execution [ascii "CLUSTER SLOTS"] slotsOutcomes k).Direct) ∧
      ¬Watched 0 (ascii "CLUSTER SLOTS") [ascii "CLUSTER SLOTS"] slotsOutcomes 1 := by
  have direct (k : Nat) : (execution [ascii "CLUSTER SLOTS"] slotsOutcomes k).Direct := by
    rw [Execution.Direct, inputCommand_single]
    exact ⟨by decide, by decide +kernel, by simp [values, execution, slotsOutcomes, Output.value?]⟩
  refine ⟨fun k _ => direct k, fun watched => ?_⟩
  have nested : ∃ output ∈ (execution [ascii "CLUSTER SLOTS"] slotsOutcomes 0).outputs, output.flat = false :=
    ⟨_, List.mem_singleton_self _, rfl⟩
  have reached := watch_nested 0 (ascii "CLUSTER SLOTS") [ascii "CLUSTER SLOTS"] slotsOutcomes Nat.one_pos (direct 0)
    nested
  rw [watched.reached] at reached
  cases reached

end Rounds

end WatchLocker

end FastoNoSQL.OutputTree
