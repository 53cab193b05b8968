import Mathlib.Tactic.Common

set_option autoImplicit false

/-!
# Runs

A step function, its runs over lists of events, and what holds of each event in
the state in which it is handled.
-/

namespace Runs

variable {State Event : Type} (step : State → Event → State)

def run (state : State) (events : List Event) : State := events.foldl step state

@[simp] theorem run_nil (state : State) : run step state [] = state := rfl

@[simp] theorem run_cons (state : State) (event : Event) (events : List Event) :
    run step state (event :: events) = run step (step state event) events := rfl

-- The property holds of every event of the run and the state before it.
def Along (property : State → Event → Prop) (state : State) (events : List Event) : Prop :=
  ∀ before event after, events = before ++ event :: after → property (run step state before) event

section Along

variable {step} {property condition : State → Event → Prop} {state : State}

theorem along_nil : Along step property state [] := by
  intro before event after split
  simp at split

theorem along_cons (event : Event) (events : List Event) :
    Along step property state (event :: events) ↔
      property state event ∧ Along step property (step state event) events := by
  constructor
  · intro along
    refine ⟨along [] event events rfl, fun before next after split => ?_⟩
    exact along (event :: before) next after (by rw [split, List.cons_append])
  · intro ⟨first, along⟩ before next after split
    cases before with
    | nil =>
        obtain ⟨rfl, rfl⟩ := List.cons.inj split
        exact first
    | cons head before =>
        obtain ⟨rfl, rest⟩ := List.cons.inj split
        exact along before next after rest

variable (invariant : State → Prop)

theorem invariant_run (preserved : ∀ state event, invariant state → condition state event → invariant (step state event))
    (start : invariant state) (events : List Event) (along : Along step condition state events) :
    invariant (run step state events) := by
  induction events generalizing state with
  | nil => exact start
  | cons event events ih =>
      rw [along_cons] at along
      exact ih (preserved state event start along.1) along.2

-- Step by step, the property is the condition, as long as the invariant lasts.
theorem along_iff (preserved : ∀ state event, invariant state → condition state event → invariant (step state event))
    (same : ∀ state event, invariant state → (property state event ↔ condition state event))
    (start : invariant state) (events : List Event) :
    Along step property state events ↔ Along step condition state events := by
  induction events generalizing state with
  | nil => exact iff_of_true along_nil along_nil
  | cons event events ih =>
      rw [along_cons, along_cons, same state event start]
      apply and_congr_right
      intro met
      exact ih (preserved state event start met)

-- A mark that a step keeps exactly when its condition is met tells whether it always was.
theorem along_iff_marked (marked : State → Prop)
    (steps : ∀ state event, marked (step state event) ↔ marked state ∧ condition state event)
    (start : marked state) (events : List Event) :
    Along step condition state events ↔ marked (run step state events) := by
  have lost (events : List Event) (state : State) (marked' : marked (run step state events)) : marked state := by
    induction events generalizing state with
    | nil => exact marked'
    | cons event events ih => exact ((steps state event).mp (ih _ marked')).1
  induction events generalizing state with
  | nil => exact iff_of_true along_nil start
  | cons event events ih =>
      rw [along_cons, run_cons]
      constructor
      · intro ⟨met, along⟩
        exact (ih ((steps state event).mpr ⟨start, met⟩)).mp along
      · intro after
        have next := lost events _ after
        exact ⟨((steps state event).mp next).2, (ih next).mpr after⟩

end Along

-- A step that refuses some events: a run succeeds when all its events are allowed.
theorem foldlM_guarded {refusing : State → Event → Option State} {allowed : Event → Bool}
    (guarded : ∀ state event, refusing state event = if allowed event = true then some (step state event) else none)
    (events : List Event) (state : State) :
    events.foldlM refusing state =
      if ∀ event ∈ events, allowed event = true then some (run step state events) else none := by
  induction events generalizing state with
  | nil => simp
  | cons event events ih =>
      rw [List.foldlM_cons, guarded]
      by_cases first : allowed event = true
      · rw [if_pos first, Option.bind_eq_bind, Option.bind_some, ih]
        simp only [List.forall_mem_cons, first, true_and, run_cons]
      · rw [if_neg first, if_neg fun all => first (all event List.mem_cons_self)]
        rfl

/-! ## Steps that may fail -/

section Partial

variable (attempt : State → Event → Option State)

def after (state : Option State) (event : Event) : Option State := state.bind fun state => attempt state event

-- What holds of every state that there is.
def In (property : State → Event → Prop) (state : Option State) (event : Event) : Prop :=
  ∀ found ∈ state, property found event

/-- The step succeeds, and the property holds of what it does. -/
def Takes (property : State → Event → State → Prop) (state : Option State) (event : Event) : Prop :=
  ∃ before next, state = some before ∧ attempt before event = some next ∧ property before event next

variable {attempt} {condition : State → Event → Prop} {property : State → Event → State → Prop} {state : State}

theorem in_some (event : Event) : In condition (some state) event ↔ condition state event := by
  simp [In]

variable (invariant : State → Prop)

theorem invariant_after
    (steps : ∀ state event, invariant state → condition state event →
      ∃ next, attempt state event = some next ∧ invariant next ∧ property state event next)
    (start : invariant state) (events : List Event) (along : Along (after attempt) (In condition) (some state) events) :
    (∃ last, run (after attempt) (some state) events = some last ∧ invariant last) ∧
      Along (after attempt) (Takes attempt property) (some state) events := by
  induction events generalizing state with
  | nil => exact ⟨⟨state, rfl, start⟩, along_nil⟩
  | cons event events ih =>
      rw [along_cons] at along
      obtain ⟨next, stepped, holds, does⟩ := steps state event start (along.1 state rfl)
      have goes : after attempt (some state) event = some next := stepped
      rw [goes] at along
      obtain ⟨last, later⟩ := ih holds along.2
      rw [along_cons, run_cons, goes]
      exact ⟨last, ⟨state, next, rfl, stepped, does⟩, later⟩

/-- Each step moves something as long as it does not end the run, and behind the end nothing can happen. What was moved
is counted against the work that there was. -/
theorem moves_after (work : State → Nat) (moves : Event → Bool) (stays ends : State → State → Prop)
    (steps : ∀ state event, invariant state → condition state event →
      ∃ next, attempt state event = some next ∧ work next + (moves event).toNat ≤ work state ∧
        (invariant next ∧ stays state next ∨ ends state next))
    (refl : ∀ state, stays state state)
    (trans : ∀ {first second third}, stays first second →
      (stays second third → stays first third) ∧ (ends second third → ends first third))
    (last : ∀ {first second} event, ends first second → ¬condition second event)
    (start : invariant state) (events : List Event) (along : Along (after attempt) (In condition) (some state) events) :
    ∃ final, run (after attempt) (some state) events = some final ∧ work final + events.countP moves ≤ work state ∧
      (invariant final ∧ stays state final ∨ ends state final) := by
  induction events generalizing state with
  | nil => exact ⟨state, rfl, Nat.le_refl _, Or.inl ⟨start, refl state⟩⟩
  | cons event events ih =>
      rw [along_cons] at along
      obtain ⟨next, stepped, less, result⟩ := steps state event start (along.1 state rfl)
      have goes : after attempt (some state) event = some next := stepped
      rw [goes] at along
      rw [run_cons, goes]
      rcases result with ⟨holds, stayed⟩ | ended
      · obtain ⟨final, reached, less', result⟩ := ih holds along.2
        refine ⟨final, reached, ?_, result.imp (And.imp_right (trans stayed).1) (trans stayed).2⟩
        rw [List.countP_cons]
        cases moved : moves event <;> simp only [moved, Bool.toNat_true, Bool.toNat_false] at less <;>
          simp only [Bool.false_eq_true, if_true, if_false] <;> omega
      · cases events with
        | nil =>
            refine ⟨next, rfl, ?_, Or.inr ended⟩
            cases moved : moves event <;> simpa [moved] using less
        | cons other events =>
            rw [along_cons] at along
            exact absurd ((in_some other).mp along.2.1) (last other ended)

end Partial

end Runs
