import Mathlib.Data.Stream.Init

set_option autoImplicit false

/-!
# Programs that stop

A program that makes one call after the other, run against an endless stream of
what its calls meet. From a mark in the stream on it is expected to return, and
to return something that is wanted.
-/

namespace Halting

inductive Progress (σ R : Type) where
  | going (state : σ)
  | returned (result : R)
  | undefined
deriving DecidableEq

variable {σ ε R : Type} (step : σ → ε → Progress σ R)

def advance (progress : Progress σ R) (event : ε) : Progress σ R :=
  match progress with
  | .going state => step state event
  | _ => progress

def run (progress : Progress σ R) (events : List ε) : Progress σ R := events.foldl (advance step) progress

@[simp] theorem run_nil (progress : Progress σ R) : run step progress [] = progress := rfl

@[simp] theorem run_going (state : σ) (event : ε) (events : List ε) :
    run step (.going state) (event :: events) = run step (step state event) events := rfl

theorem run_append (progress : Progress σ R) (front back : List ε) :
    run step progress (front ++ back) = run step (run step progress front) back :=
  List.foldl_append

@[simp] theorem run_returned (result : R) (events : List ε) :
    run step (.returned result) events = .returned result := by
  induction events with
  | nil => rfl
  | cons event events ih => exact ih

@[simp] theorem run_undefined (events : List ε) : run step .undefined events = .undefined := by
  induction events with
  | nil => rfl
  | cons event events ih => exact ih

/-! ## Streams of events -/

section Streams

variable (post : R → Prop) (crashes : σ → ε → Prop) (overlooks : σ → Stream' ε → Prop)

/-- The program returns; after more events than those before the mark it returns what is wanted. -/
def Stops (start : Progress σ R) (events : Stream' ε) (mark : Nat) : Prop :=
  ∃ n result, run step start (events.take n) = .returned result ∧ (mark < n → post result)

def Reaches (start : Progress σ R) (events : Stream' ε) (n : Nat) (state : σ) : Prop :=
  run step start (events.take n) = .going state

/-- In no state that is reached does the event crash the program, and in none behind the mark does it
overlook what comes. -/
structure Clean (start : Progress σ R) (events : Stream' ε) (mark : Nat) : Prop where
  defined : ∀ n state, Reaches step start events n state → ¬crashes state (events.get n)
  alert : ∀ n state, mark ≤ n → Reaches step start events n state → ¬overlooks state (events.drop n)

variable {step post crashes overlooks} {start : Progress σ R} {events : Stream' ε} {mark : Nat} {state after : σ}

theorem run_take_add (start : Progress σ R) (events : Stream' ε) (n more : Nat) :
    run step start (events.take (n + more)) =
      run step (run step start (events.take n)) ((events.drop n).take more) := by
  rw [Stream'.take_add, run_append]

theorem Reaches.run_take {n : Nat} (reaches : Reaches step start events n state) (more : Nat) :
    run step start (events.take (n + more)) = run step (.going state) ((events.drop n).take more) := by
  rw [run_take_add, reaches]

-- A program that has returned goes nowhere.
theorem Reaches.lt_of_returned {n last : Nat} {result : R} (reaches : Reaches step start events n state)
    (returned : run step start (events.take last) = .returned result) : n < last := by
  by_contra before
  obtain ⟨more, rfl⟩ := Nat.exists_eq_add_of_le (Nat.le_of_not_lt before)
  rw [Reaches, run_take_add, returned, run_returned] at reaches
  cases reaches

theorem Reaches.succ {n : Nat} (reaches : Reaches step start events n state) :
    run step start (events.take (n + 1)) = step state (events.get n) := by
  rw [reaches.run_take 1, Stream'.take_succ, Stream'.take_zero, run_going, run_nil, Stream'.head_drop]

theorem reaches_before {n : Nat} (defined : start ≠ .undefined)
    (crashed : run step start (events.take n) = .undefined) :
    ∃ last state, Reaches step start events last state ∧ step state (events.get last) = .undefined := by
  induction n with
  | zero => exact absurd crashed defined
  | succ n ih =>
      cases before : run step start (events.take n) with
      | undefined => exact ih before
      | returned result =>
          rw [run_take_add, before, run_returned] at crashed
          cases crashed
      | going state => exact ⟨n, state, before, (Reaches.succ before).symm.trans crashed⟩

theorem Reaches.before {n : Nat} (reaches : Reaches step start events (n + 1) after) :
    ∃ state, Reaches step start events n state ∧ step state (events.get n) = .going after := by
  cases earlier : run step start (events.take n) with
  | going state => exact ⟨state, earlier, (Reaches.succ earlier).symm.trans reaches⟩
  | returned result =>
      rw [Reaches, run_take_add, earlier, run_returned] at reaches
      cases reaches
  | undefined =>
      rw [Reaches, run_take_add, earlier, run_undefined] at reaches
      cases reaches

/-- What holds first and is preserved holds in every state that is reached. -/
theorem Reaches.invariant {n : Nat} (invariant : σ → Prop) (first : ∀ state, start = .going state → invariant state)
    (preserved : ∀ state event after, invariant state → step state event = .going after → invariant after)
    (reaches : Reaches step start events n state) : invariant state := by
  induction n generalizing state with
  | zero => exact first state reaches
  | succ n ih =>
      obtain ⟨earlier, reached, goes⟩ := reaches.before
      exact preserved earlier _ state (ih reached) goes

theorem clean_of_invariant (invariant : σ → Prop) (first : ∀ state, start = .going state → invariant state)
    (preserved : ∀ state event after, invariant state → step state event = .going after → invariant after)
    (fine : ∀ state event, invariant state → ¬crashes state event)
    (attentive : ∀ state events, invariant state → ¬overlooks state events) :
    Clean step crashes overlooks start events mark where
  defined _ state reaches := fine state _ (reaches.invariant invariant first preserved)
  alert _ state _ reaches := attentive state _ (reaches.invariant invariant first preserved)

/-! ## One event -/

theorem stops_mark (reaches : Reaches step start events mark state) :
    Stops step post start events mark ↔ Stops step post (.going state) (events.drop mark) 0 := by
  constructor
  · rintro ⟨n, result, returned, wanted⟩
    obtain ⟨more, rfl⟩ := Nat.exists_eq_add_of_lt (reaches.lt_of_returned returned)
    rw [Nat.add_assoc, reaches.run_take] at returned
    exact ⟨more + 1, result, returned, fun _ => wanted (by omega)⟩
  · rintro ⟨n, result, returned, wanted⟩
    refine ⟨mark + n, result, ?_, fun later => wanted (by omega)⟩
    rw [reaches.run_take, returned]

theorem stops_going (goes : step state events.head = .going after) :
    Stops step post (.going state) events 0 ↔ Stops step post (.going after) events.tail 0 := by
  have once : Reaches step (.going state) events 1 after := goes
  constructor
  · rintro ⟨n, result, returned, wanted⟩
    obtain ⟨more, rfl⟩ := Nat.exists_eq_add_of_lt (once.lt_of_returned returned)
    rw [Nat.add_assoc, once.run_take] at returned
    exact ⟨more + 1, result, returned, fun _ => wanted (by omega)⟩
  · rintro ⟨n, result, returned, wanted⟩
    have positive : 0 < n := Reaches.lt_of_returned (n := 0) rfl returned
    refine ⟨1 + n, result, ?_, fun _ => wanted positive⟩
    rw [once.run_take]
    exact returned

theorem stops_returned {result : R} (returns : step state events.head = .returned result) :
    Stops step post (.going state) events 0 ↔ post result := by
  have first : run step (.going state) (events.take 1) = .returned result := returns
  constructor
  · rintro ⟨n, last, returned, wanted⟩
    have positive : 0 < n := Reaches.lt_of_returned (n := 0) rfl returned
    obtain ⟨more, rfl⟩ := Nat.exists_eq_add_of_le' positive
    rw [Nat.add_comm, run_take_add, first, run_returned] at returned
    obtain rfl := Progress.returned.inj returned
    exact wanted (by omega)
  · intro wanted
    exact ⟨1, result, first, fun _ => wanted⟩

/-- What holds as long as the program goes on, and of every program that returns what is not wanted. -/
theorem not_stops_of_invariant (invariant : σ → Stream' ε → Prop)
    (preserved : ∀ state events, invariant state events →
      (∃ next, step state events.head = .going next ∧ invariant next events.tail) ∨
        ∃ result, step state events.head = .returned result ∧ ¬post result)
    (holds : invariant state events) : ¬Stops step post (.going state) events 0 := by
  rintro ⟨n, result, returned, wanted⟩
  induction n generalizing state events with
  | zero => cases returned
  | succ n ih =>
      rw [Stream'.take_succ, run_going] at returned
      rcases preserved state events holds with ⟨next, goes, holds⟩ | ⟨other, returns, unwanted⟩
      · rw [goes] at returned
        exact ih holds returned fun _ => wanted (by omega)
      · rw [returns, run_returned] at returned
        obtain rfl := Progress.returned.inj returned
        exact unwanted (wanted (by omega))

theorem Clean.next (clean : Clean step crashes overlooks (.going state) events 0)
    (goes : step state events.head = .going after) : Clean step crashes overlooks (.going after) events.tail 0 := by
  constructor
  · intro n reached reaches
    exact clean.defined (n + 1) reached (by rwa [Reaches, Stream'.take_succ, run_going, goes])
  · intro n reached _ reaches
    exact clean.alert (n + 1) reached (Nat.zero_le _) (by rwa [Reaches, Stream'.take_succ, run_going, goes])

theorem Clean.not_crashes (clean : Clean step crashes overlooks (.going state) events 0) :
    ¬crashes state events.head :=
  clean.defined 0 state rfl

theorem Clean.not_overlooks (clean : Clean step crashes overlooks (.going state) events 0) :
    ¬overlooks state events :=
  clean.alert 0 state (Nat.le_refl 0) rfl

theorem Clean.drop (clean : Clean step crashes overlooks start events mark)
    (reaches : Reaches step start events mark state) :
    Clean step crashes overlooks (.going state) (events.drop mark) 0 := by
  constructor
  · intro n reached later
    rw [Stream'.get_drop]
    exact clean.defined (mark + n) reached (by rw [Reaches, reaches.run_take, later])
  · intro n reached _ later
    rw [Stream'.drop_drop]
    exact clean.alert (mark + n) reached (Nat.le_add_right mark n) (by rw [Reaches, reaches.run_take, later])

/-- A program stops exactly when nothing crashes it and it overlooks nothing, once this is known behind the mark. -/
theorem stops_iff_clean (defined : start ≠ .undefined)
    (crash : ∀ state event, step state event = .undefined ↔ crashes state event)
    (stuck : ∀ state events, overlooks state events → ¬Stops step post (.going state) events 0)
    (ends : ∀ state, Clean step crashes overlooks (.going state) (events.drop mark) 0 →
      Stops step post (.going state) (events.drop mark) 0) :
    Stops step post start events mark ↔ Clean step crashes overlooks start events mark := by
  constructor
  · rintro ⟨n, result, returned, wanted⟩
    constructor
    · intro last state reaches crashed
      obtain ⟨more, rfl⟩ := Nat.exists_eq_add_of_lt (reaches.lt_of_returned returned)
      rw [Nat.add_right_comm, run_take_add, reaches.succ, (crash state _).mpr crashed, run_undefined] at returned
      cases returned
    · intro last state later reaches overlooked
      obtain ⟨more, rfl⟩ := Nat.exists_eq_add_of_lt (reaches.lt_of_returned returned)
      rw [Nat.add_assoc, reaches.run_take] at returned
      exact stuck state _ overlooked ⟨more + 1, result, returned, fun _ => wanted (by omega)⟩
  · intro clean
    cases scripted : run step start (events.take mark) with
    | going state => exact (stops_mark scripted).mpr (ends state (clean.drop scripted))
    | returned result => exact ⟨mark, result, scripted, fun later => absurd later (Nat.lt_irrefl mark)⟩
    | undefined =>
        obtain ⟨last, state, reaches, crashed⟩ := reaches_before defined scripted
        exact absurd ((crash state _).mp crashed) (clean.defined last state reaches)

end Streams

end Halting
