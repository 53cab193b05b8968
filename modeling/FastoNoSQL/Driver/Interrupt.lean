import FastoNoSQL.Runs

set_option autoImplicit false

/-!
# Interrupts

The queue and the interrupt flag of `core/driver/idriver.cpp`, shared by two
parties: the UI posts requests and calls `Interrupt`, the driver's thread takes
the next event, clears the flag and tests it before each command.
-/

namespace FastoNoSQL.Interrupt

open Runs

-- Every request clears the flag; only an execute request tests it.
inductive Request where
  | execute (commands : Nat) (repetitions : UInt64)
  | other
deriving DecidableEq

-- The commands a request runs when nothing stops it; `repeat + 1` is computed in `size_t`.
def Request.total : Request → Nat
  | execute commands repetitions => commands * (repetitions + 1).toNat
  | other => 0

inductive ErrorCode where
  | interrupted
  | other
deriving DecidableEq

inductive Outcome where
  | done
  | failed
  | interrupted
deriving DecidableEq

/-- A posted request: the commands started so far, whether `Interrupt` was called since it was
posted, and whether it was called before the last command started. -/
structure Ticket where
  request : Request
  started : Nat := 0
  since : Bool := false
  hit : Bool := false
deriving DecidableEq

inductive Phase where
  | taken
  | testing
  | tested
  | running
deriving DecidableEq

structure Answer where
  ticket : Ticket
  error : Option ErrorCode
deriving DecidableEq

structure State where
  flag : Bool
  queue : List Ticket := []
  current : Option (Ticket × Phase) := none
  answers : List Answer := []
deriving DecidableEq

inductive Action where
  | post (request : Request)
  | interrupt
  | drive (outcome : Outcome)
deriving DecidableEq

def Ticket.interrupt (ticket : Ticket) : Ticket :=
  { ticket with since := true, hit := ticket.hit || decide (ticket.started < ticket.request.total) }

def State.answer (state : State) (ticket : Ticket) (error : Option ErrorCode) : State :=
  { state with current := none, answers := state.answers ++ [⟨ticket, error⟩] }

-- `customEvent` clears the flag and an execute request without commands is answered at once.
def clear (state : State) (ticket : Ticket) : State :=
  let cleared := { state with flag := false }
  match ticket.request with
  | .execute commands _ =>
    if commands = 0 then cleared.answer ticket (some .other)
    else if ticket.request.total = 0 then cleared.answer ticket none
    else { cleared with current := some (ticket, .testing) }
  | .other => cleared.answer ticket none

def next (state : State) (ticket : Ticket) : State :=
  if ticket.started = ticket.request.total then state.answer ticket none
  else { state with current := some (ticket, .testing) }

-- A command reports an interruption only when it has seen the flag.
def finish (state : State) (ticket : Ticket) : Outcome → State
  | .done => next state ticket
  | .failed => state.answer ticket (some .other)
  | .interrupted => if state.flag then state.answer ticket (some .interrupted) else next state ticket

/-- One step of the driver's thread; the outcome is that of a command that ends in it. -/
def drive (state : State) (outcome : Outcome) : State :=
  match state.current with
  | none =>
    match state.queue with
    | [] => state
    | ticket :: queue => { state with queue := queue, current := some (ticket, .taken) }
  | some (ticket, .taken) => clear state ticket
  | some (ticket, .testing) =>
    if state.flag then state.answer ticket (some .interrupted)
    else { state with current := some (ticket, .tested) }
  | some (ticket, .tested) =>
    { state with current := some ({ ticket with started := ticket.started + 1 }, .running) }
  | some (ticket, .running) => finish state ticket outcome

def step (state : State) : Action → State
  | .post request => { state with queue := state.queue ++ [{ request }] }
  | .interrupt =>
    { state with
      flag := true
      queue := state.queue.map Ticket.interrupt
      current := state.current.map fun (ticket, phase) => (ticket.interrupt, phase) }
  | .drive outcome => drive state outcome

def initial (flag : Bool) : State := { flag }

/-! ## What an interrupt promises -/

def State.current? (state : State) : List Ticket := (state.current.map Prod.fst).toList

/-- The last command of a request that was hit never starts, and its answer is the interruption. -/
structure Obeyed (state : State) : Prop where
  waiting : ∀ ticket ∈ state.queue ++ state.current?, ticket.hit → ticket.started < ticket.request.total
  answered : ∀ answer ∈ state.answers, answer.ticket.hit →
    answer.ticket.started < answer.ticket.request.total ∧ answer.error = some .interrupted

-- No request is answered with an interruption that was not issued after it was posted.
def Untouched (state : State) : Prop :=
  ∀ answer ∈ state.answers, answer.error = some .interrupted → answer.ticket.since

/-- The interrupt comes past the clear and before the last test of the only request that has
commands to run; no command fails by itself once the flag is set, its last one apart. -/
def Meets (state : State) : Action → Prop
  | .post _ => True
  | .interrupt =>
    (∀ ticket ∈ state.queue, ticket.request.total = 0) ∧
      ∀ ticket phase, state.current = some (ticket, phase) → ticket.started < ticket.request.total →
        phase ≠ .taken ∧ (phase = .tested → ticket.started + 1 < ticket.request.total)
  | .drive outcome =>
    ∀ ticket, state.current = some (ticket, .running) → ticket.started < ticket.request.total →
      outcome = .failed → state.flag = false

/-! ## The steps of the driver -/

@[simp] theorem interrupt_request (ticket : Ticket) : ticket.interrupt.request = ticket.request := rfl
@[simp] theorem interrupt_started (ticket : Ticket) : ticket.interrupt.started = ticket.started := rfl
@[simp] theorem interrupt_since (ticket : Ticket) : ticket.interrupt.since = true := rfl

/-- What a step of the driver does to the request in hand. -/
inductive Drives (state : State) (ticket : Ticket) (outcome : Outcome) : Phase → State → Prop
  | unanswerable (error : Option ErrorCode) (empty : ticket.request.total = 0) (other : error ≠ some .interrupted) :
      Drives state ticket outcome .taken ({ state with flag := false }.answer ticket error)
  | cleared (more : ticket.request.total ≠ 0) :
      Drives state ticket outcome .taken { state with flag := false, current := some (ticket, .testing) }
  | stopped (flag : state.flag = true) :
      Drives state ticket outcome .testing (state.answer ticket (some .interrupted))
  | passed (flag : state.flag = false) :
      Drives state ticket outcome .testing { state with current := some (ticket, .tested) }
  | started :
      Drives state ticket outcome .tested
        { state with current := some ({ ticket with started := ticket.started + 1 }, .running) }
  | finished (last : ticket.started = ticket.request.total) :
      Drives state ticket outcome .running (state.answer ticket none)
  | failed (fails : outcome = .failed) :
      Drives state ticket outcome .running (state.answer ticket (some .other))
  | reported (flag : state.flag = true) :
      Drives state ticket outcome .running (state.answer ticket (some .interrupted))
  | continued (more : ticket.started ≠ ticket.request.total) :
      Drives state ticket outcome .running { state with current := some (ticket, .testing) }

theorem drives_next (state : State) (ticket : Ticket) (outcome : Outcome) :
    Drives state ticket outcome .running (next state ticket) := by
  unfold next
  split
  next last => exact .finished last
  next more => exact .continued more

theorem drive_current (state : State) (outcome : Outcome) (ticket : Ticket) (phase : Phase)
    (current : state.current = some (ticket, phase)) : Drives state ticket outcome phase (drive state outcome) := by
  unfold drive
  rw [current]
  cases phase with
  | taken =>
      simp only [clear]
      split
      next commands repetitions request =>
        split
        next none => exact .unanswerable _ (by simp [request, Request.total, none]) (by simp)
        next =>
          split
          next empty => exact .unanswerable _ empty (by simp)
          next more => exact .cleared more
      next request => exact .unanswerable _ (by simp [request, Request.total]) (by simp)
  | testing =>
      simp only
      split
      next flag => exact .stopped flag
      next flag => exact .passed (by simpa using flag)
  | tested => exact .started
  | running =>
      cases outcome with
      | done => exact drives_next state ticket _
      | failed => exact .failed rfl
      | interrupted =>
          simp only [finish]
          split
          next flag => exact .reported flag
          next => exact drives_next state ticket _

/-! ## Invariants -/

-- How far the request in hand is in each phase.
def Placed (ticket : Ticket) : Phase → Prop
  | .taken => ticket.started = 0
  | .testing | .tested => ticket.started < ticket.request.total
  | .running => ticket.started ≤ ticket.request.total

structure Invariant (state : State) : Prop where
  queue : ∀ ticket ∈ state.queue, ticket.started = 0
  current : ∀ ticket phase, state.current = some (ticket, phase) → Placed ticket phase
  since : ∀ ticket phase, state.current = some (ticket, phase) → phase ≠ .taken → state.flag → ticket.since
  untouched : Untouched state

theorem untouched_answer (state : State) (ticket : Ticket) (error : Option ErrorCode) (untouched : Untouched state)
    (since : error = some .interrupted → ticket.since) : Untouched (state.answer ticket error) := by
  intro answer member
  rcases List.mem_append.mp member with old | new
  · exact untouched answer old
  · obtain rfl := List.mem_singleton.mp new
    exact since

-- An answered request leaves nothing in hand.
theorem invariant_answer (state : State) (ticket : Ticket) (error : Option ErrorCode)
    (queue : ∀ ticket ∈ state.queue, ticket.started = 0) (untouched : Untouched state)
    (since : error = some .interrupted → ticket.since) : Invariant (state.answer ticket error) :=
  ⟨queue, by simp [State.answer], by simp [State.answer], untouched_answer state ticket error untouched since⟩

theorem invariant_current (state : State) (flag : Bool) (ticket : Ticket) (phase : Phase)
    (queue : ∀ ticket ∈ state.queue, ticket.started = 0) (untouched : Untouched state)
    (placed : Placed ticket phase) (since : flag → ticket.since) : Invariant { state with flag := flag, current := some (ticket, phase) } where
  queue := queue
  current := by
    intro other phase' same
    cases same
    exact placed
  since := by
    intro other phase' same _
    cases same
    exact since
  untouched := untouched

theorem invariant_drive (state : State) (outcome : Outcome) (invariant : Invariant state) :
    Invariant (drive state outcome) := by
  obtain ⟨queue, placed, since, untouched⟩ := invariant
  cases current : state.current with
  | none =>
      cases waiting : state.queue with
      | nil => simpa [drive, current, waiting] using Invariant.mk queue placed since untouched
      | cons ticket rest =>
          simp only [drive, current, waiting]
          rw [waiting] at queue
          refine ⟨fun other member => queue other (by simp [member]), ?_, ?_, untouched⟩
          · intro other phase same
            cases same
            exact queue ticket (by simp)
          · intro other phase same past
            cases same
            exact absurd rfl past
  | some hand =>
      obtain ⟨ticket, phase⟩ := hand
      have at_ := placed ticket phase current
      have interrupted := since ticket phase current
      generalize result : drive state outcome = after
      have drives := drive_current state outcome ticket phase current
      rw [result] at drives
      cases drives with
      | unanswerable error empty other =>
          exact invariant_answer _ ticket error queue untouched fun same => absurd same other
      | cleared more =>
          have start : ticket.started = 0 := at_
          exact invariant_current state false ticket .testing queue untouched (by simp only [Placed]; omega) nofun
      | stopped flag => exact invariant_answer _ ticket _ queue untouched fun _ => interrupted nofun flag
      | passed flag => exact invariant_current state state.flag ticket .tested queue untouched at_ (interrupted nofun)
      | started => exact invariant_current state state.flag _ .running queue untouched at_ (interrupted nofun)
      | finished last => exact invariant_answer _ ticket _ queue untouched nofun
      | failed fails => exact invariant_answer _ ticket _ queue untouched nofun
      | reported flag => exact invariant_answer _ ticket _ queue untouched fun _ => interrupted nofun flag
      | continued more =>
          exact invariant_current state state.flag ticket .testing queue untouched
            (Nat.lt_of_le_of_ne at_ more) (interrupted nofun)

theorem invariant_step (state : State) (action : Action) (invariant : Invariant state) :
    Invariant (step state action) := by
  cases action with
  | post request =>
      refine ⟨?_, invariant.current, invariant.since, invariant.untouched⟩
      intro ticket member
      rcases List.mem_append.mp member with old | new
      · exact invariant.queue ticket old
      · rw [List.mem_singleton.mp new]
  | interrupt =>
      refine ⟨?_, ?_, ?_, invariant.untouched⟩
      · intro ticket member
        obtain ⟨before, waiting, rfl⟩ := List.mem_map.mp member
        exact invariant.queue before waiting
      · intro ticket phase same
        obtain ⟨⟨before, phase⟩, current, same⟩ := Option.map_eq_some_iff.mp same
        cases same
        have placed := invariant.current before phase current
        cases phase <;> exact placed
      · intro ticket phase same _ _
        obtain ⟨⟨before, phase⟩, current, same⟩ := Option.map_eq_some_iff.mp same
        cases same
        rfl
  | drive outcome => exact invariant_drive state outcome invariant

/-! ## Interrupts that are obeyed -/

/-- A request that was hit is in hand past its clear, with the flag still up and a test to come. -/
structure Stopping (state : State) (ticket : Ticket) (phase : Phase) : Prop where
  flag : state.flag = true
  cleared : phase ≠ .taken
  early : ticket.started < ticket.request.total
  test : phase = .tested → ticket.started + 1 < ticket.request.total

def Answered (state : State) : Prop :=
  ∀ answer ∈ state.answers, answer.ticket.hit →
    answer.ticket.started < answer.ticket.request.total ∧ answer.error = some .interrupted

structure Heard (state : State) : Prop where
  queue : ∀ ticket ∈ state.queue, ticket.hit = false
  current : ∀ ticket phase, state.current = some (ticket, phase) → ticket.hit → Stopping state ticket phase
  answered : Answered state

theorem heard_answer (state : State) (ticket : Ticket) (error : Option ErrorCode)
    (queue : ∀ ticket ∈ state.queue, ticket.hit = false) (answered : Answered state)
    (obeys : ticket.hit → ticket.started < ticket.request.total ∧ error = some .interrupted) :
    Heard (state.answer ticket error) := by
  refine ⟨queue, by simp [State.answer], ?_⟩
  intro answer member
  rcases List.mem_append.mp member with old | new
  · exact answered answer old
  · obtain rfl := List.mem_singleton.mp new
    exact obeys

theorem heard_current (state : State) (flag : Bool) (ticket : Ticket) (phase : Phase) (heard : Heard state)
    (stopping : ticket.hit → Stopping { state with flag := flag } ticket phase) :
    Heard { state with flag := flag, current := some (ticket, phase) } where
  queue := heard.queue
  current := by
    intro other phase' same hit
    cases same
    obtain ⟨flag, cleared, early, test⟩ := stopping hit
    exact ⟨flag, cleared, early, test⟩
  answered := heard.answered

theorem heard_drive (state : State) (outcome : Outcome) (heard : Heard state)
    (meets : Meets state (.drive outcome)) : Heard (drive state outcome) := by
  cases current : state.current with
  | none =>
      cases waiting : state.queue with
      | nil => simpa [drive, current, waiting] using heard
      | cons ticket rest =>
          have queue := heard.queue
          rw [waiting] at queue
          simp only [drive, current, waiting]
          refine ⟨fun other member => queue other (by simp [member]), ?_, heard.answered⟩
          intro other phase same hit
          cases same
          rw [queue ticket (by simp)] at hit
          cases hit
  | some hand =>
      obtain ⟨ticket, phase⟩ := hand
      have stopping := heard.current ticket phase current
      generalize result : drive state outcome = after
      have drives := drive_current state outcome ticket phase current
      rw [result] at drives
      cases drives with
      | unanswerable error empty other =>
          exact heard_answer _ ticket error heard.queue heard.answered fun hit => absurd rfl (stopping hit).cleared
      | cleared more =>
          exact heard_current state false ticket .testing heard fun hit => absurd rfl (stopping hit).cleared
      | stopped flag =>
          exact heard_answer state ticket _ heard.queue heard.answered fun hit => ⟨(stopping hit).early, rfl⟩
      | passed flag =>
          refine heard_current state state.flag ticket .tested heard fun hit => ?_
          rw [(stopping hit).flag] at flag
          cases flag
      | started =>
          refine heard_current state state.flag _ .running heard fun hit => ?_
          exact ⟨(stopping hit).flag, nofun, (stopping hit).test rfl, nofun⟩
      | finished last =>
          have ran := fun hit => Nat.ne_of_lt (stopping hit).early
          exact heard_answer state ticket _ heard.queue heard.answered fun hit => absurd last (ran hit)
      | failed fails =>
          refine heard_answer state ticket _ heard.queue heard.answered fun hit => ?_
          have lowered := meets ticket current (stopping hit).early fails
          rw [(stopping hit).flag] at lowered
          cases lowered
      | reported flag =>
          exact heard_answer state ticket _ heard.queue heard.answered fun hit => ⟨(stopping hit).early, rfl⟩
      | continued more =>
          refine heard_current state state.flag ticket .testing heard fun hit => ?_
          exact ⟨(stopping hit).flag, nofun, (stopping hit).early, nofun⟩

theorem heard_step (state : State) (action : Action) (heard : Heard state) (meets : Meets state action) :
    Heard (step state action) := by
  cases action with
  | post request =>
      refine ⟨?_, fun ticket phase same hit => ?_, heard.answered⟩
      · intro ticket member
        rcases List.mem_append.mp member with old | new
        · exact heard.queue ticket old
        · rw [List.mem_singleton.mp new]
      · obtain ⟨flag, cleared, early, test⟩ := heard.current ticket phase same hit
        exact ⟨flag, cleared, early, test⟩
  | interrupt =>
      refine ⟨?_, ?_, heard.answered⟩
      · intro ticket member
        obtain ⟨before, waiting, rfl⟩ := List.mem_map.mp member
        simp [Ticket.interrupt, heard.queue before waiting, meets.1 before waiting]
      · intro ticket phase same hit
        obtain ⟨⟨before, phase⟩, current, same⟩ := Option.map_eq_some_iff.mp same
        cases same
        simp only [Ticket.interrupt, Bool.or_eq_true, decide_eq_true_eq] at hit
        rcases hit with already | early
        · obtain ⟨_, cleared, early, test⟩ := heard.current before phase current already
          exact ⟨rfl, cleared, early, test⟩
        · obtain ⟨cleared, test⟩ := meets.2 before phase current early
          exact ⟨rfl, cleared, early, test⟩
  | drive outcome => exact heard_drive state outcome heard meets

theorem obeyed_of_heard (state : State) (heard : Heard state) : Obeyed state where
  waiting := by
    intro ticket member hit
    rcases List.mem_append.mp member with waiting | inHand
    · rw [heard.queue ticket waiting] at hit
      cases hit
    · simp only [State.current?, Option.mem_toList, Option.map_eq_some_iff] at inHand
      obtain ⟨⟨ticket, phase⟩, current, rfl⟩ := inHand
      exact (heard.current ticket phase current hit).early
  answered := heard.answered

/-- In every state of every run no request is interrupted by a call that came before it, and when
all steps meet the condition every interrupt is obeyed. -/
theorem interrupts_obeyed (flag : Bool) (actions : List Action) :
    Untouched (run step (initial flag) actions) ∧
      (Along step Meets (initial flag) actions → Obeyed (run step (initial flag) actions)) := by
  constructor
  · have start : Invariant (initial flag) :=
      ⟨by simp [initial], by simp [initial], by simp [initial], by simp [initial, Untouched]⟩
    have always : Along step (fun _ _ => True) (initial flag) actions := fun _ _ _ _ => trivial
    have invariant := invariant_run Invariant (fun state action kept _ => invariant_step state action kept) start
      actions always
    exact invariant.untouched
  · intro meets
    have start : Heard (initial flag) := ⟨by simp [initial], by simp [initial], by simp [initial, Answered]⟩
    exact obeyed_of_heard _ (invariant_run Heard heard_step start actions meets)

-- Hit while its first command runs, the request is stopped at the next test.
theorem running_interrupted :
    Obeyed (run step (initial true) [.post (.execute 2 0), .drive .done, .drive .done, .drive .done, .drive .done,
      .interrupt, .drive .done, .drive .done]) := by
  apply (interrupts_obeyed true _).2
  simp [along_cons, along_nil, Meets, step, drive, initial, clear, Request.total]

-- A request that waits: the flag is cleared when its turn comes, and all of its commands run.
theorem waiting_not_interrupted :
    ¬ Obeyed (run step (initial false) ([.post (.execute 2 0), .interrupt] ++ List.replicate 8 (.drive .done))) := by
  intro obeyed
  have answered := obeyed.answered ⟨⟨.execute 2 0, 2, true, true⟩, none⟩ (by decide) rfl
  exact absurd answered.1 (by decide)

end FastoNoSQL.Interrupt
