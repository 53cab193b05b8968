import FastoNoSQL.Redis.Modes

set_option autoImplicit false

/-!
# Modes that stop

Which modes return an error once the transport fails for good, or once they are
interrupted for good while replies keep arriving.
-/

namespace FastoNoSQL.Redis

open Bytes

namespace Modes

open Halting (Progress Stops)

-- The context is in error.
structure Moment.Fails (moment : Moment) : Prop where
  sent : moment.sent = false
  read : moment.read = none
  answer : ∃ failure, moment.answer = .null failure

-- The flag is set, and there is a reply, or bytes of one.
structure Moment.Arrives (moment : Moment) : Prop where
  interrupted : moment.interrupted = true
  sent : moment.sent = true
  read : ∃ c bytes, moment.read = some (.data (c :: bytes))
  answer : ∃ reply context, moment.answer = .reply reply context

/-- What a mode meets: a script, and what comes behind it for good. -/
structure Trace where
  script : List Moment
  tail : Stream' Moment
  ends : tail.All Moment.Fails ∨ tail.All Moment.Arrives

def Trace.moments (trace : Trace) : Stream' Moment := Stream'.appendStream' trace.script trace.tail

def Result.Failed (result : Result) : Prop := ∃ err, result.err = some err ∧ err.isError = true

section Conditions

variable (setup : Setup)

/-- The mode returns, and with an error unless it has returned when the script ends. -/
def StopsWithError (mode : Mode) (trace : Trace) : Prop :=
  Stops (step setup) Result.Failed (start setup mode) trace.moments trace.script.length

-- The report is read, and a field of it has no end.
def badInfo (answer : Answer) : Prop :=
  answer.fatal = none ∧
    match answer with
    | .reply (.error _) _ => False
    | .reply reply _ => (str reply).bind readInfo = none
    | .null _ => False

def badScan : Answer → Prop
  | .reply (.error _) _ => False
  | .reply reply _ => scanned reply = none
  | .null _ => False

-- A redirection without its separators.
def badRedirection : Answer → Prop
  | .reply (.error text) _ =>
    isRedirect setup.clusterMode (.error text) = true ∧ redirection setup.lib (cString text) = none
  | _ => False

/-- The result of a call is handled by a null pointer, or written behind the buffer. -/
def Crashes : State → Moment → Prop
  | .stat retrying _ _, moment => (retrying = true ∨ moment.interrupted = false) ∧ badInfo moment.answer
  | .header buf _, moment => (∃ received, moment.read = some received ∧ received.isNothing = false) ∧ 4096 ≤ buf.length
  | .replies _, moment => moment.interrupted = false ∧ badRedirection setup moment.answer
  | .scan _ _, moment => badScan moment.answer
  | .listening untested _, moment =>
    (untested ≠ 0 ∨ moment.interrupted = false) ∧ badRedirection setup moment.answer
  | _, _ => False

/-- What comes behind the script and is not heeded. -/
inductive Overlooks : State → Stream' Moment → Prop where
  -- Every call fails, and `StatMode` retries it.
  | retries {requests : Int64} {lines : List Text} {moments : Stream' Moment}
      (failing : ∀ k, ∃ failure, (moments.get k).answer = .null failure ∧ failure.retried = true) :
      Overlooks (.stat true requests lines) moments
  -- The scan is completed as if there was no flag.
  | completes {cur : Nat} {found keys : List Text} {moments : Stream' Moment} {reply : Reply}
      {context : Option Failure} (answer : moments.head.answer = .reply reply context)
      (last : scanned reply = some (0, keys)) : Overlooks (.scan cur found) moments
  -- The scan is never completed.
  | scans {cur : Nat} {found : List Text} {moments : Stream' Moment}
      (more : ∀ k, ∃ reply context next keys,
        (moments.get k).answer = .reply reply context ∧ scanned reply = some (next, keys) ∧ next ≠ 0) :
      Overlooks (.scan cur found) moments
  -- The header of the transfer never begins.
  | skips {cells : Nat → UInt8} {moments : Stream' Moment}
      (breaks : ∀ k, ∃ bytes, (moments.get k).read = some (.data (Sync.lineFeed :: bytes))) :
      Overlooks (.header [] cells) moments

/-- In the run of the mode nothing crashes it, and from the end of the script on it overlooks nothing. -/
def Heeds (mode : Mode) (trace : Trace) : Prop :=
  Halting.Clean (step setup) (Crashes setup) Overlooks (start setup mode) trace.moments trace.script.length

end Conditions

/-! ## One call -/

section Steps

variable {setup : Setup}

theorem readReply_eq_none_iff (reply : Reply) (context : Option Failure) (target : Redirection.Target) :
    Redirection.readReply setup.lib setup.clusterMode reply target = none ↔
      badRedirection setup (.reply reply context) := by
  cases reply with
  | error text =>
      rw [Redirection.readReply, badRedirection]
      split
      next redirects => simp [redirects]
      next redirects => simp [redirects]
  | _ => simp [Redirection.readReply, badRedirection]

theorem readReply_isError {reply : Reply} {target after : Redirection.Target} {err : ErrorValue}
    (read : Redirection.readReply setup.lib setup.clusterMode reply target = some (.error err, after)) :
    err.isError = true := by
  cases reply with
  | error text =>
      rw [Redirection.readReply] at read
      split at read
      · simp at read
      · obtain ⟨rfl, -⟩ : ErrorValue.mk text true = err ∧ target = after := by simpa using read
        rfl
  | _ => simp [Redirection.readReply] at read

theorem contextError_isError (failure : Failure) : (contextError setup failure).isError = true := by
  rw [contextError]
  split <;> rfl

theorem cliReadReply_eq_undefined_iff (output : Output) (answer : Answer) (next : Output → State) :
    cliReadReply setup output answer next = .undefined ↔ badRedirection setup answer := by
  cases answer with
  | null failure => simp [cliReadReply, badRedirection, stop]
  | reply reply context =>
      rw [← readReply_eq_none_iff reply context output.target, cliReadReply]
      cases read : Redirection.readReply setup.lib setup.clusterMode reply output.target with
      | none => simp
      | some result =>
          obtain ⟨child, target⟩ := result
          cases child <;> simp [stop]

theorem cliReadReply_cases {answer : Answer} (output : Output) (fine : ¬badRedirection setup answer)
    (next : Output → State) :
    (∃ err output', cliReadReply setup output answer next = stop err output' ∧ err.isError = true) ∨
      ∃ output', cliReadReply setup output answer next = .going (next output') := by
  cases answer with
  | null failure => exact Or.inl ⟨_, _, rfl, contextError_isError failure⟩
  | reply reply context =>
      rw [← readReply_eq_none_iff reply context output.target] at fine
      simp only [cliReadReply]
      cases read : Redirection.readReply setup.lib setup.clusterMode reply output.target with
      | none => exact absurd read fine
      | some result =>
          obtain ⟨child, target⟩ := result
          cases child with
          | error err => exact Or.inl ⟨err, _, rfl, readReply_isError read⟩
          | ok child => exact Or.inr ⟨_, rfl⟩

theorem statStep_eq_undefined_iff (retrying : Bool) (requests : Int64) (lines : List Text) (moment : Moment) :
    statStep setup retrying requests lines moment = .undefined ↔
      (retrying = true ∨ moment.interrupted = false) ∧ badInfo moment.answer := by
  have tested : (!retrying && moment.interrupted) = true ↔ ¬(retrying = true ∨ moment.interrupted = false) := by
    cases retrying <;> cases moment.interrupted <;> simp
  rw [statStep]
  split
  next flag => simp [tested.mp flag, stop]
  next passed =>
    rw [tested, not_not] at passed
    simp only [passed, true_and]
    split
    next failure found => simp [badInfo, found, stop]
    next fine =>
      simp only [badInfo, fine, true_and]
      cases moment.answer with
      | null failure => simp
      | reply reply context =>
          cases reply with
          | error text => simp [stop]
          | _ =>
              dsimp only
              split
              next none_ => simp [none_]
              next info some_ => simp [some_]

theorem scanStep_eq_undefined_iff (found : List Text) (moment : Moment) :
    scanStep setup found moment = .undefined ↔ badScan moment.answer := by
  rw [scanStep]
  cases moment.answer with
  | null failure => simp [badScan, stop]
  | reply reply context =>
      cases reply with
      | error text => simp [badScan, stop]
      | _ =>
          simp only [badScan]
          split
          next none_ => simp [none_]
          next cur keys some_ =>
            rw [some_]
            split <;> simp

theorem headerEnd_ne_undefined (buf : Text) : headerEnd setup buf ≠ .undefined := by
  rw [headerEnd]
  split <;> simp [stop]

theorem isNothing_upTo (received : Transport.Received UInt8) : (upTo 1 received).isNothing = received.isNothing := by
  cases received with
  | data bytes => cases bytes <;> rfl
  | status code => rfl

theorem headerStep_eq_undefined_iff (buf : Text) (cells : Nat → UInt8) (moment : Moment) :
    headerStep setup buf cells moment = .undefined ↔
      (∃ received, moment.read = some received ∧ received.isNothing = false) ∧ 4096 ≤ buf.length := by
  rw [headerStep]
  cases moment.read with
  | none => simp [stop]
  | some received =>
      simp only [isNothing_upTo, Option.some.injEq, exists_eq_left']
      split
      next nothing => simp [nothing]
      next some_ =>
        split
        next full => simp [some_, full]
        next room =>
          simp only [room, and_false, iff_false]
          split
          · split
            · simp
            · exact headerEnd_ne_undefined buf
          · simp

theorem step_eq_undefined_iff (state : State) (moment : Moment) :
    step setup state moment = .undefined ↔ Crashes setup state moment := by
  cases state with
  | stat retrying requests lines => exact statStep_eq_undefined_iff retrying requests lines moment
  | latency state =>
      simp only [step, latencyStep, Crashes, iff_false]
      split
      · simp [stop]
      · split <;> simp [stop]
  | sync =>
      simp only [step, syncStep, Crashes, iff_false]
      split <;> simp [stop]
  | header buf cells => exact headerStep_eq_undefined_iff buf cells moment
  | payload left =>
      simp only [step, payloadStep, Crashes, iff_false]
      split <;> simp [stop]
  | replies output =>
      simp only [step, repliesStep, Crashes]
      split
      next flag => simp [stop, flag]
      next passed => simp [cliReadReply_eq_undefined_iff, passed]
  | scan cur found => exact scanStep_eq_undefined_iff found moment
  | listening untested output =>
      simp only [step, listenStep, Crashes]
      split
      next flag => simp [stop, flag.1, flag.2]
      next passed =>
        have tested : untested ≠ 0 ∨ moment.interrupted = false := by
          by_contra other
          rw [not_or, not_not, Bool.not_eq_false] at other
          exact passed other
        simp only [cliReadReply_eq_undefined_iff, tested, true_and]

end Steps

section Calls

variable (setup : Setup)

theorem statStep_null {failure : Failure} {retrying : Bool} (requests : Int64) (lines : List Text) {moment : Moment}
    (called : retrying = true ∨ moment.interrupted = false) (answer : moment.answer = .null failure) :
    statStep setup retrying requests lines moment =
      if failure.retried = true then .going (.stat true requests lines)
      else stop (replyError setup failure.errstr) (setup.texts lines) := by
  have passed : (!retrying && moment.interrupted) = false := by
    rcases called with rfl | passed
    · rfl
    · simp [passed]
  rw [statStep, passed, if_neg (by simp), answer, Answer.fatal, Answer.context, Option.filter_some]
  cases failure.retried <;> rfl

theorem statStep_reply {retrying : Bool} (requests : Int64) (lines : List Text) {moment : Moment} {reply : Reply}
    {context : Option Failure} (answer : moment.answer = .reply reply context)
    (fine : ¬Crashes setup (.stat retrying requests lines) moment) :
    (∃ err output, statStep setup retrying requests lines moment = stop err output ∧ err.isError = true) ∨
      ∃ requests' lines', statStep setup retrying requests lines moment = .going (.stat false requests' lines') := by
  rw [← step_eq_undefined_iff, step, statStep, answer] at fine
  rw [statStep, answer]
  split
  · exact Or.inl ⟨_, _, rfl, rfl⟩
  next passed =>
    rw [if_neg passed] at fine
    cases fatal : (Answer.reply reply context).fatal with
    | some failure => exact Or.inl ⟨_, _, rfl, rfl⟩
    | none =>
        rw [fatal] at fine
        cases reply with
        | error text => exact Or.inl ⟨_, _, rfl, rfl⟩
        | _ =>
            dsimp only at fine
            split at fine
            next none_ => exact absurd rfl fine
            next info some_ => exact Or.inr ⟨_, _, by simp only [some_]; rfl⟩

theorem cliReadReply_null {answer : Answer} {failure : Failure} (output : Output) (goesOn : Output → State)
    (null : answer = .null failure) :
    ∃ err, cliReadReply setup output answer goesOn = stop err output ∧ err.isError = true := by
  subst null
  exact ⟨contextError setup failure, rfl, contextError_isError failure⟩

theorem headerStep_byte {moment : Moment} {c : UInt8} {bytes : Text} (buf : Text) (cells : Nat → UInt8)
    (read : moment.read = some (.data (c :: bytes))) (room : buf.length < 4096) :
    headerStep setup buf cells moment =
      if c = Sync.lineFeed then
        if buf = [] then .going (.header [] (Function.update cells buf.length c)) else headerEnd setup buf
      else .going (.header (buf ++ [c]) (Function.update cells buf.length c)) := by
  simp [headerStep, read, upTo, Transport.Received.isNothing, Transport.store, Nat.not_le_of_lt room]

theorem scanStep_scanned (found : List Text) {moment : Moment} {reply : Reply} {context : Option Failure} {cur : Nat}
    {keys : List Text} (answer : moment.answer = .reply reply context) (read : scanned reply = some (cur, keys)) :
    scanStep setup found moment =
      if cur = 0 then .returned ⟨none, setup.texts (found ++ keys)⟩ else .going (.scan cur (found ++ keys)) := by
  rw [scanStep, answer]
  cases reply with
  | error text => cases read
  | _ => simp only [read]

theorem scanStep_reply (found : List Text) {moment : Moment} {reply : Reply} {context : Option Failure}
    (answer : moment.answer = .reply reply context) (fine : ¬badScan moment.answer) :
    (∃ err output, scanStep setup found moment = stop err output ∧ err.isError = true) ∨
      ∃ cur keys, scanned reply = some (cur, keys) ∧
        (cur ≠ 0 → scanStep setup found moment = .going (.scan cur (found ++ keys))) := by
  rw [answer] at fine
  cases reply with
  | error text => exact Or.inl ⟨_, _, by rw [scanStep, answer], rfl⟩
  | _ =>
      cases read : scanned _ with
      | none => exact absurd read fine
      | some result =>
          have steps := scanStep_scanned setup found answer read
          exact Or.inr ⟨_, _, rfl, fun more => steps.trans (if_neg more)⟩

end Calls

/-! ## Behind the script -/

section Tails

variable (setup : Setup)

def StopsFrom (state : State) (moments : Stream' Moment) : Prop :=
  Stops (step setup) Result.Failed (.going state) moments 0

def HeedsFrom (state : State) (moments : Stream' Moment) : Prop :=
  Halting.Clean (step setup) (Crashes setup) Overlooks (.going state) moments 0

variable {setup} {state next : State} {moments : Stream' Moment}

theorem stops_of_stop {err : ErrorValue} {output : Output} (stopped : step setup state moments.head = stop err output)
    (isError : err.isError = true) : StopsFrom setup state moments :=
  (Halting.stops_returned stopped).mpr ⟨err, rfl, isError⟩

theorem stops_of_going (goes : step setup state moments.head = .going next)
    (later : StopsFrom setup next moments.tail) : StopsFrom setup state moments :=
  (Halting.stops_going goes).mpr later

theorem step_stat_null {failure : Failure} {retrying : Bool} (requests : Int64) (lines : List Text)
    (called : retrying = true ∨ moments.head.interrupted = false) (answer : moments.head.answer = .null failure)
    (heeds : failure.retried = true → StopsFrom setup (.stat true requests lines) moments.tail) :
    StopsFrom setup (.stat retrying requests lines) moments := by
  have steps := statStep_null setup requests lines called answer
  cases retried : failure.retried with
  | true =>
      rw [retried, if_pos rfl] at steps
      exact stops_of_going steps (heeds retried)
  | false =>
      rw [retried, if_neg (by simp)] at steps
      exact stops_of_stop steps rfl

-- By induction on the calls before the one that is not retried.
theorem stops_retrying (k : Nat) (requests : Int64) (lines : List Text) (fails : moments.All Moment.Fails)
    (fatal : ∃ failure, (moments.get k).answer = .null failure ∧ failure.retried = false) :
    StopsFrom setup (.stat true requests lines) moments := by
  induction k generalizing moments with
  | zero =>
      obtain ⟨failure, answer, fatal⟩ := fatal
      exact step_stat_null requests lines (Or.inl rfl) answer fun retried => absurd (fatal.symm.trans retried) (by simp)
  | succ k ih =>
      obtain ⟨failure, answer⟩ := (fails 0).answer
      exact step_stat_null requests lines (Or.inl rfl) answer fun _ => ih (fun n => fails (n + 1)) fatal

theorem stops_stat_failing (retrying : Bool) (requests : Int64) (lines : List Text) (fails : moments.All Moment.Fails)
    (heeds : HeedsFrom setup (.stat retrying requests lines) moments) :
    StopsFrom setup (.stat retrying requests lines) moments := by
  have retries (moments : Stream' Moment) (fails : moments.All Moment.Fails)
      (heeds : HeedsFrom setup (.stat true requests lines) moments) :
      StopsFrom setup (.stat true requests lines) moments := by
    obtain ⟨k, other⟩ := Classical.not_forall.mp fun failing => heeds.not_overlooks (.retries failing)
    obtain ⟨failure, answer⟩ := (fails k).answer
    refine stops_retrying k requests lines fails ⟨failure, answer, ?_⟩
    exact Bool.eq_false_iff.mpr fun retried => other ⟨failure, answer, retried⟩
  cases retrying with
  | true => exact retries moments fails heeds
  | false =>
      cases flag : moments.head.interrupted with
      | true => exact stops_of_stop (by simp only [step, statStep, flag]; rfl) rfl
      | false =>
          obtain ⟨failure, answer⟩ := (fails 0).answer
          refine step_stat_null requests lines (Or.inr flag) answer fun retried => ?_
          have goes : step setup (.stat false requests lines) moments.head = .going (.stat true requests lines) :=
            (statStep_null setup requests lines (Or.inr flag) answer).trans (if_pos retried)
          exact retries moments.tail (fun n => fails (n + 1)) (heeds.next goes)

/-- A transport that fails for good stops every mode that does not retry. -/
theorem stops_failing (state : State) (fails : moments.All Moment.Fails) (heeds : HeedsFrom setup state moments) :
    StopsFrom setup state moments := by
  obtain ⟨failure, answer⟩ := (fails 0).answer
  have head : moments.head.answer = .null failure := answer
  have read : moments.head.read = none := (fails 0).read
  cases state with
  | stat retrying requests lines => exact stops_stat_failing retrying requests lines fails heeds
  | latency state =>
      cases flag : moments.head.interrupted with
      | true => exact stops_of_stop (by rw [step, latencyStep, flag]; rfl) rfl
      | false => exact stops_of_stop (by rw [step, latencyStep, flag, head]; rfl) rfl
  | sync => exact stops_of_stop (by rw [step, syncStep, (fails 0).sent]; rfl) rfl
  | header buf cells => exact stops_of_stop (by rw [step, headerStep, read]) rfl
  | payload left => exact stops_of_stop (by rw [step, payloadStep, read]) rfl
  | replies output =>
      cases flag : moments.head.interrupted with
      | true => exact stops_of_stop (by rw [step, repliesStep, flag]; rfl) rfl
      | false =>
          obtain ⟨err, stopped, isError⟩ := cliReadReply_null setup output .replies head
          exact stops_of_stop (by rw [step, repliesStep, flag, ← stopped]; rfl) isError
  | scan cur found => exact stops_of_stop (by rw [step, scanStep, head]) rfl
  | listening untested output =>
      by_cases flag : untested = 0 ∧ moments.head.interrupted = true
      · exact stops_of_stop (by rw [step, listenStep, if_pos flag]) rfl
      · obtain ⟨err, stopped, isError⟩ :=
          cliReadReply_null setup output (.listening (untested - 1)) head
        exact stops_of_stop (by rw [step, listenStep, if_neg flag, ← stopped]) isError

theorem stops_replies (output : Output) (arrives : moments.All Moment.Arrives) :
    StopsFrom setup (.replies output) moments := by
  have flag : moments.head.interrupted = true := (arrives 0).interrupted
  exact stops_of_stop (by rw [step, repliesStep, flag]; rfl) rfl

theorem subtract_lt {left count : Nat} (some_ : 0 < count) (fits : count ≤ left) :
    Sync.subtract left (count : Nat) < left := by
  rw [Sync.subtract]
  omega

-- By induction on what is left: a read takes at least one byte.
theorem stops_discard (left : Nat) (arrives : moments.All Moment.Arrives) :
    StopsFrom setup (discard setup left) moments := by
  induction left using Nat.strong_induction_on generalizing moments with
  | _ left ih =>
  rw [discard]
  split
  next nothing => exact stops_replies _ arrives
  next some_ =>
    obtain ⟨c, bytes, read⟩ := (arrives 0).read
    have head : moments.head.read = some (.data (c :: bytes)) := read
    have count : 0 < ((c :: bytes).take (min 1024 left)).length ∧
        ((c :: bytes).take (min 1024 left)).length ≤ left := by
      rw [List.length_take, List.length_cons]
      omega
    have goes : step setup (.payload left) moments.head =
        .going (discard setup (Sync.subtract left (((c :: bytes).take (min 1024 left)).length : Nat))) := by
      rw [step, payloadStep, head]
      rfl
    exact stops_of_going goes (ih _ (subtract_lt count.1 count.2) fun n => arrives (n + 1))

theorem stops_headerEnd {buf : Text} (ended : step setup state moments.head = headerEnd setup buf)
    (arrives : moments.All Moment.Arrives) : StopsFrom setup state moments := by
  rw [headerEnd] at ended
  split at ended
  · exact stops_of_stop ended rfl
  · exact stops_of_going ended (stops_discard _ fun n => arrives (n + 1))

-- By induction on the room behind what was read of the header.
theorem stops_begun (room : Nat) (buf : Text) (cells : Nat → UInt8) (some_ : buf ≠ [])
    (bound : 4096 ≤ buf.length + room) (arrives : moments.All Moment.Arrives)
    (heeds : HeedsFrom setup (.header buf cells) moments) : StopsFrom setup (.header buf cells) moments := by
  induction room generalizing buf cells moments with
  | zero =>
      obtain ⟨c, bytes, read⟩ := (arrives 0).read
      exact absurd ⟨⟨_, read, rfl⟩, bound⟩ heeds.not_crashes
  | succ room ih =>
      obtain ⟨c, bytes, read⟩ := (arrives 0).read
      have fits : buf.length < 4096 := by
        by_contra full
        exact heeds.not_crashes ⟨⟨_, read, rfl⟩, Nat.le_of_not_lt full⟩
      have steps := headerStep_byte setup buf cells read fits
      by_cases ended : c = Sync.lineFeed
      · rw [if_pos ended, if_neg some_] at steps
        exact stops_headerEnd steps arrives
      · rw [if_neg ended] at steps
        refine stops_of_going steps (ih _ _ (by simp) ?_ (fun n => arrives (n + 1)) (heeds.next steps))
        rw [List.length_append, List.length_singleton]
        omega

theorem stops_or_skips (cells : Nat → UInt8) (arrives : moments.All Moment.Arrives)
    (heeds : HeedsFrom setup (.header [] cells) moments) :
    StopsFrom setup (.header [] cells) moments ∨
      (∃ bytes, (moments.get 0).read = some (.data (Sync.lineFeed :: bytes))) ∧
        ∃ cells', step setup (.header [] cells) moments.head = .going (.header [] cells') := by
  obtain ⟨c, bytes, read⟩ := (arrives 0).read
  have steps := headerStep_byte setup [] cells read (by simp)
  by_cases same : c = Sync.lineFeed
  · rw [if_pos same, if_pos rfl] at steps
    exact Or.inr ⟨⟨bytes, same ▸ read⟩, _, steps⟩
  · rw [if_neg same] at steps
    refine Or.inl (stops_of_going steps ?_)
    exact stops_begun 4096 _ _ (by simp) (by simp) (fun n => arrives (n + 1)) (heeds.next steps)

-- By induction on the line breaks before the header.
theorem stops_header (k : Nat) (cells : Nat → UInt8) (arrives : moments.All Moment.Arrives)
    (heeds : HeedsFrom setup (.header [] cells) moments)
    (begun : ¬∃ bytes, (moments.get k).read = some (.data (Sync.lineFeed :: bytes))) :
    StopsFrom setup (.header [] cells) moments := by
  induction k generalizing cells moments with
  | zero => exact (stops_or_skips cells arrives heeds).resolve_right fun skips => begun skips.1
  | succ k ih =>
      rcases stops_or_skips cells arrives heeds with stops | ⟨-, cells', goes⟩
      · exact stops
      · exact stops_of_going goes (ih cells' (fun n => arrives (n + 1)) (heeds.next goes) begun)

-- By induction on the calls that come before the first test.
theorem stops_listening (untested : Nat) (output : Output) (arrives : moments.All Moment.Arrives)
    (heeds : HeedsFrom setup (.listening untested output) moments) :
    StopsFrom setup (.listening untested output) moments := by
  have flag : moments.head.interrupted = true := (arrives 0).interrupted
  induction untested generalizing output moments with
  | zero => exact stops_of_stop (by rw [step, listenStep, if_pos ⟨rfl, flag⟩]) rfl
  | succ untested ih =>
      have fine : ¬badRedirection setup moments.head.answer := fun bad =>
        heeds.not_crashes ⟨Or.inl (Nat.succ_ne_zero untested), bad⟩
      have steps : step setup (.listening (untested + 1) output) moments.head =
          cliReadReply setup output moments.head.answer (.listening untested) := by
        rw [step, listenStep, if_neg (by simp)]
        rfl
      rcases cliReadReply_cases output fine (.listening untested) with ⟨err, last, read, isError⟩ | ⟨last, read⟩
      · exact stops_of_stop (steps.trans read) isError
      · have goes := steps.trans read
        exact stops_of_going goes (ih last (fun n => arrives (n + 1)) (heeds.next goes) (arrives 1).interrupted)

theorem stops_or_scans (cur : Nat) (found : List Text) (arrives : moments.All Moment.Arrives)
    (heeds : HeedsFrom setup (.scan cur found) moments) :
    StopsFrom setup (.scan cur found) moments ∨
      ∃ reply context more keys, (moments.get 0).answer = .reply reply context ∧
        scanned reply = some (more, keys) ∧ more ≠ 0 ∧
        step setup (.scan cur found) moments.head = .going (.scan more (found ++ keys)) := by
  obtain ⟨reply, context, answer⟩ := (arrives 0).answer
  rcases scanStep_reply setup found answer heeds.not_crashes with
    ⟨err, output, stopped, isError⟩ | ⟨more, keys, read, goes⟩
  · exact Or.inl (stops_of_stop stopped isError)
  · have zero : more ≠ 0 := by
      rintro rfl
      exact heeds.not_overlooks (.completes answer read)
    exact Or.inr ⟨reply, context, more, keys, answer, read, zero, goes zero⟩

-- By induction on the answers before the one that does not continue the scan.
theorem stops_scan (k cur : Nat) (found : List Text) (arrives : moments.All Moment.Arrives)
    (heeds : HeedsFrom setup (.scan cur found) moments)
    (last : ¬∃ reply context more keys,
      (moments.get k).answer = .reply reply context ∧ scanned reply = some (more, keys) ∧ more ≠ 0) :
    StopsFrom setup (.scan cur found) moments := by
  induction k generalizing cur found moments with
  | zero =>
      refine (stops_or_scans cur found arrives heeds).resolve_right ?_
      rintro ⟨reply, context, more, keys, answer, read, zero, -⟩
      exact last ⟨reply, context, more, keys, answer, read, zero⟩
  | succ k ih =>
      rcases stops_or_scans cur found arrives heeds with stops | ⟨reply, context, more, keys, -, -, -, goes⟩
      · exact stops
      · exact stops_of_going goes (ih more (found ++ keys) (fun n => arrives (n + 1)) (heeds.next goes) last)

/-- An interrupt that stays stops every mode that tests the flag. -/
theorem stops_arriving (state : State) (arrives : moments.All Moment.Arrives) (heeds : HeedsFrom setup state moments) :
    StopsFrom setup state moments := by
  have flag : moments.head.interrupted = true := (arrives 0).interrupted
  have begins (cells : Nat → UInt8) (moments : Stream' Moment) (arrives : moments.All Moment.Arrives)
      (heeds : HeedsFrom setup (.header [] cells) moments) : StopsFrom setup (.header [] cells) moments := by
    obtain ⟨k, begun⟩ := Classical.not_forall.mp fun breaks => heeds.not_overlooks (.skips breaks)
    exact stops_header k cells arrives heeds begun
  cases state with
  | stat retrying requests lines =>
      have tested (requests : Int64) (lines : List Text) (moments : Stream' Moment)
          (flag : moments.head.interrupted = true) : StopsFrom setup (.stat false requests lines) moments :=
        stops_of_stop (by simp only [step, statStep, flag]; rfl) rfl
      obtain ⟨reply, context, answer⟩ := (arrives 0).answer
      rcases statStep_reply setup requests lines answer heeds.not_crashes with
        ⟨err, output, stopped, isError⟩ | ⟨requests', lines', goes⟩
      · exact stops_of_stop stopped isError
      · exact stops_of_going goes (tested requests' lines' moments.tail (arrives 1).interrupted)
  | latency state => exact stops_of_stop (by rw [step, latencyStep, flag]; rfl) rfl
  | sync =>
      have goes : step setup .sync moments.head = .going (.header [] setup.cells) := by
        rw [step, syncStep, (arrives 0).sent]
        rfl
      exact stops_of_going goes (begins _ _ (fun n => arrives (n + 1)) (heeds.next goes))
  | header buf cells =>
      by_cases empty : buf = []
      · subst empty
        exact begins cells moments arrives heeds
      · exact stops_begun 4096 buf cells empty (Nat.le_add_left 4096 buf.length) arrives heeds
  | payload left =>
      obtain ⟨c, bytes, read⟩ := (arrives 0).read
      have goes : step setup (.payload left) moments.head =
          .going (discard setup (Sync.subtract left (Sync.nread (upTo (min 1024 left) (.data (c :: bytes)))))) := by
        rw [step, payloadStep, Stream'.head, read]
      exact stops_of_going goes (stops_discard _ fun n => arrives (n + 1))
  | replies output => exact stops_replies output arrives
  | scan cur found =>
      obtain ⟨k, last⟩ := Classical.not_forall.mp fun more => heeds.not_overlooks (.scans more)
      exact stops_scan k cur found arrives heeds last
  | listening untested output => exact stops_listening untested output arrives heeds

/-! ## What is never stopped -/

-- What is overlooked once is overlooked in every state that follows.
theorem not_stops_of_overlooks (state : State) (moments : Stream' Moment) (overlooked : Overlooks state moments) :
    ¬StopsFrom setup state moments := by
  refine Halting.not_stops_of_invariant Overlooks ?_ overlooked
  intro state moments overlooked
  cases overlooked with
  | retries failing =>
      obtain ⟨failure, answer, retried⟩ := failing 0
      exact Or.inl ⟨_, (statStep_null setup _ _ (Or.inl rfl) answer).trans (if_pos retried),
        .retries fun k => failing (k + 1)⟩
  | completes answer last =>
      refine Or.inr ⟨_, (scanStep_scanned setup _ answer last).trans (if_pos rfl), ?_⟩
      rintro ⟨err, some_, -⟩
      cases some_
  | scans more =>
      obtain ⟨reply, context, next, keys, answer, read, zero⟩ := more 0
      exact Or.inl ⟨_, (scanStep_scanned setup _ answer read).trans (if_neg zero), .scans fun k => more (k + 1)⟩
  | @skips cells _ breaks =>
      obtain ⟨bytes, read⟩ := breaks 0
      have steps := headerStep_byte setup [] cells read (by simp)
      exact Or.inl ⟨_, steps.trans (if_pos rfl), .skips fun k => breaks (k + 1)⟩

end Tails

/-! ## Every mode -/

section Modes

variable (setup : Setup)

/-- Every mode returns an error after finitely many calls behind the script exactly when no result crashes it
and it overlooks nothing from the end of the script on. -/
theorem stopsWithError_iff (mode : Mode) (trace : Trace) :
    StopsWithError setup mode trace ↔ Heeds setup mode trace := by
  refine Halting.stops_iff_clean ?_ step_eq_undefined_iff not_stops_of_overlooks ?_
  · rw [start]
    split <;> simp [stop]
  · intro state heeds
    rw [Trace.moments, Stream'.drop_append_stream] at heeds ⊢
    rcases trace.ends with fails | arrives
    · exact stops_failing state fails heeds
    · exact stops_arriving state arrives heeds

def sampleSetup : Setup :=
  ⟨Common.std, Config.init Common.std, fun tot count => natText (tot / count).toNat, 0, true, fun _ => 0⟩

/-- The server has closed the connection. -/
def closed : Moment := ⟨false, 0, false, none, .null ⟨.eof, ascii "Server closed the connection", false⟩, 0⟩

def closedTrace : Trace := ⟨[], .const closed, Or.inl fun _ => ⟨rfl, rfl, _, rfl⟩⟩

/-- An interrupted scan that the server always continues. -/
def continued : Moment :=
  ⟨true, 0, true, some (.data [byte '$']), .reply (.array [.string (ascii "17"), .array []]) none, 0⟩

def continuedTrace : Trace := ⟨[], .const continued, Or.inr fun _ => ⟨rfl, rfl, ⟨_, _, rfl⟩, _, _, rfl⟩⟩

theorem modes_not_stopping :
    ¬StopsWithError sampleSetup .stat closedTrace ∧ ¬StopsWithError sampleSetup .scan continuedTrace := by
  constructor
  · intro stops
    have first : StopsFrom sampleSetup statMode (.const closed) := stops
    have goes : step sampleSetup statMode closed = .going (.stat true 0 []) := rfl
    have later := (Halting.stops_going goes).mp first
    exact not_stops_of_overlooks _ _ (.retries fun k => ⟨_, rfl, rfl⟩) later
  · intro stops
    have first : StopsFrom sampleSetup scanMode (.const continued) := stops
    have read : scanned (.array [.string (ascii "17"), .array []]) = some (17, []) := by decide
    exact not_stops_of_overlooks _ _ (.scans fun k => ⟨_, _, _, _, rfl, read, by decide⟩) first

/-! ## Modes that overlook nothing -/

-- A mode that is on its way stays in it.
def State.isLatency : State → Prop
  | .latency _ => True
  | _ => False

def State.isListening : State → Prop
  | .listening _ _ => True
  | _ => False

theorem going_of_start {mode : Mode} {state : State} (started : start setup mode = .going state) :
    state = begin setup mode := by
  rw [start] at started
  split at started
  · exact (Progress.going.inj started).symm
  · cases started

theorem heeds_latency (trace : Trace) : Heeds setup .latency trace := by
  refine Halting.clean_of_invariant State.isLatency ?_ ?_ ?_ ?_
  · intro state started
    rw [going_of_start setup started]
    trivial
  · intro state moment after latency goes
    cases state with
    | latency state =>
        rw [step, latencyStep] at goes
        split at goes
        · cases goes
        · split at goes
          · cases goes
          · obtain rfl := Progress.going.inj goes
            trivial
    | _ => exact latency.elim
  · intro state moment latency crashes
    cases state with
    | latency state => exact crashes
    | _ => exact latency.elim
  · intro state moments latency overlooked
    cases overlooked <;> exact latency

-- Outside a cluster there are no redirections.
theorem not_badRedirection (single : setup.clusterMode = false) (answer : Answer) : ¬badRedirection setup answer := by
  cases answer with
  | null failure => simp [badRedirection]
  | reply reply context => cases reply <;> simp [badRedirection, isRedirect, single]

theorem heeds_listen (mode : Mode) (listens : begin setup mode = listen setup) (single : setup.clusterMode = false)
    (trace : Trace) : Heeds setup mode trace := by
  refine Halting.clean_of_invariant State.isListening ?_ ?_ ?_ ?_
  · intro state started
    rw [going_of_start setup started, listens]
    trivial
  · intro state moment after listening goes
    cases state with
    | listening untested output =>
        rw [step, listenStep] at goes
        split at goes
        · cases goes
        · rcases cliReadReply_cases output (not_badRedirection setup single moment.answer)
            (.listening (untested - 1)) with
            ⟨err, last, read, -⟩ | ⟨last, read⟩
          · rw [read] at goes
            cases goes
          · rw [read] at goes
            obtain rfl := Progress.going.inj goes
            trivial
    | _ => exact listening.elim
  · intro state moment listening crashes
    cases state with
    | listening untested output => exact not_badRedirection setup single moment.answer crashes.2
    | _ => exact listening.elim
  · intro state moments listening overlooked
    cases overlooked <;> exact listening

theorem heeds_monitor (single : setup.clusterMode = false) (trace : Trace) : Heeds setup .monitor trace :=
  heeds_listen setup .monitor rfl single trace

theorem heeds_subscribe (single : setup.clusterMode = false) (trace : Trace) : Heeds setup .subscribe trace :=
  heeds_listen setup .subscribe rfl single trace

end Modes

end Modes

end FastoNoSQL.Redis
