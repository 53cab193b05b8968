import FastoNoSQL.Runs
import Mathlib.Tactic.Common

set_option autoImplicit false

/-!
# Messages cut out of a stream

A decoder looks at the symbols that have arrived and were not used: it waits for
more, uses some of them, or fails. When what it decides stays decided, it hands
out the messages of the stream whatever the pieces in which the stream arrives
and whenever it is asked for one.
-/

namespace Framing

inductive Verdict (σ ρ E : Type) where
  | wait
  | next (state : σ) (used : Nat) (message : Option ρ)
  | fail (err : E)

variable {α σ ρ E : Type} (look : σ → List α → Verdict σ ρ E)

/-- Each step uses something that is there, and more symbols behind it do not change a decision. -/
structure Stable : Prop where
  uses : ∀ {state buffer after used message}, look state buffer = .next after used message →
    0 < used ∧ used ≤ buffer.length
  keeps : ∀ state buffer more, look state buffer ≠ .wait → look state (buffer ++ more) = look state buffer

-- A loop over less and less of the buffer needs no more fuel than there are symbols.
theorem enough {β : Type} {loop : Nat → σ → List α → β}
    (goes : ∀ first second state buffer,
      (∀ after left, left.length < buffer.length → loop first after left = loop second after left) →
      loop (first + 1) state buffer = loop (second + 1) state buffer)
    (first second : Nat) (state : σ) (buffer : List α) (fuel : buffer.length < first)
    (fuel' : buffer.length < second) : loop first state buffer = loop second state buffer := by
  induction first generalizing second state buffer with
  | zero => omega
  | succ first ih =>
      cases second with
      | zero => omega
      | succ second =>
          refine goes first second state buffer fun after left shorter => ?_
          exact ih second after left (by omega) (by omega)

/-! ## Asking for a message -/

inductive Pulled (α σ ρ E : Type) where
  | nothing (state : σ) (left : List α)
  | message (message : ρ) (state : σ) (left : List α)
  | failed (err : E)

def pullFor : Nat → σ → List α → Pulled α σ ρ E
  | 0, state, buffer => .nothing state buffer
  | fuel + 1, state, buffer =>
    match look state buffer with
    | .wait => .nothing state buffer
    | .next after used none => pullFor fuel after (buffer.drop used)
    | .next after used (some message) => .message message after (buffer.drop used)
    | .fail err => .failed err

def pull (state : σ) (buffer : List α) : Pulled α σ ρ E := pullFor look (buffer.length + 1) state buffer

variable {look} {state after : σ} {buffer : List α} {used : Nat}

theorem pull_wait (seen : look state buffer = .wait) : pull look state buffer = .nothing state buffer := by
  rw [pull, pullFor, seen]

theorem pull_silent (stable : Stable look) (seen : look state buffer = .next after used none) :
    pull look state buffer = pull look after (buffer.drop used) := by
  have uses := stable.uses seen
  rw [pull, pullFor, seen]
  refine enough (fun first second state buffer same => ?_) _ _ after _ (by rw [List.length_drop]; omega)
    (Nat.lt_succ_self _)
  simp only [pullFor]
  cases seen : look state buffer with
  | wait => rfl
  | fail err => rfl
  | next after used message =>
      have uses := stable.uses seen
      cases message with
      | none => exact same after _ (by rw [List.length_drop]; omega)
      | some message => rfl

theorem pull_message {message : ρ} (seen : look state buffer = .next after used (some message)) :
    pull look state buffer = .message message after (buffer.drop used) := by
  rw [pull, pullFor, seen]

-- A decoder that is in the same state behind every message.
theorem pull_home {home : σ} (stable : Stable look)
    (homes : ∀ {state buffer after used message}, look state buffer = .next after used (some message) → after = home)
    {message : ρ} {left : List α} (pulled : pull look state buffer = .message message after left) : after = home := by
  generalize size : buffer.length = n
  induction n using Nat.strongRecOn generalizing state buffer with
  | ind n ih =>
      cases seen : look state buffer with
      | wait => simp [pull_wait seen] at pulled
      | fail err => simp [pull, pullFor, seen] at pulled
      | next next used answer =>
          have uses := stable.uses seen
          cases answer with
          | none =>
              rw [pull_silent stable seen] at pulled
              exact ih _ (by rw [List.length_drop]; omega) pulled rfl
          | some answer =>
              rw [pull_message seen] at pulled
              obtain ⟨-, rfl, -⟩ := Pulled.message.inj pulled
              exact homes seen

theorem pull_fail {err : E} (seen : look state buffer = .fail err) : pull look state buffer = .failed err := by
  rw [pull, pullFor, seen]

/-- What the answer to a request for a message tells of the same request when more has arrived. -/
def Pulled.Lasts (look : σ → List α → Verdict σ ρ E) (state : σ) (buffer : List α) : Pulled α σ ρ E → Prop
  | .nothing after left =>
    look after left = .wait ∧ left <:+ buffer ∧
      ∀ more, pull look state (buffer ++ more) = pull look after (left ++ more)
  | .message next after left =>
    left <:+ buffer ∧ left.length < buffer.length ∧
      ∀ more, pull look state (buffer ++ more) = .message next after (left ++ more)
  | .failed err => ∀ more, pull look state (buffer ++ more) = .failed err

-- By induction on the symbols that are left: each silent step uses some of them.
theorem pull_lasts (stable : Stable look) (state : σ) (buffer : List α) :
    (pull look state buffer).Lasts look state buffer := by
  generalize size : buffer.length = n
  induction n using Nat.strongRecOn generalizing state buffer with
  | ind n ih =>
      cases seen : look state buffer with
      | wait =>
          rw [pull_wait seen]
          exact ⟨seen, List.suffix_refl _, fun _ => rfl⟩
      | fail err =>
          rw [pull_fail seen]
          exact fun more => pull_fail ((stable.keeps state buffer more (by simp [seen])).trans seen)
      | next after used message =>
          have uses := stable.uses seen
          have shorter : (buffer.drop used).length < buffer.length := by
            rw [List.length_drop]
            omega
          have kept (more : List α) : look state (buffer ++ more) = .next after used message :=
            (stable.keeps state buffer more (by simp [seen])).trans seen
          have drops (more : List α) : (buffer ++ more).drop used = buffer.drop used ++ more :=
            List.drop_append_of_le_length uses.2
          cases message with
          | some message =>
              rw [pull_message seen]
              exact ⟨List.drop_suffix used buffer, shorter, fun more => by rw [pull_message (kept more), drops]⟩
          | none =>
              have silent (more : List α) :
                  pull look state (buffer ++ more) = pull look after (buffer.drop used ++ more) := by
                rw [pull_silent stable (kept more), drops]
              rw [pull_silent stable seen]
              have later := ih _ (size ▸ shorter) after (buffer.drop used) rfl
              cases pulled : pull look after (buffer.drop used) with
              | nothing last left =>
                  rw [pulled] at later
                  obtain ⟨waits, suffix, lasts⟩ := later
                  exact ⟨waits, suffix.trans (List.drop_suffix used buffer),
                    fun more => (silent more).trans (lasts more)⟩
              | message message last left =>
                  rw [pulled] at later
                  obtain ⟨suffix, less, lasts⟩ := later
                  exact ⟨suffix.trans (List.drop_suffix used buffer), Nat.lt_trans less shorter,
                    fun more => (silent more).trans (lasts more)⟩
              | failed err =>
                  rw [pulled] at later
                  exact fun more => (silent more).trans (later more)

/-! ## The messages of a stream -/

structure Decoded (ρ E : Type) where
  messages : List ρ
  failure : Option E

def Decoded.behind (messages : List ρ) (decoded : Decoded ρ E) : Decoded ρ E :=
  { decoded with messages := messages ++ decoded.messages }

@[simp] theorem Decoded.behind_nil (decoded : Decoded ρ E) : decoded.behind [] = decoded := rfl

@[simp] theorem Decoded.behind_behind (first second : List ρ) (decoded : Decoded ρ E) :
    (decoded.behind second).behind first = decoded.behind (first ++ second) := by
  simp [Decoded.behind]

variable (look) in
def decodeFor : Nat → σ → List α → Decoded ρ E
  | 0, _, _ => ⟨[], none⟩
  | fuel + 1, state, stream =>
    match pull look state stream with
    | .nothing _ _ => ⟨[], none⟩
    | .message message after left => (decodeFor fuel after left).behind [message]
    | .failed err => ⟨[], some err⟩

variable (look) in
/-- The messages of a stream and the failure that ends them, if any. -/
def decoded (state : σ) (stream : List α) : Decoded ρ E := decodeFor look (stream.length + 1) state stream

theorem decoded_nothing {left : List α} (pulled : pull look state buffer = .nothing after left) :
    decoded look state buffer = ⟨[], none⟩ := by
  rw [decoded, decodeFor, pulled]

theorem decoded_failed {err : E} (pulled : pull look state buffer = .failed err) :
    decoded look state buffer = ⟨[], some err⟩ := by
  rw [decoded, decodeFor, pulled]

theorem decoded_message (stable : Stable look) {message : ρ} {left : List α}
    (pulled : pull look state buffer = .message message after left) :
    decoded look state buffer = (decoded look after left).behind [message] := by
  have lasts := pull_lasts stable state buffer
  rw [pulled] at lasts
  rw [decoded, decodeFor, pulled]
  refine congrArg (Decoded.behind [message]) (enough (fun first second state buffer same => ?_) _ _ after left
    lasts.2.1 (Nat.lt_succ_self _))
  have lasts := pull_lasts stable state buffer
  simp only [decodeFor]
  cases pulled : pull look state buffer with
  | nothing after left => rfl
  | failed err => rfl
  | message message after left =>
      rw [pulled] at lasts
      exact congrArg (Decoded.behind [message]) (same after left lasts.2.1)

theorem decoded_eq_of_pull_eq {state' : σ} {buffer' : List α} (stable : Stable look)
    (same : pull look state buffer = pull look state' buffer') :
    decoded look state buffer = decoded look state' buffer' := by
  cases pulled : pull look state buffer with
  | nothing after left => rw [decoded_nothing pulled, decoded_nothing (same.symm.trans pulled)]
  | message message after left =>
      rw [decoded_message stable pulled, decoded_message stable (same.symm.trans pulled)]
  | failed err => rw [decoded_failed pulled, decoded_failed (same.symm.trans pulled)]

/-! ## The queue that a decoder is -/

inductive Op (α : Type) where
  | feed (symbols : List α)
  | pull
deriving DecidableEq

inductive Result (ρ E : Type) where
  | fed (accepted : Bool)
  | nothing
  | message (message : ρ)
  | failed (err : E)
deriving DecidableEq

def fed : List (Op α) → List α
  | [] => []
  | .feed symbols :: ops => symbols ++ fed ops
  | .pull :: ops => fed ops

section Results

variable {S T : Type}

def results (step : S → Op α → Result ρ E × S) (state : S) : List (Op α) → List (Result ρ E)
  | [] => []
  | op :: ops => (step state op).1 :: results step (step state op).2 ops

theorem results_eq {first : S → Op α → Result ρ E × S} {second : T → Op α → Result ρ E × T} (related : S → T → Prop)
    (fits : S → Op α → Prop)
    (steps : ∀ state state' op, related state state' → fits state op →
      (first state op).1 = (second state' op).1 ∧ related (first state op).2 (second state' op).2)
    (state : S) (state' : T) (starts : related state state') (ops : List (Op α))
    (along : Runs.Along (fun state op => (first state op).2) fits state ops) :
    results first state ops = results second state' ops := by
  induction ops generalizing state state' with
  | nil => rfl
  | cons op ops ih =>
      rw [Runs.along_cons] at along
      obtain ⟨same, next⟩ := steps state state' op starts along.1
      rw [results, results, same, ih _ _ next along.2]

end Results

/-- A decoder with the symbols that it has not used; nothing is taken after a failure. -/
structure Machine (α σ E : Type) where
  state : σ
  buffer : List α := []
  failure : Option E := none

variable (look) in
def Machine.step (machine : Machine α σ E) (op : Op α) : Result ρ E × Machine α σ E :=
  match machine.failure, op with
  | some _, .feed _ => (.fed false, machine)
  | some err, .pull => (.failed err, machine)
  | none, .feed symbols => (.fed true, { machine with buffer := machine.buffer ++ symbols })
  | none, .pull =>
    match pull look machine.state machine.buffer with
    | .nothing state left => (.nothing, ⟨state, left, none⟩)
    | .message message state left => (.message message, ⟨state, left, none⟩)
    | .failed err => (.failed err, ⟨machine.state, [], some err⟩)

/-- The stream so far, the number of its messages that were handed out, and the failure that was met. -/
structure Queue (α E : Type) where
  stream : List α := []
  taken : Nat := 0
  failure : Option E := none

variable (look) in
def Queue.step (start : σ) (queue : Queue α E) (op : Op α) : Result ρ E × Queue α E :=
  match queue.failure, op with
  | some _, .feed _ => (.fed false, queue)
  | some err, .pull => (.failed err, queue)
  | none, .feed symbols => (.fed true, { queue with stream := queue.stream ++ symbols })
  | none, .pull =>
    match (decoded look start queue.stream).messages[queue.taken]? with
    | some message => (.message message, { queue with taken := queue.taken + 1 })
    | none =>
      match (decoded look start queue.stream).failure with
      | none => (.nothing, queue)
      | some err => (.failed err, { queue with failure := some err })

/-- What the decoder still has to say is what the stream says behind the messages handed out. -/
def Serves (look : σ → List α → Verdict σ ρ E) (start : σ) (machine : Machine α σ E) (queue : Queue α E) : Prop :=
  machine.failure = queue.failure ∧
    (queue.failure = none → ∃ handed : List ρ, handed.length = queue.taken ∧ ∀ more,
      decoded look start (queue.stream ++ more) = (decoded look machine.state (machine.buffer ++ more)).behind handed)

theorem serves_step (stable : Stable look) (start : σ) (machine : Machine α σ E) (queue : Queue α E) (op : Op α)
    (serves : Serves look start machine queue) :
    (machine.step look op).1 = (queue.step look start op).1 ∧
      Serves look start (machine.step look op).2 (queue.step look start op).2 := by
  obtain ⟨same, left⟩ := serves
  cases failed : queue.failure with
  | some err =>
      rw [failed] at same
      have broken : Serves look start machine queue := ⟨same.trans failed.symm, fun none => by simp [failed] at none⟩
      cases op with
      | feed symbols => simpa [Machine.step, Queue.step, same, failed] using broken
      | pull => simpa [Machine.step, Queue.step, same, failed] using broken
  | none =>
      rw [failed] at same
      obtain ⟨handed, count, agrees⟩ := left failed
      cases op with
      | feed symbols =>
          simp only [Machine.step, Queue.step, same, failed, true_and]
          refine ⟨rfl, fun _ => ⟨handed, count, fun more => ?_⟩⟩
          simp only [List.append_assoc, agrees]
      | pull =>
          have lasts := pull_lasts stable machine.state machine.buffer
          have now := agrees []
          simp only [List.append_nil] at now
          cases pulled : pull look machine.state machine.buffer with
          | nothing after rest =>
              rw [pulled] at lasts
              rw [decoded_nothing pulled] at now
              simp only [Machine.step, Queue.step, same, failed, pulled, now, Decoded.behind, List.append_nil,
                ← count, List.getElem?_eq_none (Nat.le_refl _), true_and]
              refine ⟨failed.symm, fun _ => ⟨handed, count, fun more => ?_⟩⟩
              rw [agrees, decoded_eq_of_pull_eq stable (lasts.2.2 more)]
          | message message after rest =>
              rw [pulled] at lasts
              rw [decoded_message stable pulled, Decoded.behind_behind] at now
              simp only [Machine.step, Queue.step, same, failed, pulled, now, Decoded.behind, List.append_assoc,
                ← count, List.getElem?_append_right (Nat.le_refl _), Nat.sub_self, List.singleton_append,
                List.getElem?_cons_zero, true_and]
              refine ⟨rfl, fun _ => ⟨handed ++ [message], by simp, fun more => ?_⟩⟩
              rw [agrees, decoded_message stable (lasts.2.2 more), Decoded.behind_behind]
          | failed err =>
              rw [decoded_failed pulled] at now
              simp only [Machine.step, Queue.step, same, failed, pulled, now, Decoded.behind, List.append_nil,
                ← count, List.getElem?_eq_none (Nat.le_refl _), true_and]
              exact ⟨rfl, nofun⟩

/-- A decoder is the queue of the messages of its stream. -/
theorem machine_results (stable : Stable look) (start : σ) (ops : List (Op α)) :
    results (Machine.step look) ⟨start, [], none⟩ ops = results (Queue.step look start) {} ops :=
  results_eq (Serves look start) (fun _ _ => True) (fun machine queue op serves _ => serves_step stable start machine
    queue op serves) _ _ ⟨rfl, fun _ => ⟨[], rfl, fun _ => rfl⟩⟩ ops
    fun _ _ _ _ => trivial

/-! ## What a decoder never does -/

-- The decoder, going over the stream, looks at this state with this rest of the stream.
inductive Visits (look : σ → List α → Verdict σ ρ E) : σ → List α → σ → List α → Prop where
  | here {state : σ} {stream : List α} : Visits look state stream state stream
  | next {state after last : σ} {stream rest : List α} {used : Nat} {message : Option ρ}
      (seen : look state stream = .next after used message) (later : Visits look after (stream.drop used) last rest) :
    Visits look state stream last rest

section Safe

variable (inv : σ → Prop) (careful : σ → List α → Prop) (whole : ρ → Prop) (allowed : E → Prop)

/-- What a step keeps when the stream does not do it harm. -/
def Verdict.Keeps : Verdict σ ρ E → Prop
  | .wait => True
  | .next after _ message => inv after ∧ ∀ made ∈ message, whole made
  | .fail err => allowed err

def Pulled.Keeps : Pulled α σ ρ E → Prop
  | .nothing after _ => inv after
  | .message made after _ => inv after ∧ whole made
  | .failed err => allowed err

def Result.Good : Result ρ E → Prop
  | .fed _ => True
  | .nothing => True
  | .message made => whole made
  | .failed err => allowed err

-- Everything that is met from here on is careful.
def Careful (look : σ → List α → Verdict σ ρ E) (state : σ) (stream : List α) : Prop :=
  ∀ last rest, Visits look state stream last rest → careful last rest

variable {inv careful whole allowed}

theorem Careful.next {stream : List α} {message : Option ρ} (goes : Careful careful look state stream)
    (seen : look state stream = .next after used message) : Careful careful look after (stream.drop used) :=
  fun last rest later => goes last rest (.next seen later)

theorem Careful.of_wait {stream : List α} (here : careful state stream) (seen : look state stream = .wait) :
    Careful careful look state stream := by
  intro last rest visits
  cases visits with
  | here => exact here
  | next goes visits => simp [seen] at goes

theorem Careful.of_next {stream : List α} {message : Option ρ} (here : careful state stream)
    (seen : look state stream = .next after used message) (later : Careful careful look after (stream.drop used)) :
    Careful careful look state stream := by
  intro last rest visits
  cases visits with
  | here => exact here
  | next goes visits =>
      obtain ⟨rfl, rfl, -⟩ := Verdict.next.inj (seen.symm.trans goes)
      exact later last rest visits

-- What is seen of a buffer is seen of the stream that it begins.
theorem pull_keeps (stable : Stable look)
    (steps : ∀ state stream, inv state → careful state stream → (look state stream).Keeps inv whole allowed)
    (state : σ) (buffer coming : List α) (holds : inv state) (goes : Careful careful look state (buffer ++ coming)) :
    (pull look state buffer).Keeps inv whole allowed ∧
      ∀ after left, (pull look state buffer = .nothing after left ∨
        ∃ message, pull look state buffer = .message message after left) →
        Careful careful look after (left ++ coming) := by
  generalize size : buffer.length = n
  induction n using Nat.strongRecOn generalizing state buffer with
  | ind n ih =>
      have kept := steps state (buffer ++ coming) holds (goes _ _ .here)
      cases seen : look state buffer with
      | wait =>
          rw [pull_wait seen]
          refine ⟨holds, fun after left pulled => ?_⟩
          rcases pulled with pulled | ⟨message, pulled⟩
          · obtain ⟨rfl, rfl⟩ := Pulled.nothing.inj pulled
            exact goes
          · cases pulled
      | fail err =>
          have same := stable.keeps state buffer coming (by simp [seen])
          rw [same, seen] at kept
          rw [pull_fail seen]
          exact ⟨kept, fun after left pulled => by rcases pulled with pulled | ⟨message, pulled⟩ <;> cases pulled⟩
      | next next used message =>
          have uses := stable.uses seen
          have same := (stable.keeps state buffer coming (by simp [seen])).trans seen
          have later := goes.next same
          rw [List.drop_append_of_le_length uses.2] at later
          rw [same] at kept
          cases message with
          | none =>
              rw [pull_silent stable seen]
              exact ih _ (by rw [List.length_drop]; omega) next _ kept.1 later rfl
          | some message =>
              rw [pull_message seen]
              refine ⟨⟨kept.1, kept.2 message rfl⟩, fun after left pulled => ?_⟩
              rcases pulled with pulled | ⟨other, pulled⟩
              · cases pulled
              · obtain ⟨-, rfl, rfl⟩ := Pulled.message.inj pulled
                exact later

theorem failed_good (machine : Machine α σ E) {err : E} (failed : machine.failure = some err) (allow : allowed err)
    (ops : List (Op α)) : ∀ result ∈ results (Machine.step look) machine ops, result.Good whole allowed := by
  induction ops generalizing machine with
  | nil => simp [results]
  | cons op ops ih =>
      have stays : ((machine.step look op).1.Good whole allowed) ∧ (machine.step look op).2 = machine := by
        cases op <;> simp [Machine.step, failed, Result.Good, allow]
      rw [results]
      refine List.forall_mem_cons.mpr ⟨stays.1, ?_⟩
      rw [stays.2]
      exact ih machine failed

/-- A decoder of a stream that does it no harm: every message is whole, and it does not fail but in ways that are
allowed. -/
theorem machine_good (stable : Stable look)
    (steps : ∀ state stream, inv state → careful state stream → (look state stream).Keeps inv whole allowed)
    (state : σ) (buffer : List α) (ops : List (Op α)) (holds : inv state)
    (goes : Careful careful look state (buffer ++ fed ops)) :
    ∀ result ∈ results (Machine.step look) ⟨state, buffer, none⟩ ops, result.Good whole allowed := by
  induction ops generalizing state buffer with
  | nil => simp [results]
  | cons op ops ih =>
      rw [results]
      refine List.forall_mem_cons.mpr ?_
      cases op with
      | feed symbols =>
          rw [fed, ← List.append_assoc] at goes
          exact ⟨trivial, ih state _ holds goes⟩
      | pull =>
          rw [fed] at goes
          obtain ⟨kept, later⟩ := pull_keeps stable steps state buffer (fed ops) holds goes
          cases pulled : pull look state buffer with
          | nothing after left =>
              rw [pulled] at kept
              simp only [Machine.step, pulled]
              exact ⟨trivial, ih after left kept (later after left (Or.inl pulled))⟩
          | message message after left =>
              rw [pulled] at kept
              simp only [Machine.step, pulled]
              exact ⟨kept.2, ih after left kept.1 (later after left (Or.inr ⟨message, pulled⟩))⟩
          | failed err =>
              rw [pulled] at kept
              have allow : allowed err := kept
              simp only [Machine.step, pulled]
              exact ⟨allow, failed_good _ rfl allow ops⟩

end Safe

/-! ## Encoded messages -/

/-- The decoder goes over exactly these symbols, whatever comes behind them, and hands out the message, if any, with
the last of them. -/
inductive Spans (look : σ → List α → Verdict σ ρ E) : σ → List α → σ → Option ρ → Prop where
  | once {state after : σ} {used : List α} {message : Option ρ}
      (seen : ∀ more, look state (used ++ more) = .next after used.length message) :
    Spans look state used after message
  | behind {state next after : σ} {used rest : List α} {message : Option ρ} (first : Spans look state used next none)
      (later : Spans look next rest after message) :
    Spans look state (used ++ rest) after message

-- What a request finds behind symbols that the decoder goes over.
variable (look) in
def passed (after : σ) (left : List α) : Option ρ → Pulled α σ ρ E
  | none => pull look after left
  | some message => .message message after left

theorem pull_spans (stable : Stable look) {symbols : List α} {message : Option ρ}
    (spans : Spans look state symbols after message) (more : List α) :
    pull look state (symbols ++ more) = passed look after more message := by
  induction spans generalizing more with
  | @once state after used message seen =>
      cases message with
      | none => rw [pull_silent stable (seen more), List.drop_left, passed]
      | some message => rw [pull_message (seen more), List.drop_left, passed]
  | behind first later ih ih' => rw [List.append_assoc, ih, passed, ih']

-- What would be decided of less than a step needs would be decided of the whole step.
theorem look_part (stable : Stable look) {used part rest : List α} {message : Option ρ}
    (seen : ∀ more, look state (used ++ more) = .next after used.length message) (whole : part ++ rest = used)
    (some : rest ≠ []) : look state part = .wait := by
  cases early : look state part with
  | wait => rfl
  | fail err =>
      have kept := stable.keeps state part rest (by simp [early])
      have now := seen []
      rw [List.append_nil, ← whole, kept, early] at now
      cases now
  | next next count answer =>
      have uses := stable.uses early
      have kept := stable.keeps state part rest (by simp [early])
      have now := seen []
      rw [List.append_nil, ← whole, kept, early, List.length_append] at now
      have count := (Verdict.next.inj now).2.1
      have more := List.length_pos_iff.mpr some
      omega

-- A part of what the decoder goes over is waited for.
theorem pull_part (stable : Stable look) {symbols : List α} {message : Option ρ}
    (spans : Spans look state symbols after message) {part rest : List α} (whole : part ++ rest = symbols)
    (some : rest ≠ []) : ∃ next left, pull look state part = .nothing next left := by
  induction spans generalizing part rest with
  | once seen => exact ⟨_, _, pull_wait (look_part stable seen whole some)⟩
  | @behind state between _ used symbols _ first later ih ih' =>
      have past (part rest : List α) (whole : part ++ rest = symbols) (some : rest ≠ []) :
          ∃ next left, pull look state (used ++ part) = .nothing next left := by
        rw [pull_spans stable first, passed]
        exact ih' whole some
      rcases List.append_eq_append_iff.mp whole with ⟨missing, within, behind⟩ | ⟨front, longer, behind⟩
      · by_cases exact' : missing = []
        · rw [exact', List.nil_append] at behind
          rw [exact', List.append_nil] at within
          rw [← within, ← List.append_nil used]
          exact past [] rest behind some
        · exact ih within.symm exact'
      · rw [longer]
        exact past front rest behind.symm some

section Sent

-- Messages with the symbols that were sent for them.
variable (sent : List (List α × ρ))

def sentSymbols : List α := sent.flatMap Prod.fst

theorem sentSymbols_append (later : List (List α × ρ)) :
    sentSymbols (sent ++ later) = sentSymbols sent ++ sentSymbols later :=
  List.flatMap_append

-- The messages whose symbols are all among the first ones.
def arrived : List (List α × ρ) → Nat → List ρ
  | [], _ => []
  | (symbols, message) :: sent, count =>
    if symbols.length ≤ count then message :: arrived sent (count - symbols.length) else []

theorem arrived_prefix (count : Nat) : arrived sent count <+: sent.map Prod.snd := by
  induction sent generalizing count with
  | nil => exact List.prefix_refl _
  | cons pair sent ih =>
      obtain ⟨symbols, message⟩ := pair
      rw [arrived]
      split
      · exact List.cons_prefix_cons.mpr ⟨rfl, ih _⟩
      · exact List.nil_prefix

theorem arrived_all : arrived sent (sentSymbols sent).length = sent.map Prod.snd := by
  induction sent with
  | nil => rfl
  | cons pair sent ih =>
      obtain ⟨symbols, message⟩ := pair
      have whole : (sentSymbols ((symbols, message) :: sent)).length = symbols.length + (sentSymbols sent).length := by
        rw [sentSymbols, List.flatMap_cons, List.length_append, sentSymbols]
      rw [arrived, whole, if_pos (Nat.le_add_right _ _), Nat.add_sub_cancel_left, ih, List.map_cons]

-- What a request finds in a part of what is to come.
theorem pull_sent (stable : Stable look) {start : σ} {symbols : List α} {message : ρ}
    (spans : Spans look start symbols start (some message)) (rest : List α)
    (begins : rest <+: sentSymbols ((symbols, message) :: sent)) :
    if symbols.length ≤ rest.length then
      pull look start rest = .message message start (rest.drop symbols.length)
    else ∃ after left, pull look start rest = .nothing after left := by
  rw [sentSymbols, List.flatMap_cons] at begins
  split
  · next room =>
      obtain ⟨stream, rfl⟩ : symbols <+: rest :=
        List.prefix_of_prefix_length_le (List.prefix_append symbols _) begins room
      rw [List.drop_left]
      exact pull_spans stable spans stream
  · next short =>
      obtain ⟨missing, whole⟩ : rest <+: symbols :=
        List.prefix_of_prefix_length_le begins (List.prefix_append symbols _) (by omega)
      refine pull_part stable spans whole ?_
      rintro rfl
      rw [List.append_nil] at whole
      exact short (Nat.le_of_eq (congrArg List.length whole).symm)

theorem decoded_sent (stable : Stable look) (start : σ)
    (each : ∀ pair ∈ sent, Spans look start pair.1 start (some pair.2)) (silent : look start [] = .wait)
    (stream : List α) (begins : stream <+: sentSymbols sent) :
    decoded look start stream = ⟨arrived sent stream.length, none⟩ := by
  induction sent generalizing stream with
  | nil =>
      obtain rfl := List.prefix_nil.mp begins
      exact decoded_nothing (pull_wait silent)
  | cons pair sent ih =>
      obtain ⟨symbols, message⟩ := pair
      have pulled := pull_sent sent stable (each _ List.mem_cons_self) stream begins
      rw [arrived]
      split
      · next room =>
          rw [if_pos room] at pulled
          have later : stream.drop symbols.length <+: sentSymbols sent := by
            obtain ⟨more, whole⟩ := begins
            have dropped := congrArg (List.drop symbols.length) whole
            rw [List.drop_append_of_le_length room, sentSymbols, List.flatMap_cons, List.drop_left] at dropped
            exact ⟨more, dropped⟩
          rw [decoded_message stable pulled,
            ih (fun pair member => each pair (List.mem_cons_of_mem _ member)) _ later, List.length_drop]
          rfl
      · next short =>
          rw [if_neg short] at pulled
          obtain ⟨next, left, pulled⟩ := pulled
          exact decoded_nothing pulled

/-- How much of what was sent has arrived, and the number of messages that were handed out. -/
structure Delivery where
  count : Nat := 0
  taken : Nat := 0

def Delivery.step (delivery : Delivery) : Op α → Result ρ E × Delivery
  | .feed symbols => (.fed true, { delivery with count := delivery.count + symbols.length })
  | .pull =>
    match (arrived sent delivery.count)[delivery.taken]? with
    | some message => (.message message, { delivery with taken := delivery.taken + 1 })
    | none => (.nothing, delivery)

-- Each message is handed out when it has arrived, in order, in whatever pieces it came.
theorem queue_delivers (stable : Stable look) (start : σ)
    (each : ∀ pair ∈ sent, Spans look start pair.1 start (some pair.2)) (silent : look start [] = .wait)
    (stream : List α) (taken : Nat) (ops : List (Op α)) (begins : stream ++ fed ops <+: sentSymbols sent) :
    results (Queue.step look start) ⟨stream, taken, none⟩ ops =
      results (Delivery.step sent) ⟨stream.length, taken⟩ ops := by
  induction ops generalizing stream taken with
  | nil => rfl
  | cons op ops ih =>
      cases op with
      | feed symbols =>
          rw [fed, ← List.append_assoc] at begins
          simp only [results, Queue.step, Delivery.step, ih _ _ begins, List.length_append]
      | pull =>
          have now := decoded_sent sent stable start each silent stream ((List.prefix_append _ _).trans begins)
          cases there : (arrived sent stream.length)[taken]? with
          | some message => simp only [results, Queue.step, Delivery.step, now, there, ih _ _ begins]
          | none => simp only [results, Queue.step, Delivery.step, now, there, ih _ _ begins]

end Sent

/-! ## What is left of a stream -/

section Left

/-- The decoder is as good as a new one that holds these symbols, which are at least those that it holds. -/
structure Machine.Behaves (look : σ → List α → Verdict σ ρ E) (start : σ) (machine : Machine α σ E) (rest : List α) :
    Prop where
  sound : machine.failure = none
  size : machine.buffer.length ≤ rest.length
  same : ∀ more, pull look machine.state (machine.buffer ++ more) = pull look start (rest ++ more)

theorem Machine.behaves_start (start : σ) (rest : List α) :
    Machine.Behaves look start ⟨start, rest, none⟩ rest :=
  ⟨rfl, Nat.le_refl _, fun _ => rfl⟩

variable {start : σ} {machine : Machine α σ E} {rest : List α}

theorem Machine.Behaves.feed (behaves : machine.Behaves look start rest) (symbols : List α) :
    (machine.step look (.feed symbols)).2.Behaves look start (rest ++ symbols) := by
  simp only [Machine.step, behaves.sound]
  refine ⟨rfl, by simpa using behaves.size, fun more => ?_⟩
  simpa only [List.append_assoc] using behaves.same (symbols ++ more)

-- A request that is answered with nothing changes nothing.
theorem Machine.Behaves.waits (stable : Stable look) (behaves : machine.Behaves look start rest)
    (nothing : ∃ after left, pull look start rest = .nothing after left) :
    (machine.step look .pull).1 = .nothing ∧ (machine.step look .pull).2.Behaves look start rest := by
  obtain ⟨after, left, pulled⟩ := nothing
  have same := behaves.same []
  rw [List.append_nil, List.append_nil, pulled] at same
  have lasts := pull_lasts stable machine.state machine.buffer
  rw [same] at lasts
  obtain ⟨-, suffix, later⟩ := lasts
  simp only [Machine.step, behaves.sound, same, true_and]
  exact ⟨rfl, Nat.le_trans suffix.length_le behaves.size, fun more => (later more).symm.trans (behaves.same more)⟩

theorem Machine.Behaves.hands (behaves : machine.Behaves look start rest) {message : ρ} {left : List α}
    (pulled : pull look start rest = .message message start left) :
    (machine.step look .pull).1 = .message message ∧ (machine.step look .pull).2.Behaves look start left := by
  have same := behaves.same []
  rw [List.append_nil, List.append_nil, pulled] at same
  simp only [Machine.step, behaves.sound, same, true_and]
  exact Machine.behaves_start start left

end Left

end Framing
