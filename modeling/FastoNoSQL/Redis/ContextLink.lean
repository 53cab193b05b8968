import FastoNoSQL.Exchange
import FastoNoSQL.Redis.Context
import FastoNoSQL.Redis.Pipeline

set_option autoImplicit false

/-!
# The context as a link

A context and a server over a connection that carries bytes, in whatever pieces:
the calls of the context are those of the link on which the batches of the core
rest, and a call for a reply that is outstanding returns.
-/

namespace FastoNoSQL.Redis

open Bytes Sds Framing Halting

/-! ## The reader of a context -/

namespace Reader

/-- The reader goes on as a new one that holds these bytes, and keeps less than a kilobyte of used ones. -/
structure Holds (r : Reader) (rest : Text) : Prop where
  decodes : ∃ machine, r.Decodes machine ∧ machine.Behaves look Parse.root rest
  used : r.pos < 1024

theorem holds_start : ({} : Reader).Holds [] :=
  ⟨⟨⟨Parse.root, [], none⟩, ⟨rfl, rfl, Nat.le_refl 0, rfl, rfl, fun _ => rfl, fun _ => rfl⟩,
    Machine.behaves_start Parse.root []⟩, by decide⟩

variable {r : Reader} {rest : Text}

theorem Holds.length_le (holds : r.Holds rest) : r.buf.length ≤ rest.length + 1023 := by
  obtain ⟨⟨machine, decodes, behaves⟩, used⟩ := holds
  have size := behaves.size
  rw [decodes.buffer, unread, List.length_drop] at size
  omega

theorem Holds.feed (holds : r.Holds rest) (piece : Text) :
    (r.redisReaderFeed piece).1 = true ∧ (r.redisReaderFeed piece).2.Holds (rest ++ piece) := by
  obtain ⟨⟨machine, decodes, behaves⟩, used⟩ := holds
  have fed : r.redisReaderFeed piece = (true, { r with buf := r.buf ++ piece }) := by
    simp [redisReaderFeed, decodes.sound]
  obtain ⟨-, represents⟩ := feed_step decodes piece
  have next := behaves.feed piece
  rcases represents with ⟨errstr, -, failed⟩ | decodes
  · rw [next.sound] at failed
    cases failed
  · exact ⟨by rw [fed], ⟨⟨_, decodes, next⟩, by rw [fed]; exact used⟩⟩

-- What the call leaves of the used bytes.
theorem getReply_pos {result : Result ReplyObject Fault} {after : Reader}
    (done : r.redisReaderGetReply = some (result, after)) (within : r.pos < 1024) (fine : after.err = none) :
    after.pos < 1024 := by
  unfold redisReaderGetReply at done
  split at done
  · obtain ⟨-, rfl⟩ := Prod.mk.inj (Option.some.inj done)
    exact within
  · split at done
    · obtain ⟨-, rfl⟩ := Prod.mk.inj (Option.some.inj done)
      exact within
    · obtain ⟨ended, -, same⟩ := Option.map_eq_some_iff.mp done
      have kept : ended.discard.pos < 1024 := by
        unfold discard
        split
        · exact Nat.zero_lt_succ _
        · omega
      unfold emit at same
      split at same
      · next err =>
          obtain ⟨-, rfl⟩ := Prod.mk.inj same
          rw [fine] at err
          cases err
      · split at same
        · obtain ⟨-, rfl⟩ := Prod.mk.inj same
          exact kept
        · obtain ⟨-, rfl⟩ := Prod.mk.inj same
          exact kept

theorem Holds.call (holds : r.Holds rest) (small : rest.length + 1023 < 2 ^ 31) {result : Result ReplyObject Fault}
    {left : Text}
    (answers : ∀ machine : Machine UInt8 Parse Fault, machine.Behaves look Parse.root rest →
      (machine.step look .pull).1 = result ∧ (machine.step look .pull).2.Behaves look Parse.root left) :
    ∃ after, r.redisReaderGetReply = some (result, after) ∧ after.Holds left := by
  have size := holds.length_le
  obtain ⟨⟨machine, decodes, behaves⟩, used⟩ := holds
  obtain ⟨same, represents⟩ := getReply_step decodes (by omega)
  obtain ⟨answer, next⟩ := answers machine behaves
  cases called : r.redisReaderGetReply with
  | none =>
      simp only [Reader.step, Option.bind_some, called] at represents
      rw [Represents, next.sound] at represents
      cases represents
  | some pair =>
      obtain ⟨result', after⟩ := pair
      simp only [Reader.step, Option.bind_some, called] at same represents
      rcases represents with ⟨errstr, -, failed⟩ | decodes
      · rw [next.sound] at failed
        cases failed
      · exact ⟨after, by rw [same, answer], ⟨_, decodes, next⟩, getReply_pos called used decodes.sound⟩

end Reader

/-! ## The server -/

/-- A server that answers every command in the protocol. What it answers may depend on the commands before. -/
structure Peer where
  answer : List (List Text) → Reply
  wire : List (List Text) → Text
  encodes : ∀ commands, Encodes 8 (answer commands) (wire commands)
  -- A reply fits into the buffer, with what is kept before it and read behind it.
  small : ∀ commands, (wire commands).length + (1023 + 16384) < 2 ^ 31

namespace Peer

variable (peer : Peer)

def exchange : Exchange.Peer UInt8 (List Text) ReplyObject where
  encode := commandText
  answer commands := ReplyObject.forReply (peer.answer commands)
  wire := peer.wire

theorem sends_snd (sent batch : List (List Text)) :
    (peer.exchange.sends sent batch).map Prod.snd = (replies peer.answer sent batch).map ReplyObject.forReply := by
  induction batch generalizing sent with
  | nil => rfl
  | cons argv batch ih =>
      rw [Exchange.Peer.sends, replies, List.map_cons, List.map_cons, ih]
      rfl

/-- What the reader may count on. -/
def Readable (pair : Text × ReplyObject) : Prop :=
  Spans look Parse.root pair.1 Parse.root (some pair.2) ∧ pair.1.length + (1023 + 16384) < 2 ^ 31

end Peer

/-! ## Context and connection -/

inductive Action where
  | append (argv : List Text)
  | getReply
  | event (event : Event)
deriving DecidableEq

/-- A context with the call that it is in, the commands that were appended, the bytes that went over the connection
both ways, and the replies that the calls returned. -/
structure System where
  context : Context := {}
  call : Option Phase := none
  sent : List (List Text) := []
  written : Text := []
  received : Text := []
  returned : List ReplyObject := []

namespace System

variable (s : System)

def traffic : Exchange.Traffic UInt8 (List Text) ReplyObject :=
  ⟨s.sent, s.context.obuf, s.written, s.received, s.returned⟩

def continues : Progress ReplyCall Returned → Option System
  | .going call => some { s with context := call.context, call := some call.phase }
  | .returned result =>
    some { s with context := result.context, call := none, returned := s.returned ++ result.reply.toList }
  | .undefined => none

-- The bytes that go over the connection.
def carries : Phase → Event → System
  | .write, .wrote count => { s with written := s.written ++ s.context.obuf.take count }
  | .read, .read piece => { s with received := s.received ++ piece }
  | _, _ => s

def step (action : Action) : Option System :=
  match action with
  | .append argv =>
    (s.context.redisAppendCommandArgv argv).map fun (ok, c) =>
      { s with context := c, sent := if ok then s.sent ++ [argv] else s.sent }
  | .getReply => s.continues s.context.redisGetReply
  | .event event =>
    match s.call with
    | none => some s
    | some phase => (s.carries phase event).continues (ReplyCall.step ⟨s.context, phase⟩ event)

end System

/-- What can happen next. The output buffer has a size that is an `int`; a write takes some of it, and a read finds
some of what the server has sent, or that the connection was closed. -/
def Enabled (peer : Peer) (s : System) : Action → Prop
  | .append argv =>
    s.call = none ∧ argv ≠ [] ∧ s.context.obuf.length + (commandText argv).length < 2 ^ 31
  | .getReply => s.call = none
  | .event .interrupted => s.call ≠ none
  | .event (.failed _) => s.call ≠ none
  | .event (.wrote count) => s.call = some .write ∧ count ≤ s.context.obuf.length
  | .event (.read piece) =>
    s.call = some .read ∧ piece.length ≤ 16384 ∧ s.received ++ piece <+: peer.exchange.sentAt s.sent s.written.length

/-! ## What a call takes from the reader -/

section Calls

variable {c : Context} {rest : Text} {pending : List (Text × ReplyObject)}

/-- There is no whole reply in these bytes. -/
def Partial (rest : Text) : Prop := ∃ state left, pull look Parse.root rest = .nothing state left

theorem fromReader_cases (holds : c.reader.Holds rest) (small : rest.length + 1023 < 2 ^ 31)
    (each : ∀ pair ∈ pending, Peer.Readable pair) (begins : rest <+: sentSymbols pending)
    (next : Context → Progress ReplyCall Returned) :
    (∃ reader, c.fromReader next = next { c with reader := reader } ∧ reader.Holds rest ∧ Partial rest) ∨
      ∃ symbols message later left reader, pending = (symbols, message) :: later ∧ rest = symbols ++ left ∧
        c.fromReader next = .returned ⟨some message, { c with reader := reader }⟩ ∧ reader.Holds left := by
  have waits (nothing : Partial rest) :
      ∃ reader, c.fromReader next = next { c with reader := reader } ∧ reader.Holds rest ∧ Partial rest := by
    obtain ⟨reader, called, holds⟩ := holds.call small fun machine behaves => behaves.waits look_stable nothing
    exact ⟨reader, by rw [Context.fromReader, called], holds, nothing⟩
  cases pending with
  | nil =>
      obtain rfl := List.prefix_nil.mp begins
      exact Or.inl (waits ⟨Parse.root, [], pull_wait rfl⟩)
  | cons pair later =>
      obtain ⟨symbols, message⟩ := pair
      have spans := (each _ List.mem_cons_self).1
      have pulled := pull_sent later look_stable spans rest begins
      by_cases room : symbols.length ≤ rest.length
      · rw [if_pos room] at pulled
        obtain ⟨reader, called, holds⟩ := holds.call small fun machine behaves => behaves.hands pulled
        obtain ⟨left, whole⟩ : symbols <+: rest := by
          rw [sentSymbols, List.flatMap_cons] at begins
          exact List.prefix_of_prefix_length_le (List.prefix_append symbols _) begins room
        rw [← whole, List.drop_left] at holds
        exact Or.inr ⟨symbols, message, later, left, reader, rfl, whole.symm, by rw [Context.fromReader, called], holds⟩
      · rw [if_neg room] at pulled
        exact Or.inl (waits pulled)

-- A part of the replies to come in which there is no whole one ends within the first.
theorem Partial.length_lt {symbols : Text} {message : ReplyObject} {later : List (Text × ReplyObject)}
    (nothing : Partial rest) (readable : Peer.Readable (symbols, message))
    (begins : rest <+: sentSymbols ((symbols, message) :: later)) : rest.length < symbols.length := by
  by_contra room
  have spans : Spans look Parse.root symbols Parse.root (some message) := readable.1
  have pulled := pull_sent later look_stable spans rest begins
  rw [if_pos (by omega)] at pulled
  obtain ⟨state, left, nothing⟩ := nothing
  rw [nothing] at pulled
  cases pulled

end Calls

/-! ## The invariant -/

/-- The traffic fits together, and the reader holds what was received and not returned. -/
structure Carried (peer : Peer) (s : System) (past pending : List (Text × ReplyObject)) (rest : Text) : Prop where
  traffic : Exchange.Carried peer.exchange s.traffic past pending rest
  room : s.context.obuf.length < 2 ^ 31
  reader : s.context.reader.Holds rest
  small : rest.length + 1023 < 2 ^ 31

/-- A call goes on while the context has no error: to write what there is, and to read behind that. -/
structure Calls (s : System) (rest : Text) : Prop where
  sound : s.call ≠ none → s.context.err = none
  waits : s.call ≠ none → Partial rest
  writes : s.call = some .write → s.context.obuf ≠ []
  reads : s.call = some .read → s.context.obuf = []

def Linked (peer : Peer) (s : System) : Prop :=
  ∃ past pending rest, Carried peer s past pending rest ∧ Calls s rest

section Steps

variable {peer : Peer} {s : System} {past pending : List (Text × ReplyObject)} {rest : Text}

theorem linked_start (peer : Peer) : Linked peer {} :=
  ⟨[], [], [], ⟨Exchange.carried_start peer.exchange, by decide, Reader.holds_start, by decide⟩, by simp, by simp,
    by simp, by simp⟩

theorem Carried.readable (carried : Carried peer s past pending rest) : ∀ pair ∈ pending, Peer.Readable pair :=
  carried.traffic.pending_forall Peer.Readable fun commands =>
    ⟨spans_root _ _ (peer.encodes commands), peer.small commands⟩

/-- How a call goes on: it waits for more, it ends without a reply because of an error, or it ends with one. -/
structure Led (peer : Peer) (s next : System) : Prop where
  linked : Linked peer next
  sent : next.sent = s.sent
  written : next.written = s.written
  received : next.received = s.received
  obuf : next.context.obuf = s.context.obuf
  err : next.context.err = s.context.err
  answer : next.returned = s.returned ∧ (next.call = none → s.context.err ≠ none) ∨
    next.call = none ∧ ∃ message, next.returned = s.returned ++ [message]

-- The context has an error: the call ends.
theorem failed_led (carried : Carried peer s past pending rest) (reader : Reader) (holds : reader.Holds rest)
    (failed : s.context.err.isSome) :
    ∃ next, s.continues (.returned ⟨none, { s.context with reader := reader }⟩) = some next ∧ Led peer s next := by
  refine ⟨_, rfl, ⟨past, pending, rest, ?_, by simp, by simp, by simp, by simp⟩, rfl, rfl, rfl, rfl, rfl,
    Or.inl ⟨List.append_nil _, fun _ => Option.isSome_iff_ne_none.mp failed⟩⟩
  have returned := (List.append_nil s.returned).trans carried.traffic.returned
  exact { carried with reader := holds, traffic := { carried.traffic with returned := returned } }

theorem going_led (carried : Carried peer s past pending rest) (reader : Reader) (holds : reader.Holds rest)
    (nothing : Partial rest) (sound : ¬s.context.err.isSome) (phase : Phase)
    (writes : phase = .write → s.context.obuf ≠ []) (reads : phase = .read → s.context.obuf = []) :
    ∃ next, s.continues (.going ⟨{ s.context with reader := reader }, phase⟩) = some next ∧ Led peer s next := by
  have calls : Calls { s with context := { s.context with reader := reader }, call := some phase } rest :=
    ⟨fun _ => by simpa using sound, fun _ => nothing, fun phase => writes (Option.some.inj phase),
      fun phase => reads (Option.some.inj phase)⟩
  exact ⟨_, rfl, ⟨past, pending, rest, { carried with reader := holds }, calls⟩, rfl, rfl, rfl, rfl, rfl,
    Or.inl ⟨rfl, by simp⟩⟩

theorem reading_led (carried : Carried peer s past pending rest) (reader : Reader) (holds : reader.Holds rest)
    (nothing : Partial rest) (flushed : s.context.obuf = []) :
    ∃ next, s.continues (Context.reading { s.context with reader := reader }) = some next ∧ Led peer s next := by
  unfold Context.reading
  split
  · next failed => exact failed_led carried reader holds failed
  · next sound => exact going_led carried reader holds nothing sound .read nofun fun _ => flushed

theorem writing_led (carried : Carried peer s past pending rest) (reader : Reader) (holds : reader.Holds rest)
    (nothing : Partial rest) :
    ∃ next, s.continues (Context.writing { s.context with reader := reader }) = some next ∧ Led peer s next := by
  unfold Context.writing
  split
  · next failed => exact failed_led carried reader holds failed
  · next sound =>
      split
      · next flushed => exact reading_led carried reader holds nothing flushed
      · next some => exact going_led carried reader holds nothing sound .write (fun _ => some) nofun

theorem fromReader_led (carried : Carried peer s past pending rest)
    (next : Context → Progress ReplyCall Returned)
    (goes : ∀ reader : Reader, reader.Holds rest → Partial rest →
      ∃ after, s.continues (next { s.context with reader := reader }) = some after ∧ Led peer s after) :
    ∃ after, s.continues (s.context.fromReader next) = some after ∧ Led peer s after := by
  rcases fromReader_cases carried.reader carried.small carried.readable carried.traffic.begins next with
    ⟨reader, same, holds, nothing⟩ | ⟨symbols, message, later, left, reader, rfl, rfl, same, holds⟩
  · rw [same]
    exact goes reader holds nothing
  · rw [same]
    have small := carried.small
    rw [List.length_append] at small
    exact ⟨_, rfl, ⟨past ++ [(symbols, message)], later, left,
      { carried with traffic := carried.traffic.take, reader := holds, small := by omega }, by simp, by simp, by simp,
      by simp⟩, rfl, rfl, rfl, rfl, rfl, Or.inr ⟨rfl, message, rfl⟩⟩

/-! ## Steps -/

theorem redisBufferWrite_wrote (c : Context) (sound : c.err = none) (small : c.obuf.length < 2 ^ 31) (count : Nat)
    (within : count ≤ c.obuf.length) :
    c.redisBufferWrite (.wrote count) = (true, { c with obuf := c.obuf.drop count }) := by
  unfold Context.redisBufferWrite
  rw [if_neg (by simp [sound])]
  split
  · next empty =>
      rw [empty, List.drop_nil]
      exact congrArg (Prod.mk true) (congrArg (fun obuf => { c with obuf := obuf }) empty.symm).symm
  · by_cases none' : count = 0
    · simp [none']
    have size (n : Nat) (fits : n ≤ c.obuf.length) : toInt n = n := toInt_eq n (by omega) (by omega)
    simp only [if_pos (Nat.pos_of_ne_zero none'), size count within, size _ (Nat.le_refl _),
      sdsrange_drop _ _ small within]
    split
    · next whole => rw [Int.ofNat.inj whole, List.drop_length]
    · rfl

variable {phase : Phase}

theorem step_event (busy : s.call = some phase) (event : Event) :
    s.step (.event event) = (s.carries phase event).continues (ReplyCall.step ⟨s.context, phase⟩ event) := by
  rw [System.step, busy]

-- A call that is interrupted goes on as before.
theorem interrupted_step (carried : Carried peer s past pending rest) (calls : Calls s rest)
    (busy : s.call = some phase) :
    ∃ next, s.step (.event .interrupted) = some next ∧ Led peer s next := by
  have sound := calls.sound (by simp [busy])
  rw [step_event busy]
  cases phase with
  | write =>
      have wrote : s.context.redisBufferWrite .interrupted = (true, s.context) := by
        simp [Context.redisBufferWrite, sound]
      rw [ReplyCall.step]
      simp only [wrote, if_true]
      exact writing_led carried s.context.reader carried.reader (calls.waits (by simp [busy]))
  | read =>
      have flushed := calls.reads busy
      have read : s.context.redisBufferRead .interrupted = (true, s.context) := by
        simp [Context.redisBufferRead, sound]
      rw [ReplyCall.step]
      simp only [read, if_true]
      exact fromReader_led carried _ fun reader holds nothing => reading_led carried reader holds nothing flushed

-- The context gets an error, and the call ends.
theorem broken_step (carried : Carried peer s past pending rest) (event : Event) (err : Modes.ContextError)
    (errstr : Text) (busy : s.call = some phase) (stays : s.carries phase event = s)
    (breaks : ReplyCall.step ⟨s.context, phase⟩ event = .returned ⟨none, s.context.setError err errstr⟩) :
    ∃ next, s.step (.event event) = some next ∧ Led peer { s with context := s.context.setError err errstr } next := by
  rw [step_event busy, breaks, stays]
  have same : Carried peer { s with context := s.context.setError err errstr } past pending rest :=
    { carried with reader := carried.reader }
  exact failed_led same s.context.reader carried.reader rfl

theorem failed_step (carried : Carried peer s past pending rest) (calls : Calls s rest) (errstr : Text)
    (busy : s.call = some phase) :
    ∃ next, s.step (.event (.failed errstr)) = some next ∧
      Led peer { s with context := s.context.setError .io errstr } next := by
  have sound := calls.sound (by simp [busy])
  refine broken_step carried _ _ _ busy (by cases phase <;> rfl) ?_
  cases phase with
  | write => simp [ReplyCall.step, Context.redisBufferWrite, sound, calls.writes busy]
  | read => simp [ReplyCall.step, Context.redisBufferRead, sound]

theorem closed_step (carried : Carried peer s past pending rest) (calls : Calls s rest)
    (busy : s.call = some .read) :
    ∃ next, s.step (.event (.read [])) = some next ∧
      Led peer { s with context := s.context.setError .eof (ascii "Server closed the connection") } next := by
  have sound := calls.sound (by simp [busy])
  refine broken_step carried _ _ _ busy (by simp [System.carries]) ?_
  simp [ReplyCall.step, Context.redisBufferRead, sound]

theorem wrote_step (carried : Carried peer s past pending rest) (calls : Calls s rest) (count : Nat)
    (busy : s.call = some .write) (within : count ≤ s.context.obuf.length) :
    ∃ next, s.step (.event (.wrote count)) = some next ∧
      Led peer { s with
        written := s.written ++ s.context.obuf.take count
        context := { s.context with obuf := s.context.obuf.drop count } } next := by
  have sound := calls.sound (by simp [busy])
  rw [step_event busy, ReplyCall.step]
  simp only [redisBufferWrite_wrote s.context sound carried.room count within, if_true]
  have moved : Carried peer { s with
      written := s.written ++ s.context.obuf.take count
      context := { s.context with obuf := s.context.obuf.drop count } } past pending rest := {
    carried with
    traffic := carried.traffic.write count
    room := Nat.lt_of_le_of_lt (by simp) carried.room
    reader := carried.reader }
  exact writing_led moved s.context.reader carried.reader (calls.waits (by simp [busy]))

theorem read_step (carried : Carried peer s past pending rest) (calls : Calls s rest) (piece : Text)
    (busy : s.call = some .read) (some' : piece ≠ []) (size : piece.length ≤ 16384)
    (arrives : s.received ++ piece <+: peer.exchange.sentAt s.sent s.written.length) :
    ∃ next, s.step (.event (.read piece)) = some next ∧
      Led peer { s with
        received := s.received ++ piece
        context := { s.context with reader := (s.context.reader.redisReaderFeed piece).2 } } next := by
  have sound := calls.sound (by simp [busy])
  have flushed := calls.reads busy
  obtain ⟨accepted, holds⟩ := carried.reader.feed piece
  have read : s.context.redisBufferRead (.read piece) =
      (true, { s.context with reader := (s.context.reader.redisReaderFeed piece).2 }) := by
    simp only [Context.redisBufferRead, sound, accepted, if_true]
    cases piece with
    | nil => exact absurd rfl some'
    | cons c piece => rfl
  have begins := carried.traffic.begins_of_arrives arrives
  have small : (rest ++ piece).length + 1023 < 2 ^ 31 := by
    cases pending with
    | nil => exact absurd (List.append_eq_nil_iff.mp (List.prefix_nil.mp begins)).2 some'
    | cons pair later =>
        have readable := carried.readable pair List.mem_cons_self
        have short := (calls.waits (by simp [busy])).length_lt readable carried.traffic.begins
        have fits := readable.2
        rw [List.length_append]
        omega
  rw [step_event busy, ReplyCall.step]
  simp only [read, if_true]
  have moved : Carried peer { s with
      received := s.received ++ piece
      context := { s.context with reader := (s.context.reader.redisReaderFeed piece).2 } } past pending
      (rest ++ piece) := {
    carried with
    traffic := carried.traffic.read arrives
    reader := holds
    small := small }
  exact fromReader_led moved _ fun reader holds nothing => reading_led moved reader holds nothing flushed

theorem call_step (carried : Carried peer s past pending rest) :
    ∃ next, s.step .getReply = some next ∧ Led peer s next :=
  fromReader_led carried _ fun reader holds nothing => writing_led carried reader holds nothing

theorem append_step (carried : Carried peer s past pending rest) (idle : s.call = none) (argv : List Text)
    (small : s.context.obuf.length + (commandText argv).length < 2 ^ 31) :
    ∃ next, s.step (.append argv) = some next ∧ Linked peer next ∧ next.sent = s.sent ++ [argv] ∧
      next.returned = s.returned := by
  have appended := s.context.redisAppendCommandArgv_eq argv (by omega)
  refine ⟨{ s with
    context := { s.context with obuf := s.context.obuf ++ commandText argv }
    sent := s.sent ++ [argv] }, by rw [System.step, appended]; rfl,
    ⟨past, pending ++ peer.exchange.sends s.sent [argv], rest, ?_, ?_⟩, rfl, rfl⟩
  · exact {
      carried with
      traffic := carried.traffic.request argv
      room := by rwa [List.length_append]
      reader := carried.reader }
  · exact ⟨fun busy => absurd idle busy, fun busy => absurd idle busy, by simp [idle], by simp [idle]⟩

end Steps

/-! ## The link -/

section Refinement

variable (peer : Peer)

-- The link of the batches: the replies that were not returned.
def System.link (s : System) : Link := ⟨s.sent, (replies peer.answer [] s.sent).drop s.returned.length⟩

/-- A call reads the next reply of the link. -/
def Reads (s next : System) : Prop :=
  ∃ reply, (s.link peer).getReply = some (reply, next.link peer) ∧
    next.returned = s.returned ++ [ReplyObject.forReply reply]

def Stays (s next : System) : Prop := next.link peer = s.link peer ∧ next.returned = s.returned

/-- What an action is for the link. -/
def Simulates (s : System) : Action → System → Prop
  | .append argv, next => next.link peer = (s.link peer).append peer.answer argv ∧ next.returned = s.returned
  | .getReply, next => Stays peer s next ∨ Reads peer s next
  | .event _, next => Stays peer s next ∨ Reads peer s next

variable {peer} {s next : System}

theorem Linked.returned (linked : Linked peer s) :
    s.returned <+: (replies peer.answer [] s.sent).map ReplyObject.forReply := by
  obtain ⟨past, pending, rest, carried, -⟩ := linked
  rw [← peer.sends_snd]
  exact carried.traffic.returned_prefix

theorem Linked.reads (linked : Linked peer next) (sent : next.sent = s.sent) {message : ReplyObject}
    (returned : next.returned = s.returned ++ [message]) : Reads peer s next := by
  obtain ⟨later, whole⟩ := linked.returned
  rw [returned, sent, List.append_assoc] at whole
  have within : s.returned.length < (replies peer.answer [] s.sent).length := by
    have size := congrArg List.length whole
    rw [List.length_append, List.length_append, List.length_singleton, List.length_map] at size
    omega
  have message' : message = ReplyObject.forReply (replies peer.answer [] s.sent)[s.returned.length] := by
    have entry := congrArg (fun list : List ReplyObject => list[s.returned.length]?) whole
    simp only [List.getElem?_append_right (Nat.le_refl _), Nat.sub_self, List.getElem?_map,
      List.getElem?_eq_getElem within] at entry
    exact Option.some.inj entry
  refine ⟨(replies peer.answer [] s.sent)[s.returned.length], ?_, by rw [returned, message']⟩
  simp only [System.link, Link.getReply, List.drop_eq_getElem_cons within, returned, sent, List.length_append,
    List.length_singleton]

-- A call that goes on from a system whose context met an event.
theorem Led.simulates {between : System} (led : Led peer between next) (sent : between.sent = s.sent)
    (returned : between.returned = s.returned) : Stays peer s next ∨ Reads peer s next := by
  rcases led.answer with ⟨same, -⟩ | ⟨-, message, more⟩
  · have same := same.trans returned
    exact Or.inl ⟨by rw [System.link, System.link, led.sent, sent, same], same⟩
  · exact Or.inr (led.linked.reads (led.sent.trans sent) (returned ▸ more))

theorem replies_append (answer : List (List Text) → Reply) (sent batch more : List (List Text)) :
    replies answer sent (batch ++ more) = replies answer sent batch ++ replies answer (sent ++ batch) more := by
  induction batch generalizing sent with
  | nil => simp [replies]
  | cons argv batch ih => simp [replies, ih]

theorem Linked.step (linked : Linked peer s) (action : Action) (enabled : Enabled peer s action) :
    ∃ next, s.step action = some next ∧ Linked peer next ∧ Simulates peer s action next := by
  obtain ⟨past, pending, rest, carried, calls⟩ := linked
  cases action with
  | append argv =>
      obtain ⟨next, stepped, linked, sent, returned⟩ := append_step carried enabled.1 argv enabled.2.2
      refine ⟨next, stepped, linked, ?_, returned⟩
      have within : s.returned.length ≤ (replies peer.answer [] s.sent).length := by
        have begins := (Linked.returned ⟨past, pending, rest, carried, calls⟩).length_le
        rwa [List.length_map] at begins
      rw [System.link, System.link, sent, returned, replies_append, List.drop_append_of_le_length within, Link.append]
      rfl
  | getReply =>
      obtain ⟨next, stepped, led⟩ := call_step carried
      exact ⟨next, stepped, led.linked, led.simulates rfl rfl⟩
  | event event =>
      cases event with
      | interrupted =>
          obtain ⟨phase, busy⟩ := Option.ne_none_iff_exists'.mp enabled
          obtain ⟨next, stepped, led⟩ := interrupted_step carried calls busy
          exact ⟨next, stepped, led.linked, led.simulates rfl rfl⟩
      | failed errstr =>
          obtain ⟨phase, busy⟩ := Option.ne_none_iff_exists'.mp enabled
          obtain ⟨next, stepped, led⟩ := failed_step carried calls errstr busy
          exact ⟨next, stepped, led.linked, led.simulates rfl rfl⟩
      | wrote count =>
          obtain ⟨next, stepped, led⟩ := wrote_step carried calls count enabled.1 enabled.2
          exact ⟨next, stepped, led.linked, led.simulates rfl rfl⟩
      | read piece =>
          obtain ⟨busy, size, arrives⟩ := enabled
          by_cases closed : piece = []
          · obtain ⟨next, stepped, led⟩ := closed_step carried calls busy
            exact ⟨next, by rw [closed, stepped], led.linked, led.simulates rfl rfl⟩
          · obtain ⟨next, stepped, led⟩ := read_step carried calls piece busy closed size arrives
            exact ⟨next, stepped, led.linked, led.simulates rfl rfl⟩

def okPeer : Peer where
  answer _ := .status (ascii "OK")
  wire _ := ascii "+OK\r\n"
  encodes _ := by
    rw [Encodes]
    decide
  small _ := by decide

def pingCommand : List Text := [ascii "PING"]

def pingEvents : List Action := [.event (.wrote 3), .event (.wrote 11), .event (.read (ascii "+OK\r\n"))]

-- With so many bytes of the command written.
def pingSystem (call : Option Phase) (count : Nat) : System where
  context := { obuf := (commandText pingCommand).drop count }
  call := call
  sent := [pingCommand]
  written := (commandText pingCommand).take count

theorem append_ping : Runs.after System.step (some {}) (.append pingCommand) = some (pingSystem none 0) := by
  have appended := ({} : Context).redisAppendCommandArgv_eq pingCommand (by decide)
  rw [Runs.after, Option.bind_some, System.step, appended]
  rfl

theorem getReply_ping :
    Runs.after System.step (some (pingSystem none 0)) .getReply = some (pingSystem (some .write) 0) := rfl

theorem first_ping :
    Runs.after System.step (some (pingSystem (some .write) 0)) (.event (.wrote 3)) =
      some (pingSystem (some .write) 3) := rfl

theorem second_ping :
    Runs.after System.step (some (pingSystem (some .write) 3)) (.event (.wrote 11)) =
      some (pingSystem (some .read) 14) := rfl

def pingActions : List Action := [.append pingCommand, .getReply] ++ pingEvents

theorem along_pingActions :
    Runs.Along (Runs.after System.step) (Runs.In (Enabled okPeer)) (some {}) pingActions := by
  simp only [pingActions, pingEvents, List.cons_append, List.nil_append, Runs.along_cons, append_ping, getReply_ping,
    first_ping, second_ping, Runs.in_some]
  exact ⟨⟨rfl, by decide, by decide⟩, rfl, ⟨rfl, by decide⟩, ⟨rfl, by decide⟩, ⟨rfl, by decide, by decide⟩,
    Runs.along_nil⟩

end Refinement

/-! ## Calls that return -/

section Returns

variable {peer : Peer} {s : System}

def Event.isCalm : Event → Bool
  | .failed _ => false
  | .read piece => piece ≠ []
  | _ => true

/-- What can happen while the connection neither fails nor is closed. -/
def Up (peer : Peer) (s : System) : Action → Prop
  | .event event => Enabled peer s (.event event) ∧ event.isCalm = true
  | _ => False

def Action.moves : Action → Bool
  | .event (.wrote count) => 0 < count
  | .event (.read piece) => piece ≠ []
  | _ => false

variable (peer) in
def System.work (s : System) : Nat := s.traffic.work peer.exchange

/-- The call goes on. -/
def Waits (s next : System) : Prop := next.sent = s.sent ∧ next.returned = s.returned

/-- The call has returned a reply. -/
structure Ends (peer : Peer) (s next : System) : Prop where
  linked : Linked peer next
  sent : next.sent = s.sent
  idle : next.call = none
  returned : ∃ message, next.returned = s.returned ++ [message]

theorem Waits.trans {second third : System} (waits : Waits s second) :
    (Waits second third → Waits s third) ∧ (Ends peer second third → Ends peer s third) := by
  obtain ⟨sent, returned⟩ := waits
  constructor
  · intro ⟨sent', returned'⟩
    exact ⟨sent'.trans sent, returned'.trans returned⟩
  · intro ends
    exact ⟨ends.linked, ends.sent.trans sent, ends.idle, returned ▸ ends.returned⟩

theorem Led.calm {between next : System} (led : Led peer between next) (sound : between.context.err = none)
    (sent : between.sent = s.sent) (returned : between.returned = s.returned) :
    (Linked peer next ∧ next.call ≠ none) ∧ Waits s next ∨ Ends peer s next := by
  rcases led.answer with ⟨same, ends⟩ | ⟨ended, message, more⟩
  · exact Or.inl ⟨⟨led.linked, fun ended => ends ended sound⟩, led.sent.trans sent, same.trans returned⟩
  · exact Or.inr ⟨led.linked, led.sent.trans sent, ended, message, returned ▸ more⟩

theorem Led.work {between next : System} (led : Led peer between next) : next.work peer = between.work peer := by
  simp only [System.work, Exchange.Traffic.work, System.traffic, led.obuf, led.sent, led.received]

theorem up_step (linked : Linked peer s) (action : Action) (up : Up peer s action) :
    ∃ next, s.step action = some next ∧ next.work peer + action.moves.toNat ≤ s.work peer ∧
      ((Linked peer next ∧ next.call ≠ none) ∧ Waits s next ∨ Ends peer s next) := by
  obtain ⟨past, pending, rest, carried, calls⟩ := linked
  cases action with
  | append argv => exact up.elim
  | getReply => exact up.elim
  | event event =>
      obtain ⟨enabled, calm⟩ := up
      cases event with
      | interrupted =>
          obtain ⟨phase, busy⟩ := Option.ne_none_iff_exists'.mp enabled
          obtain ⟨next, stepped, led⟩ := interrupted_step carried calls busy
          exact ⟨next, stepped, le_of_eq led.work, led.calm (calls.sound (by simp [busy])) rfl rfl⟩
      | failed errstr => cases calm
      | wrote count =>
          obtain ⟨busy, within⟩ := enabled
          obtain ⟨next, stepped, led⟩ := wrote_step carried calls count busy within
          refine ⟨next, stepped, ?_, led.calm (calls.sound (by simp [busy])) rfl rfl⟩
          have moved : (Action.event (.wrote count)).moves.toNat ≤ count := by
            cases count <;> simp [Action.moves]
          have work := s.traffic.work_write peer.exchange count within
          exact led.work ▸ (Nat.add_le_add_left moved _).trans (Nat.le_of_eq work)
      | read piece =>
          obtain ⟨busy, size, arrives⟩ := enabled
          have some' : piece ≠ [] := by simpa [Event.isCalm] using calm
          obtain ⟨next, stepped, led⟩ := read_step carried calls piece busy some' size arrives
          refine ⟨next, stepped, ?_, led.calm (calls.sound (by simp [busy])) rfl rfl⟩
          have moved : (Action.event (.read piece)).moves.toNat = 1 := by simp [Action.moves, some']
          have positive : (Action.event (.read piece)).moves.toNat ≤ piece.length :=
            moved ▸ List.length_pos_iff.mpr some'
          have work := carried.traffic.work_read arrives
          exact led.work ▸ (Nat.add_le_add_left positive _).trans (Nat.le_of_eq work)

-- A call for a reply that is outstanding is never stuck: it can write, or the server has sent something.
theorem exists_move (linked : Linked peer s) (busy : s.call ≠ none) (outstanding : s.returned.length < s.sent.length) :
    0 < s.work peer ∧ ∃ action, action.moves = true ∧ Up peer s action := by
  obtain ⟨past, pending, rest, carried, calls⟩ := linked
  obtain ⟨phase, busy'⟩ := Option.ne_none_iff_exists'.mp busy
  cases phase with
  | write =>
      have some' : 0 < s.context.obuf.length := List.length_pos_iff.mpr (calls.writes busy')
      have work : s.context.obuf.length ≤ s.work peer := Nat.le_add_right _ _
      exact ⟨by omega, .event (.wrote s.context.obuf.length), by simpa [Action.moves] using some',
        ⟨busy', Nat.le_refl _⟩, rfl⟩
  | read =>
      have short : ∀ pair ∈ pending.head?, rest.length < pair.1.length := by
        intro pair first
        obtain ⟨later, rfl⟩ := List.head?_eq_some_iff.mp first
        exact (calls.waits busy).length_lt (carried.readable pair List.mem_cons_self) carried.traffic.begins
      obtain ⟨c, arrives⟩ := carried.traffic.exists_read (calls.reads busy') outstanding short
      have work : (s.traffic.read [c]).work peer.exchange + 1 = s.work peer := carried.traffic.work_read arrives
      exact ⟨by omega, .event (.read [c]), rfl, ⟨busy', by simp, arrives⟩, rfl⟩

theorem not_up_idle (idle : s.call = none) (action : Action) : ¬Up peer s action := by
  cases action with
  | append argv => exact id
  | getReply => exact id
  | event event => cases event <;> simp [Up, Enabled, idle]

/-- A call for a reply that is outstanding, over a connection that stays up: it is never stuck, and it returns that
reply after at most as many moves as there are bytes to write and to receive. -/
theorem reply_arrives (peer : Peer) (actions : List Action)
    (enabled : Runs.Along (Runs.after System.step) (Runs.In (Enabled peer)) (some {}) actions)
    (reached : Runs.run (Runs.after System.step) (some {}) actions = some s) (busy : s.call ≠ none)
    (outstanding : s.returned.length < s.sent.length) (later : List Action)
    (up : Runs.Along (Runs.after System.step) (Runs.In (Up peer)) (some s) later) :
    ∃ last, Runs.run (Runs.after System.step) (some s) later = some last ∧
      (last.call = none ∧ Reads peer s last ∨
        last.call ≠ none ∧ Stays peer s last ∧ later.countP Action.moves < s.work peer ∧
          ∃ action, action.moves = true ∧ Up peer last action) := by
  obtain ⟨⟨start, reached', linked⟩, -⟩ :=
    Runs.invariant_after (Linked peer) (fun _ action linked => linked.step action) (linked_start peer) actions enabled
  obtain rfl : start = s := Option.some.inj (reached'.symm.trans reached)
  obtain ⟨last, reached, work, result⟩ := Runs.moves_after (fun s => Linked peer s ∧ s.call ≠ none) (System.work peer)
    Action.moves Waits (Ends peer) (fun _ action holds => up_step holds.1 action) (fun _ => ⟨rfl, rfl⟩) Waits.trans
    (fun action ends => not_up_idle ends.idle action) ⟨linked, busy⟩ later up
  refine ⟨last, reached, ?_⟩
  rcases result with ⟨⟨linked, busy⟩, sent, returned⟩ | ends
  · obtain ⟨left, move⟩ := exists_move linked busy (by rwa [returned, sent])
    exact Or.inr ⟨busy, ⟨by rw [System.link, System.link, sent, returned], returned⟩, by omega, move⟩
  · obtain ⟨message, returned⟩ := ends.returned
    exact Or.inl ⟨ends.idle, ends.linked.reads ends.sent returned⟩

theorem reply_arrives_ping :
    ∃ last, Runs.run (Runs.after System.step) (some (pingSystem (some .write) 0)) pingEvents = some last ∧
      (last.call = none ∧ Reads okPeer (pingSystem (some .write) 0) last ∨
        last.call ≠ none ∧ Stays okPeer (pingSystem (some .write) 0) last ∧
          pingEvents.countP Action.moves < (pingSystem (some .write) 0).work okPeer ∧
          ∃ action, action.moves = true ∧ Up okPeer last action) := by
  have start : Runs.Along (Runs.after System.step) (Runs.In (Enabled okPeer)) (some {})
      [.append pingCommand, .getReply] := by
    simp only [Runs.along_cons, append_ping, Runs.in_some]
    exact ⟨⟨rfl, by decide, by decide⟩, rfl, Runs.along_nil⟩
  have reached : Runs.run (Runs.after System.step) (some {}) [.append pingCommand, .getReply] =
      some (pingSystem (some .write) 0) := by
    rw [Runs.run_cons, append_ping]
    rfl
  have up : Runs.Along (Runs.after System.step) (Runs.In (Up okPeer)) (some (pingSystem (some .write) 0))
      pingEvents := by
    simp only [pingEvents, Runs.along_cons, first_ping, second_ping, Runs.in_some]
    exact ⟨⟨⟨rfl, by decide⟩, rfl⟩, ⟨⟨rfl, by decide⟩, rfl⟩, ⟨⟨rfl, by decide, by decide⟩, rfl⟩, Runs.along_nil⟩
  exact reply_arrives okPeer _ start reached (by decide) (by decide) pingEvents up

end Returns

end FastoNoSQL.Redis
