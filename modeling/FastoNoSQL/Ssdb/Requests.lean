import FastoNoSQL.Exchange
import FastoNoSQL.Ssdb.Packets

set_option autoImplicit false

/-!
# Requests over the link

A link and a server over a connection that carries bytes, in whatever pieces:
each request is answered with the packet that the server sent for it, and a
request fails only when a call of `write` or `read` does.
-/

namespace FastoNoSQL.Ssdb

open Bytes Framing Halting

/-! ## The buffers of a link -/

section Buffers

-- More than the memory of any buffer.
def memoryLimit : Nat := 2 ^ 29

/-- A buffer without data, to be filled from its first half. -/
structure Buffer.Fresh (b : Buffer) : Prop where
  empty : b.data = []
  front : b.offset ≤ b.total / 2
  total : b.total ≤ memoryLimit

variable {b : Buffer}

theorem space_le_nice : b.space ≤ b.nice.space := by
  have sum := b.space_add
  have sum' := b.nice.space_add
  have front : b.nice.offset ≤ b.offset := by
    unfold Buffer.nice
    split
    · exact Nat.zero_le _
    · exact Nat.le_refl _
  rw [Buffer.total_nice, Buffer.data_nice] at sum'
  omega

theorem space_nice_pos (positive : 0 < b.total) (room : b.data = [] ∨ 0 < b.space) : 0 < b.nice.space := by
  rcases room with empty | room
  · have sum := b.nice.space_add
    have front := b.offset_nice
    rw [Buffer.total_nice, Buffer.data_nice, empty, List.length_nil] at sum
    omega
  · exact Nat.lt_of_lt_of_le room space_le_nice

-- A packet that is not complete leaves the memory small enough to be made larger.
theorem waiting_eq (positive : 0 < b.total) (small : b.data.length ≤ maxPacketSize) :
    ∃ input, waiting b = .notReady input ∧ input.data = b.data ∧ 0 < input.space ∧ 0 < input.total := by
  unfold waiting
  by_cases full : b.space = 0
  · rw [if_pos full]
    by_cases full' : b.nice.space = 0
    · rw [if_pos full']
      have sum := b.nice.space_add
      have front := b.offset_nice
      rw [Buffer.data_nice] at sum
      rw [← Buffer.total_nice] at front
      have limit : maxPacketSize = 2 ^ 27 := rfl
      obtain ⟨larger, grown, more, offset, data⟩ := b.nice.grow_eq (by unfold grownTotal; split_ifs <;> omega)
      have sum' := larger.space_add
      rw [Buffer.data_nice] at data
      rw [data, offset] at sum'
      exact ⟨larger, by rw [grown], data, by omega, by omega⟩
    · rw [if_neg full']
      exact ⟨b.nice, rfl, b.data_nice, Nat.pos_of_ne_zero full', by rwa [Buffer.total_nice]⟩
  · rw [if_neg full]
    exact ⟨b, rfl, rfl, Nat.pos_of_ne_zero full, positive⟩

-- There is always space to read into.
theorem reading_eq (link : Link) (positive : 0 < link.input.total)
    (room : link.input.data = [] ∨ 0 < link.input.space) :
    ∃ input, link.reading = .going ⟨{ link with input := input }, .read⟩ ∧ input.data = link.input.data ∧
      0 < input.space ∧ 0 < input.total := by
  have goes (input : Buffer) (positive : 0 < input.total) (room : input.data = [] ∨ 0 < input.space)
      (data : input.data = link.input.data)
      (grown : (if link.input.total = Link.initBufferSize then link.input.grow else some link.input) = some input) :
      ∃ input, link.reading = .going ⟨{ link with input := input }, .read⟩ ∧ input.data = link.input.data ∧
        0 < input.space ∧ 0 < input.total := by
    have space := space_nice_pos positive room
    refine ⟨input.nice, ?_, by rw [Buffer.data_nice, data], space, by rwa [Buffer.total_nice]⟩
    rw [Link.reading, grown]
    simp only [if_neg (Nat.ne_of_gt space)]
  by_cases first : link.input.total = Link.initBufferSize
  · obtain ⟨larger, grown, more, offset, data⟩ := link.input.grow_eq (by rw [first]; decide)
    have sum := link.input.space_add
    have sum' := larger.space_add
    rw [data, offset] at sum'
    exact goes larger (by omega) (Or.inr (by omega)) data (by rw [if_pos first, grown])
  · exact goes link.input positive room rfl (if_neg first)

theorem appendRecords_eq (packet : List Text) (most : Nat)
    (fits : b.offset + b.data.length + (packet.flatMap recordText).length + 17 ≤ most) (small : most ≤ memoryLimit) :
    ∃ larger, packet.foldlM Buffer.appendRecord b = some larger ∧
      b.Extends (packet.flatMap recordText) most larger := by
  induction packet generalizing b with
  | nil => exact ⟨b, rfl, b.extends_refl most⟩
  | cons s packet ih =>
      have size := length_recordText_eq s
      rw [List.flatMap_cons, List.length_append] at fits
      obtain ⟨larger, appended, more⟩ := b.appendRecord_eq s most (by omega) small
      obtain ⟨last, later, more'⟩ := ih (b := larger) (by
        rw [more.offset, more.data, List.length_append]
        omega)
      exact ⟨last, by rw [List.foldlM_cons, appended]; exact later, more.trans more'⟩

theorem send_eq (link : Link) (fresh : link.output.Fresh) (packet : List Text) (some' : packet ≠ [])
    (small : (packetText packet).length + 17 ≤ maxPacketSize) :
    ∃ output, link.send packet = some { link with output := output } ∧ output.data = packetText packet ∧
      output.total ≤ memoryLimit := by
  obtain ⟨empty, front, total⟩ := fresh
  have limit : maxPacketSize = 2 ^ 27 := rfl
  have limit' : memoryLimit = 2 ^ 29 := rfl
  have size : (packetText packet).length = (packet.flatMap recordText).length + 1 := List.length_append
  obtain ⟨larger, records, more⟩ := appendRecords_eq (b := link.output) packet
    (link.output.offset + (packetText packet).length + 17) (by rw [empty, List.length_nil]; omega) (by omega)
  obtain ⟨last, ended, more'⟩ := larger.append_eq 10 (link.output.offset + (packetText packet).length + 17)
    (by rw [more.offset, more.data, empty, List.nil_append]; omega) (by omega)
  have whole := more.trans more'
  refine ⟨last, ?_, by rw [whole.data, empty, List.nil_append, packetText], ?_⟩
  · rw [Link.send, if_neg some', records, Option.bind_eq_bind, Option.bind_some, ended]
    rfl
  · rcases whole.total with same | ⟨less, bound⟩ <;> omega

end Buffers

/-! ## The server -/

/-- A server that answers every request with a packet. What it answers may depend on the requests before. -/
structure Peer where
  answer : List (List Text) → List Text
  nonempty : ∀ requests, answer requests ≠ []
  small : ∀ requests, ((answer requests).flatMap recordText).length ≤ maxPacketSize

namespace Peer

variable (peer : Peer)

def exchange : Exchange.Peer UInt8 (List Text) (List Text) where
  encode := packetText
  answer := peer.answer
  wire requests := packetText (peer.answer requests)

/-- What the link may count on. -/
def Readable (pair : Text × List Text) : Prop :=
  pair.1 = packetText pair.2 ∧ pair.2 ≠ [] ∧ (pair.2.flatMap recordText).length ≤ maxPacketSize

-- The answers to all requests.
def answers (sent : List (List Text)) : List (List Text) := (peer.exchange.sends [] sent).map Prod.snd

end Peer

/-! ## Link and connection -/

inductive Action where
  | request (packet : List Text)
  | event (event : Event)
deriving DecidableEq

/-- A link with the request that it is in, the packets of the requests, the bytes that went over the connection both
ways, the packets that were returned, and whether a request has failed. -/
structure System where
  link : Link := .create
  call : Option Phase := none
  sent : List (List Text) := []
  written : Text := []
  received : Text := []
  returned : List (List Text) := []
  lost : Bool := false

namespace System

variable (s : System)

def traffic : Exchange.Traffic UInt8 (List Text) (List Text) :=
  ⟨s.sent, s.link.output.data, s.written, s.received, s.returned⟩

def continues : Progress RequestCall Response → Option System
  | .going call => some { s with link := call.link, call := some call.phase }
  | .returned response =>
    some { s with
      link := response.link
      call := none
      returned := s.returned ++ response.packet.toList
      lost := s.lost || response.packet.isNone }
  | .undefined => none

-- The bytes that go over the connection.
def carries : Phase → Event → System
  | .flush, .wrote count => { s with written := s.written ++ s.link.output.data.take count }
  | .read, .read piece => { s with received := s.received ++ piece }
  | _, _ => s

end System

def System.step (behind : Buffer → UInt8) (s : System) (action : Action) : Option System :=
  match action with
  | .request packet => { s with sent := s.sent ++ [packet] }.continues (s.link.request behind packet)
  | .event event =>
    match s.call with
    | none => some s
    | some phase => (s.carries phase event).continues (RequestCall.step behind ⟨s.link, phase⟩ event)

/-- What can happen next. A link is not used again after a request that failed; a write takes some of the output, and a
read finds some of what the server has sent, or that the connection was closed. -/
def Enabled (peer : Peer) (s : System) : Action → Prop
  | .request packet =>
    s.call = none ∧ s.lost = false ∧ packet ≠ [] ∧ (packetText packet).length + 17 ≤ maxPacketSize
  | .event .interrupted => s.call ≠ none
  | .event .wouldBlock => s.call ≠ none
  | .event .failed => s.call ≠ none
  | .event (.wrote count) => s.call = some .flush ∧ count ≤ s.link.output.data.length
  | .event (.read piece) =>
    s.call = some .read ∧ piece.length ≤ s.link.input.space ∧
      s.received ++ piece <+: peer.exchange.sentAt s.sent s.written.length

/-! ## The invariant -/

/-- The traffic fits together, and the input holds what was received and not returned. -/
structure Carried (peer : Peer) (s : System) (past pending : List (Text × List Text)) (rest : Text) : Prop where
  traffic : Exchange.Carried peer.exchange s.traffic past pending rest
  data : s.link.input.data = rest
  input : 0 < s.link.input.total
  output : s.link.output.total ≤ memoryLimit

/-- A request waits for the only packet that is pending: it is written, and then the packet is read. -/
structure Calls (s : System) (pending : List (Text × List Text)) (rest : Text) : Prop where
  sound : s.call ≠ none → s.lost = false
  waits : s.call ≠ none → ∃ pair, pending = [pair] ∧ rest.length < pair.1.length
  idle : s.call = none → s.lost = false → pending = [] ∧ s.link.output.Fresh
  writes : s.call = some .flush → s.link.output.data ≠ [] ∧ rest = []
  reads : s.call = some .read → s.link.output.Fresh ∧ 0 < s.link.input.space

def Linked (peer : Peer) (s : System) : Prop :=
  ∃ past pending rest, Carried peer s past pending rest ∧ Calls s pending rest

/-- How a request goes on: it waits for more, or it is answered. -/
structure Led (peer : Peer) (s next : System) : Prop where
  linked : Linked peer next
  sent : next.sent = s.sent
  written : next.written = s.written
  received : next.received = s.received
  output : next.link.output = s.link.output
  answer : next.call ≠ none ∧ next.returned = s.returned ∨
    next.call = none ∧ next.lost = false ∧ next.returned = s.returned ++ [peer.answer s.sent]

section Steps

variable {peer : Peer} {s : System} {past pending : List (Text × List Text)} {rest : Text}

theorem linked_start (peer : Peer) : Linked peer {} := by
  refine ⟨[], [], [], ⟨Exchange.carried_start peer.exchange, rfl, by decide, by decide⟩, ?_⟩
  exact ⟨by simp, by simp, fun _ _ => ⟨rfl, rfl, Nat.zero_le _, by decide⟩, by simp, by simp⟩

theorem Carried.readable (carried : Carried peer s past pending rest) : ∀ pair ∈ pending, Peer.Readable pair :=
  carried.traffic.pending_forall Peer.Readable fun requests => ⟨rfl, peer.nonempty requests, peer.small requests⟩

theorem dropWhile_ne_nil {packet : List Text} (nonempty : packet ≠ []) (begins : rest <+: packetText packet)
    (some' : rest ≠ []) : rest.dropWhile isBlank ≠ [] := by
  obtain ⟨s, packet, rfl⟩ := List.exists_cons_of_ne_nil nonempty
  obtain ⟨c, tail, rfl⟩ := List.exists_cons_of_ne_nil some'
  obtain ⟨more, whole⟩ := begins
  have first : c ∈ (recordText s).head? := by
    have head := congrArg List.head? whole
    rw [packetText, List.flatMap_cons, List.append_assoc, List.head?_append_of_ne_nil _ (recordText_ne_nil s)] at head
    exact head.symm
  have text : ¬isBlank c = true := by simp [(recordText_begins s c first).1]
  rw [List.dropWhile_cons_of_neg text]
  exact List.cons_ne_nil c tail

/-- What a call of `recv` finds in a part of the packet that is pending. -/
theorem recv_cases (behind : Buffer → UInt8) (input : Buffer) (positive : 0 < input.total) {message : List Text}
    (nonempty : message ≠ []) (small : (message.flatMap recordText).length ≤ maxPacketSize)
    (begins : input.data <+: packetText message) :
    (∃ input', recv behind input = .notReady input' ∧ input'.data = input.data ∧ 0 < input'.total ∧
      (input'.data = [] ∨ 0 < input'.space) ∧ input.data.length < (packetText message).length) ∨
      ∃ input', recv behind input = .ready message input' ∧ input'.data = [] ∧ input'.total = input.total ∧
        input.data = packetText message := by
  have size : (packetText message).length = (message.flatMap recordText).length + 1 := List.length_append
  by_cases empty : input.data = []
  · exact Or.inl ⟨input, if_pos empty, rfl, positive, Or.inl empty, by rw [empty, List.length_nil]; omega⟩
  have found := recv_eq behind input empty fun none => absurd none (dropWhile_ne_nil nonempty begins empty)
  have begins' : input.data <+: sentSymbols [(packetText message, message)] := by
    rwa [sentSymbols, List.flatMap_singleton]
  have pulled := pull_sent [] look_stable (spans_packet message nonempty small) input.data begins'
  by_cases whole : (packetText message).length ≤ input.data.length
  · rw [if_pos whole] at pulled
    have same := begins.eq_of_length_le whole
    rw [pulled] at found
    refine Or.inr ⟨_, found, ?_, rfl, same⟩
    simp only [Buffer.decr, same, List.drop_length, List.length_nil, Nat.sub_zero]
  · rw [if_neg whole] at pulled
    obtain ⟨state, left, pulled⟩ := pulled
    obtain ⟨input', ready, data, space, positive'⟩ := waiting_eq positive (by omega)
    rw [pulled, Received.found, ready] at found
    exact Or.inl ⟨input', found, data, positive', Or.inr space, by omega⟩

theorem response_led (behind : Buffer → UInt8) {pair : Text × List Text} (carried : Carried peer s past [pair] rest)
    (fresh : s.link.output.Fresh) (sound : s.lost = false) :
    ∃ next, s.continues (s.link.response behind) = some next ∧ Led peer s next := by
  obtain ⟨whole, nonempty, small⟩ := carried.readable pair List.mem_cons_self
  have last := carried.traffic.last
  obtain ⟨symbols, message⟩ := pair
  obtain rfl : symbols = packetText message := whole
  have answer : message = peer.answer s.sent := congrArg Prod.snd last
  have begins : s.link.input.data <+: packetText message := by
    have begins := carried.traffic.begins
    rwa [sentSymbols, List.flatMap_singleton, ← carried.data] at begins
  rcases recv_cases behind s.link.input carried.input nonempty small begins with
    ⟨input, received, data, positive, room, short⟩ | ⟨input, received, data, total, same⟩
  · obtain ⟨input', goes, data', space, positive'⟩ := reading_eq { s.link with input := input } positive room
    have response : s.link.response behind = .going ⟨{ s.link with input := input' }, .read⟩ := by
      rw [Link.response, received]
      exact goes
    rw [carried.data] at data short
    rw [response]
    refine ⟨_, rfl, ⟨past, [(packetText message, message)], rest, ?_, ?_⟩, rfl, rfl, rfl, rfl,
      Or.inl ⟨by simp, rfl⟩⟩
    · exact { carried with data := data'.trans data, input := positive' }
    · exact ⟨fun _ => sound, fun _ => ⟨_, rfl, short⟩, by simp, by simp, fun _ => ⟨fresh, space⟩⟩
  · have response : s.link.response behind = .returned ⟨some message, { s.link with input := input }⟩ := by
      obtain ⟨record, packet, rfl⟩ := List.exists_cons_of_ne_nil nonempty
      rw [Link.response, received]
    have whole : rest = packetText message ++ [] := by rw [List.append_nil, ← same, carried.data]
    have taken := carried.traffic
    rw [whole] at taken
    rw [response]
    refine ⟨_, rfl, ⟨past ++ [(packetText message, message)], [], [], ?_, ?_⟩, rfl, rfl, rfl, rfl,
      Or.inr ⟨rfl, ?_, ?_⟩⟩
    · exact { carried with traffic := taken.take, data := data, input := total ▸ carried.input }
    · exact ⟨by simp, by simp, fun _ _ => ⟨rfl, fresh⟩, by simp, by simp⟩
    · exact Bool.or_eq_false_iff.mpr ⟨sound, rfl⟩
    · exact congrArg (fun message => s.returned ++ [message]) answer

-- There is something to write.
theorem going_led {pair : Text × List Text} (carried : Carried peer s past [pair] []) (sound : s.lost = false)
    (some' : s.link.output.data ≠ []) :
    ∃ next, s.continues (.going ⟨s.link, .flush⟩) = some next ∧ Led peer s next ∧ next.call ≠ none ∧
      next.returned = s.returned := by
  obtain ⟨whole, -, -⟩ := carried.readable pair List.mem_cons_self
  have positive : ([] : Text).length < pair.1.length := by
    rw [whole, packetText, List.length_append]
    exact Nat.succ_pos _
  have calls : Calls { s with call := some .flush } [pair] [] :=
    ⟨fun _ => sound, fun _ => ⟨pair, rfl, positive⟩, by simp, fun _ => ⟨some', rfl⟩, by simp⟩
  exact ⟨_, rfl, ⟨⟨past, [pair], [], { carried with data := carried.data }, calls⟩, rfl, rfl, rfl, rfl,
    Or.inl ⟨by simp, rfl⟩⟩, by simp, rfl⟩

theorem flush_led (behind : Buffer → UInt8) {pair : Text × List Text} (carried : Carried peer s past [pair] [])
    (sound : s.lost = false) (front : s.link.output.offset ≤ s.link.output.total / 2) :
    ∃ next, s.continues (s.link.flush behind) = some next ∧ Led peer s next := by
  unfold Link.flush
  by_cases empty : s.link.output.data = []
  · rw [if_pos empty]
    exact response_led behind carried ⟨empty, front, carried.output⟩ sound
  · rw [if_neg empty]
    obtain ⟨next, goes, led, -⟩ := going_led carried sound empty
    exact ⟨next, goes, led⟩

/-! ## Steps -/

variable {phase : Phase}

theorem step_event (behind : Buffer → UInt8) (busy : s.call = some phase) (event : Event) :
    s.step behind (.event event) =
      (s.carries phase event).continues (RequestCall.step behind ⟨s.link, phase⟩ event) := by
  rw [System.step, busy]

theorem Calls.single (calls : Calls s pending rest) (busy : s.call = some phase) :
    s.lost = false ∧ ∃ pair, pending = [pair] := by
  have busy' : s.call ≠ none := by simp [busy]
  obtain ⟨pair, one, -⟩ := calls.waits busy'
  exact ⟨calls.sound busy', pair, one⟩

-- A call that is interrupted goes on as before.
theorem interrupted_step (behind : Buffer → UInt8) (carried : Carried peer s past pending rest)
    (calls : Calls s pending rest) (busy : s.call = some phase) :
    ∃ next, s.step behind (.event .interrupted) = some next ∧ Led peer s next := by
  have same : ({ s with link := s.link, call := some phase } : System) = s := by rw [← busy]
  have stays : s.step behind (.event .interrupted) = some s := by
    rw [step_event behind busy]
    cases phase with
    | flush => exact congrArg some same
    | read => exact congrArg some same
  exact ⟨s, stays, ⟨past, pending, rest, carried, calls⟩, rfl, rfl, rfl, rfl, Or.inl ⟨by simp [busy], rfl⟩⟩

/-- The request has failed. -/
structure Failed (peer : Peer) (s next : System) : Prop where
  linked : Linked peer next
  sent : next.sent = s.sent
  idle : next.call = none
  lost : next.lost = true
  returned : next.returned = s.returned

theorem failed_step (behind : Buffer → UInt8) (carried : Carried peer s past pending rest) (event : Event)
    (busy : s.call = some phase) (stays : s.carries phase event = s)
    (fails : RequestCall.step behind ⟨s.link, phase⟩ event = .returned ⟨none, s.link⟩) :
    ∃ next, s.step behind (.event event) = some next ∧ Failed peer s next := by
  rw [step_event behind busy, fails, stays]
  have returned := (List.append_nil s.returned).trans carried.traffic.returned
  have lost : (s.lost || true) = true := Bool.or_true s.lost
  refine ⟨_, rfl, ⟨past, pending, rest, ?_, ?_⟩, rfl, rfl, lost, List.append_nil s.returned⟩
  · exact { carried with traffic := { carried.traffic with returned := returned } }
  · exact ⟨by simp, by simp, fun _ sound => by simp [lost] at sound, by simp, by simp⟩

-- The output that is still to be written may be moved.
theorem nice_led (behind : Buffer → UInt8) {pair : Text × List Text} (carried : Carried peer s past [pair] [])
    (sound : s.lost = false) :
    ∃ next, System.continues { s with link := { s.link with output := s.link.output.nice } }
        (Link.flush behind { s.link with output := s.link.output.nice }) = some next ∧
      Led peer { s with link := { s.link with output := s.link.output.nice } } next := by
  have front := s.link.output.offset_nice
  rw [← Buffer.total_nice] at front
  have traffic : System.traffic { s with link := { s.link with output := s.link.output.nice } } = s.traffic := by
    rw [System.traffic, System.traffic, Buffer.data_nice]
  have moved : Carried peer { s with link := { s.link with output := s.link.output.nice } } past [pair] [] :=
    ⟨traffic ▸ carried.traffic, carried.data, carried.input, by rw [Buffer.total_nice]; exact carried.output⟩
  exact flush_led behind moved sound front

theorem wouldBlock_step (behind : Buffer → UInt8) (carried : Carried peer s past pending rest)
    (calls : Calls s pending rest) (busy : s.call = some .flush) :
    ∃ next, s.step behind (.event .wouldBlock) = some next ∧
      Led peer { s with link := { s.link with output := s.link.output.nice } } next := by
  obtain ⟨sound, pair, rfl⟩ := calls.single busy
  obtain ⟨-, rfl⟩ := calls.writes busy
  rw [step_event behind busy]
  exact nice_led behind carried sound

theorem wrote_step (behind : Buffer → UInt8) (carried : Carried peer s past pending rest)
    (calls : Calls s pending rest) (count : Nat) (busy : s.call = some .flush)
    (within : count ≤ s.link.output.data.length) :
    ∃ next, s.step behind (.event (.wrote count)) = some next ∧
      Led peer { s with
        written := s.written ++ s.link.output.data.take count
        link := { s.link with output := (s.link.output.decr count within).nice } } next := by
  obtain ⟨sound, pair, rfl⟩ := calls.single busy
  obtain ⟨-, rfl⟩ := calls.writes busy
  have goes : RequestCall.step behind ⟨s.link, .flush⟩ (.wrote count) =
      Link.flush behind { s.link with output := (s.link.output.decr count within).nice } := by
    unfold RequestCall.step
    exact dif_pos within
  have moved : Carried peer { s with
      written := s.written ++ s.link.output.data.take count
      link := { s.link with output := s.link.output.decr count within } } past [pair] [] :=
    { carried with traffic := carried.traffic.write count, data := carried.data }
  rw [step_event behind busy, goes]
  exact nice_led behind moved sound

theorem read_step (behind : Buffer → UInt8) (carried : Carried peer s past pending rest)
    (calls : Calls s pending rest) (piece : Text) (busy : s.call = some .read) (some' : piece ≠ [])
    (room : piece.length ≤ s.link.input.space)
    (arrives : s.received ++ piece <+: peer.exchange.sentAt s.sent s.written.length) :
    ∃ next, s.step behind (.event (.read piece)) = some next ∧
      Led peer { s with
        received := s.received ++ piece
        link := { s.link with input := s.link.input.put piece room } } next := by
  obtain ⟨sound, pair, rfl⟩ := calls.single busy
  obtain ⟨fresh, -⟩ := calls.reads busy
  have goes : RequestCall.step behind ⟨s.link, .read⟩ (.read piece) =
      Link.response behind { s.link with input := s.link.input.put piece room } := by
    obtain ⟨c, tail, rfl⟩ := List.exists_cons_of_ne_nil some'
    unfold RequestCall.step
    exact dif_pos room
  rw [step_event behind busy, goes]
  have moved : Carried peer { s with
      received := s.received ++ piece
      link := { s.link with input := s.link.input.put piece room } } past [pair] (rest ++ piece) :=
    ⟨carried.traffic.read arrives, congrArg (· ++ piece) carried.data, carried.input, carried.output⟩
  exact response_led behind moved fresh sound

theorem request_step (behind : Buffer → UInt8) (carried : Carried peer s past pending rest)
    (calls : Calls s pending rest) (packet : List Text) (idle : s.call = none) (sound : s.lost = false)
    (some' : packet ≠ []) (small : (packetText packet).length + 17 ≤ maxPacketSize) :
    ∃ next, s.step behind (.request packet) = some next ∧ Linked peer next ∧ next.call ≠ none ∧
      next.sent = s.sent ++ [packet] ∧ next.returned = s.returned := by
  obtain ⟨rfl, fresh⟩ := calls.idle idle sound
  obtain rfl : rest = [] := List.prefix_nil.mp carried.traffic.begins
  obtain ⟨output, sent, data, total⟩ := send_eq s.link fresh packet some' small
  have nonempty : output.data ≠ [] := by simp [data, packetText]
  have goes : s.link.request behind packet = .going ⟨{ s.link with output := output }, .flush⟩ := by
    rw [Link.request, sent]
    exact if_neg nonempty
  have requested := carried.traffic.request packet
  rw [List.nil_append] at requested
  have moved : Carried peer { s with sent := s.sent ++ [packet], link := { s.link with output := output } } past
      (peer.exchange.sends s.sent [packet]) [] := by
    refine ⟨?_, carried.data, carried.input, total⟩
    have waiting : (s.traffic.request peer.exchange.encode packet).waiting = output.data := by
      rw [data, Exchange.Traffic.request, System.traffic, fresh.empty]
      exact List.nil_append _
    rw [System.traffic, ← waiting]
    exact requested
  obtain ⟨next, continued, led, busy, returned⟩ := going_led moved sound nonempty
  refine ⟨next, ?_, led.linked, busy, led.sent, returned⟩
  rw [System.step, goes]
  exact continued

end Steps

/-! ## Answers -/

section Answers

/-- The call of `write` or `read` fails, or it finds that the connection was closed. -/
def Event.fails : Event → Option Phase → Bool
  | .failed, _ => true
  | .wouldBlock, some .read => true
  | .read [], _ => true
  | _, _ => false

variable (peer : Peer)

/-- The request goes on. -/
def Waits (s next : System) : Prop := next.sent = s.sent ∧ next.returned = s.returned

/-- The request has returned what the server answers it with. -/
structure Answered (s next : System) : Prop where
  linked : Linked peer next
  sent : next.sent = s.sent
  idle : next.call = none
  sound : next.lost = false
  returned : next.returned = s.returned ++ [peer.answer s.sent]

/-- What an action does. -/
def Does (s : System) : Action → System → Prop
  | .request packet, next => next.call ≠ none ∧ next.sent = s.sent ++ [packet] ∧ next.returned = s.returned
  | .event event, next =>
    next.call ≠ none ∧ Waits s next ∨ Answered peer s next ∨ event.fails s.call = true ∧ Failed peer s next

variable {peer} {s next : System} (behind : Buffer → UInt8)

theorem Led.result {between : System} (led : Led peer between next) (sent : between.sent = s.sent)
    (returned : between.returned = s.returned) : next.call ≠ none ∧ Waits s next ∨ Answered peer s next := by
  rcases led.answer with ⟨busy, same⟩ | ⟨idle, sound, more⟩
  · exact Or.inl ⟨busy, led.sent.trans sent, same.trans returned⟩
  · exact Or.inr ⟨led.linked, led.sent.trans sent, idle, sound, by rw [more, returned, sent]⟩

theorem Led.work {between : System} (led : Led peer between next) :
    next.traffic.work peer.exchange = between.traffic.work peer.exchange := by
  simp only [Exchange.Traffic.work, System.traffic, led.output, led.sent, led.received]

def Action.moves : Action → Bool
  | .event (.wrote count) => 0 < count
  | .event (.read piece) => piece ≠ []
  | _ => false

-- What an event does that is no failure, and what is left to write and to receive behind it.
theorem event_step (linked : Linked peer s) (event : Event) (enabled : Enabled peer s (.event event))
    (fine : event.fails s.call = false) :
    ∃ next, s.step behind (.event event) = some next ∧ Linked peer next ∧
      next.traffic.work peer.exchange + (Action.event event).moves.toNat ≤ s.traffic.work peer.exchange ∧
      (next.call ≠ none ∧ Waits s next ∨ Answered peer s next) := by
  obtain ⟨past, pending, rest, carried, calls⟩ := linked
  cases event with
  | interrupted =>
      obtain ⟨phase, busy⟩ := Option.ne_none_iff_exists'.mp enabled
      obtain ⟨next, stepped, led⟩ := interrupted_step behind carried calls busy
      exact ⟨next, stepped, led.linked, le_of_eq led.work, led.result rfl rfl⟩
  | failed => cases fine
  | wouldBlock =>
      obtain ⟨phase, busy⟩ := Option.ne_none_iff_exists'.mp enabled
      cases phase with
      | flush =>
          obtain ⟨next, stepped, led⟩ := wouldBlock_step behind carried calls busy
          have work := led.work
          simp only [Exchange.Traffic.work, System.traffic, Buffer.data_nice] at work
          exact ⟨next, stepped, led.linked, le_of_eq work, led.result rfl rfl⟩
      | read => simp [Event.fails, busy] at fine
  | wrote count =>
      obtain ⟨busy, within⟩ := enabled
      obtain ⟨next, stepped, led⟩ := wrote_step behind carried calls count busy within
      have left := led.work
      simp only [System.traffic, Buffer.data_nice] at left
      have moved : (Action.event (.wrote count)).moves.toNat ≤ count := by
        cases count <;> simp [Action.moves]
      have work := s.traffic.work_write peer.exchange count within
      exact ⟨next, stepped, led.linked, left ▸ (Nat.add_le_add_left moved _).trans (Nat.le_of_eq work),
        led.result rfl rfl⟩
  | read piece =>
      obtain ⟨busy, room, arrives⟩ := enabled
      have some' : piece ≠ [] := by
        rintro rfl
        cases fine
      obtain ⟨next, stepped, led⟩ := read_step behind carried calls piece busy some' room arrives
      have moved : (Action.event (.read piece)).moves.toNat = 1 := by simp [Action.moves, some']
      have positive : (Action.event (.read piece)).moves.toNat ≤ piece.length :=
        moved ▸ List.length_pos_iff.mpr some'
      have work := carried.traffic.work_read arrives
      exact ⟨next, stepped, led.linked, led.work ▸ (Nat.add_le_add_left positive _).trans (Nat.le_of_eq work),
        led.result rfl rfl⟩

theorem fails_step (linked : Linked peer s) (event : Event) (enabled : Enabled peer s (.event event))
    (fails : event.fails s.call = true) :
    ∃ next, s.step behind (.event event) = some next ∧ Failed peer s next := by
  obtain ⟨past, pending, rest, carried, calls⟩ := linked
  cases event with
  | interrupted => cases fails
  | wrote count => cases fails
  | failed =>
      obtain ⟨phase, busy⟩ := Option.ne_none_iff_exists'.mp enabled
      exact failed_step behind carried .failed busy (by cases phase <;> rfl) (by cases phase <;> rfl)
  | wouldBlock =>
      obtain ⟨phase, busy⟩ := Option.ne_none_iff_exists'.mp enabled
      cases phase with
      | flush => simp [Event.fails, busy] at fails
      | read => exact failed_step behind carried .wouldBlock busy rfl rfl
  | read piece =>
      cases piece with
      | nil => exact failed_step behind carried (.read []) enabled.1 (by simp [System.carries]) rfl
      | cons c piece => cases fails

theorem Linked.step (linked : Linked peer s) (action : Action) (enabled : Enabled peer s action) :
    ∃ next, s.step behind action = some next ∧ Linked peer next ∧ Does peer s action next := by
  cases action with
  | request packet =>
      obtain ⟨idle, sound, some', small⟩ := enabled
      obtain ⟨past, pending, rest, carried, calls⟩ := linked
      obtain ⟨next, stepped, linked, does⟩ := request_step behind carried calls packet idle sound some' small
      exact ⟨next, stepped, linked, does⟩
  | event event =>
      cases fails : event.fails s.call with
      | false =>
          obtain ⟨next, stepped, linked, -, does⟩ := event_step behind linked event enabled fails
          exact ⟨next, stepped, linked, does.imp_right Or.inl⟩
      | true =>
          obtain ⟨next, stepped, failed⟩ := fails_step behind linked event enabled fails
          exact ⟨next, stepped, failed.linked, Or.inr (Or.inr ⟨fails, failed⟩)⟩

-- Between two requests every request has its answer.
theorem Linked.returned (linked : Linked peer s) :
    s.returned <+: peer.answers s.sent ∧ (s.call = none → s.lost = false → s.returned = peer.answers s.sent) := by
  obtain ⟨past, pending, rest, carried, calls⟩ := linked
  refine ⟨carried.traffic.returned_prefix, fun idle sound => ?_⟩
  obtain ⟨rfl, -⟩ := calls.idle idle sound
  have sends : peer.exchange.sends [] s.sent = past ++ [] := carried.traffic.sends
  rw [Peer.answers, sends, List.append_nil]
  exact carried.traffic.returned

/-- However the bytes are written and read, and whatever the memory holds behind the data: nothing undefined is done,
each request returns what the server answers it with, and it fails only when a call of `write` or `read` does. -/
theorem requests_answered (behind : Buffer → UInt8) (peer : Peer) (actions : List Action)
    (enabled : Runs.Along (Runs.after (System.step behind)) (Runs.In (Enabled peer)) (some {}) actions) :
    (∃ last, Runs.run (Runs.after (System.step behind)) (some {}) actions = some last ∧
      last.returned <+: peer.answers last.sent ∧
      (last.call = none → last.lost = false → last.returned = peer.answers last.sent)) ∧
      Runs.Along (Runs.after (System.step behind)) (Runs.Takes (System.step behind) (Does peer)) (some {}) actions := by
  obtain ⟨⟨last, reached, linked⟩, along⟩ := Runs.invariant_after (Linked peer)
    (fun _ action linked => linked.step behind action) (linked_start peer) actions enabled
  exact ⟨⟨last, reached, linked.returned⟩, along⟩

def okPeer : Peer where
  answer _ := [ascii "ok"]
  nonempty _ := List.cons_ne_nil _ _
  small _ := by decide

def noByte : Buffer → UInt8 := fun _ => 0

def ping : List Text := [ascii "ping"]

def pingRecord : Buffer := { total := 8192, data := recordText (ascii "ping"), within := by decide }

def pingSent : System where
  link := { Link.create with output := { total := 8192, data := packetText ping, within := by decide } }
  call := some .flush
  sent := [ping]

def pingWritten : System where
  link := ⟨{ total := 8192, within := by decide }, { total := 8192, offset := 8, within := by decide }⟩
  call := some .read
  sent := [ping]
  written := packetText ping

theorem send_ping : Link.create.send ping = some pingSent.link := by
  have record : Link.create.output.appendRecord (ascii "ping") = some pingRecord := by
    rw [Buffer.appendRecord, dif_pos (by decide), Buffer.reserve_grow _ (by decide) rfl,
      Buffer.reserve_room _ (by decide)]
    rfl
  have records : ping.foldlM Buffer.appendRecord Link.create.output = some pingRecord := by
    rw [ping, List.foldlM_cons, record]
    rfl
  have ended : pingRecord.append 10 = some pingSent.link.output := by
    rw [Buffer.append, Buffer.reserve_room _ (by decide)]
    rfl
  rw [Link.send, if_neg (by decide), records, Option.bind_eq_bind, Option.bind_some, ended]
  rfl

theorem request_ping : Runs.after (System.step noByte) (some {}) (.request ping) = some pingSent := by
  have goes : Link.create.request noByte ping = .going ⟨pingSent.link, .flush⟩ := by
    rw [Link.request, send_ping]
    rfl
  have continued : System.continues { sent := [ping] } (Link.create.request noByte ping) = some pingSent := by
    rw [goes]
    rfl
  exact continued

theorem written_ping : Runs.after (System.step noByte) (some pingSent) (.event (.wrote 8)) = some pingWritten := rfl

def pingEvents : List Action := [.event (.wrote 8), .event (.read (packetText [ascii "ok"]))]

theorem requests_answered_ping :
    (∃ last, Runs.run (Runs.after (System.step noByte)) (some {}) (.request ping :: pingEvents) = some last ∧
      last.returned <+: okPeer.answers last.sent ∧
      (last.call = none → last.lost = false → last.returned = okPeer.answers last.sent)) ∧
      Runs.Along (Runs.after (System.step noByte)) (Runs.Takes (System.step noByte) (Does okPeer)) (some {})
        (.request ping :: pingEvents) := by
  refine requests_answered noByte okPeer (.request ping :: pingEvents) ?_
  simp only [pingEvents, Runs.along_cons, request_ping, written_ping, Runs.in_some]
  exact ⟨⟨rfl, rfl, by decide, by decide⟩, ⟨rfl, by decide⟩, ⟨rfl, by decide, by decide⟩, Runs.along_nil⟩

/-! ## Requests that return -/

/-- What can happen while the connection neither fails nor is closed. -/
def Up (peer : Peer) (s : System) : Action → Prop
  | .event event => Enabled peer s (.event event) ∧ event.fails s.call = false
  | .request _ => False

theorem up_step (linked : Linked peer s) (action : Action) (up : Up peer s action) :
    ∃ next, s.step behind action = some next ∧
      next.traffic.work peer.exchange + action.moves.toNat ≤ s.traffic.work peer.exchange ∧
      ((Linked peer next ∧ next.call ≠ none) ∧ Waits s next ∨ Answered peer s next) := by
  cases action with
  | request packet => exact up.elim
  | event event =>
      obtain ⟨next, stepped, linked, work, result⟩ := event_step behind linked event up.1 up.2
      exact ⟨next, stepped, work, result.imp_left fun goes => ⟨⟨linked, goes.1⟩, goes.2⟩⟩

theorem Waits.trans {second third : System} (waits : Waits s second) :
    (Waits second third → Waits s third) ∧ (Answered peer second third → Answered peer s third) := by
  obtain ⟨sent, returned⟩ := waits
  constructor
  · intro ⟨sent', returned'⟩
    exact ⟨sent'.trans sent, returned'.trans returned⟩
  · intro answered
    exact ⟨answered.linked, answered.sent.trans sent, answered.idle, answered.sound,
      by rw [answered.returned, returned, sent]⟩

-- A request that has not returned is never stuck: it can write, or the server has sent something.
theorem exists_move (linked : Linked peer s) (busy : s.call ≠ none) :
    0 < s.traffic.work peer.exchange ∧ ∃ action, action.moves = true ∧ Up peer s action := by
  obtain ⟨past, pending, rest, carried, calls⟩ := linked
  obtain ⟨phase, busy'⟩ := Option.ne_none_iff_exists'.mp busy
  cases phase with
  | flush =>
      have some' : 0 < s.link.output.data.length := List.length_pos_iff.mpr (calls.writes busy').1
      have work : s.link.output.data.length ≤ s.traffic.work peer.exchange := Nat.le_add_right _ _
      exact ⟨by omega, .event (.wrote s.link.output.data.length), by simpa [Action.moves] using some',
        ⟨busy', Nat.le_refl _⟩, rfl⟩
  | read =>
      obtain ⟨pair, rfl, short⟩ := calls.waits busy
      obtain ⟨fresh, space⟩ := calls.reads busy'
      have outstanding : s.traffic.returned.length < s.traffic.sent.length := by
        have count := congrArg List.length carried.traffic.sends
        rw [Exchange.Peer.length_sends, List.length_append, List.length_singleton] at count
        rw [carried.traffic.returned, List.length_map]
        omega
      obtain ⟨c, arrives⟩ := carried.traffic.exists_read fresh.empty outstanding (by
        intro first same
        obtain rfl := Option.some.inj same
        exact short)
      have work : (s.traffic.read [c]).work peer.exchange + 1 = s.traffic.work peer.exchange :=
        carried.traffic.work_read arrives
      exact ⟨by omega, .event (.read [c]), rfl, ⟨busy', space, arrives⟩, rfl⟩

theorem not_up_idle (idle : s.call = none) (action : Action) : ¬Up peer s action := by
  cases action with
  | request packet => exact id
  | event event => cases event <;> simp [Up, Enabled, idle]

/-- A request over a connection that stays up: it is never stuck, and it returns its answer after at most as many moves
as there are bytes to write and to receive. -/
theorem request_returns (behind : Buffer → UInt8) (peer : Peer) (actions : List Action)
    (enabled : Runs.Along (Runs.after (System.step behind)) (Runs.In (Enabled peer)) (some {}) actions)
    (reached : Runs.run (Runs.after (System.step behind)) (some {}) actions = some s) (busy : s.call ≠ none)
    (later : List Action)
    (up : Runs.Along (Runs.after (System.step behind)) (Runs.In (Up peer)) (some s) later) :
    ∃ last, Runs.run (Runs.after (System.step behind)) (some s) later = some last ∧
      (Answered peer s last ∨
        last.call ≠ none ∧ Waits s last ∧ later.countP Action.moves < s.traffic.work peer.exchange ∧
          ∃ action, action.moves = true ∧ Up peer last action) := by
  obtain ⟨⟨start, reached', linked⟩, -⟩ := Runs.invariant_after (Linked peer)
    (fun _ action linked => linked.step behind action) (linked_start peer) actions enabled
  obtain rfl : start = s := Option.some.inj (reached'.symm.trans reached)
  obtain ⟨last, reached, work, result⟩ := Runs.moves_after (fun s => Linked peer s ∧ s.call ≠ none)
    (fun s => s.traffic.work peer.exchange) Action.moves Waits (Answered peer)
    (fun _ action holds => up_step behind holds.1 action) (fun _ => ⟨rfl, rfl⟩) Waits.trans
    (fun action answered => not_up_idle answered.idle action) ⟨linked, busy⟩ later up
  refine ⟨last, reached, ?_⟩
  rcases result with ⟨⟨linked, busy⟩, waits⟩ | answered
  · obtain ⟨left, move⟩ := exists_move linked busy
    exact Or.inr ⟨busy, waits, by omega, move⟩
  · exact Or.inl answered

theorem request_returns_ping :
    ∃ last, Runs.run (Runs.after (System.step noByte)) (some pingSent) pingEvents = some last ∧
      (Answered okPeer pingSent last ∨
        last.call ≠ none ∧ Waits pingSent last ∧
          pingEvents.countP Action.moves < pingSent.traffic.work okPeer.exchange ∧
          ∃ action, action.moves = true ∧ Up okPeer last action) := by
  have start : Runs.Along (Runs.after (System.step noByte)) (Runs.In (Enabled okPeer)) (some {}) [.request ping] := by
    simp only [Runs.along_cons, Runs.in_some]
    exact ⟨⟨rfl, rfl, by decide, by decide⟩, Runs.along_nil⟩
  have up : Runs.Along (Runs.after (System.step noByte)) (Runs.In (Up okPeer)) (some pingSent) pingEvents := by
    simp only [pingEvents, Runs.along_cons, written_ping, Runs.in_some]
    exact ⟨⟨⟨rfl, by decide⟩, rfl⟩, ⟨⟨rfl, by decide, by decide⟩, rfl⟩, Runs.along_nil⟩
  exact request_returns noByte okPeer _ start request_ping (by decide) pingEvents up

end Answers

end FastoNoSQL.Ssdb
