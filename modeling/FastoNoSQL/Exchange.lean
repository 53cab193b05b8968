import FastoNoSQL.Framing

set_option autoImplicit false

/-!
# Requests and replies over a connection

A client that sends requests and a peer that answers each of them, over a
connection that carries symbols both ways, in whatever pieces. What was sent,
what is on its way and what was returned fit together at any time.
-/

namespace Exchange

open Framing

/-- What the peer answers may depend on the requests before. -/
structure Peer (α Q ρ : Type) where
  encode : Q → List α
  answer : List Q → ρ
  wire : List Q → List α

variable {α Q ρ : Type} (peer : Peer α Q ρ)

namespace Peer

-- What it sends for a batch of requests, after those sent before.
def sends (sent : List Q) : List Q → List (List α × ρ)
  | [] => []
  | request :: batch =>
    (peer.wire (sent ++ [request]), peer.answer (sent ++ [request])) :: sends (sent ++ [request]) batch

theorem sends_append (sent batch more : List Q) :
    peer.sends sent (batch ++ more) = peer.sends sent batch ++ peer.sends (sent ++ batch) more := by
  induction batch generalizing sent with
  | nil => simp [sends]
  | cons request batch ih => simp [sends, ih]

theorem length_sends (sent batch : List Q) : (peer.sends sent batch).length = batch.length := by
  induction batch generalizing sent with
  | nil => rfl
  | cons request batch ih => rw [sends, List.length_cons, List.length_cons, ih]

theorem sends_forall (property : List α × ρ → Prop)
    (each : ∀ requests, property (peer.wire requests, peer.answer requests))
    (sent batch : List Q) : ∀ pair ∈ peer.sends sent batch, property pair := by
  induction batch generalizing sent with
  | nil => simp [sends]
  | cons request batch ih =>
      rw [sends]
      exact List.forall_mem_cons.mpr ⟨each _, ih _⟩

-- The requests with their symbols.
def encoded (sent : List Q) : List (List α × Q) := sent.map fun request => (peer.encode request, request)

theorem encoded_snd (sent : List Q) : (peer.encoded sent).map Prod.snd = sent := by
  rw [encoded, List.map_map]
  exact List.map_id sent

theorem encoded_symbols (sent : List Q) : sentSymbols (peer.encoded sent) = sent.flatMap peer.encode := by
  rw [encoded, sentSymbols, List.flatMap_map]

-- What it has sent when so many symbols of the requests have arrived.
def sentAt (sent : List Q) (count : Nat) : List α := sentSymbols (peer.sends [] (arrived (peer.encoded sent) count))

theorem sentAt_prefix (sent : List Q) (count : Nat) : peer.sentAt sent count <+: sentSymbols (peer.sends [] sent) := by
  have begins := arrived_prefix (peer.encoded sent) count
  rw [encoded_snd] at begins
  obtain ⟨later, split⟩ := begins
  rw [sentAt]
  conv_rhs => rw [← split, sends_append, sentSymbols_append]
  exact List.prefix_append _ _

theorem sentAt_all (sent : List Q) :
    peer.sentAt sent (sent.flatMap peer.encode).length = sentSymbols (peer.sends [] sent) := by
  rw [sentAt, ← encoded_symbols, arrived_all, encoded_snd]

end Peer

/-! ## Traffic -/

/-- The requests that were made, the symbols of them that wait and those that were written, the symbols that were
received, and the replies that were returned. -/
structure Traffic (α Q ρ : Type) where
  sent : List Q := []
  waiting : List α := []
  written : List α := []
  received : List α := []
  returned : List ρ := []

namespace Traffic

variable (traffic : Traffic α Q ρ)

def request (encode : Q → List α) (request : Q) : Traffic α Q ρ :=
  { traffic with sent := traffic.sent ++ [request], waiting := traffic.waiting ++ encode request }

def write (count : Nat) : Traffic α Q ρ :=
  { traffic with waiting := traffic.waiting.drop count, written := traffic.written ++ traffic.waiting.take count }

def read (piece : List α) : Traffic α Q ρ := { traffic with received := traffic.received ++ piece }

def take (message : ρ) : Traffic α Q ρ := { traffic with returned := traffic.returned ++ [message] }

-- The symbols that are not written, and those of the replies that were not received.
def work : Nat := traffic.waiting.length + ((sentSymbols (peer.sends [] traffic.sent)).length - traffic.received.length)

theorem work_write (count : Nat) (within : count ≤ traffic.waiting.length) :
    (traffic.write count).work peer + count = traffic.work peer := by
  simp only [work, write, List.length_drop]
  omega

end Traffic

/-- What was requested was written or waits, and what was received are the replies that were returned and a part of
the pending ones. -/
structure Carried (traffic : Traffic α Q ρ) (past pending : List (List α × ρ)) (rest : List α) : Prop where
  wrote : traffic.written ++ traffic.waiting = traffic.sent.flatMap peer.encode
  sends : peer.sends [] traffic.sent = past ++ pending
  returned : traffic.returned = past.map Prod.snd
  received : traffic.received = sentSymbols past ++ rest
  begins : rest <+: sentSymbols pending

theorem carried_start : Carried peer {} [] [] [] := ⟨rfl, rfl, rfl, rfl, List.prefix_refl _⟩

namespace Carried

variable {peer} {traffic : Traffic α Q ρ} {past pending : List (List α × ρ)} {rest : List α}

theorem request (carried : Carried peer traffic past pending rest) (request : Q) :
    Carried peer (traffic.request peer.encode request) past (pending ++ peer.sends traffic.sent [request]) rest where
  wrote := by
    rw [Traffic.request, ← List.append_assoc, carried.wrote, List.flatMap_append, List.flatMap_singleton]
  sends := by rw [Traffic.request, Peer.sends_append, carried.sends, List.append_assoc, List.nil_append]
  returned := carried.returned
  received := carried.received
  begins := by
    rw [sentSymbols_append]
    exact carried.begins.trans (List.prefix_append _ _)

theorem write (carried : Carried peer traffic past pending rest) (count : Nat) :
    Carried peer (traffic.write count) past pending rest :=
  { carried with wrote := by rw [Traffic.write, List.append_assoc, List.take_append_drop, carried.wrote] }

theorem begins_of_arrives (carried : Carried peer traffic past pending rest) {piece : List α}
    (arrives : traffic.received ++ piece <+: peer.sentAt traffic.sent traffic.written.length) :
    rest ++ piece <+: sentSymbols pending := by
  have whole := arrives.trans (peer.sentAt_prefix _ _)
  rw [carried.sends, carried.received, sentSymbols_append, List.append_assoc] at whole
  exact (List.prefix_append_right_inj _).mp whole

theorem read (carried : Carried peer traffic past pending rest) {piece : List α}
    (arrives : traffic.received ++ piece <+: peer.sentAt traffic.sent traffic.written.length) :
    Carried peer (traffic.read piece) past pending (rest ++ piece) where
  wrote := carried.wrote
  sends := carried.sends
  returned := carried.returned
  received := by rw [Traffic.read, carried.received, List.append_assoc]
  begins := carried.begins_of_arrives arrives

theorem take {symbols left : List α} {message : ρ} {later : List (List α × ρ)}
    (carried : Carried peer traffic past ((symbols, message) :: later) (symbols ++ left)) :
    Carried peer (traffic.take message) (past ++ [(symbols, message)]) later left where
  wrote := carried.wrote
  sends := by rw [List.append_assoc, List.singleton_append]; exact carried.sends
  returned := by rw [Traffic.take, carried.returned, List.map_append]; rfl
  received := by
    rw [sentSymbols_append, List.append_assoc]
    simpa [Traffic.take, sentSymbols] using carried.received
  begins := by
    have begins := carried.begins
    rw [sentSymbols, List.flatMap_cons] at begins
    exact (List.prefix_append_right_inj symbols).mp begins

theorem returned_prefix (carried : Carried peer traffic past pending rest) :
    traffic.returned <+: (peer.sends [] traffic.sent).map Prod.snd := by
  rw [carried.returned, carried.sends, List.map_append]
  exact List.prefix_append _ _

theorem received_le (carried : Carried peer traffic past pending rest) :
    traffic.received.length ≤ (sentSymbols (peer.sends [] traffic.sent)).length := by
  have within := carried.begins.length_le
  rw [carried.received, carried.sends, sentSymbols_append, List.length_append, List.length_append]
  omega

-- What holds of every reply of the peer.
theorem pending_forall (carried : Carried peer traffic past pending rest) (property : List α × ρ → Prop)
    (each : ∀ requests, property (peer.wire requests, peer.answer requests)) : ∀ pair ∈ pending, property pair := by
  intro pair member
  refine peer.sends_forall property each [] traffic.sent pair ?_
  rw [carried.sends]
  exact List.mem_append_right past member

-- The only pending reply answers the last request.
theorem last {pair : List α × ρ} (carried : Carried peer traffic past [pair] rest) :
    pair = (peer.wire traffic.sent, peer.answer traffic.sent) := by
  have sends := carried.sends
  rcases List.eq_nil_or_concat traffic.sent with none | ⟨front, request, split⟩
  · rw [none] at sends
    simp [Peer.sends] at sends
  · rw [split, List.concat_eq_append, Peer.sends_append] at sends
    have single := (List.append_inj' sends rfl).2
    rw [split, List.concat_eq_append]
    exact (List.cons.inj single).1.symm

/-! ## Moves -/

theorem work_read (carried : Carried peer traffic past pending rest) {piece : List α}
    (arrives : traffic.received ++ piece <+: peer.sentAt traffic.sent traffic.written.length) :
    (traffic.read piece).work peer + piece.length = traffic.work peer := by
  have within := (carried.read arrives).received_le
  simp only [Traffic.work, Traffic.read, List.length_append] at within ⊢
  omega

/-- When every request was written and a reply is pending that was not wholly received, there is a symbol to read. -/
theorem exists_read (carried : Carried peer traffic past pending rest) (flushed : traffic.waiting = [])
    (outstanding : traffic.returned.length < traffic.sent.length)
    (short : ∀ pair ∈ pending.head?, rest.length < pair.1.length) :
    ∃ symbol, traffic.received ++ [symbol] <+: peer.sentAt traffic.sent traffic.written.length := by
  have all := carried.wrote
  rw [flushed, List.append_nil] at all
  rw [all, peer.sentAt_all, carried.sends, sentSymbols_append, carried.received]
  have count := congrArg List.length carried.sends
  rw [peer.length_sends, List.length_append, ← List.length_map Prod.snd, ← carried.returned] at count
  cases pending with
  | nil =>
      rw [List.length_nil] at count
      omega
  | cons pair later =>
      have short := short pair rfl
      have front : pair.1.length ≤ (sentSymbols (pair :: later)).length := by
        rw [sentSymbols, List.flatMap_cons, List.length_append]
        omega
      obtain ⟨coming, whole⟩ := carried.begins
      cases coming with
      | nil =>
          rw [List.append_nil] at whole
          rw [whole] at short
          omega
      | cons symbol coming =>
          refine ⟨symbol, ?_⟩
          rw [← whole, List.append_assoc]
          exact (List.prefix_append_right_inj _).mpr ((List.prefix_append_right_inj _).mpr
            (List.cons_prefix_cons.mpr ⟨rfl, List.nil_prefix⟩))

end Carried

end Exchange
