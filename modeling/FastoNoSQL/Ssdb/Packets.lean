import FastoNoSQL.Framing
import FastoNoSQL.Ssdb.Link
import Mathlib.Data.List.Basic

set_option autoImplicit false

/-!
# Packets in a stream

A link parses its packets again and again from their start until they are
complete. What it finds is what a decoder of records finds that never goes back.
-/

namespace FastoNoSQL.Ssdb

open Bytes Sds Framing

/-! ## The decoder -/

/-- Why a link gives up: bad data, a packet of another protocol, or a sum that is no `int`. -/
inductive Fault where
  | bad
  | redis
  | undefined
deriving DecidableEq

/-- What was used of the packet, and its records so far. -/
structure Parsing where
  parsed : Nat := 0
  recvData : List Text := []

def Line.verdict (state : Parsing) : Line → Verdict Parsing (List Text) Fault
  | .more => .wait
  | .record body used =>
    if maxPacketSize < state.parsed + used then .fail .bad
    else .next ⟨state.parsed + used, state.recvData ++ [body]⟩ used none
  | .done used => .next {} used (some state.recvData)
  | .bad => .fail .bad
  | .undefined => .fail .undefined

def look (state : Parsing) (head : Text) : Verdict Parsing (List Text) Fault :=
  if state.recvData = [] then
    match head with
    | [] => .wait
    | c :: head =>
      if isBlank c then .next { state with parsed := state.parsed + 1 } 1 none
      else if c = byte '*' then .fail .redis
      else (nextLine (c :: head)).verdict state
  else (nextLine head).verdict state

/-! ## Lines -/

section Lines

variable (head more : Text)

theorem idxOf_append_of_lt (found : head.idxOf 10 ≠ head.length) : (head ++ more).idxOf 10 = head.idxOf 10 := by
  have member : (10 : UInt8) ∈ head := by
    by_contra absent
    exact found (List.idxOf_eq_length_iff.mpr absent)
  exact List.idxOf_append_of_mem member

theorem recordLine_append (headLen : Nat) (bodyLen : Int) (decided : recordLine head headLen bodyLen ≠ .more) :
    recordLine (head ++ more) headLen bodyLen = recordLine head headLen bodyLen := by
  unfold recordLine at decided ⊢
  by_cases negative : bodyLen < 0
  · rw [if_pos negative, if_pos negative]
  by_cases large : 2 ^ 31 ≤ headLen + bodyLen
  · simp only [if_neg negative, if_pos large]
  by_cases short : (head.length : Int) < headLen + bodyLen
  · simp only [if_neg negative, if_neg large, if_pos short] at decided
    exact absurd rfl decided
  have long : ¬((head ++ more).length : Int) < headLen + bodyLen := by
    rw [List.length_append]
    omega
  simp only [if_neg negative, if_neg large, if_neg short] at decided
  simp only [if_neg negative, if_neg large, if_neg short, if_neg long]
  have body : ((head ++ more).drop headLen).take bodyLen.toNat = (head.drop headLen).take bodyLen.toNat := by
    rw [List.drop_append_of_le_length (by omega), List.take_append_of_le_length (by rw [List.length_drop]; omega)]
  have behind : (head ++ more).drop (headLen + bodyLen.toNat) = head.drop (headLen + bodyLen.toNat) ++ more :=
    List.drop_append_of_le_length (by omega)
  rw [body, behind]
  generalize head.drop (headLen + bodyLen.toNat) = rest at decided ⊢
  by_cases short : rest.length < 2
  · by_cases lf : rest.head? = some 10
    · rw [if_pos lf, if_pos (by rw [List.head?_append, lf, Option.some_or])]
    · have cr : rest.take 2 ≠ [13, 10] := by
        intro same
        have count := congrArg List.length same
        rw [List.length_take, List.length_cons, List.length_singleton] at count
        omega
      rw [if_neg lf, if_neg cr, if_neg (by omega)] at decided
      exact absurd rfl decided
  have some' : rest ≠ [] := List.ne_nil_of_length_pos (by omega)
  have first : (rest ++ more).head? = rest.head? := List.head?_append_of_ne_nil rest some'
  have pair : (rest ++ more).take 2 = rest.take 2 := List.take_append_of_le_length (by omega)
  have long : 2 ≤ (rest ++ more).length := by
    rw [List.length_append]
    omega
  rw [first, pair, if_pos long, if_pos (Nat.le_of_not_lt short)]

theorem nextLine_append (decided : nextLine head ≠ .more) : nextLine (head ++ more) = nextLine head := by
  by_cases found : head.idxOf 10 = head.length
  · exact absurd (by simp [nextLine, found]) decided
  have within : head.idxOf 10 < head.length := Nat.lt_of_le_of_ne List.idxOf_le_length found
  have within' : head.idxOf 10 ≠ (head ++ more).length := by
    rw [List.length_append]
    omega
  have some' : head ≠ [] := List.ne_nil_of_length_pos (Nat.zero_lt_of_lt within)
  have line := idxOf_append_of_lt head more found
  have first : (head ++ more).head? = head.head? := List.head?_append_of_ne_nil head some'
  have first' : (head ++ more).headD 0 = head.headD 0 := by
    rw [List.headD_eq_head?_getD, first, List.headD_eq_head?_getD]
  have number : (head ++ more).take (head.idxOf 10) = head.take (head.idxOf 10) :=
    List.take_append_of_le_length (Nat.le_of_lt within)
  unfold nextLine at decided ⊢
  simp only [line, first, first', number, if_neg found, if_neg within'] at decided ⊢
  by_cases done : head.idxOf 10 + 1 = 1 ∨ head.idxOf 10 + 1 = 2 ∧ head.head? = some 13
  · rw [if_pos done, if_pos done]
  by_cases other : isDigit (head.headD 0) = false
  · simp only [if_neg done, if_pos other]
  by_cases long : 19 < head.idxOf 10 + 1
  · simp only [if_neg done, if_neg other, if_pos long]
  simp only [if_neg done, if_neg other, if_neg long] at decided ⊢
  exact recordLine_append head more _ _ decided

-- What a line uses is there.
def Line.Within (head : Text) : Line → Prop
  | .record _ used => 0 < used ∧ used ≤ head.length
  | .done used => 0 < used ∧ used ≤ head.length
  | _ => True

theorem recordLine_within (headLen : Nat) (bodyLen : Int) : (recordLine head headLen bodyLen).Within head := by
  unfold recordLine
  by_cases negative : bodyLen < 0
  · rw [if_pos negative]
    trivial
  by_cases large : 2 ^ 31 ≤ headLen + bodyLen
  · rw [if_neg negative, if_pos large]
    trivial
  by_cases short : (head.length : Int) < headLen + bodyLen
  · rw [if_neg negative, if_neg large, if_pos short]
    trivial
  simp only [if_neg negative, if_neg large, if_neg short]
  have rest : (head.drop (headLen + bodyLen.toNat)).length + (headLen + bodyLen.toNat) = head.length := by
    rw [List.length_drop]
    omega
  generalize head.drop (headLen + bodyLen.toNat) = rest' at rest ⊢
  by_cases lf : rest'.head? = some 10
  · have some' : rest' ≠ [] := fun none => by simp [none] at lf
    have positive := List.length_pos_iff.mpr some'
    rw [if_pos lf]
    exact ⟨Nat.succ_pos _, by omega⟩
  by_cases crlf : rest'.take 2 = [13, 10]
  · have two := congrArg List.length crlf
    rw [List.length_take, List.length_cons, List.length_singleton] at two
    rw [if_neg lf, if_pos crlf]
    exact ⟨Nat.succ_pos _, by omega⟩
  rw [if_neg lf, if_neg crlf]
  split <;> trivial

theorem nextLine_within : (nextLine head).Within head := by
  unfold nextLine
  by_cases found : head.idxOf 10 = head.length
  · simp only [if_pos found]
    trivial
  have within : head.idxOf 10 < head.length := Nat.lt_of_le_of_ne List.idxOf_le_length found
  simp only [if_neg found]
  split
  · exact ⟨Nat.succ_pos _, within⟩
  split
  · trivial
  split
  · trivial
  exact recordLine_within head _ _

theorem nextLine_nil : nextLine [] = .more := rfl

end Lines

theorem Line.verdict_uses {line : Line} {head : Text} {state after : Parsing} {used : Nat}
    {message : Option (List Text)} (within : line.Within head) (next : line.verdict state = .next after used message) :
    0 < used ∧ used ≤ head.length := by
  cases line with
  | more => cases next
  | bad => cases next
  | undefined => cases next
  | done count =>
      obtain ⟨-, rfl, -⟩ := Verdict.next.inj next
      exact within
  | record body count =>
      simp only [Line.verdict] at next
      split at next
      · cases next
      · obtain ⟨-, rfl, -⟩ := Verdict.next.inj next
        exact within

theorem Line.verdict_ne_wait {line : Line} {state : Parsing} (decided : line.verdict state ≠ .wait) : line ≠ .more := by
  rintro rfl
  exact decided rfl

theorem look_records {state : Parsing} (records : state.recvData ≠ []) (head : Text) :
    look state head = (nextLine head).verdict state := if_neg records

-- A packet begins behind the blank lines.
theorem look_digit (state : Parsing) {c : UInt8} (text : isBlank c = false) (other : c ≠ byte '*') (head : Text) :
    look state (c :: head) = (nextLine (c :: head)).verdict state := by
  unfold look
  split
  · simp only [text, Bool.false_eq_true, if_false, if_neg other]
  · rfl

theorem look_stable : Stable look where
  uses := by
    intro state head after used message next
    by_cases records : state.recvData = []
    · cases head with
      | nil => simp [look, records] at next
      | cons c head =>
          by_cases blank : isBlank c = true
          · simp only [look, records, if_true, blank] at next
            obtain ⟨-, rfl, -⟩ := Verdict.next.inj next
            exact ⟨Nat.one_pos, Nat.succ_pos _⟩
          · by_cases redis : c = byte '*'
            · simp only [look, records, if_true, if_neg blank, if_pos redis] at next
              cases next
            · rw [look_digit state (by simpa using blank) redis] at next
              exact Line.verdict_uses (nextLine_within _) next
    · rw [look_records records] at next
      exact Line.verdict_uses (nextLine_within _) next
  keeps := by
    intro state head more decided
    by_cases records : state.recvData = []
    · cases head with
      | nil => simp [look, records] at decided
      | cons c head =>
          by_cases blank : isBlank c = true
          · simp only [look, records, if_true, blank, List.cons_append]
          · by_cases redis : c = byte '*'
            · simp only [look, records, if_true, if_neg blank, if_pos redis, List.cons_append]
            · have text : isBlank c = false := by simpa using blank
              rw [look_digit state text redis] at decided ⊢
              rw [List.cons_append, look_digit state text redis, ← List.cons_append,
                nextLine_append _ _ (Line.verdict_ne_wait decided)]
    · rw [look_records records] at decided ⊢
      rw [look_records records, nextLine_append _ _ (Line.verdict_ne_wait decided)]

/-! ## Parsing from the start -/

-- What a link finds in so many bytes, of which the decoder left some.
def Parsed.found (size : Nat) : Pulled UInt8 Parsing (List Text) Fault → Parsed
  | .nothing _ _ => .notReady
  | .message recvData _ left => .packet recvData (size - left.length)
  | .failed .bad => .failed
  | .failed _ => .undefined

-- The decoder is past the blank lines.
def Begun (state : Parsing) (head : Text) : Prop :=
  state.recvData = [] → ∀ c ∈ head.head?, isBlank c = false ∧ c ≠ byte '*'

theorem Begun.look {state : Parsing} {head : Text} (begun : Begun state head) :
    look state head = (nextLine head).verdict state := by
  by_cases records : state.recvData = []
  · cases head with
    | nil =>
        rw [nextLine_nil]
        exact if_pos records
    | cons c head =>
        obtain ⟨text, other⟩ := begun records c rfl
        exact look_digit state text other head
  · exact look_records records head

theorem parseLines_eq (fuel : Nat) (state : Parsing) (head : Text) (room : head.length < fuel)
    (begun : Begun state head) :
    parseLines fuel head state.parsed state.recvData =
      Parsed.found (state.parsed + head.length) (pull Ssdb.look state head) := by
  induction fuel generalizing state head with
  | zero => omega
  | succ fuel ih =>
      have seen := begun.look
      have within := nextLine_within head
      rw [parseLines]
      cases line : nextLine head with
      | more =>
          rw [line] at seen
          rw [pull_wait seen]
          rfl
      | bad =>
          rw [line] at seen
          rw [pull_fail seen]
          rfl
      | undefined =>
          rw [line] at seen
          rw [pull_fail seen]
          rfl
      | done used =>
          rw [line] at seen within
          rw [pull_message seen]
          have used' : state.parsed + head.length - (head.drop used).length = state.parsed + used := by
            have fits := within.2
            rw [List.length_drop]
            omega
          simp only [Parsed.found, used']
      | record body used =>
          rw [line] at seen within
          simp only [Line.verdict] at seen ⊢
          by_cases large : maxPacketSize < state.parsed + used
          · rw [if_pos large] at seen ⊢
            rw [pull_fail seen]
            rfl
          · rw [if_neg large] at seen ⊢
            have shorter : (head.drop used).length + used = head.length := by
              have fits := within.2
              rw [List.length_drop]
              omega
            have fewer : (head.drop used).length < fuel := by
              have positive := within.1
              omega
            have sum : state.parsed + used + (head.drop used).length = state.parsed + head.length := by omega
            have more : Begun ⟨state.parsed + used, state.recvData ++ [body]⟩ (head.drop used) :=
              fun none => absurd none (by simp)
            rw [pull_silent look_stable seen, ← sum]
            exact ih ⟨state.parsed + used, state.recvData ++ [body]⟩ (head.drop used) fewer more

theorem pull_blanks (parsed : Nat) (data : Text) :
    pull look ⟨parsed, []⟩ data =
      pull look ⟨parsed + (data.takeWhile isBlank).length, []⟩ (data.dropWhile isBlank) := by
  induction data generalizing parsed with
  | nil => rfl
  | cons c data ih =>
      by_cases blank : isBlank c = true
      · have seen : look ⟨parsed, []⟩ (c :: data) = .next ⟨parsed + 1, []⟩ 1 none := by
          simp only [look, if_true, blank]
        rw [pull_silent look_stable seen, List.takeWhile_cons_of_pos blank, List.dropWhile_cons_of_pos blank,
          List.length_cons, List.drop_succ_cons, List.drop_zero, ih, Nat.add_assoc, Nat.add_comm 1]
      · rw [List.takeWhile_cons_of_neg blank, List.dropWhile_cons_of_neg blank]
        rfl

-- What a call of `recv` makes of it.
def Received.found (input : Buffer) : Pulled UInt8 Parsing (List Text) Fault → Received
  | .nothing _ _ => waiting input
  | .message packet _ left => .ready packet (input.decr (input.data.length - left.length) (Nat.sub_le _ _))
  | .failed .bad => .failed
  | .failed _ => .undefined

theorem drop_length_takeWhile (data : Text) :
    data.drop (data.takeWhile isBlank).length = data.dropWhile isBlank := by
  have whole := congrArg (List.drop (data.takeWhile isBlank).length) (List.takeWhile_append_dropWhile (p := isBlank)
    (l := data))
  rw [List.drop_left] at whole
  exact whole.symm

/-- A call of `recv` starts again at the first byte, and finds what a decoder finds that never goes back. -/
theorem recv_eq (behind : Buffer → UInt8) (input : Buffer) (some' : input.data ≠ [])
    (clean : input.data.dropWhile isBlank = [] → behind input ≠ byte '*') :
    recv behind input = Received.found input (pull look {} input.data) := by
  have size : (input.data.takeWhile isBlank).length + (input.data.dropWhile isBlank).length = input.data.length := by
    rw [← List.length_append, List.takeWhile_append_dropWhile]
  have first := pull_blanks 0 input.data
  rw [Nat.zero_add] at first
  have text := List.head?_dropWhile_not isBlank input.data
  unfold recv
  rw [if_neg some', first]
  simp only [drop_length_takeWhile]
  generalize (input.data.takeWhile isBlank).length = skipped at size ⊢
  generalize input.data.dropWhile isBlank = head at size clean text ⊢
  cases head with
  | nil =>
      have other : ([] : Text).headD (behind input) ≠ byte '*' := clean rfl
      rw [if_neg other, pull_wait rfl]
      rfl
  | cons c head =>
      have text : isBlank c = false := by simpa using text
      by_cases redis : c = byte '*'
      · have seen : look ⟨skipped, []⟩ (c :: head) = .fail .redis := by
          simp only [look, if_true, text, Bool.false_eq_true, if_false, if_pos redis]
        have first : (c :: head).headD (behind input) = byte '*' := redis
        rw [if_pos first, pull_fail seen]
        rfl
      · have begun : Begun ⟨skipped, []⟩ (c :: head) := by
          rintro - first same
          obtain rfl := Option.some.inj same
          exact ⟨text, redis⟩
        have other : (c :: head).headD (behind input) ≠ byte '*' := redis
        have parsed := parseLines_eq _ ⟨skipped, []⟩ (c :: head) (Nat.lt_succ_self _) begun
        rw [if_neg other, parsed, size]
        cases pull look ⟨skipped, []⟩ (c :: head) with
        | nothing state left => rfl
        | message packet state left => simp only [Parsed.found, Received.found, dif_pos (Nat.sub_le _ _)]
        | failed err => cases err <;> rfl

/-! ## Packets -/

-- The records of a packet and the empty line behind them.
def packetText (packet : List Text) : Text := packet.flatMap recordText ++ [10]

theorem atoi_natText (n : Nat) (small : n < 2 ^ 31) : atoi (natText n) = n := by
  have digits : (natText n).takeWhile isDigit = natText n :=
    List.takeWhile_eq_self_iff.mpr fun c member => isDigit_of_mem_natText n c member
  rw [atoi, digits, readNat_natText]
  exact toInt_eq n (by omega) (by omega)

theorem length_recordText_eq (s : Text) : (recordText s).length = (natText s.length).length + 1 + s.length + 1 := by
  simp only [recordText, List.length_append, List.length_cons, List.length_nil]
  omega

theorem recordLine_record (front s more : Text) (small : front.length + s.length < 2 ^ 31) :
    recordLine (front ++ (s ++ 10 :: more)) front.length s.length = .record s (front.length + s.length + 1) := by
  have body : ((front ++ (s ++ 10 :: more)).drop front.length).take s.length = s := by
    rw [List.drop_left, List.take_left]
  have lf : ((front ++ (s ++ 10 :: more)).drop (front.length + s.length)).head? = some 10 := by
    rw [← List.append_assoc, ← List.length_append, List.drop_left]
    rfl
  unfold recordLine
  rw [if_neg (by omega), if_neg (by omega), if_neg (by simp only [List.length_append]; omega)]
  simp only [Int.toNat_natCast, body, if_pos lf]

theorem nextLine_recordText (s more : Text) (small : (recordText s).length < 2 ^ 31) :
    nextLine (recordText s ++ more) = .record s (recordText s).length := by
  have size := length_recordText_eq s
  have digits := length_natText_le s.length 9 (by omega)
  have split : recordText s ++ more = natText s.length ++ 10 :: (s ++ 10 :: more) := by
    simp only [recordText, List.append_assoc, List.cons_append, List.nil_append]
  have clean : (10 : UInt8) ∉ natText s.length := fun member => by
    have digit := isDigit_of_mem_natText s.length 10 member
    revert digit
    decide
  obtain ⟨c, tail, text⟩ := List.exists_cons_of_ne_nil (natText_ne_nil s.length)
  have digit : isDigit c = true := isDigit_of_mem_natText s.length c (by rw [text]; exact List.mem_cons_self)
  have line : (recordText s ++ more).idxOf 10 = (natText s.length).length := by
    rw [split, List.idxOf_append_of_notMem clean, List.idxOf_cons_self, Nat.add_zero]
  have number : (recordText s ++ more).take (natText s.length).length = natText s.length := by
    rw [split, List.take_left]
  have first : (recordText s ++ more).headD 0 = c := by
    rw [split, text]
    rfl
  have positive : 0 < (natText s.length).length := List.length_pos_iff.mpr (natText_ne_nil s.length)
  have there : (natText s.length).length ≠ (recordText s ++ more).length := by
    rw [List.length_append]
    omega
  have cr : (recordText s ++ more).head? ≠ some 13 := by
    rw [split, text]
    intro same
    obtain rfl := Option.some.inj same
    revert digit
    decide
  have open' : ¬((natText s.length).length + 1 = 1 ∨
      (natText s.length).length + 1 = 2 ∧ (recordText s ++ more).head? = some 13) := by
    rintro (single | ⟨-, same⟩)
    · omega
    · exact cr same
  unfold nextLine
  simp only [line, number, first, digit, Bool.true_eq_false, if_false, if_neg there, atoi_natText s.length (by omega)]
  rw [if_neg open', if_neg (by omega)]
  have front : (natText s.length).length + 1 = (natText s.length ++ [10]).length := by simp
  have whole : recordText s ++ more = (natText s.length ++ [10]) ++ (s ++ 10 :: more) := by
    rw [split, List.append_assoc, List.singleton_append]
  rw [front, whole, recordLine_record _ s more (by rw [← front]; omega), ← front, size]

theorem recordText_ne_nil (s : Text) : recordText s ≠ [] := by
  simp [recordText]

-- The first byte is a digit.
theorem recordText_begins (s : Text) (c : UInt8) (first : c ∈ (recordText s).head?) :
    isBlank c = false ∧ c ≠ byte '*' := by
  have digit : isDigit c = true := by
    rw [recordText, List.head?_append_of_ne_nil _ (natText_ne_nil _)] at first
    exact isDigit_of_mem_natText s.length c (List.mem_of_mem_head? first)
  refine ⟨Bool.eq_false_iff.mpr fun blank => ?_, ?_⟩
  · simp only [isBlank, Bool.or_eq_true, decide_eq_true_eq] at blank
    rcases blank with rfl | rfl <;> cases digit
  · rintro rfl
    cases digit

theorem look_recordText (state : Parsing) (s more : Text)
    (fits : state.parsed + (recordText s).length ≤ maxPacketSize) :
    look state (recordText s ++ more) =
      .next ⟨state.parsed + (recordText s).length, state.recvData ++ [s]⟩ (recordText s).length none := by
  have small : (recordText s).length < 2 ^ 31 :=
    Nat.lt_of_le_of_lt (Nat.le_trans (Nat.le_add_left _ _) fits) (by decide)
  have begun : Begun state (recordText s ++ more) := by
    rintro - c first
    exact recordText_begins s c (by rwa [List.head?_append_of_ne_nil _ (recordText_ne_nil s)] at first)
  rw [begun.look, nextLine_recordText s more small]
  simp only [Line.verdict, if_neg (Nat.not_lt.mpr fits)]

theorem spans_records (state : Parsing) (packet : List Text) (begun : state.recvData ≠ [] ∨ packet ≠ [])
    (fits : state.parsed + (packet.flatMap recordText).length ≤ maxPacketSize) :
    Spans look state (packetText packet) {} (some (state.recvData ++ packet)) := by
  induction packet generalizing state with
  | nil =>
      have records : state.recvData ≠ [] := by simpa using begun
      refine .once fun more => ?_
      rw [look_records records, List.append_nil]
      rfl
  | cons s packet ih =>
      rw [List.flatMap_cons, List.length_append] at fits
      rw [packetText, List.flatMap_cons, List.append_assoc]
      refine .behind (.once fun more => look_recordText state s more (by omega)) ?_
      have later := ih ⟨state.parsed + (recordText s).length, state.recvData ++ [s]⟩ (Or.inl (by simp))
        (by rwa [Nat.add_assoc])
      rwa [List.append_assoc, List.singleton_append] at later

theorem spans_packet (packet : List Text) (some' : packet ≠ [])
    (fits : (packet.flatMap recordText).length ≤ maxPacketSize) :
    Spans look {} (packetText packet) {} (some packet) :=
  spans_records {} packet (Or.inr some') ((Nat.zero_add _).trans_le fits)

end FastoNoSQL.Ssdb
