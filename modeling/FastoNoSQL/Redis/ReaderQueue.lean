import FastoNoSQL.Redis.Reader

set_option autoImplicit false

/-!
# The reader and the stream of replies

The reader is a decoder of the stream it is fed with: what it keeps, throws away
and reads again makes no difference as long as its buffer is not too large for
an `int`.
-/

namespace FastoNoSQL.Redis

open Bytes Sds Framing RedisReply ReplyObject

/-! ## Line ends -/

section Lines

variable (s : Text)

def EndsLine (n : Nat) : Prop := s[n]? = some 13 ∧ s[n + 1]? = some 10

theorem crlf_prefix_iff (n : Nat) : crlf <+: s.drop n ↔ EndsLine s n := by
  have bytes : crlf = [13, 10] := rfl
  have first : (s.drop n)[0]? = s[n]? := by rw [List.getElem?_drop, Nat.add_zero]
  have second : (s.drop n)[1]? = s[n + 1]? := List.getElem?_drop
  rw [EndsLine, ← first, ← second, bytes]
  rcases s.drop n with _ | ⟨c, _ | ⟨d, rest⟩⟩
  · simp
  · simp [List.cons_prefix_cons]
  · simp [List.cons_prefix_cons, eq_comm]

theorem EndsLine.lt {n : Nat} (ends : EndsLine s n) : n + 1 < s.length := (List.getElem?_eq_some_iff.mp ends.2).1

theorem find_crlf_iff (n : Nat) : find crlf s = some n ↔ EndsLine s n ∧ ∀ m < n, ¬EndsLine s m := by
  simp only [find_eq_some_iff, crlf_prefix_iff]
  constructor
  · rintro ⟨-, ends, first⟩
    exact ⟨ends, first⟩
  · rintro ⟨ends, first⟩
    have within := ends.lt
    exact ⟨by omega, ends, first⟩

theorem seekFrom_iff (limit : Int) (pos n : Nat) :
    seekFrom s limit pos = some n ↔ pos ≤ n ∧ n < limit ∧ EndsLine s n ∧ ∀ m < n, pos ≤ m → ¬EndsLine s m := by
  induction pos using seekFrom.induct s limit with
  | case1 pos below ends =>
      rw [seekFrom, if_pos below, if_pos ends, Option.some.injEq]
      constructor
      · rintro rfl
        exact ⟨Nat.le_refl _, below, ends, fun m less more => by omega⟩
      · rintro ⟨low, -, -, first⟩
        by_contra other
        exact first pos (by omega) (Nat.le_refl _) ends
  | case2 pos below other ih =>
      rw [seekFrom, if_pos below, if_neg other, ih]
      constructor
      · rintro ⟨low, high, ends, first⟩
        refine ⟨by omega, high, ends, fun m less more => ?_⟩
        by_cases here : m = pos
        · exact here ▸ other
        · exact first m less (by omega)
      · rintro ⟨low, high, ends, first⟩
        have later : pos ≠ n := fun same => other (same ▸ ends)
        exact ⟨by omega, high, ends, fun m less more => first m less (by omega)⟩
  | case3 pos above =>
      rw [seekFrom, if_neg above]
      constructor
      · nofun
      · rintro ⟨low, high, -⟩
        omega

theorem seekNewline_eq (small : s.length ≤ 2 ^ 31) : seekNewline s = find crlf s := by
  ext n
  have limit : toInt (s.length - 1) = s.length - 1 := toInt_eq _ (by omega) (by omega)
  rw [seekNewline, limit, seekFrom_iff, find_crlf_iff]
  constructor
  · rintro ⟨-, -, ends, first⟩
    exact ⟨ends, fun m less => first m less (Nat.zero_le m)⟩
  · rintro ⟨ends, first⟩
    have within := ends.lt
    exact ⟨Nat.zero_le n, by omega, ends, fun m less _ => first m less⟩

theorem find_crlf_append {n : Nat} (found : find crlf s = some n) (more : Text) : find crlf (s ++ more) = some n := by
  obtain ⟨ends, first⟩ := (find_crlf_iff s n).mp found
  have within := ends.lt
  have same (m : Nat) (early : m ≤ n) : EndsLine (s ++ more) m ↔ EndsLine s m := by
    rw [EndsLine, EndsLine, List.getElem?_append_left (by omega), List.getElem?_append_left (by omega)]
  rw [find_crlf_iff]
  exact ⟨(same n (Nat.le_refl n)).mpr ends, fun m less => mt (same m (Nat.le_of_lt less)).mp (first m less)⟩

theorem mem_of_find_crlf {n : Nat} (found : find crlf s = some n) : (13 : UInt8) ∈ s :=
  List.mem_of_getElem? ((find_crlf_iff s n).mp found).1.1

theorem readDigits_append (mult : Int) (v : Int) (more : Text) (ends : (13 : UInt8) ∈ s) :
    readDigits mult (s ++ more) v = readDigits mult s v := by
  induction s generalizing v with
  | nil => simp at ends
  | cons c s ih =>
      rw [List.cons_append, readDigits, readDigits]
      by_cases last : c = 13
      · rw [if_pos last, if_pos last]
      · have later : (13 : UInt8) ∈ s := by simpa [Ne.symm last] using ends
        rw [if_neg last, if_neg last, ih _ later]

theorem readLongLong_append (more : Text) (ends : (13 : UInt8) ∈ s) :
    readLongLong (s ++ more) = readLongLong s := by
  cases s with
  | nil => simp at ends
  | cons c s =>
      have whole := readDigits_append (c :: s) 1 0 more ends
      rw [List.cons_append] at whole
      rw [List.cons_append, readLongLong, readLongLong, whole]
      by_cases minus : c = byte '-'
      · have later : (13 : UInt8) ∈ s := by
          simpa [minus, show (13 : UInt8) ≠ byte '-' by decide] using ends
        rw [if_pos minus, if_pos minus, readDigits_append s (-1) 0 more later]
      rw [if_neg minus, if_neg minus]
      by_cases plus : c = byte '+'
      · have later : (13 : UInt8) ∈ s := by
          simpa [plus, show (13 : UInt8) ≠ byte '+' by decide] using ends
        rw [if_pos plus, if_pos plus, readDigits_append s 1 0 more later]
      · rw [if_neg plus, if_neg plus]

end Lines

/-! ## The decoder -/

def verdict : Item → Verdict Parse ReplyObject Fault
  | .more => .wait
  | .ok state used => if state.rstack = [] then .next Parse.root used state.reply else .next state used none
  | .error errstr => .fail (.error (errstr.take 127))
  | .undefined => .fail .undefined

-- One of the two parts of `processItem`, with lines that may have any length.
def nextItem (state : Parse) (text : Text) : Item :=
  match state.rstack with
  | [] => .undefined
  | cur :: _ => if cur.type < 0 then processType state text else processTyped (find crlf) state cur text

def look (state : Parse) (text : Text) : Verdict Parse ReplyObject Fault := verdict (nextItem state text)

section Items

variable (state : Parse) (cur : ReadTask) (text more : Text)

theorem create_ok {obj : ReplyObject} {used n : Nat} {after : Parse} (made : state.create obj used = .ok after n) :
    n = used ∧ ∃ reply, after.reply = some reply := by
  unfold Parse.create at made
  split at made
  · obtain ⟨rfl, rfl⟩ := Item.ok.inj made
    exact ⟨rfl, _, rfl⟩
  · cases made

theorem processType_append (decided : processType state text ≠ .more) :
    processType state (text ++ more) = processType state text := by
  cases text with
  | nil => simp [processType] at decided
  | cons c text => rfl

theorem processLineItem_append (decided : processLineItem (find crlf) state cur text ≠ .more) :
    processLineItem (find crlf) state cur (text ++ more) = processLineItem (find crlf) state cur text := by
  cases found : find crlf text with
  | none => simp [processLineItem, found] at decided
  | some len =>
      have within := ((find_crlf_iff text len).mp found).1.lt
      have cut : (text ++ more).take len = text.take len := List.take_append_of_le_length (by omega)
      simp only [processLineItem, found, find_crlf_append text found more,
        readLongLong_append text more (mem_of_find_crlf text found), cut]

theorem processBulkItem_append (decided : processBulkItem (find crlf) state cur text ≠ .more) :
    processBulkItem (find crlf) state cur (text ++ more) = processBulkItem (find crlf) state cur text := by
  cases found : find crlf text with
  | none => simp [processBulkItem, found] at decided
  | some line =>
      simp only [processBulkItem, found, find_crlf_append text found more,
        readLongLong_append text more (mem_of_find_crlf text found)] at decided ⊢
      cases number : readLongLong text with
      | none => rfl
      | some len =>
          simp only [number] at decided ⊢
          by_cases nil : len < 0
          · rw [if_pos nil, if_pos nil]
          rw [if_neg nil] at decided
          rw [if_neg nil, if_neg nil]
          by_cases small : len + 2 < 2 ^ 63
          · rw [if_pos small] at decided
            rw [if_pos small, if_pos small]
            by_cases whole : line + 2 + (len.toNat + 2) ≤ text.length
            · have cut : ((text ++ more).drop (line + 2)).take len.toNat = (text.drop (line + 2)).take len.toNat := by
                rw [List.drop_append_of_le_length (by omega),
                  List.take_append_of_le_length (by rw [List.length_drop]; omega)]
              rw [if_pos whole, if_pos (by rw [List.length_append]; omega), cut]
            · rw [if_neg whole] at decided
              exact absurd rfl decided
          · rw [if_neg small, if_neg small]

theorem processMultiBulkItem_append (decided : processMultiBulkItem (find crlf) state cur text ≠ .more) :
    processMultiBulkItem (find crlf) state cur (text ++ more) = processMultiBulkItem (find crlf) state cur text := by
  by_cases deep : state.rstack.length = 9
  · simp only [processMultiBulkItem, if_pos deep]
  cases found : find crlf text with
  | none => simp [processMultiBulkItem, deep, found] at decided
  | some len =>
      simp only [processMultiBulkItem, found, find_crlf_append text found more,
        readLongLong_append text more (mem_of_find_crlf text found)]

theorem nextItem_append (decided : nextItem state text ≠ .more) :
    nextItem state (text ++ more) = nextItem state text := by
  unfold nextItem at decided ⊢
  cases tasks : state.rstack with
  | nil => rfl
  | cons cur rstack =>
      simp only [tasks] at decided ⊢
      by_cases unread : cur.type < 0
      · rw [if_pos unread] at decided
        rw [if_pos unread, if_pos unread, processType_append state text more decided]
      rw [if_neg unread] at decided
      rw [if_neg unread, if_neg unread]
      unfold processTyped at decided ⊢
      split at decided
      · next line => rw [if_pos line, if_pos line, processLineItem_append state cur text more decided]
      · next line =>
          rw [if_neg line, if_neg line]
          split at decided
          · next bulk => rw [if_pos bulk, if_pos bulk, processBulkItem_append state cur text more decided]
          · next bulk =>
              rw [if_neg bulk, if_neg bulk]
              split at decided
              · next array => rw [if_pos array, if_pos array, processMultiBulkItem_append state cur text more decided]
              · next array => rw [if_neg array, if_neg array]

/-- What an item that was processed used, and that a reply that is complete is there. -/
structure Item.Used (text : Text) (after : Parse) (used : Nat) : Prop where
  positive : 0 < used
  within : used ≤ text.length
  complete : after.rstack = [] → ∃ reply, after.reply = some reply

theorem Item.Used.of_create {obj : ReplyObject} {used n : Nat} {after : Parse}
    (made : state.create obj used = .ok after n) (positive : 0 < used) (within : used ≤ text.length) :
    Item.Used text after n := by
  obtain ⟨rfl, reply⟩ := create_ok state made
  exact ⟨positive, within, fun _ => reply⟩

theorem typeOfByte_mem {c : UInt8} {type : Int} (known : typeOfByte c = some type) :
    type ∈ [replyError, replyStatus, replyInteger, replyString, replyArray] := by
  unfold typeOfByte at known
  split_ifs at known <;> obtain rfl := Option.some.inj known <;> decide

theorem typeOfByte_known {c : UInt8} {type : Int} (known : typeOfByte c = some type) : ¬type < 0 := by
  have all : ∀ type ∈ [replyError, replyStatus, replyInteger, replyString, replyArray], ¬type < 0 := by decide
  exact all type (typeOfByte_mem known)

theorem processType_ok {after : Parse} {used : Nat} (done : processType state text = .ok after used) :
    Item.Used text after used ∧ ∃ cur rstack, after.rstack = cur :: rstack ∧ ¬cur.type < 0 := by
  cases text with
  | nil => cases done
  | cons c text =>
      unfold processType at done
      cases tasks : state.rstack with
      | nil => simp [tasks] at done
      | cons cur rstack =>
          cases known : typeOfByte c with
          | none => simp [tasks, known] at done
          | some type =>
              simp only [tasks, known] at done
              obtain ⟨rfl, rfl⟩ := Item.ok.inj done
              exact ⟨⟨by decide, by simp, by simp⟩, { cur with type := type }, rstack, rfl, typeOfByte_known known⟩

theorem processTyped_ok {after : Parse} {used : Nat} (done : processTyped (find crlf) state cur text = .ok after used) :
    Item.Used text after used := by
  cases found : find crlf text with
  | none =>
      simp only [processTyped, processLineItem, processBulkItem, processMultiBulkItem, found] at done
      split_ifs at done
  | some len =>
      have within := ((find_crlf_iff text len).mp found).1.lt
      unfold processTyped at done
      split_ifs at done with line bulk array
      · simp only [processLineItem, found] at done
        split at done
        · cases number : readLongLong text with
          | none => simp [number] at done
          | some value =>
              simp only [number] at done
              exact .of_create state text done (by omega) (by omega)
        · exact .of_create state text done (by omega) (by omega)
      · simp only [processBulkItem, found] at done
        cases number : readLongLong text with
        | none => simp [number] at done
        | some value =>
            simp only [number] at done
            split_ifs at done
            · exact .of_create state text done (by omega) (by omega)
            · exact .of_create state text done (by omega) (by omega)
      · simp only [processMultiBulkItem, found] at done
        cases number : readLongLong text with
        | none =>
            simp only [number] at done
            split_ifs at done
        | some value =>
            simp only [number] at done
            split_ifs at done
            · exact .of_create state text done (by omega) (by omega)
            · split at done
              · obtain ⟨rfl, rfl⟩ := Item.ok.inj done
                exact ⟨by omega, by omega, by simp⟩
              · cases done
            · exact .of_create state text done (by omega) (by omega)

theorem nextItem_ok {after : Parse} {used : Nat} (done : nextItem state text = .ok after used) :
    Item.Used text after used := by
  unfold nextItem at done
  split at done
  · cases done
  · split at done
    · exact (processType_ok state text done).1
    · exact processTyped_ok state _ text done

end Items

theorem look_stable : Stable look where
  uses {state buffer after used message} seen := by
    unfold look at seen
    cases item : nextItem state buffer with
    | ok next count =>
        have used' := nextItem_ok state buffer item
        simp only [item, verdict] at seen
        split at seen <;> obtain ⟨-, rfl, -⟩ := Verdict.next.inj seen <;> exact ⟨used'.positive, used'.within⟩
    | _ => simp [item, verdict] at seen
  keeps state buffer more decided := by
    have goes : nextItem state buffer ≠ .more := fun more => decided (by rw [look, more, verdict])
    rw [look, nextItem_append state buffer more goes, look]

/-! ## The reader as the decoder -/

namespace Reader

variable (r : Reader)

def unread : Text := r.buf.drop r.pos

-- The reader when its loop ends, by what the decoder finds in what was not used.
def settle : Pulled UInt8 Parse ReplyObject Fault → Option Reader
  | .nothing state left =>
    some { r with pos := r.buf.length - left.length, rstack := state.rstack, reply := state.reply }
  | .message message _ left => some { r with pos := r.buf.length - left.length, rstack := [], reply := some message }
  | .failed (.error errstr) => some { err := some errstr }
  | .failed .undefined => none

theorem seekNewline_unread (small : r.buf.length ≤ 2 ^ 31) : seekNewline r.unread = find crlf r.unread :=
  seekNewline_eq r.unread (by rw [unread, List.length_drop]; omega)

theorem processTyped_seek (seek : Text → Option Nat) (state : Parse) (cur : ReadTask) (text : Text)
    (same : seek text = find crlf text) :
    processTyped seek state cur text = processTyped (find crlf) state cur text := by
  simp only [processTyped, processLineItem, processBulkItem, processMultiBulkItem, same]

-- An item whose type was read: what the loop does with it, and what the decoder does.
theorem processItem_typed {cur : ReadTask} {rstack : List ReadTask} (tasks : r.rstack = cur :: rstack)
    (typed : ¬cur.type < 0) (small : r.buf.length ≤ 2 ^ 31) :
    r.processItem = r.follow (nextItem r.parse r.unread) := by
  have parsed : r.parse.rstack = cur :: rstack := tasks
  simp only [processItem, nextItem, tasks, parsed, if_neg typed]
  rw [← processTyped_seek seekNewline _ _ _ (r.seekNewline_unread small)]
  rfl

def advance (state : Parse) (used : Nat) : Reader :=
  { r with pos := r.pos + used, rstack := state.rstack, reply := state.reply }

theorem unread_advance (state : Parse) (used : Nat) : (r.advance state used).unread = r.unread.drop used := by
  simp [unread, advance]

-- The type of an item is read, and then the item with it.
theorem processItem_untyped {cur : ReadTask} {rstack : List ReadTask} (tasks : r.rstack = cur :: rstack)
    (untyped : cur.type < 0) {state : Parse} {used : Nat} (read : nextItem r.parse r.unread = .ok state used) :
    r.processItem = (r.advance state used).processItem ∧
      ∃ cur rstack, state.rstack = cur :: rstack ∧ ¬cur.type < 0 := by
  have parsed : r.parse.rstack = cur :: rstack := tasks
  have type : processType r.parse r.unread = .ok state used := by
    simpa only [nextItem, parsed, if_pos untyped] using read
  obtain ⟨-, cur', rstack', tasks', typed⟩ := processType_ok _ _ type
  refine ⟨?_, cur', rstack', tasks', typed⟩
  rw [unread] at type
  simp only [processItem, tasks, if_pos untyped, type, follow, advance, tasks', if_neg typed]

theorem processItem_stopped {cur : ReadTask} {rstack : List ReadTask} (tasks : r.rstack = cur :: rstack)
    (small : r.buf.length ≤ 2 ^ 31) (stops : ∀ state used, nextItem r.parse r.unread ≠ .ok state used) :
    r.processItem = r.follow (nextItem r.parse r.unread) := by
  by_cases untyped : cur.type < 0
  · have parsed : r.parse.rstack = cur :: rstack := tasks
    have type : nextItem r.parse r.unread = processType r.parse (r.buf.drop r.pos) := by
      simp only [nextItem, parsed, if_pos untyped, unread]
    rw [type] at stops ⊢
    simp only [processItem, tasks, if_pos untyped]
    cases item : processType r.parse (r.buf.drop r.pos) with
    | ok state used => exact absurd item (stops state used)
    | _ => rfl
  · exact r.processItem_typed tasks untyped small

theorem processItems_done (fuel : Nat) (done : r.rstack = []) : processItems fuel r = some r := by
  cases fuel with
  | zero => rfl
  | succ fuel => rw [processItems, if_pos done]

theorem settle_nothing (within : r.pos ≤ r.buf.length) : r.settle (.nothing r.parse r.unread) = some r := by
  have pos : r.buf.length - r.unread.length = r.pos := by
    rw [unread, List.length_drop]
    omega
  rw [settle, pos]
  rfl

theorem settle_advance (state : Parse) (used : Nat) : (r.advance state used).settle = r.settle := rfl

theorem processItems_eq (fuel : Nat) (busy : r.rstack ≠ []) (within : r.pos ≤ r.buf.length)
    (small : r.buf.length ≤ 2 ^ 31) (enough : r.unread.length < fuel) :
    processItems fuel r = r.settle (pull look r.parse r.unread) := by
  generalize size : r.unread.length = n
  induction n using Nat.strongRecOn generalizing r fuel with
  | ind n ih =>
      obtain ⟨cur, rstack, tasks⟩ := List.exists_cons_of_ne_nil busy
      obtain ⟨fuel, rfl⟩ := Nat.exists_eq_succ_of_ne_zero (by omega : fuel ≠ 0)
      cases item : nextItem r.parse r.unread with
      | more =>
          have waits : look r.parse r.unread = .wait := by rw [look, item, verdict]
          have stopped := r.processItem_stopped tasks small (by simp [item])
          rw [pull_wait waits, settle_nothing r within, processItems, if_neg busy, stopped, item]
          rfl
      | error errstr =>
          have fails : look r.parse r.unread = .fail (.error (errstr.take 127)) := by rw [look, item, verdict]
          have stopped := r.processItem_stopped tasks small (by simp [item])
          rw [pull_fail fails, processItems, if_neg busy, stopped, item]
          rfl
      | undefined =>
          have fails : look r.parse r.unread = .fail .undefined := by rw [look, item, verdict]
          have stopped := r.processItem_stopped tasks small (by simp [item])
          rw [pull_fail fails, processItems, if_neg busy, stopped, item]
          rfl
      | ok state used =>
          have uses := nextItem_ok r.parse r.unread item
          have left : (r.advance state used).unread.length < n := by
            rw [unread_advance, List.length_drop, ← size]
            have positive := uses.positive
            have inside := uses.within
            omega
          have within' : (r.advance state used).pos ≤ (r.advance state used).buf.length := by
            have inside := uses.within
            rw [unread, List.length_drop] at inside
            simp only [advance]
            omega
          -- The decoder goes on behind an item that was no whole reply.
          have later (fuel : Nat) (more : state.rstack ≠ []) (enough : (r.advance state used).unread.length < fuel) :
              processItems fuel (r.advance state used) = r.settle (pull look r.parse r.unread) := by
            have seen : look r.parse r.unread = .next state used none := by rw [look, item, verdict, if_neg more]
            rw [ih _ left (r.advance state used) fuel more within' small enough rfl, settle_advance, unread_advance,
              pull_silent look_stable seen]
            rfl
          by_cases untyped : cur.type < 0
          · obtain ⟨same, cur', rstack', tasks', -⟩ := r.processItem_untyped tasks untyped item
            have more : state.rstack ≠ [] := by simp [tasks']
            have more' : (r.advance state used).rstack ≠ [] := more
            rw [← later (fuel + 1) more (by omega), processItems, processItems, if_neg busy, if_neg more', same]
          · have goes : r.processItem = some (true, r.advance state used) := by
              rw [r.processItem_typed tasks untyped small, item]
              rfl
            rw [processItems, if_neg busy, goes]
            by_cases done : state.rstack = []
            · obtain ⟨reply, complete⟩ := uses.complete done
              have seen : look r.parse r.unread = .next Parse.root used (some reply) := by
                rw [look, item, verdict, if_pos done, complete]
              have pos : r.buf.length - (r.unread.drop used).length = r.pos + used := by
                have inside := uses.within
                rw [unread, List.length_drop] at inside
                rw [unread, List.length_drop, List.length_drop]
                omega
              rw [pull_message seen, settle, pos]
              refine (processItems_done _ fuel done).trans ?_
              rw [advance, done, complete]
            · exact later fuel done (by omega)

theorem unread_discard (small : r.buf.length < 2 ^ 31) (within : r.pos ≤ r.buf.length) :
    r.discard.unread = r.unread := by
  unfold discard
  split
  · rw [toInt_eq _ (by omega) (by omega), sdsrange_drop _ _ small within]
    rfl
  · rfl

theorem pos_discard (within : r.pos ≤ r.buf.length) : r.discard.pos ≤ r.discard.buf.length := by
  unfold discard
  split
  · exact Nat.zero_le _
  · exact within

@[simp] theorem err_discard : r.discard.err = r.err := by
  unfold discard
  split <;> rfl

@[simp] theorem parse_discard : r.discard.parse = r.parse := by
  unfold discard
  split <;> rfl

@[simp] theorem rstack_discard : r.discard.rstack = r.rstack := congrArg Parse.rstack r.parse_discard

@[simp] theorem reply_discard : r.discard.reply = r.reply := congrArg Parse.reply r.parse_discard

/-- The decoder that a reader is. -/
structure Decodes (machine : Machine UInt8 Parse Fault) : Prop where
  sound : r.err = none
  failure : machine.failure = none
  within : r.pos ≤ r.buf.length
  state : machine.state = if r.rstack = [] then Parse.root else r.parse
  buffer : machine.buffer = r.unread
  clean : r.rstack = [] → r.reply = none
  rests : r.buf = [] → look machine.state [] = .wait

end Reader

-- A reader that fails is a decoder that failed.
def Represents : Option Reader → Machine UInt8 Parse Fault → Prop
  | none, machine => machine.failure = some .undefined
  | some r, machine =>
    (∃ errstr, r.err = some errstr ∧ machine.failure = some (.error errstr)) ∨ r.Decodes machine

def Reader.after (r : Option Reader) (op : Op UInt8) : Option Reader := (Reader.step r op).2

-- The buffer has a size that is an `int` when the reader is called.
def Small (r : Option Reader) (_ : Op UInt8) : Prop := ∀ reader ∈ r, reader.buf.length < 2 ^ 31

theorem look_message {state after : Parse} {buffer : Text} {used : Nat} {message : ReplyObject}
    (seen : look state buffer = .next after used (some message)) : after = Parse.root := by
  unfold look at seen
  cases item : nextItem state buffer with
  | ok next count =>
      simp only [item, verdict] at seen
      split at seen
      · exact (Verdict.next.inj seen).1.symm
      · cases (Verdict.next.inj seen).2.2
  | _ => simp [item, verdict] at seen

theorem rstack_of_wait {state : Parse} {buffer : Text} (waits : look state buffer = .wait) : state.rstack ≠ [] := by
  intro done
  simp [look, nextItem, done, verdict] at waits

theorem feed_step {r : Reader} {machine : Machine UInt8 Parse Fault} (decodes : r.Decodes machine) (symbols : Text) :
    (Reader.step (some r) (.feed symbols)).1 = (machine.step look (.feed symbols)).1 ∧
      Represents (Reader.step (some r) (.feed symbols)).2 (machine.step look (.feed symbols)).2 := by
  have fed : r.redisReaderFeed symbols = (true, { r with buf := r.buf ++ symbols }) := by
    simp [Reader.redisReaderFeed, decodes.sound]
  have unread : (r.buf ++ symbols).drop r.pos = r.unread ++ symbols := List.drop_append_of_le_length decodes.within
  have within : r.pos ≤ (r.buf ++ symbols).length := by
    rw [List.length_append]
    exact Nat.le_add_right_of_le decodes.within
  simp only [Reader.step, fed, Machine.step, decodes.failure, true_and]
  refine Or.inr ⟨decodes.sound, rfl, within, decodes.state, ?_, decodes.clean, ?_⟩
  · rw [decodes.buffer]
    exact unread.symm
  · intro empty
    exact decodes.rests (List.append_eq_nil_iff.mp empty).1

namespace Reader

variable {r : Reader} {machine : Machine UInt8 Parse Fault}

/-- The reader with its task of the root, which is the state of the decoder. -/
structure Begun (r begun : Reader) (machine : Machine UInt8 Parse Fault) : Prop where
  busy : begun.rstack ≠ []
  parse : begun.parse = machine.state
  unread : begun.unread = machine.buffer
  buf : begun.buf = r.buf
  within : begun.pos ≤ begun.buf.length
  sound : begun.err = none

theorem Decodes.begun (decodes : r.Decodes machine) : r.Begun r.pushRoot machine := by
  have state := decodes.state
  unfold pushRoot
  split
  · next idle =>
      rw [if_pos idle] at state
      refine ⟨by simp [Parse.root], ?_, decodes.buffer.symm, rfl, decodes.within, decodes.sound⟩
      rw [state]
      exact congrArg (Parse.mk Parse.root.rstack) (decodes.clean idle)
  · next busy =>
      rw [if_neg busy] at state
      exact ⟨busy, state.symm, decodes.buffer.symm, rfl, decodes.within, decodes.sound⟩

variable {begun : Reader}

theorem Begun.processItems (begun' : r.Begun begun machine) (small : r.buf.length < 2 ^ 31) :
    processItems (r.buf.length + 1) begun = begun.settle (pull look machine.state machine.buffer) := by
  rw [← begun'.parse, ← begun'.unread]
  refine processItems_eq begun _ begun'.busy begun'.within (by rw [begun'.buf]; omega) ?_
  rw [Reader.unread, List.length_drop, begun'.buf]
  omega

-- What is left when the loop ends is the end of the buffer.
theorem Begun.rest (begun' : r.Begun begun machine) {left : Text} (suffix : left <:+ machine.buffer) :
    begun.buf.drop (begun.buf.length - left.length) = left :=
  (List.suffix_iff_eq_drop.mp (suffix.trans (begun'.unread ▸ List.drop_suffix _ _))).symm

def ended (begun : Reader) (left : Text) (rstack : List ReadTask) (reply : Option ReplyObject) : Reader :=
  { begun with pos := begun.buf.length - left.length, rstack := rstack, reply := reply }

theorem Begun.ended (begun' : r.Begun begun machine) (small : r.buf.length < 2 ^ 31) {left : Text}
    (suffix : left <:+ machine.buffer) (rstack : List ReadTask) (reply : Option ReplyObject) :
    (begun.ended left rstack reply).discard.pos ≤ (begun.ended left rstack reply).discard.buf.length ∧
      (begun.ended left rstack reply).discard.unread = left := by
  have within : (begun.ended left rstack reply).pos ≤ (begun.ended left rstack reply).buf.length := Nat.sub_le _ _
  refine ⟨pos_discard _ within, ?_⟩
  rw [unread_discard _ (begun'.buf ▸ small) within]
  exact begun'.rest suffix

-- What the reader does with what its loop found.
theorem Begun.emit (begun' : r.Begun begun machine) (small : r.buf.length < 2 ^ 31) (idle : machine.failure = none) :
    ((begun.settle (pull look machine.state machine.buffer)).map Reader.emit).elim
        ((machine.step look .pull).1 = .failed .undefined ∧ (machine.step look .pull).2.failure = some .undefined)
        fun pair => pair.1 = (machine.step look .pull).1 ∧ Represents (some pair.2) (machine.step look .pull).2 := by
  have lasts := pull_lasts look_stable machine.state machine.buffer
  cases pulled : pull look machine.state machine.buffer with
  | nothing after left =>
      rw [pulled] at lasts
      obtain ⟨waits, suffix, -⟩ := lasts
      obtain ⟨within, unread⟩ := begun'.ended small suffix after.rstack after.reply
      have busy := rstack_of_wait waits
      have emitted : (begun.ended left after.rstack after.reply).emit =
          (.nothing, (begun.ended left after.rstack after.reply).discard) := by
        obtain ⟨cur, rstack, tasks⟩ := List.exists_cons_of_ne_nil busy
        simp [Reader.emit, Reader.ended, begun'.sound, tasks]
      change ((some (begun.ended left after.rstack after.reply)).map Reader.emit).elim _ _
      rw [Option.map_some, Option.elim_some, emitted]
      simp only [Machine.step, idle, pulled, true_and]
      refine Or.inr ⟨by simpa [Reader.ended] using begun'.sound, rfl, within, ?_, unread.symm, ?_, ?_⟩
      · rw [if_neg (by simpa [Reader.ended] using busy), parse_discard]
        rfl
      · intro done
        exact absurd (by simpa [Reader.ended] using done) busy
      · intro empty
        rw [Reader.unread, empty, List.drop_nil] at unread
        rwa [← unread] at waits
  | message message after left =>
      rw [pulled] at lasts
      obtain ⟨suffix, -, -⟩ := lasts
      obtain ⟨within, unread⟩ := begun'.ended small suffix [] (some message)
      obtain rfl := pull_home look_stable look_message pulled
      change ((some (begun.ended left [] (some message))).map Reader.emit).elim _ _
      have emitted : (begun.ended left [] (some message)).emit =
          (.message message, { (begun.ended left [] (some message)).discard with reply := none }) := by
        simp [Reader.emit, Reader.ended, begun'.sound]
      rw [Option.map_some, Option.elim_some, emitted]
      simp only [Machine.step, idle, pulled, true_and]
      refine Or.inr ⟨by simpa [Reader.ended] using begun'.sound, rfl, within, ?_, unread.symm, fun _ => rfl,
        fun _ => rfl⟩
      rw [if_pos (by simp [Reader.ended])]
  | failed err =>
      cases err with
      | undefined => simp [Reader.settle, Machine.step, idle, pulled]
      | error errstr =>
          simp only [Reader.settle, Option.map_some, Option.elim_some, Reader.emit, Machine.step, idle, pulled, true_and]
          exact Or.inl ⟨errstr, rfl, rfl⟩

end Reader

theorem getReply_step {r : Reader} {machine : Machine UInt8 Parse Fault} (decodes : r.Decodes machine)
    (small : r.buf.length < 2 ^ 31) :
    (Reader.step (some r) .pull).1 = (machine.step look .pull).1 ∧
      Represents (Reader.step (some r) .pull).2 (machine.step look .pull).2 := by
  by_cases empty : r.buf = []
  · have nothing : r.redisReaderGetReply = some (.nothing, r) := by
      simp [Reader.redisReaderGetReply, decodes.sound, empty]
    have waits : pull look machine.state machine.buffer = .nothing machine.state machine.buffer := by
      rw [decodes.buffer, Reader.unread, empty, List.drop_nil]
      exact pull_wait (decodes.rests empty)
    simp only [Reader.step, Option.bind_some, nothing, Machine.step, decodes.failure, waits, true_and]
    exact Or.inr ⟨decodes.sound, rfl, decodes.within, decodes.state, decodes.buffer, decodes.clean, decodes.rests⟩
  have emitted := decodes.begun.emit small decodes.failure
  have call : r.redisReaderGetReply =
      (r.pushRoot.settle (pull look machine.state machine.buffer)).map Reader.emit := by
    rw [← decodes.begun.processItems small, Reader.redisReaderGetReply, decodes.sound]
    exact if_neg empty
  rw [← call] at emitted
  cases got : r.redisReaderGetReply with
  | none =>
      rw [got] at emitted
      simp only [Reader.step, Option.bind_some, got]
      exact ⟨emitted.1.symm, emitted.2⟩
  | some pair =>
      rw [got] at emitted
      simp only [Reader.step, Option.bind_some, got]
      exact emitted

theorem represents_step (r : Option Reader) (machine : Machine UInt8 Parse Fault) (op : Op UInt8)
    (represents : Represents r machine) (small : Small r op) :
    (Reader.step r op).1 = (machine.step look op).1 ∧ Represents (Reader.step r op).2 (machine.step look op).2 := by
  cases r with
  | none =>
      have failed : machine.failure = some .undefined := represents
      cases op with
      | feed symbols => simp [Reader.step, Machine.step, failed, Represents]
      | pull => simp [Reader.step, Machine.step, failed, Represents]
  | some r =>
      rcases represents with ⟨errstr, err, failed⟩ | decodes
      · have same : Represents (some r) machine := Or.inl ⟨errstr, err, failed⟩
        cases op with
        | feed symbols => simpa [Reader.step, Reader.redisReaderFeed, Machine.step, err, failed] using same
        | pull => simpa [Reader.step, Reader.redisReaderGetReply, Machine.step, err, failed] using same
      · cases op with
        | feed symbols => exact feed_step decodes symbols
        | pull => exact getReply_step decodes (small r rfl)

/-! ## The size of the buffer -/

namespace Reader

variable {r after : Reader}

theorem follow_length {item : Item} {goes : Bool} (done : r.follow item = some (goes, after)) :
    after.buf.length ≤ r.buf.length := by
  cases item with
  | more =>
      obtain ⟨-, rfl⟩ := Prod.mk.inj (Option.some.inj done)
      exact Nat.le_refl _
  | ok state used =>
      obtain ⟨-, rfl⟩ := Prod.mk.inj (Option.some.inj done)
      exact Nat.le_refl _
  | error errstr =>
      obtain ⟨-, rfl⟩ := Prod.mk.inj (Option.some.inj done)
      exact Nat.zero_le _
  | undefined => cases done

theorem processItem_length {goes : Bool} (done : r.processItem = some (goes, after)) :
    after.buf.length ≤ r.buf.length := by
  unfold processItem at done
  split at done
  · cases done
  · split at done
    · split at done
      · next read =>
          split at done
          · cases done
          · exact Nat.le_trans (follow_length done) (follow_length read)
      · exact follow_length done
    · exact follow_length done

theorem processItems_length (fuel : Nat) (done : processItems fuel r = some after) :
    after.buf.length ≤ r.buf.length := by
  induction fuel generalizing r with
  | zero =>
      obtain rfl := Option.some.inj done
      exact Nat.le_refl _
  | succ fuel ih =>
      rw [processItems] at done
      split at done
      · obtain rfl := Option.some.inj done
        exact Nat.le_refl _
      · split at done
        · cases done
        · next item => exact Nat.le_trans (ih done) (processItem_length item)
        · next item =>
            obtain rfl := Option.some.inj done
            exact processItem_length item

theorem discard_length (r : Reader) : r.discard.buf.length ≤ r.buf.length := by
  unfold discard
  split
  · exact length_sdsrange _ _ _
  · exact Nat.le_refl _

theorem emit_length (r : Reader) : r.emit.2.buf.length ≤ r.buf.length := by
  unfold emit
  split
  · exact Nat.le_refl _
  · split <;> exact discard_length r

theorem getReply_length {result : Result ReplyObject Fault} (done : r.redisReaderGetReply = some (result, after)) :
    after.buf.length ≤ r.buf.length := by
  unfold redisReaderGetReply at done
  split at done
  · obtain ⟨-, rfl⟩ := Prod.mk.inj (Option.some.inj done)
    exact Nat.le_refl _
  · split at done
    · obtain ⟨-, rfl⟩ := Prod.mk.inj (Option.some.inj done)
      exact Nat.le_refl _
    · obtain ⟨ended, items, same⟩ := Option.map_eq_some_iff.mp done
      have begun : r.pushRoot.buf = r.buf := by
        unfold pushRoot
        split <;> rfl
      have shorter := processItems_length _ items
      have emitted := emit_length ended
      rw [same] at emitted
      rw [begun] at shorter
      exact Nat.le_trans emitted shorter

end Reader

theorem along_small_from (r : Option Reader) (ops : List (Op UInt8))
    (small : ∀ reader ∈ r, reader.buf.length + (fed ops).length < 2 ^ 31) : Runs.Along Reader.after Small r ops := by
  induction ops generalizing r with
  | nil => exact Runs.along_nil
  | cons op ops ih =>
      rw [Runs.along_cons]
      refine ⟨fun reader member => Nat.lt_of_le_of_lt (Nat.le_add_right _ _) (small reader member), ih _ ?_⟩
      intro after member
      cases r with
      | none => cases op <;> cases member
      | some r =>
          have room := small r rfl
          cases op with
          | feed symbols =>
              obtain rfl := Option.some.inj member
              simp only [fed, List.length_append] at room
              have grows : (r.redisReaderFeed symbols).2.buf.length ≤ r.buf.length + symbols.length := by
                unfold Reader.redisReaderFeed
                split <;> simp
              omega
          | pull =>
              simp only [fed] at room
              simp only [Reader.after, Reader.step, Option.bind_some] at member
              split at member
              · cases member
              · next call =>
                  obtain rfl := Option.some.inj member
                  have shorter := Reader.getReply_length call
                  omega

-- A stream of less than two gigabytes fits into the buffer at once.
theorem along_small (ops : List (Op UInt8)) (small : (fed ops).length < 2 ^ 31) :
    Runs.Along Reader.after Small (some {}) ops :=
  along_small_from _ ops fun reader member => by
    obtain rfl := Option.some.inj member
    simpa using small

/-! ## The reader as a queue -/

theorem represents_start : Represents (some {}) ⟨Parse.root, [], none⟩ :=
  Or.inr ⟨rfl, rfl, Nat.le_refl 0, rfl, rfl, fun _ => rfl, fun _ => rfl⟩

theorem reader_decodes (ops : List (Op UInt8)) (small : Runs.Along Reader.after Small (some {}) ops) :
    results Reader.step (some {}) ops = results (Machine.step look) ⟨Parse.root, [], none⟩ ops :=
  results_eq Represents Small represents_step _ _ represents_start ops small

/-- In whatever pieces the stream arrives, and whenever a reply is asked for: the reader hands out the replies of the
stream in their order, each once, and then the error that ends them. -/
theorem reader_queue (ops : List (Op UInt8)) (small : Runs.Along Reader.after Small (some {}) ops) :
    results Reader.step (some {}) ops = results (Queue.step look Parse.root) {} ops := by
  rw [reader_decodes ops small]
  exact machine_results look_stable Parse.root ops

def splitOps : List (Op UInt8) := [.feed (ascii "+OK\r"), .pull, .feed (ascii "\n:7\r\n"), .pull, .pull, .pull]

theorem reader_queue_split : results Reader.step (some {}) splitOps = results (Queue.step look Parse.root) {} splitOps :=
  reader_queue splitOps (along_small splitOps (by decide))

end FastoNoSQL.Redis
