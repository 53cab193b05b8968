import FastoNoSQL.Redis.ReaderQueue

set_option autoImplicit false

/-!
# Replies on the wire

What a server sends for a reply, and that the reader makes of it the object of
that reply, with every element of its arrays in its place.
-/

namespace FastoNoSQL.Redis

open Bytes Sds Framing RedisReply ReplyObject

/-! ## Replies and their objects -/

namespace ReplyObject

mutual

def forReply : Reply → ReplyObject
  | .status text => createStringObject replyStatus text
  | .error text => createStringObject replyError text
  | .integer value => createIntegerObject value
  | .nil => createNilObject
  | .string text => createStringObject replyString text
  | .array elements => node replyArray 0 [] (UInt64.ofInt elements.length) (forReplies elements)

def forReplies : List Reply → List (Option ReplyObject)
  | [] => []
  | reply :: replies => some (forReply reply) :: forReplies replies

end

theorem forReplies_eq_map (replies : List Reply) : forReplies replies = replies.map fun reply => some (forReply reply) := by
  induction replies with
  | nil => rfl
  | cons reply replies ih => rw [forReplies, ih, List.map_cons]

end ReplyObject

mutual

/-- The bytes are what a server may send for a reply, where arrays nest at most as deep as there is room. -/
def Encodes (room : Nat) : Reply → Text → Prop
  | .status text, bytes => ¬crlf <:+: text ∧ bytes = byte '+' :: (text ++ crlf)
  | .error text, bytes => ¬crlf <:+: text ∧ bytes = byte '-' :: (text ++ crlf)
  | .integer value, bytes => (value.natAbs : Int) < 2 ^ 63 ∧ bytes = byte ':' :: (intText value ++ crlf)
  | .nil, bytes => bytes = ascii "$-1\r\n" ∨ 0 < room ∧ bytes = ascii "*-1\r\n"
  | .string text, bytes =>
    text.length + 2 < 2 ^ 63 ∧ bytes = byte '$' :: (natText text.length ++ crlf ++ text ++ crlf)
  | .array elements, bytes =>
    0 < room ∧ elements.length < 2 ^ 31 ∧
      ∃ rest, bytes = byte '*' :: (natText elements.length ++ crlf ++ rest) ∧ EncodesAll (room - 1) elements rest

def EncodesAll (room : Nat) : List Reply → Text → Prop
  | [], bytes => bytes = []
  | reply :: replies, bytes =>
    ∃ front back, bytes = front ++ back ∧ Encodes room reply front ∧ EncodesAll room replies back

end

/-! ## Places -/

section Places

variable {obj : ReplyObject} {path : List Int} {reply : Option ReplyObject} {root : ReplyObject}

-- Whether there is a place does not depend on what is placed.
theorem place_other (placed : place obj path reply = some root) (other : ReplyObject) :
    ∃ root, place other path reply = some root := by
  induction path generalizing reply root with
  | nil => exact ⟨other, rfl⟩
  | cons idx path ih =>
      rcases reply with _ | ⟨type, integer, str, elements, element⟩
      · cases placed
      · rw [place] at placed ⊢
        split at placed
        · next array =>
            rw [if_pos array]
            cases slot : element[idx.toNat]? with
            | none => simp [slot] at placed
            | some slot' =>
                simp only [slot] at placed ⊢
                obtain ⟨inner, within, -⟩ := Option.map_eq_some_iff.mp placed
                obtain ⟨inner', within'⟩ := ih within
                exact ⟨_, by rw [within', Option.map_some]⟩
        · cases placed

-- A place in an object that was placed is a place in the reply.
theorem place_append (placed : place obj path reply = some root) (inner : ReplyObject) (idx : Int) :
    place inner (path ++ [idx]) (some root) = (place inner [idx] (some obj)).bind fun obj => place obj path reply := by
  induction path generalizing reply root with
  | nil =>
      obtain rfl := Option.some.inj placed
      cases made : place inner [idx] (some obj) <;> simp [made, place]
  | cons first path ih =>
      rcases reply with _ | ⟨type, integer, str, elements, element⟩
      · cases placed
      · rw [place] at placed
        split at placed
        · next array =>
            cases slot : element[first.toNat]? with
            | none => simp [slot] at placed
            | some slot' =>
                simp only [slot] at placed
                obtain ⟨within, found, rfl⟩ := Option.map_eq_some_iff.mp placed
                have there : first.toNat < element.length := (List.getElem?_eq_some_iff.mp slot).1
                rw [List.cons_append, place, if_pos array]
                simp only [List.getElem?_set_self there, ih found]
                cases made : place inner [idx] (some obj) with
                | none => rfl
                | some made' => simp [place, array, slot, List.set_set]
        · cases placed

theorem place_slot (integer : Int) (str : Text) (elements : UInt64) (element : List (Option ReplyObject)) (n : Nat)
    (there : n < element.length) (inner : ReplyObject) :
    place inner [(n : Int)] (some (node replyArray integer str elements element)) =
      some (node replyArray integer str elements (element.set n (some inner))) := by
  rw [place, if_pos ⟨rfl, Int.natCast_nonneg n⟩, Int.toNat_natCast, List.getElem?_eq_getElem there]
  rfl

end Places

/-! ## Lines -/

theorem find_crlf_line (text more : Text) (clean : ¬crlf <:+: text) : find crlf (text ++ crlf ++ more) = some text.length := by
  rw [find_crlf_iff]
  have ends : EndsLine (text ++ crlf ++ more) text.length := by
    rw [← crlf_prefix_iff, List.append_assoc, List.drop_left]
    exact List.prefix_append crlf more
  refine ⟨ends, fun m less early => ?_⟩
  rw [List.append_assoc, EndsLine, List.getElem?_append_left less] at early
  by_cases last : m + 1 = text.length
  · rw [last, List.getElem?_append_right (Nat.le_refl _), Nat.sub_self] at early
    have first : (crlf ++ more)[0]? = some 13 := rfl
    simp [first] at early
  · rw [List.getElem?_append_left (by omega)] at early
    exact clean (((crlf_prefix_iff text m).mpr early).isInfix.trans (List.drop_suffix m text).isInfix)

-- The decimal digits of a number that a `long long` holds.
theorem readDigits_chars (mult : Int) (chars : List Char) (v : Nat) (rest : Text)
    (digits : ∀ c ∈ chars, c.isDigit = true) (small : Nat.ofDigitChars 10 chars v < 2 ^ 63) :
    readDigits mult (chars.map byte ++ 13 :: rest) v = some (mult * Nat.ofDigitChars 10 chars v) := by
  induction chars generalizing v with
  | nil => simp [readDigits]
  | cons c chars ih =>
      obtain ⟨value, low, high⟩ := toNat_byte_of_digit c (digits c List.mem_cons_self)
      have digit : isDigit (byte c) = true := (isDigit_byte c (digits c List.mem_cons_self)).1
      have other : byte c ≠ 13 := by
        intro same
        rw [same] at digit
        revert digit
        decide
      have next : (v : Int) * 10 + ((byte c).toNat - 48) = ((10 * v + (c.toNat - '0'.toNat) : Nat) : Int) := by
        have zero : '0'.toNat = 48 := rfl
        rw [value, zero]
        omega
      rw [Nat.ofDigitChars_cons] at small ⊢
      have grows : 10 * v + (c.toNat - '0'.toNat) ≤ Nat.ofDigitChars 10 chars (10 * v + (c.toNat - '0'.toNat)) := by
        rw [Nat.ofDigitChars_eq_ofDigitChars_zero]
        exact Nat.le_add_right_of_le (Nat.le_mul_of_pos_left _ (Nat.pow_pos (by omega)))
      rw [List.map_cons, List.cons_append, readDigits, if_neg other, if_pos digit, next, if_pos (by omega),
        ih _ (fun c member => digits c (List.mem_cons_of_mem _ member)) small]

theorem readDigits_natText (mult : Int) (n : Nat) (rest : Text) (small : n < 2 ^ 63) :
    readDigits mult (natText n ++ 13 :: rest) 0 = some (mult * n) := by
  have digits : ∀ c ∈ Nat.toDigits 10 n, c.isDigit = true :=
    fun c member => Nat.isDigit_of_mem_toDigits (by omega) (by omega) member
  have whole := readDigits_chars mult (Nat.toDigits 10 n) 0 rest digits (by rwa [Nat.ofDigitChars_ten_toDigits])
  rwa [Nat.ofDigitChars_ten_toDigits] at whole

theorem natText_cons (n : Nat) : ∃ c rest, natText n = c :: rest ∧ c ≠ byte '-' ∧ c ≠ byte '+' := by
  obtain ⟨c, rest, shape⟩ := List.exists_cons_of_ne_nil (natText_ne_nil n)
  have digit : isDigit c = true := isDigit_of_mem_natText n c (by simp [shape])
  refine ⟨c, rest, shape, ?_, ?_⟩ <;> (rintro rfl; revert digit; decide)

theorem readLongLong_natText (n : Nat) (rest : Text) (small : n < 2 ^ 63) :
    readLongLong (natText n ++ crlf ++ rest) = some (n : Int) := by
  obtain ⟨c, digits, shape, minus, plus⟩ := natText_cons n
  have read := readDigits_natText 1 n (10 :: rest) small
  rw [Int.one_mul, shape] at read
  rw [List.append_assoc, shape, List.cons_append, readLongLong, if_neg minus, if_neg plus]
  exact read

theorem readLongLong_intText (value : Int) (rest : Text) (small : (value.natAbs : Int) < 2 ^ 63) :
    readLongLong (intText value ++ crlf ++ rest) = some value := by
  unfold intText
  split
  · next negative =>
      have read := readDigits_natText (-1) value.natAbs (10 :: rest) (by omega)
      have magnitude : -1 * (value.natAbs : Int) = value := by omega
      rw [magnitude] at read
      rw [List.append_assoc, List.cons_append, readLongLong, if_pos rfl]
      exact read
  · next positive =>
      have magnitude : (value.natAbs : Int) = value := by omega
      rw [readLongLong_natText _ _ (by omega), magnitude]

-- A number has no line end.
theorem crlf_not_within {text : Text} (clean : (13 : UInt8) ∉ text) : ¬crlf <:+: text :=
  fun inside => clean (inside.mem (by decide))

theorem cr_not_mem_intText (value : Int) : (13 : UInt8) ∉ intText value := by
  intro member
  rcases mem_intText value 13 member with digit | minus
  · revert digit
    decide
  · revert minus
    decide

theorem cr_not_mem_natText (n : Nat) : (13 : UInt8) ∉ natText n := by
  intro member
  have digit := isDigit_of_mem_natText n 13 member
  revert digit
  decide

/-! ## The reader on replies -/

-- The state behind an object that took its place, and the reply if it is complete.
def landed (rstack : List ReadTask) (root : ReplyObject) : Parse × Option ReplyObject :=
  if rstack = [] then (Parse.root, some root) else (⟨rstack, some root⟩, none)

theorem verdict_create {state : Parse} {obj root : ReplyObject} {rstack : List ReadTask} (used : Nat)
    (placed : place obj state.path state.reply = some root) (moves : moveToNextTask state.rstack = some rstack) :
    verdict (state.create obj used) = .next (landed rstack root).1 used (landed rstack root).2 := by
  rw [Parse.create, placed, moves, verdict, landed]
  split <;> rfl

-- Where the next task is does not depend on the type of the current one.
theorem moveToNextTask_task (cur other : ReadTask) (rstack : List ReadTask) (same : cur.idx = other.idx) :
    moveToNextTask (cur :: rstack) = moveToNextTask (other :: rstack) := by
  cases rstack with
  | nil => rfl
  | cons prv rstack => simp only [moveToNextTask, same]

theorem path_task (cur other : ReadTask) (rstack : List ReadTask) (reply : Option ReplyObject) (same : cur.idx = other.idx) :
    Parse.path ⟨cur :: rstack, reply⟩ = Parse.path ⟨other :: rstack, reply⟩ := by
  cases rstack with
  | nil => rfl
  | cons prv rstack => simp [Parse.path, same]

theorem path_push (cur prv : ReadTask) (rstack : List ReadTask) (reply other : Option ReplyObject) :
    Parse.path ⟨cur :: prv :: rstack, reply⟩ = Parse.path ⟨prv :: rstack, other⟩ ++ [cur.idx] := by
  simp [Parse.path]

/-- The current task is at the place of an object, and behind it come these tasks. -/
structure Awaits (idx : Int) (rstack : List ReadTask) (reply : Option ReplyObject) (obj root : ReplyObject)
    (next : List ReadTask) : Prop where
  placed : place obj (Parse.path ⟨{ idx := idx } :: rstack, reply⟩) reply = some root
  moves : moveToNextTask ({ idx := idx } :: rstack) = some next

section Reading

variable {idx : Int} {rstack next : List ReadTask} {reply : Option ReplyObject} {obj root : ReplyObject}

-- The type byte of an item.
theorem look_type (idx : Int) (rstack : List ReadTask) (reply : Option ReplyObject) {c : UInt8} {type : Int}
    (known : typeOfByte c = some type) (more : Text) :
    look ⟨{ idx := idx } :: rstack, reply⟩ ([c] ++ more) =
      .next ⟨{ type := type, idx := idx } :: rstack, reply⟩ [c].length none := by
  have untyped : ({ idx := idx } : ReadTask).type < 0 := Int.negSucc_lt_zero 0
  simp only [look, nextItem, if_pos untyped, List.singleton_append, processType, known, verdict]
  simp

theorem spans_type {c : UInt8} {type : Int} (known : typeOfByte c = some type) {bytes : Text} {after : Parse}
    {message : Option ReplyObject}
    (later : Spans look ⟨{ type := type, idx := idx } :: rstack, reply⟩ bytes after message) :
    Spans look ⟨{ idx := idx } :: rstack, reply⟩ (c :: bytes) after message :=
  .behind (.once (look_type idx rstack reply known)) later

theorem look_typed (cur : ReadTask) (rstack : List ReadTask) (reply : Option ReplyObject) (typed : 0 ≤ cur.type) (text : Text) :
    look ⟨cur :: rstack, reply⟩ text = verdict (processTyped (find crlf) ⟨cur :: rstack, reply⟩ cur text) := by
  simp only [look, nextItem, if_neg (Int.not_lt.mpr typed)]

-- An object that is made of the whole item.
theorem Awaits.spans (awaits : Awaits idx rstack reply obj root next) {c : UInt8} {type : Int}
    (known : typeOfByte c = some type) {bytes : Text}
    (item : ∀ more, processTyped (find crlf) ⟨{ type := type, idx := idx } :: rstack, reply⟩ { type := type, idx := idx }
      (bytes ++ more) = Parse.create ⟨{ type := type, idx := idx } :: rstack, reply⟩ obj bytes.length) :
    Spans look ⟨{ idx := idx } :: rstack, reply⟩ (c :: bytes) (landed next root).1 (landed next root).2 := by
  refine spans_type known (.once fun more => ?_)
  rw [look_typed _ _ _ (Int.not_lt.mp (typeOfByte_known known)), item]
  have path := path_task { type := type, idx := idx } { idx := idx } rstack reply rfl
  have moves := moveToNextTask_task { type := type, idx := idx } { idx := idx } rstack rfl
  exact verdict_create _ (by rw [path]; exact awaits.placed) (moves.trans awaits.moves)

section Items

variable (state : Parse) (idx : Int) (more : Text)

theorem processTyped_string (seek : Text → Option Nat) (cur : ReadTask) (text : Text) (type : cur.type = replyString) :
    processTyped seek state cur text = processBulkItem seek state cur text := by
  have other : ¬(replyString = replyError ∨ replyString = replyStatus ∨ replyString = replyInteger) := by decide
  rw [processTyped, type, if_neg other, if_pos rfl]

theorem processTyped_array (seek : Text → Option Nat) (cur : ReadTask) (text : Text) (type : cur.type = replyArray) :
    processTyped seek state cur text = processMultiBulkItem seek state cur text := by
  have other : ¬(replyArray = replyError ∨ replyArray = replyStatus ∨ replyArray = replyInteger) := by decide
  rw [processTyped, type, if_neg other, if_neg (by decide), if_pos rfl]

theorem length_crlf (text : Text) : (text ++ crlf).length = text.length + 2 := List.length_append

theorem text_item (type : Int) (line : type = replyError ∨ type = replyStatus) (text : Text) (clean : ¬crlf <:+: text) :
    processTyped (find crlf) state { type := type, idx := idx } (text ++ crlf ++ more) =
      state.create (createStringObject type text) (text ++ crlf).length := by
  have other : type ≠ replyInteger := by
    rcases line with rfl | rfl <;> decide
  rw [processTyped, if_pos (by tauto), processLineItem, find_crlf_line text more clean]
  simp only [if_neg other, List.append_assoc, List.take_left, length_crlf]

theorem integer_item (value : Int) (small : (value.natAbs : Int) < 2 ^ 63) :
    processTyped (find crlf) state { type := replyInteger, idx := idx } (intText value ++ crlf ++ more) =
      state.create (createIntegerObject value) (intText value ++ crlf).length := by
  rw [processTyped, if_pos (Or.inr (Or.inr rfl)), processLineItem,
    find_crlf_line _ more (crlf_not_within (cr_not_mem_intText value)), readLongLong_intText value more small]
  simp only [if_pos, length_crlf]

theorem bulk_item (text : Text) (small : text.length + 2 < 2 ^ 63) :
    processTyped (find crlf) state { type := replyString, idx := idx }
        (natText text.length ++ crlf ++ text ++ crlf ++ more) =
      state.create (createStringObject replyString text) (natText text.length ++ crlf ++ text ++ crlf).length := by
  have shape : natText text.length ++ crlf ++ text ++ crlf ++ more =
      natText text.length ++ crlf ++ (text ++ (crlf ++ more)) := by simp only [List.append_assoc]
  have length : (natText text.length ++ crlf ++ text ++ crlf).length =
      (natText text.length).length + 2 + (text.length + 2) := by
    simp only [List.append_assoc, List.length_append, show crlf.length = 2 from rfl]
    omega
  have room : (natText text.length).length + 2 + (text.length + 2) ≤
      (natText text.length ++ crlf ++ (text ++ (crlf ++ more))).length := by
    simp only [List.length_append, show crlf.length = 2 from rfl]
    omega
  have payload : (natText text.length ++ crlf ++ (text ++ (crlf ++ more))).drop ((natText text.length).length + 2) =
      text ++ (crlf ++ more) := by
    rw [← length_crlf, List.drop_left]
  rw [shape, processTyped_string _ _ _ _ rfl, processBulkItem,
    find_crlf_line _ _ (crlf_not_within (cr_not_mem_natText _)), readLongLong_natText _ _ (by omega)]
  simp only [Int.toNat_natCast]
  rw [if_neg (by omega), if_pos (by omega), if_pos room, payload, List.take_left, length]

theorem header_item (elements : Nat) (small : elements < 2 ^ 31) (rstack : List ReadTask) (reply : Option ReplyObject)
    (room : rstack.length < 8) :
    processTyped (find crlf) ⟨{ type := replyArray, idx := idx } :: rstack, reply⟩ { type := replyArray, idx := idx }
        (natText elements ++ crlf ++ more) =
      if 0 < elements then
        match place (createArrayObject elements) (Parse.path ⟨{ idx := idx } :: rstack, reply⟩) reply with
        | some reply =>
          .ok ⟨{ idx := 0 } :: { type := replyArray, elements := elements, idx := idx } :: rstack, some reply⟩
            (natText elements ++ crlf).length
        | none => .undefined
      else
        Parse.create ⟨{ type := replyArray, idx := idx } :: rstack, reply⟩ (createArrayObject 0)
          (natText elements ++ crlf).length := by
  have shallow : ¬(({ type := replyArray, idx := idx } : ReadTask) :: rstack).length = 9 := by
    rw [List.length_cons]
    omega
  have path := path_task { type := replyArray, idx := idx } { idx := idx } rstack reply rfl
  rw [processTyped_array _ _ _ _ rfl, processMultiBulkItem, if_neg shallow,
    find_crlf_line _ _ (crlf_not_within (cr_not_mem_natText _)), readLongLong_natText _ _ (by omega)]
  simp only [toInt_eq elements (by omega) (by omega), length_crlf, List.tail_cons, path]
  rw [if_neg (by omega)]
  by_cases several : 0 < elements
  · rw [if_pos (by omega)]
    exact (if_pos several).symm
  · have zero : elements = 0 := by omega
    rw [if_neg (by omega), if_neg several, zero]
    rfl

theorem nil_item :
    processTyped (find crlf) state { type := replyString, idx := idx } (intText (-1) ++ crlf ++ more) =
      state.create createNilObject (intText (-1) ++ crlf).length := by
  rw [processTyped_string _ _ _ _ rfl, processBulkItem, find_crlf_line _ _ (crlf_not_within (cr_not_mem_intText _)),
    readLongLong_intText _ _ (by decide)]
  simp only [if_pos (by decide : (-1 : Int) < 0), length_crlf]

theorem nil_array_item (rstack : List ReadTask) (reply : Option ReplyObject) (room : rstack.length < 8) :
    processTyped (find crlf) ⟨{ type := replyArray, idx := idx } :: rstack, reply⟩ { type := replyArray, idx := idx }
        (intText (-1) ++ crlf ++ more) =
      Parse.create ⟨{ type := replyArray, idx := idx } :: rstack, reply⟩ createNilObject
        (intText (-1) ++ crlf).length := by
  have shallow : ¬(({ type := replyArray, idx := idx } : ReadTask) :: rstack).length = 9 := by
    rw [List.length_cons]
    omega
  rw [processTyped_array _ _ _ _ rfl, processMultiBulkItem, if_neg shallow,
    find_crlf_line _ _ (crlf_not_within (cr_not_mem_intText _)), readLongLong_intText _ _ (by decide)]
  simp only [if_true, length_crlf]

end Items

-- The header of an array that has elements: they are awaited from the first on.
theorem spans_header (elements : Nat) (some' : 0 < elements) (small : elements < 2 ^ 31) (room : rstack.length < 8)
    (placed : place (createArrayObject elements) (Parse.path ⟨{ idx := idx } :: rstack, reply⟩) reply = some root)
    {rest : Text} {after : Parse} {message : Option ReplyObject}
    (later : Spans look ⟨{ idx := 0 } :: { type := replyArray, elements := elements, idx := idx } :: rstack, some root⟩
      rest after message) :
    Spans look ⟨{ idx := idx } :: rstack, reply⟩ (byte '*' :: (natText elements ++ crlf ++ rest)) after message := by
  refine spans_type rfl (.behind (.once fun more => ?_) later)
  rw [look_typed _ _ _ (by decide : (0 : Int) ≤ replyArray), header_item idx more elements small rstack reply room,
    if_pos some', placed]
  rfl

theorem set_next (done : List (Option ReplyObject)) (obj : ReplyObject) (count : Nat) :
    (done ++ List.replicate (count + 1) none).set done.length (some obj) =
      done ++ [some obj] ++ List.replicate count none := by
  rw [List.set_append_right _ _ (Nat.le_refl _), Nat.sub_self, List.replicate_succ, List.set_cons_zero, List.append_assoc,
    List.singleton_append]

def arrayOf (total : Nat) (element : List (Option ReplyObject)) : ReplyObject :=
  node replyArray 0 [] (UInt64.ofInt total) element

theorem createArrayObject_natCast (total : Nat) :
    createArrayObject total = arrayOf total (List.replicate total none) := by
  rw [createArrayObject, arrayOf, Int.toNat_natCast]

-- An element is awaited by the array whose first elements are there.
theorem awaits_element (total : Nat) (done : List (Option ReplyObject)) (count : Nat)
    (size : total = done.length + (count + 1)) (partial' : ReplyObject) (obj root : ReplyObject)
    (placed : place (arrayOf total (done ++ List.replicate (count + 1) none))
      (Parse.path ⟨{ idx := idx } :: rstack, reply⟩) reply = some partial')
    (filled : place (arrayOf total (done ++ [some obj] ++ List.replicate count none))
      (Parse.path ⟨{ idx := idx } :: rstack, reply⟩) reply = some root)
    (moves : moveToNextTask ({ idx := idx } :: rstack) = some next) :
    Awaits done.length ({ type := replyArray, elements := total, idx := idx } :: rstack) (some partial') obj root
      (if count = 0 then next
        else { idx := done.length + 1 } :: { type := replyArray, elements := total, idx := idx } :: rstack) where
  placed := by
    have path := path_task { type := replyArray, elements := total, idx := idx } { idx := idx } rstack reply rfl
    rw [path_push _ _ _ _ reply, path, place_append placed, arrayOf,
      place_slot _ _ _ _ _ (by simp), set_next]
    exact filled
  moves := by
    have outer := moveToNextTask_task { type := replyArray, elements := total, idx := idx } { idx := idx } rstack rfl
    rw [moveToNextTask, if_pos rfl]
    by_cases last : count = 0
    · rw [if_pos (by simp only; omega), if_pos last, outer, moves]
    · rw [if_neg (by simp only; omega), if_pos (by simp only; omega), if_neg last]

mutual

theorem spans_reply : ∀ (message : Reply) {room : Nat} {idx : Int} {rstack next : List ReadTask}
    {reply : Option ReplyObject} {root : ReplyObject} {bytes : Text}, Encodes room message bytes →
    rstack.length + room = 8 → Awaits idx rstack reply (forReply message) root next →
    Spans look ⟨{ idx := idx } :: rstack, reply⟩ bytes (landed next root).1 (landed next root).2
  | .status text, _, _, _, _, _, _, _, encodes, _, awaits => by
      rw [Encodes] at encodes
      obtain ⟨clean, rfl⟩ := encodes
      exact awaits.spans rfl fun more => text_item _ _ more _ (Or.inr rfl) text clean
  | .error text, _, _, _, _, _, _, _, encodes, _, awaits => by
      rw [Encodes] at encodes
      obtain ⟨clean, rfl⟩ := encodes
      exact awaits.spans rfl fun more => text_item _ _ more _ (Or.inl rfl) text clean
  | .integer value, _, _, _, _, _, _, _, encodes, _, awaits => by
      rw [Encodes] at encodes
      obtain ⟨small, rfl⟩ := encodes
      exact awaits.spans rfl fun more => integer_item _ _ more value small
  | .nil, _, _, _, _, _, _, _, encodes, depth, awaits => by
      rw [Encodes] at encodes
      rcases encodes with rfl | ⟨room, rfl⟩
      · exact awaits.spans rfl fun more => nil_item _ _ more
      · exact awaits.spans rfl fun more => nil_array_item _ more _ _ (by omega)
  | .string text, _, _, _, _, _, _, _, encodes, _, awaits => by
      rw [Encodes] at encodes
      obtain ⟨small, rfl⟩ := encodes
      exact awaits.spans rfl fun more => bulk_item _ _ more text small
  | .array elements, room, idx, rstack, next, reply, root, _, encodes, depth, awaits => by
      rw [Encodes] at encodes
      obtain ⟨shallow, small, rest, rfl, each⟩ := encodes
      have whole := awaits.placed
      rw [forReply] at whole
      by_cases several : elements = []
      · subst several
        rw [EncodesAll] at each
        subst each
        have awaits : Awaits idx rstack reply (createArrayObject 0) root next := awaits
        rw [List.append_nil]
        refine awaits.spans rfl fun more => ?_
        rw [header_item idx more _ small rstack reply (by omega), if_neg (by simp)]
      · obtain ⟨begun, placed⟩ := place_other whole (createArrayObject elements.length)
        refine spans_header elements.length (List.length_pos_iff.mpr several) small (by omega) placed ?_
        rw [createArrayObject_natCast] at placed
        have depth : (({ type := replyArray, elements := (elements.length : Int), idx := idx } : ReadTask) ::
            rstack).length + (room - 1) = 8 := by
          rw [List.length_cons]
          omega
        have size : elements.length = ([] : List (Option ReplyObject)).length + elements.length := by simp
        exact spans_elements elements several each depth size placed whole awaits.moves

theorem spans_elements : ∀ (elements : List Reply), elements ≠ [] → ∀ {room : Nat} {idx : Int}
    {rstack next : List ReadTask} {reply : Option ReplyObject} {partial' root : ReplyObject} {bytes : Text}
    {total : Nat} {done : List (Option ReplyObject)}, EncodesAll room elements bytes →
    ({ type := replyArray, elements := total, idx := idx } :: rstack : List ReadTask).length + room = 8 →
    total = done.length + elements.length →
    place (arrayOf total (done ++ List.replicate elements.length none))
      (Parse.path ⟨{ idx := idx } :: rstack, reply⟩) reply = some partial' →
    place (arrayOf total (done ++ forReplies elements))
      (Parse.path ⟨{ idx := idx } :: rstack, reply⟩) reply = some root →
    moveToNextTask ({ idx := idx } :: rstack) = some next →
    Spans look ⟨{ idx := done.length } :: { type := replyArray, elements := total, idx := idx } :: rstack,
      some partial'⟩ bytes (landed next root).1 (landed next root).2
  | [], several, _, _, _, _, _, _, _, _, _, _, _, _, _, _, _, _ => absurd rfl several
  | message :: elements, _, room, idx, rstack, next, reply, partial', root, _, total, done, each, depth, size, placed,
      filled, moves => by
      rw [EncodesAll] at each
      obtain ⟨front, back, rfl, first, rest⟩ := each
      rw [List.length_cons] at size placed
      obtain ⟨step, stepped⟩ := place_other placed
        (arrayOf total (done ++ [some (forReply message)] ++ List.replicate elements.length none))
      have awaits := awaits_element total done elements.length size partial' (forReply message) step placed stepped moves
      have whole := spans_reply message first depth awaits
      have index : ((done ++ [some (forReply message)]).length : Int) = done.length + 1 := by simp
      by_cases last : elements = []
      · subst last
        rw [EncodesAll] at rest
        rw [forReplies, forReplies] at filled
        obtain rfl : step = root := Option.some.inj (stepped.symm.trans (by simpa using filled))
        rw [rest, List.append_nil]
        simpa using whole
      · have count : elements.length ≠ 0 := fun zero => last (List.length_eq_zero_iff.mp zero)
        rw [if_neg count, landed, if_neg (by simp), ← index] at whole
        refine .behind whole (spans_elements elements last rest depth (by simp; omega) stepped ?_ moves)
        rw [forReplies] at filled
        simpa using filled

end

end Reading

theorem spans_root (message : Reply) (bytes : Text) (encodes : Encodes 8 message bytes) :
    Spans look Parse.root bytes Parse.root (some (forReply message)) :=
  have awaits : Awaits (-1) [] none (forReply message) (forReply message) [] := ⟨rfl, rfl⟩
  spans_reply message encodes rfl awaits

/-! ## The replies that are handed out -/

namespace ReplyObject

mutual

-- What the core reads of a reply: none where it would follow a NULL or go past the elements.
def read : ReplyObject → Option RedisReply
  | node type integer str elements element =>
    if type = replyArray then
      if elements.toNat = element.length then (readSlots element).map (RedisReply.node type integer str) else none
    else some (RedisReply.node type integer str [])

def readSlots : List (Option ReplyObject) → Option (List RedisReply)
  | [] => some []
  | none :: _ => none
  | some obj :: element => do
    let reply ← read obj
    let replies ← readSlots element
    return reply :: replies

end

end ReplyObject

mutual

theorem read_forReply : ∀ (reply : Reply) {room : Nat} {bytes : Text}, Encodes room reply bytes →
    (forReply reply).read = some (RedisReply.ofReply reply)
  | .status text, _, _, _ => rfl
  | .error text, _, _, _ => rfl
  | .integer value, _, _, _ => rfl
  | .nil, _, _, _ => rfl
  | .string text, _, _, _ => rfl
  | .array elements, _, _, encodes => by
      rw [Encodes] at encodes
      obtain ⟨-, small, rest, -, each⟩ := encodes
      have count : (UInt64.ofInt elements.length).toNat = (forReplies elements).length := by
        have whole : ((elements.length : Int) % 2 ^ 64).toNat = elements.length := by omega
        rw [forReplies_eq_map, List.length_map, UInt64.ofInt, whole, UInt64.toNat_ofNat']
        exact Nat.mod_eq_of_lt (by omega)
      rw [forReply, ReplyObject.read, if_pos rfl, if_pos count, readSlots_forReplies elements each]
      rfl

theorem readSlots_forReplies : ∀ (replies : List Reply) {room : Nat} {bytes : Text}, EncodesAll room replies bytes →
    readSlots (forReplies replies) = some (RedisReply.ofReplies replies)
  | [], _, _, _ => rfl
  | reply :: replies, _, _, each => by
      rw [EncodesAll] at each
      obtain ⟨front, back, -, first, rest⟩ := each
      rw [forReplies, readSlots, read_forReply reply first, readSlots_forReplies replies rest]
      rfl

end

-- The value that the core makes of a reply that was handed out.
def valueFromObject (lib : Common) (obj : ReplyObject) : Option (Except ErrorValue Value) :=
  obj.read.map (RedisReply.valueFromReplay lib Value.integer)

/-- Whatever the server sends for its replies, in whatever pieces it arrives and whenever the reader is asked: each
reply is handed out when the last of its bytes is there, in order, and its value is that of the reply. -/
theorem reader_delivers (lib : Common) (sent : List (Text × Reply)) (each : ∀ pair ∈ sent, Encodes 8 pair.2 pair.1)
    (ops : List (Op UInt8)) (small : Runs.Along Reader.after Small (some {}) ops)
    (arrives : fed ops <+: sent.flatMap Prod.fst) :
    results Reader.step (some {}) ops =
        results (Delivery.step (sent.map fun pair => (pair.1, forReply pair.2))) {} ops ∧
      ∀ pair ∈ sent, valueFromObject lib (forReply pair.2) = some (Redis.valueFromReplay pair.2) := by
  constructor
  · have spans : ∀ pair ∈ sent.map fun pair => (pair.1, forReply pair.2),
        Spans look Parse.root pair.1 Parse.root (some pair.2) := by
      intro pair member
      obtain ⟨source, from', rfl⟩ := List.mem_map.mp member
      exact spans_root source.2 source.1 (each source from')
    have symbols : sentSymbols (sent.map fun pair => (pair.1, forReply pair.2)) = sent.flatMap Prod.fst := by
      rw [sentSymbols, List.flatMap_map]
    rw [reader_queue ops small]
    exact queue_delivers _ look_stable Parse.root spans rfl [] 0 ops (by rwa [List.nil_append, symbols])
  · intro pair member
    rw [valueFromObject, read_forReply pair.2 (each pair member), Option.map_some, RedisReply.valueFromReplay_ofReply]

def pairSent : List (Text × Reply) :=
  [(ascii "+OK\r\n", .status (ascii "OK")), (ascii "*2\r\n$1\r\na\r\n$-1\r\n", .array [.string (ascii "a"), .nil])]

def pairOps : List (Op UInt8) :=
  [.feed (ascii "+OK\r\n*2\r\n$1"), .pull, .pull, .feed (ascii "\r\na\r\n$-1\r\n"), .pull]

theorem pairSent_encodes : ∀ pair ∈ pairSent, Encodes 8 pair.2 pair.1 := by
  intro pair member
  rcases List.mem_cons.mp member with rfl | member
  · rw [Encodes]
    decide
  · obtain rfl := List.mem_singleton.mp member
    simp only [Encodes, EncodesAll]
    refine ⟨by decide, by decide, ascii "$1\r\na\r\n$-1\r\n", by decide, ascii "$1\r\na\r\n", ascii "$-1\r\n", by decide,
      by decide, ascii "$-1\r\n", [], by decide, Or.inl rfl, rfl⟩

theorem reader_delivers_pair :
    results Reader.step (some {}) pairOps =
        results (Delivery.step (pairSent.map fun pair => (pair.1, forReply pair.2))) {} pairOps ∧
      ∀ pair ∈ pairSent, valueFromObject Common.std (forReply pair.2) = some (Redis.valueFromReplay pair.2) :=
  reader_delivers Common.std pairSent pairSent_encodes pairOps (along_small pairOps (by decide)) (by decide)

end FastoNoSQL.Redis
