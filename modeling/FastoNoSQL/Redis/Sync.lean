import FastoNoSQL.Transport
import FastoNoSQL.Types
import Mathlib.Algebra.Group.Int.Defs

set_option autoImplicit false

/-!
# Transfers of a payload

`SendSync`, the payload loop of `SlaveMode` and `GetRDB` of `core/redis/db_connection.cpp`, which
read from the connection with `redisReadToBuffer` of hiredis.
-/

namespace FastoNoSQL.Redis.Sync

open Bytes Transport

/-- `strtoull(text, NULL, 10)`. -/
def strtoull (text : Text) : Nat :=
  let text := text.dropWhile isspace
  let negative := text.head? = some (byte '-')
  let value := readNat ((if negative ∨ text.head? = some (byte '+') then text.tail else text).takeWhile isDigit)
  if 2 ^ 64 ≤ value then 2 ^ 64 - 1 else if negative then (2 ^ 64 - value) % 2 ^ 64 else value

/-- What `redisReadToBuffer` stores in `*nread`: a call that was interrupted or would block counts as one that
read nothing, and `-1` is an error, so a status of an SSH channel is below that. -/
def nread : Received UInt8 → Int
  | .data bytes => bytes.length
  | .status code => -(code + 2)

def symbols : Received UInt8 → Text
  | .data bytes => bytes
  | .status _ => []

-- `payload -= nread`, with an `unsigned long long` on the left.
def subtract (payload : Nat) (nread : Int) : Nat := ((payload - nread) % 2 ^ 64).toNat

/-- What a transfer meets besides the stream: the memory the header is read into and the memory behind the
bytes of a read, and what the calls for the file return, `write` by its number and its size. -/
structure Machine where
  connected : Bool
  sent : Bool
  cells : Nat → UInt8
  spill : Text
  strerror : Text
  opens : Bool
  write : Nat → Nat → Option Nat

def lineFeed : UInt8 := 10

section Functions

variable (lib : Common) (machine : Machine)

def headerError : ErrorValue := makeErrorValue "Error reading bulk length while SYNCing"

/-- `SendSync`. -/
def sendSync (stream : Text) (reads : List Read) : Outcome UInt8 ErrorValue Nat :=
  if !machine.sent then .error (makeErrorValue "Error writing to master")
  else
    (readLine 4096 lineFeed headerError [] machine.cells stream reads).andThen fun buf left reads =>
      if buf.head? = some (byte '-') then .error (printedError lib "SYNC with master failed: %s" (cString buf))
      else .done (strtoull buf.tail) left reads

def readError : ErrorValue := makeErrorValue "Error reading RDB payload while SYNCing"

-- The loop body of `SlaveMode` after a read.
def slaveModeStep (payload : Nat) (_ : Unit) (received : Received UInt8) : Except ErrorValue (Nat × Unit) :=
  .ok (subtract payload (nread received), ())

/-- `SlaveMode` up to the loop that reads replies. -/
def slaveMode (stream : Text) (reads : List Read) : Outcome UInt8 ErrorValue Unit :=
  if !machine.connected then .error (makeErrorValue "Not connected")
  else
    (sendSync lib machine stream reads).andThen fun payload left reads =>
      untilZero 1024 (fun _ => readError) slaveModeStep payload () left reads

/-- Where the payload goes: the elements of the result array, or a file with the number of its writes and
what they wrote. -/
inductive Sink where
  | array (elements : List Text)
  | file (writes : Nat) (written : Text)
deriving DecidableEq

def Sink.bytes : Sink → Text
  | .array elements => elements.flatten
  | .file _ written => written

-- What a file holds that held `old` before its first bytes were written over.
def fileAfter (old written : Text) : Text := written ++ old.drop written.length

/-- `appendString(buf)` takes a C string and counts as no bytes written; `write` may write less than it is
given, and its size is unsigned. -/
def Sink.put (received : Received UInt8) : Sink → Int × Sink
  | .array elements => (0, .array (elements ++ [cString (symbols received ++ machine.spill)]))
  | .file writes written =>
    let size := (nread received % 2 ^ 64).toNat
    match machine.write writes size with
    | none => (-1, .file (writes + 1) written)
    | some n =>
      let n := min n size
      (n, .file (writes + 1) (written ++ (symbols received ++ machine.spill).take n))

-- The loop body of `GetRDB` after a read.
def getRDBStep (payload : Nat) (sink : Sink) (received : Received UInt8) :
    Except (ErrorValue × Option Sink) (Nat × Sink) :=
  if nread received = 0 then .ok (payload, sink)
  else
    let (nwritten, sink) := sink.put machine received
    if nwritten ≠ nread received then
      .error (printedError lib "Error writing data to file: %s" machine.strerror, some sink)
    else .ok (subtract payload (nread received), sink)

/-- `GetRDB`; an error comes with what the sink has by then. -/
def getRDB (rdbFilename stream : Text) (reads : List Read) : Outcome UInt8 (ErrorValue × Option Sink) Sink :=
  let transfer (sink : Sink) (payload : Nat) (left : Text) (reads : List Read) :=
    untilZero 4096 (fun sink => (readError, some sink)) (getRDBStep lib machine) payload sink left reads
  if !machine.connected then .error (makeErrorValue "Not connected", none)
  else
    ((sendSync lib machine stream reads).mapError fun err => (err, none)).andThen fun payload left reads =>
      if rdbFilename = ascii "-" then transfer (.array []) payload left reads
      else if !machine.opens then
        .error (⟨lib.memSPrintf (ascii "Error opening '%s': %s") [.s rdbFilename, .s machine.strerror], true⟩, none)
      else transfer (.file 0 []) payload left reads

end Functions

/-! ## The header -/

theorem isspace_digit (c : UInt8) (digit : isDigit c = true) : isspace c = false := by
  have zero : (byte '0').toNat = 48 := rfl
  have blank : (byte ' ').toNat = 32 := rfl
  simp only [isDigit, Bool.and_eq_true, decide_eq_true_eq, UInt8.le_iff_toNat_le, zero] at digit
  simp only [isspace, Bool.or_eq_false_iff, decide_eq_false_iff_not, Bool.and_eq_false_iff, UInt8.le_iff_toNat_le,
    ← UInt8.toNat_inj, blank]
  have thirteen : (13 : UInt8).toNat = 13 := rfl
  omega

theorem strtoull_decimal (digits rest : Text) (decimal : Decimal digits) (ends : ∀ c ∈ rest.head?, isDigit c = false) :
    strtoull (digits ++ rest) = min (readNat digits) (2 ^ 64 - 1) := by
  obtain ⟨some_, all⟩ := decimal
  obtain ⟨c, tail, rfl⟩ := List.exists_cons_of_ne_nil some_
  have digit := all c (by simp)
  have noSpace := isspace_digit c digit
  have noMinus : c ≠ byte '-' := by
    rintro rfl
    revert digit
    decide
  have noPlus : c ≠ byte '+' := by
    rintro rfl
    revert digit
    decide
  have start : ((c :: tail) ++ rest).dropWhile isspace = (c :: tail) ++ rest := by
    rw [List.cons_append, List.dropWhile_cons_of_neg (by simp [noSpace])]
  have cut : ((c :: tail) ++ rest).takeWhile isDigit = c :: tail := by
    rw [List.takeWhile_append_of_pos all]
    cases rest with
    | nil => simp
    | cons next rest => rw [List.takeWhile_cons_of_neg (by simp [ends next (by simp)]), List.append_nil]
  simp only [strtoull, start]
  rw [List.cons_append] at cut ⊢
  simp only [List.head?_cons, Option.some.injEq, noMinus, noPlus, or_self, if_false, cut]
  split <;> omega

-- The line a stream begins with after its leading line breaks, and the rest from its line break on.
def header (stream : Text) : Text × Text :=
  let text := stream.dropWhile (· = lineFeed)
  (text.takeWhile (· ≠ lineFeed), text.dropWhile (· ≠ lineFeed))

-- The line and its line break fit in the buffer; without a line break the line is never complete.
def Fits (line after : Text) : Prop := line.length < 4096 ∨ (after = [] ∧ line.length ≤ 4096)

instance (line after : Text) : Decidable (Fits line after) := inferInstanceAs (Decidable (_ ∨ _))

theorem head_dropWhile (p : UInt8 → Bool) (text : Text) (c : UInt8) (first : c ∈ (text.dropWhile p).head?) :
    p c = false := by
  have found := List.head?_dropWhile_not p text
  rw [Option.mem_def.mp first] at found
  simpa using found

theorem header_spec (stream : Text) :
    ∃ breaks, stream = List.replicate breaks lineFeed ++ ((header stream).1 ++ (header stream).2) ∧
      lineFeed ∉ (header stream).1 ∧ ((header stream).1 = [] → (header stream).2 = []) ∧
      ∀ c ∈ (header stream).2.head?, c = lineFeed := by
  refine ⟨(stream.takeWhile (· = lineFeed)).length, ?_, ?_, ?_, ?_⟩
  · have same : stream.takeWhile (· = lineFeed) = List.replicate (stream.takeWhile (· = lineFeed)).length lineFeed := by
      rw [List.eq_replicate_iff]
      exact ⟨rfl, fun c member => by simpa using List.mem_takeWhile_imp member⟩
    rw [← same, header, List.takeWhile_append_dropWhile, List.takeWhile_append_dropWhile]
  · intro member
    simpa using List.mem_takeWhile_imp member
  · intro empty
    cases text : stream.dropWhile (· = lineFeed) with
    | nil => simp [header, text]
    | cons c rest =>
        have other : c ≠ lineFeed := by
          simpa using head_dropWhile (· = lineFeed) stream c (by simp [text])
        simp [header, text, other] at empty
  · intro c first
    simpa using head_dropWhile (· ≠ lineFeed) _ c first

theorem header_of (breaks : Nat) (line after : Text) (clean : lineFeed ∉ line) (some_ : line ≠ [])
    (ends : ∀ c ∈ after.head?, c = lineFeed) :
    header (List.replicate breaks lineFeed ++ (line ++ after)) = (line, after) := by
  have other : ∀ c ∈ line, decide (c ≠ lineFeed) = true := by
    intro c member
    simpa using fun same : c = lineFeed => clean (same ▸ member)
  have skipped : (List.replicate breaks lineFeed ++ (line ++ after)).dropWhile (· = lineFeed) = line ++ after := by
    rw [List.dropWhile_append_of_pos (by simp)]
    obtain ⟨c, rest, rfl⟩ := List.exists_cons_of_ne_nil some_
    rw [List.cons_append, List.dropWhile_cons_of_neg (by simpa using other c (by simp))]
  simp only [header, skipped, List.takeWhile_append_of_pos other, List.dropWhile_append_of_pos other]
  cases after with
  | nil => simp
  | cons c rest => simp [ends c (by simp)]

section Header

variable (lib : Common) {machine : Machine} (sent : machine.sent = true)

include sent

theorem sendSync_meets (breaks : Nat) (line after : Text) (reads : List Read)
    (counted : ∀ read ∈ reads, read.Counted) (clean : lineFeed ∉ line) (whole : line = [] → after = [])
    (ends : ∀ c ∈ after.head?, c = lineFeed) (fits : Fits line after) :
    (sendSync lib machine (List.replicate breaks lineFeed ++ (line ++ after)) reads).Meets
      ⟨after = [] ∨ supplied reads ≤ breaks + line.length,
        fun err => (err = headerError ∧ .fail ∈ reads) ∨
          (line.head? = some (byte '-') ∧ err = printedError lib "SYNC with master failed: %s" (cString line)),
        fun payload left rest => line.head? ≠ some (byte '-') ∧ payload = strtoull line.tail ∧
          after = lineFeed :: left ∧ supplied reads = supplied rest + (breaks + line.length + 1) ∧ rest <:+ reads⟩ := by
  have read : Outcome.Meets _ (readLine 4096 lineFeed headerError [] machine.cells _ reads) :=
    readLine_meets (by decide) [] machine.cells breaks line after reads counted (Or.inl rfl) clean whole ends
      (by simpa [Fits] using fits)
  simp only [sendSync, sent, Bool.not_true, Bool.false_eq_true, if_false]
  refine Outcome.Meets.andThen read (fun blocked => blocked) (fun err failed => Or.inl failed) ?_
  rintro result left rest ⟨rfl, closed, count, suffix⟩
  split
  next refused => exact Or.inr ⟨refused, rfl⟩
  next announced => exact ⟨announced, rfl, closed, count, suffix⟩

end Header

/-! ## The bounds of the header -/

/-- What carries the bytes; the calls for an SSH channel return more statuses than `-1`. -/
inductive Link where
  | socket
  | channel
deriving DecidableEq

def Link.Gives : Link → Read → Prop
  | .socket, read => read.Counted
  | .channel, _ => True

theorem Link.gives_replicate (link : Link) (n : Nat) : ∀ read ∈ List.replicate n (Read.chunk 1), link.Gives read := by
  intro read member
  obtain rfl := List.eq_of_mem_replicate member
  cases link <;> trivial

-- A line with its line break that comes after some line breaks.
def headed (breaks : Nat) (line rest : Text) : Text :=
  List.replicate breaks lineFeed ++ (line ++ lineFeed :: rest)

-- `$<decimal>\r`
def announcement (digits : Text) : Text := byte '$' :: (digits ++ [byte '\r'])

/-- A stream whose header is read within the buffer, to its number or to an error. -/
structure Parsed (lib : Common) (link : Link) (stream : Text) : Prop where
  inBounds : ∀ machine reads, (∀ read ∈ reads, link.Gives read) → sendSync lib machine stream reads ≠ .undefined
  announced : ∀ breaks digits rest, Decimal digits →
    stream = headed breaks (announcement digits) rest →
    ∀ (machine : Machine) reads, machine.sent = true → (∀ read ∈ reads, link.Gives read) →
    (sendSync lib machine stream reads).Meets
      ⟨supplied reads ≤ breaks + (digits.length + 2), fun err => err = headerError ∧ .fail ∈ reads,
        fun payload left _ => payload = readNat digits ∧ left = rest⟩
  refused : ∀ breaks message rest, lineFeed ∉ message → stream = headed breaks (byte '-' :: message) rest →
    ∀ (machine : Machine) reads, machine.sent = true → (∀ read ∈ reads, link.Gives read) →
    (sendSync lib machine stream reads).Meets
      ⟨supplied reads ≤ breaks + (message.length + 1), fun _ => True, fun _ _ _ => False⟩

-- Everything works, and the memory holds `cells`.
def Machine.sound (cells : Nat → UInt8) : Machine :=
  ⟨true, true, cells, [], [], true, fun _ size => some size⟩

theorem announcement_clean (digits : Text) (decimal : Decimal digits) : lineFeed ∉ announcement digits := by
  have other : lineFeed ∉ digits := decimal.not_mem (by decide)
  have first : lineFeed ≠ byte '$' := by decide
  have last : lineFeed ≠ byte '\r' := by decide
  simp [announcement, other, first, last]

theorem strtoull_announcement (digits : Text) (decimal : Decimal digits) :
    strtoull (announcement digits).tail = min (readNat digits) (2 ^ 64 - 1) := by
  apply strtoull_decimal digits _ decimal
  intro c first
  obtain rfl : byte '\r' = c := by simpa using first
  decide

theorem header_headed (breaks : Nat) (line rest : Text) (clean : lineFeed ∉ line) (some_ : line ≠ []) :
    header (headed breaks line rest) = (line, lineFeed :: rest) :=
  header_of breaks line (lineFeed :: rest) clean some_ (by simp)

theorem sendSync_announcement (lib : Common) {machine : Machine} (sent : machine.sent = true) (breaks : Nat)
    (digits rest : Text) (reads : List Read) (counted : ∀ read ∈ reads, read.Counted) (decimal : Decimal digits)
    (fits : Fits (announcement digits) (lineFeed :: rest)) :
    (sendSync lib machine (headed breaks (announcement digits) rest) reads).Meets
      ⟨supplied reads ≤ breaks + (digits.length + 2), fun err => err = headerError ∧ .fail ∈ reads,
        fun payload left unused => payload = min (readNat digits) (2 ^ 64 - 1) ∧ left = rest ∧
          supplied reads = supplied unused + (breaks + (digits.length + 3)) ∧ unused <:+ reads⟩ := by
  have length : (announcement digits).length = digits.length + 2 := by simp [announcement]
  have dollar : (announcement digits).head? ≠ some (byte '-') := by
    simp only [announcement, List.head?_cons, ne_eq, Option.some.injEq]
    decide
  refine (sendSync_meets lib sent breaks (announcement digits) _ reads counted (announcement_clean digits decimal)
    (by simp [announcement]) (by simp) fits).mono ?_ ?_ ?_
  · rintro (closed | few)
    · exact absurd closed (by simp)
    · rwa [length] at few
  · rintro err (failed | ⟨refused, -⟩)
    · exact failed
    · exact absurd refused dollar
  · rintro payload left unused ⟨-, rfl, closed, count, suffix⟩
    rw [length] at count
    exact ⟨strtoull_announcement digits decimal, by simpa using closed.symm, count, suffix⟩

section Bounds

variable (lib : Common) {link : Link} {stream : Text}

-- A channel that returns statuses moves the end of the line on without a byte.
theorem Parsed.link_eq (parsed : Parsed lib link stream) : link = .socket := by
  cases link with
  | socket => rfl
  | channel =>
      refine absurd ?_ (parsed.inBounds (.sound fun _ => 0) (List.replicate 4097 (.status 0)) fun _ _ => trivial)
      simp only [sendSync, Machine.sound, Bool.not_true, Bool.false_eq_true, if_false]
      have moved : readLine 4096 lineFeed headerError [] (fun _ => 0) stream (List.replicate 4097 (.status 0)) =
          .undefined := readLine_statuses headerError 4096 0 [] (fun _ => 0) stream (fun _ => by decide) rfl
      rw [moved]
      rfl

theorem sendSync_overrun (cells : Nat → UInt8) (breaks : Nat) (line after : Text) (reads : List Read)
    (clean : lineFeed ∉ line) (long : ¬Fits line after) :
    sendSync lib (.sound cells) (List.replicate breaks lineFeed ++ (line ++ after))
      (List.replicate (breaks + 4097) (.chunk 1) ++ reads) = .undefined := by
  rw [Fits, not_or, not_and, Nat.not_lt] at long
  have full : (line.take 4096).length = 4096 := by
    rw [List.length_take]
    omega
  have more : line.drop 4096 ++ after ≠ [] := by
    intro empty
    obtain ⟨short, closed⟩ := List.append_eq_nil_iff.mp empty
    exact long.2 closed (List.drop_eq_nil_iff.mp short)
  have overrun := readLine_overrun headerError (by decide) breaks (line.take 4096) (line.drop 4096 ++ after) cells reads
    (fun member => clean (List.mem_of_mem_take member)) full more
  rw [full, ← List.append_assoc (line.take 4096), List.take_append_drop] at overrun
  have fed : List.replicate (breaks + 4097) (Read.chunk 1) ++ reads =
      List.replicate breaks (.chunk 1) ++ (List.replicate 4096 (.chunk 1) ++ .chunk 1 :: reads) := by
    rw [List.replicate_add, List.append_assoc, List.replicate_succ', List.append_assoc]
    rfl
  simp only [sendSync, Machine.sound, Bool.not_true, Bool.false_eq_true, if_false]
  rw [fed, overrun]
  rfl

theorem Parsed.fits (parsed : Parsed lib link stream) : Fits (header stream).1 (header stream).2 := by
  obtain ⟨breaks, shape, clean, -, -⟩ := header_spec stream
  by_contra long
  have overrun := sendSync_overrun lib (fun _ => 0) breaks _ _ [] clean long
  rw [← shape] at overrun
  rw [List.append_nil] at overrun
  exact parsed.inBounds _ _ (link.gives_replicate _) overrun

end Bounds

/-- The header of every stream is read within the buffer over a socket when its line has at most 4095 bytes, or
4096 without a line break behind it, and to its number when that is below 2^64. -/
theorem parsed_iff (lib : Common) (link : Link) (stream : Text) :
    Parsed lib link stream ↔
      link = .socket ∧ Fits (header stream).1 (header stream).2 ∧
        ∀ digits rest, Decimal digits → header stream = (announcement digits, lineFeed :: rest) →
          readNat digits < 2 ^ 64 := by
  constructor
  · intro parsed
    refine ⟨parsed.link_eq, parsed.fits, ?_⟩
    intro digits rest decimal same
    obtain ⟨breaks, shape, clean, whole, ends⟩ := header_spec stream
    rw [same] at shape clean whole ends
    have fits := same ▸ parsed.fits
    have gives : ∀ link : Link, ∀ read ∈ List.replicate (breaks + (announcement digits).length + 1) (Read.chunk 1),
        link.Gives read := fun link => link.gives_replicate _
    have promised := parsed.announced breaks digits rest decimal shape (.sound fun _ => 0) _ rfl (gives link)
    have sent : (Machine.sound fun _ => 0).sent = true := rfl
    have read := sendSync_announcement lib sent breaks digits rest _ (gives .socket) decimal fits
    have enough : supplied (List.replicate (breaks + (announcement digits).length + 1) (Read.chunk 1)) =
        breaks + (digits.length + 3) := by
      simp [announcement]
      omega
    obtain ⟨payload, left, unused, ran, number, -⟩ := promised.exists_done (by simp only [enough]; omega)
      (fun err failed => absurd (List.eq_of_mem_replicate failed.2) (by simp))
    have same : stream = headed breaks (announcement digits) rest := shape
    rw [← same, ran] at read
    have clamped := number.symm.trans read.1
    omega
  · rintro ⟨rfl, fits, small⟩
    refine ⟨?_, ?_, ?_⟩
    · intro machine reads gives
      obtain ⟨breaks, shape, clean, whole, ends⟩ := header_spec stream
      cases sent : machine.sent with
      | false => simp [sendSync, sent]
      | true =>
          have meets := sendSync_meets lib sent breaks _ _ reads gives clean whole ends fits
          rw [← shape] at meets
          exact meets.defined
    · rintro breaks digits rest decimal rfl machine reads sent gives
      have clean := announcement_clean digits decimal
      have same := header_headed breaks (announcement digits) rest clean (by simp [announcement])
      rw [same] at fits
      refine (sendSync_announcement lib sent breaks digits rest reads gives decimal fits).mono (fun few => few)
        (fun err failed => failed) ?_
      rintro payload left unused ⟨rfl, same_, -⟩
      have below := small digits rest decimal same
      exact ⟨by omega, same_⟩
    · rintro breaks message rest clean rfl machine reads sent gives
      have minus : lineFeed ≠ byte '-' := by decide
      have line : lineFeed ∉ byte '-' :: message := by simp [minus, clean]
      rw [header_headed breaks _ rest line (by simp)] at fits
      refine (sendSync_meets lib sent breaks _ (lineFeed :: rest) reads gives line (by simp) (by simp) fits).mono ?_
        (fun err failed => trivial) fun payload left unused accepted => accepted.1 rfl
      rintro (closed | few)
      · exact absurd closed (by simp)
      · exact few

theorem header_overrun : ¬Parsed Common.std .socket (List.replicate 4096 (byte '$') ++ [lineFeed]) := by
  intro parsed
  have clean : lineFeed ∉ List.replicate 4096 (byte '$') := by
    rw [List.mem_replicate]
    decide
  have line : header (List.replicate 4096 (byte '$') ++ [lineFeed]) = (List.replicate 4096 (byte '$'), [lineFeed]) :=
    header_of 0 _ [lineFeed] clean (List.ne_nil_of_length_pos (by rw [List.length_replicate]; decide)) (by simp)
  have fits := parsed.fits
  rw [line, Fits, List.length_replicate] at fits
  rcases fits with short | ⟨closed, -⟩
  · omega
  · exact absurd closed (by simp)

/-! ## The payload -/

theorem subtract_length (payload : Nat) (bytes : Text) (fits : payload ≤ 2 ^ 64 - 1) (short : bytes.length ≤ payload) :
    subtract payload (bytes.length : Nat) = payload - bytes.length := by
  have inRange : ((payload : Int) - (bytes.length : Nat)) % 2 ^ 64 = (payload - bytes.length : Nat) := by
    omega
  rw [subtract, inRange, Int.toNat_natCast]

theorem slaveModeStep_takes :
    Takes (2 ^ 64 - 1) (fun _ _ => True) (fun _ => False) slaveModeStep := by
  intro payload state taken bytes fits _ short
  exact ⟨subtract_length payload bytes fits short, trivial⟩

/-- How a transfer of `count` bytes of `rest` ends, which takes `needed` symbols before them. -/
def Transferred {E σ : Type} (needed count : Nat) (rest : Text) (reads : List Read) (refused : E → Prop)
    (inv : Text → σ → Prop) : Post UInt8 E σ where
  blocked := rest.length < count ∨ supplied reads < needed + count
  error err := refused err ∨ .fail ∈ reads
  done result left _ := left = rest.drop count ∧ count ≤ rest.length ∧ inv (rest.take count) result

theorem transfer_meets {E σ : Type} (lib : Common) {machine : Machine} (sent : machine.sent = true) (breaks : Nat)
    (digits rest : Text) (reads : List Read) (counted : ∀ read ∈ reads, read.Counted) (decimal : Decimal digits)
    (fits : Fits (announcement digits) (lineFeed :: rest)) (f : ErrorValue → E) {size : Nat} (positive : 0 < size)
    (failure : σ → E) {handle : Nat → σ → Received UInt8 → Except E (Nat × σ)} {inv : Text → σ → Prop}
    {refused : E → Prop} {limit : Nat} (within : min (readNat digits) (2 ^ 64 - 1) ≤ limit)
    (takes : Takes limit inv refused handle) (state : σ) (holds : inv [] state) :
    (((sendSync lib machine (headed breaks (announcement digits) rest) reads).mapError f).andThen
      fun payload left reads => untilZero size failure handle payload state left reads).Meets
      (Transferred (breaks + (digits.length + 3)) (min (readNat digits) (2 ^ 64 - 1)) rest reads refused inv) := by
  have header := sendSync_announcement lib sent breaks digits rest reads counted decimal fits
  have mapped : Outcome.Meets ⟨_, fun _ => .fail ∈ reads, _⟩ (Outcome.mapError f _) :=
    header.mapError fun err failed => failed.2
  refine mapped.andThen ?_ (fun err failed => Or.inr failed) ?_
  · intro few
    exact Or.inr (Nat.lt_of_le_of_lt few (by omega))
  · rintro payload left unused ⟨rfl, rfl, count, suffix⟩
    have later := counted_of_suffix suffix counted
    refine (untilZero_meets takes positive _ within state [] left unused later holds).mono ?_ ?_ ?_
    · rintro (short | few)
      · exact Or.inl short
      · exact Or.inr (by omega)
    · rintro err (refused | ⟨-, member⟩)
      · exact Or.inl refused
      · exact Or.inr (suffix.subset member)
    · rintro result final unused ⟨same, enough, holds, -⟩
      exact ⟨same, enough, by simpa using holds⟩

-- A file gets what was taken, in order.
theorem getRDBStep_file (lib : Common) (machine : Machine) :
    Takes (2 ^ 64 - 1) (fun taken sink => ∃ writes, sink = .file writes taken)
      (fun _ => ∃ number size, machine.write number size ≠ some size) (getRDBStep lib machine) := by
  rintro payload _ taken bytes fits ⟨writes, rfl⟩ short
  by_cases nothing : bytes = []
  · simp [getRDBStep, nread, nothing]
  · have some_ : (bytes.length : Int) ≠ 0 := by simpa using nothing
    have size : ((bytes.length : Int) % 2 ^ 64).toNat = bytes.length := by omega
    cases wrote : machine.write writes bytes.length with
    | none =>
        have failed : (-1 : Int) ≠ bytes.length := by omega
        simp only [getRDBStep, nread, Sink.put, some_, if_false, size, wrote, failed, ne_eq, not_false_eq_true, if_true]
        exact ⟨writes, bytes.length, by simp [wrote]⟩
    | some n =>
        simp only [getRDBStep, nread, symbols, Sink.put, some_, if_false, size, wrote]
        by_cases all : min n bytes.length = bytes.length
        · rw [all, if_neg (by simp), List.take_left]
          exact ⟨subtract_length payload bytes fits short, writes + 1, rfl⟩
        · rw [if_pos (by simpa only [ne_eq, Int.natCast_inj] using all)]
          refine ⟨writes, bytes.length, ?_⟩
          rw [wrote, ne_eq, Option.some.injEq]
          rintro rfl
          exact all (Nat.min_self _)

-- The array counts as nothing written, so that only reads of nothing are followed by others.
theorem getRDBStep_array (lib : Common) (machine : Machine) (limit : Nat) :
    Takes limit (fun taken sink => taken = [] ∧ sink = .array []) (fun _ => 0 < limit) (getRDBStep lib machine) := by
  rintro payload _ _ bytes fits ⟨rfl, rfl⟩ short
  by_cases nothing : bytes = []
  · simp [getRDBStep, nread, nothing]
  · have other : (0 : Int) ≠ bytes.length := by simpa [eq_comm] using nothing
    have some_ := List.length_pos_of_ne_nil nothing
    simp only [getRDBStep, nread, Sink.put, other.symm, if_false, ne_eq, other, not_false_eq_true, if_true]
    omega

section Transfers

variable (lib : Common) {machine : Machine} (connected : machine.connected = true) (sent : machine.sent = true)
variable (breaks : Nat) (digits rest : Text) (reads : List Read) (counted : ∀ read ∈ reads, read.Counted)
variable (decimal : Decimal digits) (fits : Fits (announcement digits) (lineFeed :: rest))

include connected sent counted decimal fits

theorem slaveMode_meets :
    (slaveMode lib machine (headed breaks (announcement digits) rest) reads).Meets
      (Transferred (breaks + (digits.length + 3)) (min (readNat digits) (2 ^ 64 - 1)) rest reads (fun _ => False)
        fun _ _ => True) := by
  have meets := transfer_meets lib sent breaks digits rest reads counted decimal fits id (by decide : 0 < 1024)
    (fun _ => readError) (Nat.min_le_right _ _) slaveModeStep_takes () trivial
  rw [Outcome.mapError_id] at meets
  simpa only [slaveMode, connected, Bool.not_true, Bool.false_eq_true, if_false] using meets

theorem getRDB_file_meets (name : Text) (other : name ≠ ascii "-") (opens : machine.opens = true) :
    (getRDB lib machine name (headed breaks (announcement digits) rest) reads).Meets
      (Transferred (breaks + (digits.length + 3)) (min (readNat digits) (2 ^ 64 - 1)) rest reads
        (fun _ => ∃ number size, machine.write number size ≠ some size)
        fun taken sink => ∃ writes, sink = .file writes taken) := by
  have meets := transfer_meets lib sent breaks digits rest reads counted decimal fits (fun err => (err, none))
    (by decide : 0 < 4096) (fun sink => (readError, some sink)) (Nat.min_le_right _ _) (getRDBStep_file lib machine)
    (.file 0 []) ⟨0, rfl⟩
  simpa only [getRDB, connected, other, opens, Bool.not_true, Bool.false_eq_true, if_false] using meets

theorem getRDB_array_meets :
    (getRDB lib machine (ascii "-") (headed breaks (announcement digits) rest) reads).Meets
      (Transferred (breaks + (digits.length + 3)) (min (readNat digits) (2 ^ 64 - 1)) rest reads
        (fun _ => 0 < min (readNat digits) (2 ^ 64 - 1)) fun taken sink => taken = [] ∧ sink = .array []) := by
  have meets := transfer_meets lib sent breaks digits rest reads counted decimal fits (fun err => (err, none))
    (by decide : 0 < 4096) (fun sink => (readError, some sink)) (Nat.le_refl _) (getRDBStep_array lib machine _)
    (.array []) ⟨rfl, rfl⟩
  simpa only [getRDB, connected, Bool.not_true, Bool.false_eq_true, if_false, if_true] using meets

end Transfers

/-! ## Exact transfers -/

-- What the server sends for a payload, after some line breaks and before the rest.
def sends (breaks : Nat) (payload rest : Text) : Text :=
  headed breaks (announcement (natText payload.length)) (payload ++ rest)

/-- A transport that does not fail and returns enough. -/
def Supplies (breaks : Nat) (payload : Text) (reads : List Read) : Prop :=
  (∀ read ∈ reads, ∃ most, read = .chunk most) ∧
    breaks + ((natText payload.length).length + 3) + payload.length ≤ supplied reads

structure Machine.Works (machine : Machine) : Prop where
  connected : machine.connected = true
  sent : machine.sent = true
  opens : machine.opens = true
  write : ∀ number size, machine.write number size = some size

def Sink.isArray : Sink → Bool
  | .array _ => true
  | .file _ _ => false

/-- A payload that `GetRDB` stores exactly and `SlaveMode` skips exactly. -/
structure Exact (lib : Common) (link : Link) (rdbFilename payload : Text) : Prop where
  stored : ∀ machine breaks rest reads sink left unused, (∀ read ∈ reads, link.Gives read) →
    getRDB lib machine rdbFilename (sends breaks payload rest) reads = .done sink left unused →
    left = rest ∧ sink.bytes = payload ∧ sink.isArray = decide (rdbFilename = ascii "-")
  succeeds : ∀ (machine : Machine) breaks rest reads, machine.Works → Supplies breaks payload reads →
    ∃ sink left unused, getRDB lib machine rdbFilename (sends breaks payload rest) reads = .done sink left unused
  skipped : ∀ machine breaks rest reads left unused, (∀ read ∈ reads, link.Gives read) →
    slaveMode lib machine (sends breaks payload rest) reads = .done () left unused → left = rest
  skips : ∀ (machine : Machine) breaks rest reads, machine.Works → Supplies breaks payload reads →
    ∃ left unused, slaveMode lib machine (sends breaks payload rest) reads = .done () left unused

section Exactness

variable {lib : Common} {link : Link} {rdbFilename payload : Text}

theorem announcement_short (short : payload.length < 2 ^ 64) : (announcement (natText payload.length)).length ≤ 22 := by
  have few : (natText payload.length).length ≤ 20 := by
    rw [natText, List.length_map]
    exact (Nat.length_toDigits_le_iff (by decide) (by decide)).mpr (by omega)
  simp only [announcement, List.length_cons, List.length_append, List.length_nil]
  omega

theorem announcement_fits (short : payload.length < 2 ^ 64) (after : Text) :
    Fits (announcement (natText payload.length)) after :=
  Or.inl (Nat.lt_of_le_of_lt (announcement_short short) (by decide))

theorem natText_decimal (n : Nat) : Decimal (natText n) := ⟨natText_ne_nil n, isDigit_of_mem_natText n⟩

theorem getRDB_done {machine : Machine} {stream left : Text} {reads unused : List Read} {sink : Sink}
    (ran : getRDB lib machine rdbFilename stream reads = .done sink left unused) :
    machine.connected = true ∧ machine.sent = true ∧ (rdbFilename = ascii "-" ∨ machine.opens = true) := by
  cases connected : machine.connected with
  | false => simp [getRDB, connected] at ran
  | true =>
      cases sent : machine.sent with
      | false => simp [getRDB, connected, sendSync, sent, Outcome.mapError, Outcome.andThen] at ran
      | true =>
          refine ⟨rfl, rfl, ?_⟩
          by_contra closed
          rw [not_or, Bool.not_eq_true] at closed
          simp only [getRDB, connected, Bool.not_true, Bool.false_eq_true, if_false] at ran
          obtain ⟨count, stream, reads, -, ran⟩ := Outcome.andThen_eq_done ran
          rw [if_neg closed.1, closed.2] at ran
          simp at ran

theorem slaveMode_done {machine : Machine} {stream left : Text} {reads unused : List Read}
    (ran : slaveMode lib machine stream reads = .done () left unused) :
    machine.connected = true ∧ machine.sent = true := by
  cases connected : machine.connected with
  | false => simp [slaveMode, connected] at ran
  | true =>
      cases sent : machine.sent with
      | false => simp [slaveMode, connected, sendSync, sent, Outcome.andThen] at ran
      | true => exact ⟨rfl, rfl⟩

theorem Supplies.counted {breaks : Nat} {reads : List Read} (supplies : Supplies breaks payload reads) :
    (∀ read ∈ reads, read.Counted) ∧ .fail ∉ reads := by
  constructor
  · intro read member
    obtain ⟨most, rfl⟩ := supplies.1 read member
    trivial
  · intro member
    obtain ⟨most, same⟩ := supplies.1 .fail member
    simp at same

theorem Supplies.exists_done {E σ : Type} {breaks : Nat} {rest : Text} {reads : List Read} {outcome : Outcome UInt8 E σ}
    {refused : E → Prop} {inv : Text → σ → Prop} (supplies : Supplies breaks payload reads)
    (meets : outcome.Meets (Transferred (breaks + ((natText payload.length).length + 3)) payload.length
      (payload ++ rest) reads refused inv)) (fine : ∀ err, ¬refused err) :
    ∃ result left unused, outcome = .done result left unused := by
  obtain ⟨result, left, unused, ran, -⟩ := meets.exists_done
    (by
      have enough := supplies.2
      simp only [Transferred, List.length_append]
      omega)
    (by
      rintro err (refused | failed)
      · exact fine err refused
      · exact supplies.counted.2 failed)
  exact ⟨result, left, unused, ran⟩

section Short

variable (lib) (short : payload.length < 2 ^ 64) {machine : Machine} (breaks : Nat) (rest : Text) {reads : List Read}
variable (connected : machine.connected = true) (sent : machine.sent = true) (counted : ∀ read ∈ reads, read.Counted)

include short connected sent counted

theorem slaveMode_sends :
    (slaveMode lib machine (sends breaks payload rest) reads).Meets
      (Transferred (breaks + ((natText payload.length).length + 3)) payload.length (payload ++ rest) reads
        (fun _ => False) fun _ _ => True) := by
  have meets := slaveMode_meets lib connected sent breaks _ (payload ++ rest) reads counted
    (natText_decimal payload.length) (announcement_fits short _)
  rwa [readNat_natText, Nat.min_eq_left (by omega)] at meets

theorem getRDB_sends (opens : rdbFilename = ascii "-" ∨ machine.opens = true)
    (kept : payload = [] ∨ rdbFilename ≠ ascii "-") :
    (getRDB lib machine rdbFilename (sends breaks payload rest) reads).Meets
      (Transferred (breaks + ((natText payload.length).length + 3)) payload.length (payload ++ rest) reads
        (fun _ => ∃ number size, machine.write number size ≠ some size)
        fun taken sink => sink.bytes = taken ∧ sink.isArray = decide (rdbFilename = ascii "-")) := by
  have decimal := natText_decimal payload.length
  have fits := announcement_fits short (lineFeed :: (payload ++ rest))
  by_cases array : rdbFilename = ascii "-"
  · obtain rfl := kept.resolve_right (fun other => other array)
    subst array
    have meets := getRDB_array_meets lib connected sent breaks _ ([] ++ rest) reads counted decimal fits
    rw [readNat_natText] at meets
    refine meets.mono (fun blocked => blocked) ?_ ?_
    · rintro err (refused | failed)
      · exact absurd refused (by simp)
      · exact Or.inr failed
    · rintro sink left unused ⟨same, enough, -, rfl⟩
      exact ⟨same, enough, by simp [Sink.bytes], rfl⟩
  · have meets := getRDB_file_meets lib connected sent breaks _ (payload ++ rest) reads counted decimal fits rdbFilename
      array (opens.resolve_left array)
    rw [readNat_natText, Nat.min_eq_left (by omega)] at meets
    refine meets.mono (fun blocked => blocked) (fun err failed => failed) ?_
    rintro sink left unused ⟨same, enough, writes, rfl⟩
    exact ⟨same, enough, rfl, by simp [Sink.isArray, array]⟩

end Short

theorem exact_of_short (short : payload.length < 2 ^ 64) (kept : payload = [] ∨ rdbFilename ≠ ascii "-") :
    Exact lib .socket rdbFilename payload := by
  refine ⟨?_, ?_, ?_, ?_⟩
  · intro machine breaks rest reads sink left unused gives ran
    obtain ⟨connected, sent, opens⟩ := getRDB_done ran
    have meets := getRDB_sends lib short breaks rest connected sent gives opens kept
    rw [ran] at meets
    obtain ⟨same, -, bytes, array⟩ := meets
    exact ⟨by simpa using same, by simpa using bytes, array⟩
  · intro machine breaks rest reads works supplies
    have meets := getRDB_sends lib short breaks rest works.connected works.sent supplies.counted.1
      (Or.inr works.opens) kept
    refine supplies.exists_done meets ?_
    rintro err ⟨number, size, failed⟩
    exact failed (works.write number size)
  · intro machine breaks rest reads left unused gives ran
    obtain ⟨connected, sent⟩ := slaveMode_done ran
    have meets := slaveMode_sends lib short breaks rest connected sent gives
    rw [ran] at meets
    simpa using meets.1
  · intro machine breaks rest reads works supplies
    have meets := slaveMode_sends lib short breaks rest works.connected works.sent supplies.counted.1
    obtain ⟨⟨⟩, left, unused, ran⟩ := supplies.exists_done meets fun err => id
    exact ⟨left, unused, ran⟩

theorem sound_works (cells : Nat → UInt8) : (Machine.sound cells).Works := ⟨rfl, rfl, rfl, fun _ _ => rfl⟩

-- The file is opened without `O_TRUNC`, so that an older file keeps what is behind the payload.
theorem Exact.fileAfter_iff (exact_ : Exact lib link rdbFilename payload) (old : Text) {machine : Machine}
    {breaks writes : Nat} {rest left written : Text} {reads unused : List Read}
    (gives : ∀ read ∈ reads, link.Gives read)
    (ran : getRDB lib machine rdbFilename (sends breaks payload rest) reads =
      .done (.file writes written) left unused) :
    fileAfter old written = payload ↔ old.length ≤ payload.length := by
  obtain ⟨-, rfl, -⟩ := exact_.stored machine breaks rest reads _ left unused gives ran
  rw [fileAfter, Sink.bytes, List.append_right_eq_self, List.drop_eq_nil_iff]

theorem Exact.short (exact_ : Exact lib link rdbFilename payload) : payload.length < 2 ^ 64 := by
  by_contra long
  have clean := announcement_clean _ (natText_decimal payload.length)
  obtain ⟨needed, same⟩ : ∃ needed, needed = (natText payload.length).length + 3 + payload.length := ⟨_, rfl⟩
  have chunks : ∀ read ∈ List.replicate (4097 + needed) (Read.chunk 1), read = .chunk 1 :=
    fun read member => List.eq_of_mem_replicate member
  have supplies : Supplies 0 payload (List.replicate (4097 + needed) (.chunk 1)) := by
    refine ⟨fun read member => ⟨1, chunks read member⟩, ?_⟩
    rw [supplied_replicate_chunk]
    omega
  obtain ⟨left, unused, ran⟩ := exact_.skips (.sound fun _ => 0) 0 [] _ (sound_works _) supplies
  by_cases fits : Fits (announcement (natText payload.length)) (lineFeed :: (payload ++ []))
  · have works := sound_works fun _ => 0
    have meets := slaveMode_meets lib works.connected works.sent 0 _ (payload ++ []) _ supplies.counted.1
      (natText_decimal payload.length) fits
    have left_ := exact_.skipped _ _ _ _ left unused (link.gives_replicate _) ran
    change slaveMode lib _ (headed _ _ _) _ = _ at ran
    rw [ran, readNat_natText] at meets
    have dropped := congrArg List.length (meets.1.symm.trans left_)
    rw [List.length_drop, List.append_nil, List.length_nil] at dropped
    omega
  · have overrun := sendSync_overrun lib (fun _ => 0) 0 _ _ (List.replicate needed (.chunk 1)) clean fits
    rw [← List.replicate_add, Nat.zero_add] at overrun
    have undefined_ : slaveMode lib (.sound fun _ => 0) (sends 0 payload [])
        (List.replicate (4097 + needed) (.chunk 1)) = .undefined := by
      simp only [slaveMode, Machine.sound, Bool.not_true, Bool.false_eq_true, if_false]
      exact congrArg (Outcome.andThen · _) overrun
    simp [undefined_] at ran

theorem Exact.kept (exact_ : Exact lib link rdbFilename payload) : payload = [] ∨ rdbFilename ≠ ascii "-" := by
  by_cases array : rdbFilename = ascii "-"
  · refine Or.inl ?_
    subst array
    have short := exact_.short
    have supplies : Supplies 0 payload
        (List.replicate (0 + ((natText payload.length).length + 3) + payload.length) (.chunk 1)) := by
      refine ⟨fun read member => ⟨1, List.eq_of_mem_replicate member⟩, ?_⟩
      rw [supplied_replicate_chunk]
    obtain ⟨sink, left, unused, ran⟩ := exact_.succeeds (.sound fun _ => 0) 0 [] _ (sound_works _) supplies
    have works := sound_works fun _ => 0
    have meets := getRDB_array_meets lib works.connected works.sent 0 _ (payload ++ []) _ supplies.counted.1
      (natText_decimal payload.length) (announcement_fits short _)
    change getRDB lib _ _ (headed _ _ _) _ = _ at ran
    rw [ran, readNat_natText, Nat.min_eq_left (by omega)] at meets
    simpa using meets.2.2.1
  · exact Or.inr array

-- Two statuses put what the memory holds before the header.
theorem slaveMode_garbled (lib : Common) (digit : UInt8) (one : isDigit digit = true) (rest : Text) (reads : List Read)
    (short : payload.length < 2 ^ 64) :
    slaveMode lib (.sound fun at_ => if at_ = 0 then byte '$' else digit) (sends 0 payload rest)
      (.status 0 :: .status 0 ::
        (List.replicate (announcement (natText payload.length)).length (.chunk 1) ++ .chunk 1 :: reads)) =
      untilZero 1024 (fun _ => readError) slaveModeStep (min (readNat [digit]) (2 ^ 64 - 1)) () (payload ++ rest)
        reads := by
  have clean := announcement_clean _ (natText_decimal payload.length)
  have fits := announcement_short short
  have decimal : Decimal [digit] := ⟨by simp, by simpa using one⟩
  have other : digit ≠ lineFeed := by
    rintro rfl
    exact absurd one (by decide)
  obtain ⟨cells, fed⟩ := readLine_symbols headerError [byte '$', digit] (announcement (natText payload.length))
    (fun at_ => if at_ = 0 then byte '$' else digit) (lineFeed :: (payload ++ rest)) (.chunk 1 :: reads) clean
    (by simp only [List.length_cons, List.length_nil]; omega : _ ≤ 4096)
  have number : strtoull (digit :: announcement (natText payload.length)) = min (readNat [digit]) (2 ^ 64 - 1) := by
    apply strtoull_decimal [digit] _ decimal
    intro c first
    obtain rfl : byte '$' = c := by simpa [announcement] using first
    decide
  have dollar : byte '$' ≠ lineFeed := by decide
  have read : readLine 4096 lineFeed headerError [] (fun at_ => if at_ = 0 then byte '$' else digit)
      (sends 0 payload rest) (.status 0 :: .status 0 ::
        (List.replicate (announcement (natText payload.length)).length (.chunk 1) ++ .chunk 1 :: reads)) =
      .done (byte '$' :: digit :: announcement (natText payload.length)) (payload ++ rest) reads := by
    refine (readLine_status headerError 0 [] _ _ _ dollar (by decide)).trans ?_
    refine (readLine_status headerError 0 [byte '$'] (fun at_ => if at_ = 0 then byte '$' else digit) _ _ other
      (by decide)).trans ?_
    refine Eq.trans fed (readLine_stop headerError _ _ _ _ (by simp) ?_)
    simp only [List.length_append, List.length_cons, List.length_nil]
    omega
  have first : (byte '$' :: digit :: announcement (natText payload.length)).head? ≠ some (byte '-') := by
    rw [List.head?_cons, ne_eq, Option.some.injEq]
    decide
  simp only [slaveMode, sendSync, Machine.sound, Bool.not_true, Bool.false_eq_true, if_false]
  rw [read]
  simp only [Outcome.andThen, if_neg first, List.tail_cons, number]

theorem Exact.link_eq (exact_ : Exact lib link rdbFilename payload) : link = .socket := by
  cases link with
  | socket => rfl
  | channel =>
      exfalso
      have short := exact_.short
      by_cases empty : payload = []
      · subst empty
        have ran := slaveMode_garbled lib (byte '1') rfl [0] [.chunk 1] short
        have skipped := exact_.skipped _ 0 [0] _ [] [] (fun _ _ => trivial) ran
        simp at skipped
      · have ran := slaveMode_garbled lib (byte '0') rfl [] [] short
        have skipped := exact_.skipped _ 0 [] _ (payload ++ []) [] (fun _ _ => trivial) ran
        exact empty (by simpa using skipped)

end Exactness

/-- Over a socket a payload of fewer than 2^64 bytes is transferred exactly to a file; to the result array only
when it is empty. -/
theorem exact_iff (lib : Common) (link : Link) (rdbFilename payload : Text) :
    Exact lib link rdbFilename payload ↔
      link = .socket ∧ payload.length < 2 ^ 64 ∧ (payload = [] ∨ rdbFilename ≠ ascii "-") := by
  constructor
  · intro exact_
    exact ⟨exact_.link_eq, exact_.short, exact_.kept⟩
  · rintro ⟨rfl, short, kept⟩
    exact exact_of_short short kept

theorem array_not_exact : ¬Exact Common.std .socket (ascii "-") (ascii "REDIS0007") := by
  intro exact_
  rcases exact_.kept with empty | other
  · exact absurd empty (by decide)
  · exact other rfl

end FastoNoSQL.Redis.Sync
