import Mathlib.Data.List.Find
import Mathlib.Logic.Function.Basic
import FastoNoSQL.Bytes.DoubleSums
import FastoNoSQL.Redis.Replies
import FastoNoSQL.Tally

set_option autoImplicit false

/-!
# The scan for big keys

`DBConnection::FindBigKeys` over `SendScan`, `GetKeyTypes` and `GetKeySizes`,
against a database that the server hands out in batches.
-/

namespace FastoNoSQL.Redis.BigKeys

open Bytes

section Scan

variable (lib : Common) (toUInt64 : Text → UInt64) (answer : List (List Text) → Reply)

def keyText : Reply → Option Text
  | .string text => some text
  | _ => none

-- The elements of the reply are checked in debug builds only.
def sendScan (it : UInt64) (link : Link) : Option (Except ErrorValue (UInt64 × List Text) × Link) := do
  let (reply, link) ← (link.append answer [ascii "SCAN", natText it.toNat]).getReply
  match reply with
  | .error text => return (.error ⟨lib.memSPrintf (ascii "SCAN error: %s") [.s text], true⟩, link)
  | .array [.string cursor, .array keys] =>
    let keys ← keys.mapM keyText
    return (.ok (toUInt64 (cString cursor), keys), link)
  | .array elements =>
    if elements.length = 2 then none
    else return (.error (makeErrorValue "Invalid element count from SCAN!"), link)
  | _ => return (.error (makeErrorValue "Non ARRAY response from SCAN!"), link)

def typeName : KeyType → Text
  | .string => ascii "string"
  | .list => ascii "list"
  | .set => ascii "set"
  | .hash => ascii "hash"
  | .zset => ascii "zset"
  | .none => ascii "none"

def typeUnit : KeyType → Text
  | .string => ascii "bytes"
  | .list => ascii "items"
  | .set => ascii "members"
  | .hash => ascii "fields"
  | .zset => ascii "members"
  | .none => []

-- The types in the order of their numbers, the last one apart.
def keyTypes : List KeyType := [.string, .list, .set, .hash, .zset]

/-- `biggest`, `counts`, `totalsize` and `maxkeys`, and the two sums over all types. -/
structure Sampling where
  stats : KeyType → Tally Text
  sampled : UInt64
  totlen : UInt64

def Sampling.start : Sampling := ⟨fun _ => ⟨0, 0, 0, []⟩, 0, 0⟩

def Sampling.update (sampling : Sampling) (key : Text) (type : KeyType) (size : Int) : Sampling :=
  if type = .none then sampling
  else
    { stats := Function.update sampling.stats type ((sampling.stats type).add (cString key) (UInt64.ofInt size))
      sampled := sampling.sampled + 1
      totlen := sampling.totlen + UInt64.ofNat key.length }

def Sampling.updates (sampling : Sampling) (keys : List (Text × KeyType × Int)) : Sampling :=
  keys.foldl (fun sampling (key, type, size) => sampling.update key type size) sampling

/-- The children of the command, as the arguments of their patterns. -/
inductive BigKeysLine where
  | biggest (typeName maxkey : Text) (biggest : UInt64) (typeUnit : Text)
  | summary (counts : UInt64) (typeName : Text) (totalsize : UInt64) (typeUnit : Text) (percent average : Double)

-- The quotients are of integers.
def Sampling.lines (sampling : Sampling) : List BigKeysLine :=
  ((keyTypes.filter fun type => (sampling.stats type).label ≠ []).map fun type =>
    .biggest (typeName type) (sampling.stats type).label (sampling.stats type).biggest (typeUnit type)) ++
  keyTypes.map fun type =>
    .summary (sampling.stats type).count (typeName type) (sampling.stats type).total (typeUnit type)
      (if sampling.sampled = 0 then .finite false 0
        else (Double.ofNat ((sampling.stats type).count / sampling.sampled).toNat).mulNat 100)
      (if (sampling.stats type).count = 0 then .finite false 0
        else Double.ofNat ((sampling.stats type).total / (sampling.stats type).count).toNat)

inductive ScanOutcome where
  -- A division of integers by zero.
  | fault
  | error (err : ErrorValue)
  | done (sampling : Sampling) (lines : List BigKeysLine)

def Sampling.finish (sampling : Sampling) : ScanOutcome :=
  if sampling.totlen ≠ 0 ∧ sampling.sampled = 0 then .fault else .done sampling sampling.lines

/-- The loop; `types` is null, which `GetKeyTypes` refuses, until a batch has keys. -/
def scanLoop (totalKeys : UInt64) : Nat → UInt64 → Bool → Sampling → Link → Option ScanOutcome
  | 0, _, _, _, _ => none
  | fuel + 1, it, allocated, sampling, link =>
    if totalKeys = 0 then some .fault
    else do
      let (scan, link) ← sendScan lib toUInt64 answer it link
      match scan with
      | .error err => return .error err
      | .ok (it, keys) =>
        if allocated = false ∧ keys = [] then return .error (makeErrorValue "Invalid input argument(s)")
        else
          let (types, link) ← getKeyTypes lib answer keys link
          match types with
          | .error err => return .error err
          | .ok types =>
            let (sizes, link) ← getKeySizes answer (keys.zip types) link
            let sampling := sampling.updates (keys.zip (types.zip sizes))
            if it = 0 then return sampling.finish
            else scanLoop totalKeys fuel it true sampling link

def findBigKeys (fuel : Nat) (link : Link) : Option ScanOutcome := do
  let (count, link) ← dbkcount answer link
  match count with
  | .error err => return .error err
  | .ok totalKeys => scanLoop lib toUInt64 answer totalKeys fuel 0 false Sampling.start link

-- With enough steps the function returns.
def FindsBigKeys (link : Link) (outcome : ScanOutcome) : Prop :=
  ∃ enough, ∀ fuel, enough ≤ fuel → findBigKeys lib toUInt64 answer fuel link = some outcome

end Scan

/-! ## Databases -/

structure KeyEntry where
  name : Text
  type : KeyType
  size : Nat
deriving DecidableEq

/-- The protocol has integers of 64 bits. A key of the type none was deleted after it was scanned. -/
structure Database where
  entries : List KeyEntry
  nodup : (entries.map KeyEntry.name).Nodup
  size_lt : ∀ entry ∈ entries, entry.size < 2 ^ 63
  count_lt : entries.length < 2 ^ 63

namespace Database

variable (database : Database)

-- The key as the server knows it.
def named (name : Text) : KeyEntry := (database.entries.find? (·.name = name)).getD ⟨name, .none, 0⟩

def ofType (type : KeyType) : List KeyEntry := database.entries.filter (·.type = type)

end Database

structure Batch where
  cursor : UInt64
  keys : List Text

-- The batches of a whole scan.
def Ends : List Batch → Prop
  | [] => False
  | [batch] => batch.cursor = 0
  | batch :: batches => batch.cursor ≠ 0 ∧ Ends batches

instance decidableEnds : (batches : List Batch) → Decidable (Ends batches)
  | [] => .isFalse id
  | [batch] => inferInstanceAs (Decidable (batch.cursor = 0))
  | batch :: next :: batches =>
    have := decidableEnds (next :: batches)
    inferInstanceAs (Decidable (batch.cursor ≠ 0 ∧ Ends (next :: batches)))

def isScan (argv : List Text) : Bool := argv.head? = some (ascii "SCAN")

/-- The batch after those that were asked for before, to the cursor that came with the last of them. -/
def scanReply (batches : List Batch) (asked : Nat) (cursor : Text) : Reply :=
  match batches[asked]?, (0 :: batches.map Batch.cursor)[asked]? with
  | some batch, some expected =>
    if cursor = natText expected.toNat then
      .array [.string (natText batch.cursor.toNat), .array (batch.keys.map .string)]
    else .error (ascii "ERR invalid cursor")
  | _, _ => .error (ascii "ERR invalid cursor")

def databaseServer (database : Database) (batches : List Batch) (sent : List (List Text)) : Reply :=
  match sent.getLast? with
  | some [word] =>
    if word = ascii "DBSIZE" then .integer database.entries.length else .error (ascii "ERR unknown command")
  | some [word, argument] =>
    if word = ascii "SCAN" then scanReply batches (sent.dropLast.countP isScan) argument
    else if word = ascii "TYPE" then .status (typeName (database.named argument).type)
    else if (database.named argument).type ≠ .none ∧ word = sizeCommand (database.named argument).type then
      .integer (database.named argument).size
    else .error (ascii "WRONGTYPE Operation against a key holding the wrong kind of value")
  | _ => .error (ascii "ERR unknown command")

/-- The scan ends with the numbers of the database, and names a biggest key of each type. -/
def Exact (database : Database) : ScanOutcome → Prop
  | .done sampling lines =>
    (∀ type ∈ keyTypes,
      (sampling.stats type).count.toNat = (database.ofType type).length ∧
      (sampling.stats type).total.toNat = ((database.ofType type).map KeyEntry.size).sum ∧
      (sampling.stats type).biggest.toNat = Tally.greatest ((database.ofType type).map KeyEntry.size) ∧
      (Tally.greatest ((database.ofType type).map KeyEntry.size) ≠ 0 → ∃ entry ∈ database.ofType type,
        entry.size = Tally.greatest ((database.ofType type).map KeyEntry.size) ∧
        .biggest (typeName type) entry.name (sampling.stats type).biggest (typeUnit type) ∈ lines)) ∧
    sampling.sampled.toNat = (database.entries.filter (·.type ≠ .none)).length
  | _ => False

/-! ## What is asked for -/

namespace Database

variable (database : Database)

-- The keys as the server answers for them: the commands carry their names up to the first NUL.
def asked : List KeyEntry := database.entries.map fun entry => database.named (cString entry.name)

def askedOf (type : KeyType) : List KeyEntry := database.asked.filter (·.type = type)

theorem named_name (name : Text) : (database.named name).name = name := by
  rw [named]
  cases found : database.entries.find? (·.name = name) with
  | none => rfl
  | some entry => simpa using List.find?_some found

theorem named_mem (name : Text) (alive : (database.named name).type ≠ .none) :
    database.named name ∈ database.entries := by
  rw [named] at alive ⊢
  cases found : database.entries.find? (·.name = name) with
  | none => simp [found] at alive
  | some entry => exact List.mem_of_find?_eq_some found

theorem named_size_lt (name : Text) : (database.named name).size < 2 ^ 63 := by
  rw [named]
  cases found : database.entries.find? (·.name = name) with
  | none => exact Nat.two_pow_pos 63
  | some entry => exact database.size_lt entry (List.mem_of_find?_eq_some found)

theorem asked_size_lt (entry : KeyEntry) (member : entry ∈ database.asked) : entry.size < 2 ^ 63 := by
  obtain ⟨own, _, rfl⟩ := List.mem_map.mp member
  exact database.named_size_lt _

theorem mem_of_mem_askedOf (type : KeyType) (alive : type ≠ .none) (entry : KeyEntry)
    (member : entry ∈ database.askedOf type) :
    entry ∈ database.ofType type := by
  obtain ⟨inAsked, same⟩ := List.mem_filter.mp member
  obtain ⟨own, _, rfl⟩ := List.mem_map.mp inAsked
  refine List.mem_filter.mpr ⟨database.named_mem _ ?_, same⟩
  rw [of_decide_eq_true same]
  exact alive

end Database

section Server

variable (lib : Common) (toUInt64 : Text → UInt64) (exactly : ∀ n : UInt64, toUInt64 (natText n.toNat) = n)
variable (database : Database) (batches : List Batch)

theorem keys_mapM (keys : List Text) : (keys.map Reply.string).mapM keyText = some keys := by
  induction keys with
  | nil => rfl
  | cons key keys ih =>
      rw [List.map_cons, List.mapM_cons, ih]
      rfl

include exactly in
-- A scan to the right cursor gives the next batch.
theorem sendScan_spec (it : UInt64) (link : Link) (idle : link.queue = []) (batch : Batch)
    (next : batches[link.sent.countP isScan]? = some batch)
    (expected : (0 :: batches.map Batch.cursor)[link.sent.countP isScan]? = some it) :
    sendScan lib toUInt64 (databaseServer database batches) it link =
      some (.ok (batch.cursor, batch.keys), ⟨link.sent ++ [[ascii "SCAN", natText it.toNat]], []⟩) := by
  have answered : databaseServer database batches (link.sent ++ [[ascii "SCAN", natText it.toNat]]) =
      .array [.string (natText batch.cursor.toNat), .array (batch.keys.map .string)] := by
    simp [databaseServer, scanReply, next, expected]
  have clean : cString (natText batch.cursor.toNat) = natText batch.cursor.toNat :=
    cString_eq_self _ fun nul => absurd (isDigit_of_mem_natText _ 0 nul) (by decide)
  simp only [sendScan, Link.append, Link.getReply, idle, List.nil_append, answered, Option.bind_eq_bind,
    Option.bind_some,
    keys_mapM, clean, exactly]
  rfl

theorem readTypes_statuses (sent : List (List Text)) (keys : List Text) (type : Text → KeyType) :
    readTypes lib keys ⟨sent, keys.map fun key => .status (typeName (type key))⟩ =
      some (.ok (keys.map type), ⟨sent, []⟩) := by
  have read (key : Text) : toIntType lib key (typeName (type key)) = .ok (type key) := by
    cases type key <;> rfl
  induction keys with
  | nil => rfl
  | cons key keys ih =>
      simp only [readTypes, List.map_cons, Link.getReply, readType, read, ih, Option.bind_eq_bind, Option.bind_some]
      rfl

theorem readSizes_integers (sent : List (List Text)) (keys : List (Text × KeyType)) (size : Text → Nat) :
    readSizes keys ⟨sent, (keys.filter (·.2 ≠ .none)).map fun entry => .integer (size entry.1)⟩ =
      some (keys.map fun entry => if entry.2 = .none then 0 else (size entry.1 : Int), ⟨sent, []⟩) := by
  simp only [ne_eq, decide_not]
  induction keys with
  | nil => rfl
  | cons entry keys ih =>
      obtain ⟨key, type⟩ := entry
      by_cases gone : type = .none
      · subst gone
        simp [readSizes, ih]
      · cases type with
        | none => exact absurd rfl gone
        | _ => simp [readSizes, Link.getReply, ih]

theorem server_type (sent : List (List Text)) (name : Text) :
    databaseServer database batches (sent ++ [[ascii "TYPE", name]]) =
      .status (typeName (database.named name).type) := by
  have other : ascii "TYPE" ≠ ascii "SCAN" := by decide
  simp [databaseServer, other]

theorem server_size (sent : List (List Text)) (name : Text) (alive : (database.named name).type ≠ .none) :
    databaseServer database batches (sent ++ [[sizeCommand (database.named name).type, name]]) =
      .integer (database.named name).size := by
  have other : sizeCommand (database.named name).type ≠ ascii "SCAN" ∧
      sizeCommand (database.named name).type ≠ ascii "TYPE" := by
    cases (database.named name).type <;> decide
  simp [databaseServer, other, alive]

theorem getKeyTypes_server (keys : List Text) (link : Link) (idle : link.queue = []) :
    getKeyTypes lib (databaseServer database batches) keys link =
      some (.ok (keys.map fun key => (database.named (cString key)).type), ⟨link.sent ++ typeCommands keys, []⟩) := by
  have answered (sent : List (List Text)) : replies (databaseServer database batches) sent (typeCommands keys) =
      keys.map fun key => .status (typeName (database.named (cString key)).type) := by
    induction keys generalizing sent with
    | nil => rfl
    | cons key keys ih =>
        have rest := ih (sent ++ [[ascii "TYPE", cString key]])
        simp only [typeCommands, List.map_cons, replies, server_type] at rest ⊢
        rw [rest]
  rw [getKeyTypes_batch lib _ keys link idle, answered, readTypes_statuses]

theorem getKeySizes_server (keys : List (Text × KeyType))
    (own : ∀ entry ∈ keys, entry.2 = (database.named (cString entry.1)).type) (link : Link) (idle : link.queue = []) :
    getKeySizes (databaseServer database batches) keys link =
      some (keys.map fun entry => if entry.2 = .none then 0 else ((database.named (cString entry.1)).size : Int),
        ⟨link.sent ++ sizeCommands keys, []⟩) := by
  have answered (sent : List (List Text)) : replies (databaseServer database batches) sent (sizeCommands keys) =
      (keys.filter (·.2 ≠ .none)).map fun entry => .integer (database.named (cString entry.1)).size := by
    induction keys generalizing sent with
    | nil => rfl
    | cons entry keys ih =>
        obtain ⟨key, type⟩ := entry
        rw [List.forall_mem_cons] at own
        obtain ⟨first, own⟩ := own
        obtain rfl : type = (database.named (cString key)).type := first
        by_cases gone : (database.named (cString key)).type = .none
        · simpa [sizeCommands, gone] using ih own sent
        · have rest := ih own (sent ++ [[sizeCommand (database.named (cString key)).type, cString key]])
          simp only [sizeCommands, ne_eq, decide_not] at rest ⊢
          simp [gone, replies, server_size, rest]
  rw [getKeySizes_batch _ keys link idle, answered]
  exact readSizes_integers _ keys fun key => (database.named (cString key)).size

end Server

/-! ## The loop -/

-- The update for each key with what the server answers for it.
def Sampling.ask (database : Database) (sampling : Sampling) (keys : List Text) : Sampling :=
  keys.foldl (fun sampling key =>
    sampling.update key (database.named (cString key)).type (database.named (cString key)).size) sampling

theorem updates_eq_ask (database : Database) (sampling : Sampling) (keys : List Text) (sizes : List Int)
    (read : sizes = (keys.zip (keys.map fun key => (database.named (cString key)).type)).map fun entry =>
      if entry.2 = .none then 0 else ((database.named (cString entry.1)).size : Int)) :
    sampling.updates (keys.zip ((keys.map fun key => (database.named (cString key)).type).zip sizes)) =
      sampling.ask database keys := by
  subst read
  induction keys generalizing sampling with
  | nil => rfl
  | cons key keys ih =>
      simp only [List.map_cons, List.zip_cons_cons, Sampling.updates, Sampling.ask, List.foldl_cons] at ih ⊢
      rw [ih]
      by_cases gone : (database.named (cString key)).type = .none
      · simp [Sampling.update, gone]
      · rw [if_neg gone]

theorem zip_own (database : Database) (keys : List Text) :
    ∀ entry ∈ keys.zip (keys.map fun key => (database.named (cString key)).type),
      entry.2 = (database.named (cString entry.1)).type := by
  induction keys with
  | nil => nofun
  | cons key keys ih => simpa using ih

theorem countP_typeCommands (keys : List Text) : (typeCommands keys).countP isScan = 0 := by
  have other : ascii "TYPE" ≠ ascii "SCAN" := by decide
  simp [typeCommands, isScan, other]

theorem countP_sizeCommands (keys : List (Text × KeyType)) : (sizeCommands keys).countP isScan = 0 := by
  have other (type : KeyType) : sizeCommand type ≠ ascii "SCAN" := by cases type <;> decide
  simp [sizeCommands, isScan, other]

section Loop

variable (lib : Common) (toUInt64 : Text → UInt64) (exactly : ∀ n : UInt64, toUInt64 (natText n.toNat) = n)
variable (database : Database) (batches : List Batch)
include exactly

theorem scanLoop_spec (totalKeys : UInt64) (some' : totalKeys ≠ 0) (rest : List Batch) (before : List Batch)
    (split : batches = before ++ rest) (ends : Ends rest) (it : UInt64)
    (expected : (0 :: batches.map Batch.cursor)[before.length]? = some it) (allocated : Bool)
    (ready : allocated = true ∨ ∀ batch ∈ rest.head?, batch.keys ≠ []) (sampling : Sampling) (link : Link)
    (idle : link.queue = []) (scans : link.sent.countP isScan = before.length) (fuel : Nat)
    (enough : rest.length ≤ fuel) :
    scanLoop lib toUInt64 (databaseServer database batches) totalKeys fuel it allocated sampling link =
      some (sampling.ask database (rest.flatMap Batch.keys)).finish := by
  induction rest generalizing before it allocated sampling link fuel with
  | nil => cases ends
  | cons batch rest ih =>
      cases fuel with
      | zero => simp at enough
      | succ fuel =>
          have next : batches[link.sent.countP isScan]? = some batch := by simp [scans, split]
          have scanned := sendScan_spec lib toUInt64 exactly database batches it link idle batch next (scans ▸ expected)
          have served : ¬ (allocated = false ∧ batch.keys = []) := fun ⟨fresh, empty⟩ =>
            ready.elim (fun used => absurd (used.symm.trans fresh) (by decide)) fun first => first batch rfl empty
          have types := getKeyTypes_server lib database batches batch.keys
            ⟨link.sent ++ [[ascii "SCAN", natText it.toNat]], []⟩ rfl
          have sizes := getKeySizes_server database batches
            (batch.keys.zip (batch.keys.map fun key => (database.named (cString key)).type))
              (zip_own database batch.keys)
            ⟨link.sent ++ [[ascii "SCAN", natText it.toNat]] ++ typeCommands batch.keys, []⟩ rfl
          rw [scanLoop, if_neg some', scanned]
          simp only [Option.bind_eq_bind, Option.bind_some, if_neg served, types, sizes,
            updates_eq_ask database sampling batch.keys _ rfl]
          cases rest with
          | nil =>
              have last : batch.cursor = 0 := ends
              rw [if_pos last]
              simp
          | cons later rest =>
              obtain ⟨more, ends⟩ := ends
              rw [if_neg more]
              have counted : (link.sent ++ [[ascii "SCAN", natText it.toNat]] ++ typeCommands batch.keys ++
                  sizeCommands (batch.keys.zip (batch.keys.map fun key => (database.named (cString key)).type))).countP
                    isScan = (before ++ [batch]).length := by
                have scan : isScan [ascii "SCAN", natText it.toNat] = true := rfl
                rw [List.countP_append, List.countP_append, List.countP_append, countP_typeCommands,
                  countP_sizeCommands, scans]
                simp [scan]
              have given : (0 :: batches.map Batch.cursor)[(before ++ [batch]).length]? = some batch.cursor := by
                simp [split]
              rw [ih (before ++ [batch]) (by simp [split])
                ends batch.cursor given true (Or.inl rfl) _ _ rfl counted fuel
                (by simpa using enough)]
              simp [Sampling.ask]

end Loop

/-! ## The sums -/

def measured (entries : List KeyEntry) : List (Text × UInt64) :=
  entries.map fun entry => (entry.name, UInt64.ofInt entry.size)

theorem ask_stats (database : Database) (type : KeyType) (alive : type ≠ .none) (sampling : Sampling)
    (keys : List Text) :
    (sampling.ask database keys).stats type = (sampling.stats type).adds
      (measured ((keys.map fun key => database.named (cString key)).filter (·.type = type))) := by
  induction keys generalizing sampling with
  | nil => rfl
  | cons key keys ih =>
      have step : sampling.ask database (key :: keys) = (sampling.update key (database.named (cString key)).type
        (database.named (cString key)).size).ask database keys := rfl
      rw [step, ih, List.map_cons, List.filter_cons, Sampling.update]
      by_cases same : (database.named (cString key)).type = type
      · have some : ¬ (database.named (cString key)).type = .none := same ▸ alive
        simp only [same, alive, if_false, Function.update_self, decide_true, if_true, measured, List.map_cons,
          Tally.adds_cons,
          database.named_name]
      · simp only [same, decide_false, Bool.false_eq_true, if_false]
        split
        · rfl
        · simp only [Function.update_of_ne fun other => same other.symm]

theorem ask_sampled (database : Database) (sampling : Sampling) (keys : List Text) :
    (sampling.ask database keys).sampled.toNat = (sampling.sampled.toNat +
      ((keys.map fun key => database.named (cString key)).filter (·.type ≠ .none)).length) % 2 ^ 64 := by
  induction keys generalizing sampling with
  | nil => exact (Nat.mod_eq_of_lt sampling.sampled.toNat_lt).symm
  | cons key keys ih =>
      have one : (1 : UInt64).toNat = 1 := rfl
      have step : sampling.ask database (key :: keys) = (sampling.update key (database.named (cString key)).type
        (database.named (cString key)).size).ask database keys := rfl
      rw [step, ih, List.map_cons, List.filter_cons, Sampling.update]
      by_cases gone : (database.named (cString key)).type = .none
      · simp [gone]
      · simp only [gone, if_false, ne_eq, not_false_eq_true, decide_true, if_true, UInt64.toNat_add, one,
          List.length_cons]
        omega

-- Without a key that is sampled nothing is added up.
theorem ask_totlen (database : Database) (sampling : Sampling) (keys : List Text)
    (none : (keys.map fun key => database.named (cString key)).filter (·.type ≠ .none) = []) :
    sampling.ask database keys = sampling := by
  induction keys generalizing sampling with
  | nil => rfl
  | cons key keys ih =>
      rw [List.map_cons, List.filter_cons] at none
      split at none
      · cases none
      next gone =>
        have step : sampling.ask database (key :: keys) = (sampling.update key (database.named (cString key)).type
          (database.named (cString key)).size).ask database keys := rfl
        have same : (database.named (cString key)).type = .none := by simpa using gone
        rw [step, Sampling.update, if_pos same, ih sampling none]

section Results

variable (database : Database)

theorem asked_eq :
    database.asked = (database.entries.map KeyEntry.name).map fun key => database.named (cString key) := by
  rw [List.map_map]
  rfl

theorem asked_length : database.asked.length = database.entries.length := List.length_map _

def Database.sampled : Sampling := Sampling.start.ask database (database.entries.map KeyEntry.name)

theorem sampled_stats (type : KeyType) (alive : type ≠ .none) :
    database.sampled.stats type = (⟨0, 0, 0, []⟩ : Tally Text).adds (measured (database.askedOf type)) := by
  rw [Database.sampled, ask_stats database type alive, ← asked_eq]
  rfl

theorem sampled_sampled :
    database.sampled.sampled.toNat = (database.asked.filter (·.type ≠ .none)).length := by
  have few : (database.asked.filter (·.type ≠ .none)).length < 2 ^ 64 := by
    have bound := database.count_lt
    have filtered := List.length_filter_le (fun entry : KeyEntry => decide (entry.type ≠ .none)) database.asked
    rw [asked_length] at filtered
    omega
  have zero : Sampling.start.sampled.toNat = 0 := rfl
  rw [Database.sampled, ask_sampled, ← asked_eq, zero, Nat.zero_add, Nat.mod_eq_of_lt few]

theorem sampled_finish : database.sampled.finish = .done database.sampled database.sampled.lines := by
  rw [Sampling.finish, if_neg]
  intro ⟨more, nothing⟩
  have counted := sampled_sampled database
  rw [nothing] at counted
  have none : database.asked.filter (·.type ≠ .none) = [] := List.length_eq_zero_iff.mp counted.symm
  apply more
  rw [asked_eq] at none
  rw [Database.sampled, ask_totlen database _ _ none]
  rfl

theorem toNat_ofInt_size (size : Nat) (small : size < 2 ^ 63) : (UInt64.ofInt size).toNat = size := by
  have whole : ((size : Int) % 2 ^ 64).toNat = size := by omega
  rw [UInt64.ofInt, whole, UInt64.toNat_ofNat']
  exact Nat.mod_eq_of_lt (by omega)

theorem sizes_measured (type : KeyType) :
    Tally.sizes (measured (database.askedOf type)) = (database.askedOf type).map KeyEntry.size := by
  rw [Tally.sizes, measured, List.map_map]
  apply List.map_congr_left
  intro entry member
  exact toNat_ofInt_size entry.size (database.asked_size_lt entry (List.mem_filter.mp member).1)

-- The asked key of a type with the greatest size, the first of them.
def Database.firstBiggest (type : KeyType) : Option KeyEntry :=
  (database.askedOf type).find? fun entry => entry.size = Tally.greatest ((database.askedOf type).map KeyEntry.size)

/-- The keys of a type count alike when they are asked for by their names up to the first NUL, their sizes add up
to 64 bits, and the first biggest one has a name then. -/
structure Database.AskedAlike (type : KeyType) : Prop where
  count : (database.askedOf type).length = (database.ofType type).length
  total : ((database.askedOf type).map KeyEntry.size).sum % 2 ^ 64 = ((database.ofType type).map KeyEntry.size).sum
  greatest : Tally.greatest ((database.askedOf type).map KeyEntry.size) =
    Tally.greatest ((database.ofType type).map KeyEntry.size)
  named : Tally.greatest ((database.ofType type).map KeyEntry.size) ≠ 0 →
    ∀ entry ∈ database.firstBiggest type, entry.name ≠ []

variable (type : KeyType) (alive : type ≠ .none)
include alive

theorem sampled_count : (database.sampled.stats type).count.toNat = (database.askedOf type).length := by
  have few : (database.askedOf type).length < 2 ^ 64 := by
    have bound := database.count_lt
    have filtered := List.length_filter_le (fun entry : KeyEntry => decide (entry.type = type)) database.asked
    rw [asked_length] at filtered
    exact filtered.trans_lt (by omega)
  have zero : (0 : UInt64).toNat = 0 := rfl
  rw [sampled_stats database type alive, Tally.count_adds, zero, measured, List.length_map, Nat.zero_add,
    Nat.mod_eq_of_lt few]

theorem sampled_total :
    (database.sampled.stats type).total.toNat = ((database.askedOf type).map KeyEntry.size).sum % 2 ^ 64 := by
  have zero : (0 : UInt64).toNat = 0 := rfl
  rw [sampled_stats database type alive, Tally.total_adds, zero, sizes_measured, Nat.zero_add]

theorem sampled_biggest :
    (database.sampled.stats type).biggest.toNat = Tally.greatest ((database.askedOf type).map KeyEntry.size) := by
  have zero : (0 : UInt64).toNat = 0 := rfl
  rw [sampled_stats database type alive, Tally.biggest_adds, zero, sizes_measured, Nat.zero_max]

theorem sampled_label (some' : Tally.greatest ((database.askedOf type).map KeyEntry.size) ≠ 0) :
    ∃ entry, database.firstBiggest type = some entry ∧ (database.sampled.stats type).label = entry.name ∧
      entry ∈ database.ofType type ∧ entry.size = Tally.greatest ((database.askedOf type).map KeyEntry.size) := by
  have zero : (0 : UInt64).toNat = 0 := rfl
  have label := Tally.label_adds (⟨0, 0, 0, []⟩ : Tally Text) (measured (database.askedOf type))
    (by rw [sizes_measured, zero]; omega)
  rw [← sampled_stats database type alive, Tally.firstGreatest, sizes_measured, measured, List.find?_map,
    Option.map_map] at label
  obtain ⟨entry, found, same⟩ := Option.map_eq_some_iff.mp label
  have first : database.firstBiggest type = some entry := by
    rw [← found, Database.firstBiggest]
    apply List.find?_congr
    intro entry member
    have small := database.asked_size_lt entry (List.mem_filter.mp member).1
    simp only [Function.comp_apply, toNat_ofInt_size entry.size small]
  refine ⟨entry, first, same.symm, ?_, ?_⟩
  · exact database.mem_of_mem_askedOf type alive entry (List.mem_of_find?_eq_some first)
  · simpa using List.find?_some first

end Results

/-! ## The whole function -/

theorem mem_keyTypes_iff (type : KeyType) : type ∈ keyTypes ↔ type ≠ .none := by
  cases type <;> decide

theorem typeName_injective (first second : KeyType) (same : typeName first = typeName second) : first = second := by
  cases first <;> cases second <;> first | rfl | exact absurd same (by decide)

theorem mem_lines_iff (sampling : Sampling) (type : KeyType) (alive : type ≠ .none) (name : Text) :
    .biggest (typeName type) name (sampling.stats type).biggest (typeUnit type) ∈ sampling.lines ↔
      (sampling.stats type).label = name ∧ name ≠ [] := by
  rw [Sampling.lines, List.mem_append]
  constructor
  · intro member
    rcases member with member | member
    · obtain ⟨other, inTypes, same⟩ := List.mem_map.mp member
      injection same with types labels
      obtain rfl := typeName_injective _ _ types
      exact ⟨labels, labels ▸ of_decide_eq_true (List.mem_filter.mp inTypes).2⟩
    · obtain ⟨other, _, same⟩ := List.mem_map.mp member
      cases same
  · intro ⟨labelled, nonempty⟩
    subst labelled
    exact Or.inl (List.mem_map.mpr ⟨type,
      List.mem_filter.mpr ⟨(mem_keyTypes_iff type).mpr alive, decide_eq_true nonempty⟩, rfl⟩)

theorem length_alive (entries : List KeyEntry) :
    (entries.filter (·.type ≠ .none)).length =
      (keyTypes.map fun type => (entries.filter (·.type = type)).length).sum := by
  induction entries with
  | nil => rfl
  | cons entry entries ih =>
      simp only [keyTypes, List.map_cons, List.map_nil, List.sum_cons, List.sum_nil] at ih ⊢
      cases type : entry.type <;> simp [type] at ih ⊢ <;> omega

theorem exact_sampled_iff (database : Database) :
    Exact database (.done database.sampled database.sampled.lines) ↔ ∀ type ∈ keyTypes, database.AskedAlike type := by
  rw [Exact, sampled_sampled]
  constructor
  · intro ⟨each, _⟩ type inTypes
    have alive := (mem_keyTypes_iff type).mp inTypes
    obtain ⟨count, total, biggest, reported⟩ := each type inTypes
    rw [sampled_count database type alive] at count
    rw [sampled_total database type alive] at total
    rw [sampled_biggest database type alive] at biggest
    refine ⟨count, total, biggest, ?_⟩
    intro some first found
    obtain ⟨entry, _, _, line⟩ := reported some
    obtain ⟨label, named⟩ := (mem_lines_iff database.sampled type alive entry.name).mp line
    obtain ⟨first', found', same, _⟩ := sampled_label database type alive (biggest ▸ some)
    obtain rfl : first = first' := Option.some.inj (found.symm.trans found')
    rw [← same, label]
    exact named
  · intro each
    constructor
    · intro type inTypes
      have alive := (mem_keyTypes_iff type).mp inTypes
      have alike := each type inTypes
      rw [sampled_count database type alive, sampled_total database type alive, sampled_biggest database type alive]
      refine ⟨alike.count, alike.total, alike.greatest, ?_⟩
      intro some
      obtain ⟨first, found, same, own, size⟩ := sampled_label database type alive (alike.greatest ▸ some)
      refine ⟨first, own, size.trans alike.greatest, ?_⟩
      exact (mem_lines_iff database.sampled type alive first.name).mpr ⟨same, alike.named some first found⟩
    · rw [length_alive, length_alive]
      congr 1
      exact List.map_congr_left fun type inTypes => (each type inTypes).count

section Whole

variable (lib : Common) (toUInt64 : Text → UInt64) (answer : List (List Text) → Reply)

theorem findsBigKeys_unique (link : Link) (first second : ScanOutcome)
    (finds : FindsBigKeys lib toUInt64 answer link first) (finds' : FindsBigKeys lib toUInt64 answer link second) :
    first = second := by
  obtain ⟨enough, finds⟩ := finds
  obtain ⟨enough', finds'⟩ := finds'
  have same := (finds (max enough enough') (Nat.le_max_left _ _)).symm.trans (finds' _ (Nat.le_max_right _ _))
  exact Option.some.inj same

variable (exactly : ∀ n : UInt64, toUInt64 (natText n.toNat) = n)
variable (database : Database) (batches : List Batch) (ends : Ends batches)

theorem findBigKeys_server (fuel : Nat) :
    findBigKeys lib toUInt64 (databaseServer database batches) fuel {} =
      scanLoop lib toUInt64 (databaseServer database batches) (UInt64.ofInt database.entries.length) fuel 0 false
        Sampling.start ⟨[[ascii "DBSIZE"]], []⟩ := rfl

include exactly ends

theorem findsBigKeys_spec (whole : batches.flatMap Batch.keys = database.entries.map KeyEntry.name) :
    FindsBigKeys lib toUInt64 (databaseServer database batches) {}
      (if database.entries = [] then .fault
      else if batches.head?.any (·.keys = []) then .error (makeErrorValue "Invalid input argument(s)")
      else .done database.sampled database.sampled.lines) := by
  have counted : (UInt64.ofInt database.entries.length).toNat = database.entries.length :=
    toNat_ofInt_size _ database.count_lt
  have noScan : [[ascii "DBSIZE"]].countP isScan = 0 := by decide
  by_cases empty : database.entries = []
  · rw [if_pos empty]
    refine ⟨1, ?_⟩
    intro fuel enough
    obtain ⟨fuel, rfl⟩ := Nat.exists_eq_succ_of_ne_zero (by omega : fuel ≠ 0)
    rw [findBigKeys_server, scanLoop, if_pos]
    rw [empty]
    rfl
  · have some' : UInt64.ofInt database.entries.length ≠ 0 := by
      intro zero
      rw [zero] at counted
      exact empty (List.length_eq_zero_iff.mp counted.symm)
    rw [if_neg empty]
    cases first : batches with
    | nil =>
        subst first
        cases ends
    | cons batch rest =>
        by_cases nothing : batch.keys = []
        · have unread : (batch :: rest).head?.any (·.keys = []) = true := decide_eq_true nothing
          rw [if_pos unread]
          refine ⟨1, ?_⟩
          intro fuel enough
          obtain ⟨fuel, rfl⟩ := Nat.exists_eq_succ_of_ne_zero (by omega : fuel ≠ 0)
          have scanned :=
            sendScan_spec lib toUInt64 exactly database (batch :: rest) 0 ⟨[[ascii "DBSIZE"]], []⟩ rfl batch
            rfl rfl
          rw [findBigKeys_server, scanLoop, if_neg some', scanned]
          simp only [Option.bind_eq_bind, Option.bind_some, nothing, and_self, if_true]
          rfl
        · have read : ¬ (batch :: rest).head?.any (·.keys = []) = true := by simpa using nothing
          rw [if_neg read]
          refine ⟨(batch :: rest).length, ?_⟩
          intro fuel enough
          rw [first] at ends whole
          rw [findBigKeys_server,
            scanLoop_spec lib toUInt64 exactly database (batch :: rest) _ some' (batch :: rest) [] rfl
            ends 0 rfl false (Or.inr fun other same => Option.some.inj same ▸ nothing)
              Sampling.start _ rfl noScan fuel enough,
            whole]
          exact congrArg some (sampled_finish database)

/-- The scan is exact when the database has keys, the first batch is not empty, and the keys of each type count
alike when they are asked for. -/
theorem big_keys_exact_iff (whole : batches.flatMap Batch.keys = database.entries.map KeyEntry.name) :
    (∃ outcome, FindsBigKeys lib toUInt64 (databaseServer database batches) {} outcome ∧ Exact database outcome) ↔
      database.entries ≠ [] ∧ batches.head?.any (·.keys = []) = false ∧
        ∀ type ∈ keyTypes, database.AskedAlike type := by
  have spec := findsBigKeys_spec lib toUInt64 exactly database batches ends whole
  rw [← exact_sampled_iff]
  by_cases empty : database.entries = []
  · rw [if_pos empty] at spec
    refine iff_of_false ?_ fun holds => holds.1 empty
    intro ⟨outcome, finds, exact⟩
    obtain rfl := findsBigKeys_unique lib toUInt64 _ {} _ _ finds spec
    cases exact
  rw [if_neg empty] at spec
  cases unread : batches.head?.any (·.keys = []) with
  | true =>
      rw [if_pos unread] at spec
      refine iff_of_false ?_ (by simp)
      intro ⟨outcome, finds, exact⟩
      obtain rfl := findsBigKeys_unique lib toUInt64 _ {} _ _ finds spec
      cases exact
  | false =>
      rw [if_neg (by simp [unread])] at spec
      constructor
      · intro ⟨outcome, finds, exact⟩
        obtain rfl := findsBigKeys_unique lib toUInt64 _ {} _ _ finds spec
        exact ⟨empty, rfl, exact⟩
      · intro ⟨_, _, exact⟩
        exact ⟨_, spec, exact⟩

end Whole

theorem Database.named_of_mem (database : Database) (entry : KeyEntry) (member : entry ∈ database.entries) :
    database.named entry.name = entry := by
  rw [Database.named]
  cases found : database.entries.find? (·.name = entry.name) with
  | none =>
      have other := List.find?_eq_none.mp found entry member
      simp at other
  | some other =>
      have same : other.name = entry.name := by simpa using List.find?_some found
      exact List.inj_on_of_nodup_map database.nodup (List.mem_of_find?_eq_some found) member same

-- Keys with names that are C strings count alike unless their sizes add up to too much.
theorem askedAlike_of_clean (database : Database)
    (clean : ∀ entry ∈ database.entries, (0 : UInt8) ∉ entry.name ∧ entry.name ≠ []) (type : KeyType)
    (few : ((database.ofType type).map KeyEntry.size).sum < 2 ^ 64) : database.AskedAlike type := by
  have asked : database.asked = database.entries := by
    rw [Database.asked]
    conv_rhs => rw [← List.map_id database.entries]
    apply List.map_congr_left
    intro entry member
    rw [cString_eq_self _ (clean entry member).1, database.named_of_mem entry member, id_eq]
  have same : database.askedOf type = database.ofType type := by rw [Database.askedOf, asked, Database.ofType]
  refine ⟨by rw [same], by rw [same, Nat.mod_eq_of_lt few], by rw [same], ?_⟩
  intro _ entry first
  rw [Database.firstBiggest, same] at first
  exact (clean entry (List.mem_filter.mp (List.mem_of_find?_eq_some first)).1).2

section Samples

def readUInt64 (text : Text) : UInt64 := UInt64.ofNat (readNat text)

def sampleDatabase : Database where
  entries := [⟨ascii "a b", .string, 3⟩, ⟨ascii "gone", .none, 0⟩, ⟨ascii "l", .list, 7⟩]
  nodup := by decide
  size_lt := by decide
  count_lt := by decide

def sampleBatches : List Batch := [⟨17, [ascii "a b"]⟩, ⟨5, []⟩, ⟨0, [ascii "gone", ascii "l"]⟩]

theorem sample_scanned :
    ∃ outcome, FindsBigKeys .std readUInt64 (databaseServer sampleDatabase sampleBatches) {} outcome ∧
      Exact sampleDatabase outcome := by
  apply (big_keys_exact_iff .std readUInt64 (fun n => by simp [readUInt64]) sampleDatabase sampleBatches (by decide)
    rfl).mpr
  refine ⟨by decide, by decide, ?_⟩
  intro type inTypes
  apply askedAlike_of_clean
  · decide
  · revert type
    decide

def emptyDatabase : Database := ⟨[], by decide, by decide, by decide⟩

/-- The number of keys is divided by before the first batch. -/
theorem empty_database_faults :
    ¬ ∃ outcome, FindsBigKeys .std readUInt64 (databaseServer emptyDatabase [⟨0, []⟩]) {} outcome ∧
      Exact emptyDatabase outcome := by
  intro ⟨outcome, finds, exact⟩
  have faults : FindsBigKeys .std readUInt64 (databaseServer emptyDatabase [⟨0, []⟩]) {} .fault :=
    findsBigKeys_spec .std readUInt64 (fun n => by simp [readUInt64]) emptyDatabase [⟨0, []⟩] rfl rfl
  obtain rfl := findsBigKeys_unique .std readUInt64 _ {} _ _ finds faults
  cases exact

end Samples

end FastoNoSQL.Redis.BigKeys
