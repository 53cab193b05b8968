import FastoNoSQL.Redis.Server
import FastoNoSQL.Runs
import FastoNoSQL.Sds

set_option autoImplicit false

/-!
# Pipelined commands

The functions of the redis connection that append a batch of commands and then
read the replies. hiredis keeps the replies that were not read in a queue, in
the order of the commands.
-/

namespace FastoNoSQL.Redis

open Bytes Sds

/-- The commands sent so far, and the replies to them that were not read. -/
structure Link where
  sent : List (List Text) := []
  queue : List Reply := []

section Connection

-- The reply to the last of the commands sent.
variable (lib : Common) (clusterMode : Bool) (answer : List (List Text) → Reply)

-- `redisAppendCommandArgv`, and the reply that the server will send.
def Link.append (link : Link) (argv : List Text) : Link :=
  ⟨link.sent ++ [argv], link.queue ++ [answer (link.sent ++ [argv])]⟩

-- `redisGetReply`; it blocks when nothing is outstanding.
def Link.getReply (link : Link) : Option (Reply × Link) :=
  match link.queue with
  | [] => none
  | reply :: queue => some (reply, { link with queue := queue })

/-! ## Keys -/

inductive KeyType where
  | string | list | set | hash | zset | none
deriving DecidableEq

def toIntType (key type : Text) : Except ErrorValue KeyType :=
  if cString type = ascii "string" then .ok .string
  else if cString type = ascii "list" then .ok .list
  else if cString type = ascii "set" then .ok .set
  else if cString type = ascii "hash" then .ok .hash
  else if cString type = ascii "zset" then .ok .zset
  else if cString type = ascii "none" then .ok .none
  else .error ⟨lib.memSPrintf (ascii "Unknown type '%s' for key '%s'") [.s type, .s key], true⟩

-- `REDIS_REPLY_*` of hiredis.
def Reply.type : Reply → Int
  | string _ => 1
  | array _ => 2
  | integer _ => 3
  | nil => 4
  | status _ => 5
  | error _ => 6

def readType (key : Text) : Reply → Except ErrorValue KeyType
  | .status type => toIntType lib key type
  | reply =>
    .error ⟨lib.memSPrintf (ascii "Invalid reply type (%d) for TYPE on key '%s'!") [.d reply.type, .s key], true⟩

def readTypes : List Text → Link → Option (Except ErrorValue (List KeyType) × Link)
  | [], link => some (.ok [], link)
  | key :: keys, link => do
    let (reply, link) ← link.getReply
    match readType lib key reply with
    | .error err => return (.error err, link)
    | .ok type =>
      let (types, link) ← readTypes keys link
      return (types.map (type :: ·), link)

def getKeyTypes (keys : List Text) (link : Link) : Option (Except ErrorValue (List KeyType) × Link) :=
  readTypes lib keys (keys.foldl (fun link key => link.append answer [ascii "TYPE", cString key]) link)

def sizeCommand : KeyType → Text
  | .string => ascii "STRLEN"
  | .list => ascii "LLEN"
  | .set => ascii "SCARD"
  | .hash => ascii "HLEN"
  | .zset => ascii "ZCARD"
  | .none => []

def readSizes : List (Text × KeyType) → Link → Option (List Int × Link)
  | [], link => some ([], link)
  | (_, .none) :: keys, link => do
    let (sizes, link) ← readSizes keys link
    return (0 :: sizes, link)
  | _ :: keys, link => do
    let (reply, link) ← link.getReply
    let (sizes, link) ← readSizes keys link
    match reply with
    | .integer size => return (size :: sizes, link)
    | _ => return (0 :: sizes, link)

-- Keys that were deleted have the type none and are skipped.
def getKeySizes (keys : List (Text × KeyType)) (link : Link) : Option (List Int × Link) :=
  readSizes keys (keys.foldl (fun link (key, type) =>
    if type = .none then link else link.append answer [sizeCommand type, cString key]) link)

def dbkcount (link : Link) : Option (Except ErrorValue UInt64 × Link) := do
  let (reply, link) ← (link.append answer [ascii "DBSIZE"]).getReply
  match reply with
  | .integer size => return (.ok (UInt64.ofInt size), link)
  | _ => return (.error (makeErrorValue "Couldn't determine DBSIZE!"), link)

/-! ## Commands -/

/-- Where the server of a slot is; none when the text is not what the pointers are moved over. -/
def redirection (text : Text) : Option (Int32 × HostAndPort) :=
  match text.dropWhile (· ≠ byte ' ') with
  | [] => none
  | _ :: slot =>
    match slot.dropWhile (· ≠ byte ' ') with
    | [] => none
    | _ :: address =>
      match address.dropWhile (· ≠ byte ':') with
      | [] => none
      | _ :: port =>
        some (lib.toInt (slot.takeWhile (· ≠ byte ' ')),
          ⟨address.takeWhile (· ≠ byte ':'), lib.toUInt16 port⟩)

def isRedirect : Reply → Bool
  | .error text => clusterMode && ((cString text).take 5 = ascii "MOVED" || cString text = ascii "ASK")
  | _ => false

/-- What `CliReadReply` makes of a reply: an error, or a child of the command object. -/
def formatReply (reply : Reply) : Option (Except ErrorValue Reply) :=
  match reply with
  | .error text =>
    if isRedirect clusterMode reply then
      (redirection lib (cString text)).map fun (slot, host) =>
        .ok (.string (lib.memSPrintf (ascii "-> Redirected to slot [%d] located at %s") [.d slot.toInt, .s host.text]))
    else some (.error ⟨text, true⟩)
  | reply => some (.ok reply)

def cliReadReply (link : Link) : Option (Except ErrorValue Reply × Link) := do
  let (reply, link) ← link.getReply
  let child ← formatReply lib clusterMode reply
  return (child, link)

def isPipeLineCommand (command : Text) : Bool :=
  lower (cString command) ∉ (["quit", "exit", "connect", "help", "?", "shutdown", "monitor", "subscribe",
    "psubscribe", "sync", "psync"].map ascii)

/-- What becomes of one command of a batch. The first word of a blank line is read although there is
none. -/
inductive Plan where
  | skipped
  | sent (argv : List Text)
  | undefined
deriving DecidableEq

def plan (input : Text) : Plan :=
  if input = [] then .skipped
  else
    match sdssplitargslong input with
    | none => .skipped
    | some [] => .undefined
    | some (word :: args) =>
      if isPipeLineCommand word then .sent ((word :: args).map cString) else .skipped

/-- The commands that are sent, as `valid_cmds` counts them. -/
def sendAll : List Text → Link → Option (Nat × Link)
  | [], link => some (0, link)
  | input :: inputs, link =>
    match plan input with
    | .undefined => none
    | .skipped => sendAll inputs link
    | .sent argv => do
      let (count, link) ← sendAll inputs (link.append answer argv)
      return (count + 1, link)

/-- The children that the first command objects get, one each, up to an error. -/
def readChildren : Nat → Link → Option (Option ErrorValue × List Reply × Link)
  | 0, link => some (none, [], link)
  | count + 1, link => do
    let (child, link) ← cliReadReply lib clusterMode link
    match child with
    | .error err => return (some err, [], link)
    | .ok child =>
      let (err, children, link) ← readChildren count link
      return (err, child :: children, link)

-- `ExecuteAsPipeline`: its error, the child of each of the first objects of `cmds`, and the link.
def executeAsPipeline (cmds : List Text) (link : Link) : Option (Option ErrorValue × List Reply × Link) :=
  if cmds = [] then some (some (makeErrorValue "Invalid input command"), [], link)
  else do
    let (count, link) ← sendAll answer cmds link
    readChildren lib clusterMode count link

def commonExec (argv : List Text) (link : Link) : Option (Except ErrorValue Reply × Link) :=
  cliReadReply lib clusterMode (link.append answer argv)

end Connection

/-! ## Batches -/

section Batches

variable (lib : Common) (clusterMode : Bool) (answer : List (List Text) → Reply)

-- The replies to a batch of commands, after those sent before.
def replies (sent : List (List Text)) : List (List Text) → List Reply
  | [] => []
  | argv :: batch => answer (sent ++ [argv]) :: replies (sent ++ [argv]) batch

theorem length_replies (sent batch : List (List Text)) : (replies answer sent batch).length = batch.length := by
  induction batch generalizing sent with
  | nil => rfl
  | cons argv batch ih => rw [replies, List.length_cons, ih, List.length_cons]

theorem foldl_append (batch : List (List Text)) (link : Link) :
    batch.foldl (Link.append answer) link = ⟨link.sent ++ batch, link.queue ++ replies answer link.sent batch⟩ := by
  induction batch generalizing link with
  | nil => simp [replies]
  | cons argv batch ih =>
      rw [List.foldl_cons, ih]
      simp [Link.append, replies]

-- What is left of a list when the reader stops after the first bad element.
def leftover {A : Type} (bad : A → Bool) : List A → List A
  | [] => []
  | first :: rest => if bad first then rest else leftover bad rest

theorem leftover_eq_nil_iff {A : Type} (bad : A → Bool) (list : List A) :
    leftover bad list = [] ↔ ∀ element ∈ list.dropLast, bad element = false := by
  induction list with
  | nil => simp [leftover]
  | cons first rest ih =>
      rw [leftover]
      cases rest with
      | nil => cases bad first <;> simp [leftover]
      | cons second rest =>
          rw [List.dropLast_cons_cons, List.forall_mem_cons, ← ih]
          cases bad first <;> simp

/-! ### Types and sizes -/

def isUnknownType (entry : Text × Reply) : Bool :=
  match readType lib entry.1 entry.2 with
  | .error _ => true
  | .ok _ => false

theorem readTypes_leftover (keys : List Text) (sent : List (List Text)) (queue : List Reply)
    (each : queue.length = keys.length) :
    ∃ result, readTypes lib keys ⟨sent, queue⟩ =
      some (result, ⟨sent, (leftover (isUnknownType lib) (keys.zip queue)).map Prod.snd⟩) := by
  induction keys generalizing queue with
  | nil =>
      obtain rfl := List.length_eq_zero_iff.mp each
      exact ⟨.ok [], rfl⟩
  | cons key keys ih =>
      cases queue with
      | nil => simp at each
      | cons reply queue =>
          have count : queue.length = keys.length := by simpa using each
          obtain ⟨result, rest⟩ := ih queue count
          cases outcome : readType lib key reply with
          | error err =>
              have stop : isUnknownType lib (key, reply) = true := by simp [isUnknownType, outcome]
              refine ⟨.error err, ?_⟩
              simp [readTypes, Link.getReply, outcome, leftover, stop, List.map_snd_zip (le_of_eq count)]
          | ok type =>
              have next : isUnknownType lib (key, reply) = false := by simp [isUnknownType, outcome]
              refine ⟨result.map (type :: ·), ?_⟩
              simp [readTypes, Link.getReply, outcome, leftover, next, rest]

def typeCommands (keys : List Text) : List (List Text) := keys.map fun key => [ascii "TYPE", cString key]

theorem getKeyTypes_batch (keys : List Text) (link : Link) (idle : link.queue = []) :
    getKeyTypes lib answer keys link = readTypes lib keys
      ⟨link.sent ++ typeCommands keys, replies answer link.sent (typeCommands keys)⟩ := by
  have sent := foldl_append answer (typeCommands keys) link
  rw [idle, List.nil_append] at sent
  rw [getKeyTypes, ← sent, typeCommands, List.foldl_map]

theorem getKeyTypes_spec (keys : List Text) (link : Link) (idle : link.queue = []) :
    ∃ result, getKeyTypes lib answer keys link =
      some (result, ⟨link.sent ++ typeCommands keys,
        (leftover (isUnknownType lib) (keys.zip (replies answer link.sent (typeCommands keys)))).map Prod.snd⟩) := by
  rw [getKeyTypes_batch lib answer keys link idle]
  apply readTypes_leftover
  rw [length_replies, typeCommands, List.length_map]

def sizeCommands (keys : List (Text × KeyType)) : List (List Text) :=
  (keys.filter (·.2 ≠ .none)).map fun (key, type) => [sizeCommand type, cString key]

theorem readSizes_all (keys : List (Text × KeyType)) (sent : List (List Text)) (queue : List Reply)
    (each : queue.length = (keys.filter (·.2 ≠ .none)).length) :
    ∃ sizes, readSizes keys ⟨sent, queue⟩ = some (sizes, ⟨sent, []⟩) := by
  induction keys generalizing queue with
  | nil =>
      obtain rfl := List.length_eq_zero_iff.mp each
      exact ⟨[], rfl⟩
  | cons entry keys ih =>
      obtain ⟨key, type⟩ := entry
      by_cases gone : type = .none
      · subst gone
        obtain ⟨sizes, rest⟩ := ih queue (by simpa using each)
        exact ⟨0 :: sizes, by simp [readSizes, rest]⟩
      · cases queue with
        | nil => simp [gone] at each
        | cons reply queue =>
            obtain ⟨sizes, rest⟩ := ih queue (by simpa [gone] using each)
            have step : readSizes ((key, type) :: keys) ⟨sent, reply :: queue⟩ =
                match reply with
                | .integer size => some (size :: sizes, ⟨sent, []⟩)
                | _ => some (0 :: sizes, ⟨sent, []⟩) := by
              cases type with
              | none => exact absurd rfl gone
              | _ => cases reply <;> simp [readSizes, Link.getReply, rest]
            rw [step]
            cases reply <;> exact ⟨_, rfl⟩

theorem getKeySizes_batch (keys : List (Text × KeyType)) (link : Link) (idle : link.queue = []) :
    getKeySizes answer keys link = readSizes keys
      ⟨link.sent ++ sizeCommands keys, replies answer link.sent (sizeCommands keys)⟩ := by
  have batch : keys.foldl (fun link (key, type) =>
      if type = .none then link else link.append answer [sizeCommand type, cString key]) link =
        (sizeCommands keys).foldl (Link.append answer) link := by
    clear idle
    induction keys generalizing link with
    | nil => rfl
    | cons entry keys ih =>
        obtain ⟨key, type⟩ := entry
        by_cases gone : type = .none
        · simp only [List.foldl_cons, gone, if_true, ih]
          simp [sizeCommands]
        · simp only [List.foldl_cons, gone, if_false, ih]
          simp [sizeCommands, gone]
  rw [getKeySizes, batch, foldl_append, idle, List.nil_append]

theorem getKeySizes_spec (keys : List (Text × KeyType)) (link : Link) (idle : link.queue = []) :
    ∃ sizes, getKeySizes answer keys link = some (sizes, ⟨link.sent ++ sizeCommands keys, []⟩) := by
  rw [getKeySizes_batch answer keys link idle]
  apply readSizes_all
  rw [length_replies, sizeCommands, List.length_map]

end Batches

end FastoNoSQL.Redis
