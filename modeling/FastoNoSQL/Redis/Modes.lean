import FastoNoSQL.Bytes.Sections
import FastoNoSQL.Halting
import FastoNoSQL.Redis.Latency
import FastoNoSQL.Redis.Redirection
import FastoNoSQL.Redis.Session
import FastoNoSQL.Redis.Sync

set_option autoImplicit false

/-!
# Long-running modes

`StatMode`, `LatencyMode`, `SlaveMode`, `ScanMode`, `Monitor` and `Subscribe` of
`core/redis/db_connection.cpp`, call by call: what each does with the next
result of the transport, and where it tests whether it was interrupted.
-/

namespace FastoNoSQL.Redis

open Bytes

namespace Modes

/-! ## The line of a statistic -/

-- `strtol(text, NULL, 10)`.
def strtol (text : Text) : Int64 :=
  let text := text.dropWhile isspace
  let negative := text.head? = some (byte '-')
  let value := readNat ((if negative ∨ text.head? = some (byte '+') then text.tail else text).takeWhile isDigit)
  if negative then .ofInt (-min value (2 ^ 63)) else .ofInt (min value (2 ^ 63 - 1))

/-- The field of a report, none when it has no such field. There is no result when the report ends with the
name of the field, or without a carriage return behind it. -/
def getInfoField (info field : Text) : Option (Option Text) :=
  match find field info with
  | none => some none
  | some found =>
    match info.drop (found + field.length) with
    | [] => none
    | _ :: value =>
      if byte '\r' ∈ value then some (some (value.takeWhile fun c => c ≠ byte '\r' ∧ c ≠ byte ',')) else none

def getLongInfoField (info field : Text) : Option Int64 :=
  (getInfoField info field).map fun value => (value.map strtol).getD .minValue

/-- What the text buffer `s` holds after the call; a number of at least 2^40 bytes is not printed. -/
def bytesToHuman (s : Text) (n : Int64) : Text :=
  let (sign, s, n) := if n < 0 then ([byte '-'], s.drop 1, -n) else ([], s, n)
  let whole (n : Int64) (unit : String) : Text := intText n.toInt ++ ascii unit
  sign ++
    if n < 1024 then natText n.toUInt64.toNat ++ ascii "B"
    else if n < 1024 * 1024 then whole (n / 1024) ".00K"
    else if n < 1024 * 1024 * 1024 then whole (n / (1024 * 1024)) ".00M"
    else if n < 1024 * 1024 * 1024 * 1024 then whole (n / (1024 * 1024 * 1024)) ".00G"
    else s

/-- The numbers that `StatMode` reads of the answer to `INFO`. -/
structure Info where
  keys : Int64
  usedMemory : Int64
  connectedClients : Int64
  blockedClients : Int64
  totalCommandsProcessed : Int64
  totalConnectionsReceived : Int64
  bgsaveInProgress : Int64
  aofRewriteInProgress : Int64
deriving DecidableEq

def readInfo (info : Text) : Option Info := do
  let keys ← (List.range 20).mapM fun j => getLongInfoField info (ascii "db" ++ natText j ++ ascii ":keys")
  let usedMemory ← getLongInfoField info (ascii "used_memory")
  let connectedClients ← getLongInfoField info (ascii "connected_clients")
  let blockedClients ← getLongInfoField info (ascii "blocked_clients")
  let totalCommandsProcessed ← getLongInfoField info (ascii "total_commands_processed")
  let totalConnectionsReceived ← getLongInfoField info (ascii "total_connections_received")
  let bgsaveInProgress ← getLongInfoField info (ascii "bgsave_in_progress")
  let aofRewriteInProgress ← getLongInfoField info (ascii "aof_rewrite_in_progress")
  return ⟨(keys.filter (· ≠ .minValue)).foldl (· + ·) 0, usedMemory, connectedClients, blockedClients,
    totalCommandsProcessed, totalConnectionsReceived, bgsaveInProgress, aofRewriteInProgress⟩

-- `SNPrintf` into the 64 bytes of `buf`.
def printed (text : Text) : Text := text.take 63

/-- The text of a statistic; `requests` is what the commands were before. -/
def statText (requests : Int64) (info : Info) : Text :=
  let number (label : String) (n : Int64) : Text := printed (ascii label ++ intText n.toInt)
  let keys := number "keys " info.keys
  let aux := info.totalCommandsProcessed
  let more := if requests = 0 then 0 else aux - requests
  let children := info.bgsaveInProgress ||| info.aofRewriteInProgress <<< 1
  keys ++ ascii " used_memory: " ++ bytesToHuman keys info.usedMemory ++
    number " connected_clients: " info.connectedClients ++ number " blocked_clients: " info.blockedClients ++
    printed (ascii " total_commands_processed: " ++ intText aux.toInt ++ ascii " (+" ++ intText more.toInt ++
      ascii ")") ++
    number " total_connections_received: " info.totalConnectionsReceived ++
    if children = 1 then ascii " SAVE" else if children = 2 then ascii " AOF"
    else if children = 3 then ascii " SAVE+AOF" else []

/-! ## What the calls meet -/

inductive ContextError where
  | io
  | other
  | eof
  | protocol
  | oom
deriving DecidableEq

-- `REDIS_ERR_*` of hiredis.
def ContextError.code : ContextError → Nat
  | io => 1
  | other => 2
  | eof => 3
  | protocol => 4
  | oom => 5

/-- The error of a context; `reset` is whether `errno` is `ECONNRESET`. -/
structure Failure where
  err : ContextError
  errstr : Text
  reset : Bool
deriving DecidableEq

-- `err & (REDIS_ERR_IO | REDIS_ERR_EOF)`
def Failure.retried (failure : Failure) : Bool :=
  failure.err.code &&& (ContextError.io.code ||| ContextError.eof.code) ≠ 0

/-- What a call for a reply returns: one that may have been read before the context failed, or nothing. -/
inductive Answer where
  | reply (reply : Reply) (context : Option Failure)
  | null (failure : Failure)

def Answer.context : Answer → Option Failure
  | reply _ context => context
  | null failure => some failure

-- The error that ends a loop which retries the others.
def Answer.fatal (answer : Answer) : Option Failure := answer.context.filter fun failure => !failure.retried

/-- One call: what a test of the interrupt flag before it finds, the time before and after, and what it returns
when it writes, reads bytes or waits for a reply. A read of bytes fails with `none`. -/
structure Moment where
  interrupted : Bool
  start : Int64
  sent : Bool
  read : Option (Transport.Received UInt8)
  answer : Answer
  curTime : Int64

-- No more bytes than were asked for.
def upTo (size : Nat) : Transport.Received UInt8 → Transport.Received UInt8
  | .data bytes => .data (bytes.take size)
  | .status code => .status code

def str : Reply → Option Text
  | .status text => some (cString text)
  | .error text => some (cString text)
  | .string text => some (cString text)
  | _ => none

-- The cursor and the keys of an answer to `SCAN`; no result when a text that is read is missing.
def scanned : Reply → Option (Nat × List Text)
  | .array (cursor :: keys :: _) => do
    let cursor ← str cursor
    let keys ← (match keys with | .array elements => elements | _ => []).mapM str
    return (Sync.strtoull cursor, keys)
  | _ => none

/-! ## The modes -/

/-- What a mode is given; `cells` is the memory that the header of a transfer is read into. -/
structure Setup where
  lib : Common
  config : Config
  average : UInt64 → UInt64 → Text
  historyStart : Int64
  connected : Bool
  cells : Nat → UInt8

inductive Mode where
  | stat
  | latency
  | slave
  | scan
  | monitor
  | subscribe
deriving DecidableEq

/-- The children of the command object, and what a redirection sets. -/
structure Output where
  children : List Reply
  target : Redirection.Target

structure Result where
  err : Option ErrorValue
  output : Output

/-- Where a mode is between two calls. -/
inductive State where
  -- `requests` and the lines; the inner loop is entered again when it is retrying.
  | stat (retrying : Bool) (requests : Int64) (lines : List Text)
  | latency (state : Latency.State Latency.Window)
  | sync
  | header (buf : Text) (cells : Nat → UInt8)
  | payload (left : Nat)
  | replies (output : Output)
  -- The cursor of the next command, and the keys found.
  | scan (cur : Nat) (found : List Text)
  -- How many calls come before the first test.
  | listening (untested : Nat) (output : Output)

open Halting (Progress)

section Steps

variable (setup : Setup)

def Setup.clusterMode : Bool := setup.config.clusterMode ≠ 0

def Setup.output (children : List Reply) : Output :=
  ⟨children, setup.config.host, setup.config.clusterReissueCommand ≠ 0⟩

def Setup.texts (lines : List Text) : Output := setup.output (lines.map .string)

def stop (err : ErrorValue) (output : Output) : Progress State Result := .returned ⟨some err, output⟩

def interrupted : ErrorValue := makeErrorValue "Interrupted."

def ioError : ErrorValue := makeErrorValue "I/O error"

def replyError (text : Text) : ErrorValue := printedError setup.lib "ERROR: %s" (cString text)

/-- The loops of `StatMode`: only the outer one tests the flag. -/
def statStep (retrying : Bool) (requests : Int64) (lines : List Text) (moment : Moment) : Progress State Result :=
  if !retrying && moment.interrupted then stop interrupted (setup.texts lines)
  else
    match moment.answer.fatal with
    | some failure => stop (replyError setup failure.errstr) (setup.texts lines)
    | none =>
      match moment.answer with
      | .null _ => .going (.stat true requests lines)
      | .reply (.error text) _ => stop (replyError setup text) (setup.texts lines)
      | .reply reply _ =>
        match (str reply).bind readInfo with
        | none => .undefined
        | some info => .going (.stat false info.totalCommandsProcessed (lines ++ [statText requests info]))

/-- The loop of `LatencyMode`. -/
def latencyStep (state : Latency.State Latency.Window) (moment : Moment) : Progress State Result :=
  let output := setup.texts (state.lines.map (Latency.Window.text setup.average))
  if moment.interrupted then stop interrupted output
  else
    match moment.answer with
    | .null _ => stop ioError output
    | .reply _ _ =>
      let sample := ⟨(moment.curTime - moment.start).toUInt64, moment.curTime⟩
      .going (.latency (Latency.sampleStep setup.config state sample))

-- The payload is discarded while there is any.
def discard (left : Nat) : State := if left = 0 then .replies (setup.output []) else .payload left

def syncStep (moment : Moment) : Progress State Result :=
  if moment.sent then .going (.header [] setup.cells)
  else stop (makeErrorValue "Error writing to master") (setup.output [])

-- The end of `SendSync`, once a line was read.
def headerEnd (buf : Text) : Progress State Result :=
  if buf.head? = some (byte '-') then
    stop (printedError setup.lib "SYNC with master failed: %s" (cString buf)) (setup.output [])
  else .going (discard setup (Sync.strtoull buf.tail))

/-- The loop of `SendSync`, which asks for one byte at a time. -/
def headerStep (buf : Text) (cells : Nat → UInt8) (moment : Moment) : Progress State Result :=
  match moment.read with
  | none => stop Sync.headerError (setup.output [])
  | some received =>
    if (upTo 1 received).isNothing then .going (.header buf cells)
    else if 4096 ≤ buf.length then .undefined
    else
      let cells := Transport.store cells buf.length (upTo 1 received)
      if cells buf.length = Sync.lineFeed then
        if buf = [] then .going (.header [] cells) else headerEnd setup buf
      else .going (.header (buf ++ [cells buf.length]) cells)

def payloadStep (left : Nat) (moment : Moment) : Progress State Result :=
  match moment.read with
  | none => stop Sync.readError (setup.output [])
  | some received => .going (discard setup (Sync.subtract left (Sync.nread (upTo (min 1024 left) received))))

def contextError (failure : Failure) : ErrorValue :=
  if failure.err = .io ∧ failure.reset = true ∨ failure.err = .eof then makeErrorValue "Needed reconnect."
  else cliPrintContextError setup.lib failure.errstr

/-- `CliReadReply`; `next` is where the caller goes on. -/
def cliReadReply (output : Output) (answer : Answer) (next : Output → State) : Progress State Result :=
  match answer with
  | .null failure => stop (contextError setup failure) output
  | .reply reply _ =>
    match Redirection.readReply setup.lib setup.clusterMode reply output.target with
    | none => .undefined
    | some (.error err, target) => stop err ⟨output.children, target⟩
    | some (.ok child, target) => .going (next ⟨output.children ++ [child], target⟩)

/-- The loop of `SlaveMode` behind the payload. -/
def repliesStep (output : Output) (moment : Moment) : Progress State Result :=
  if moment.interrupted then stop interrupted output else cliReadReply setup output moment.answer .replies

/-- The loop of `ScanMode`. -/
def scanStep (found : List Text) (moment : Moment) : Progress State Result :=
  match moment.answer with
  | .null _ => stop ioError (setup.texts found)
  | .reply (.error text) _ => stop (replyError setup text) (setup.texts found)
  | .reply reply _ =>
    match scanned reply with
    | none => .undefined
    | some (cur, keys) =>
      if cur = 0 then .returned ⟨none, setup.texts (found ++ keys)⟩ else .going (.scan cur (found ++ keys))

/-- `Monitor` and `Subscribe`: the first reply, and the loop that tests the flag behind each of the others. -/
def listenStep (untested : Nat) (output : Output) (moment : Moment) : Progress State Result :=
  if untested = 0 ∧ moment.interrupted = true then stop interrupted output
  else cliReadReply setup output moment.answer (.listening (untested - 1))

def step : State → Moment → Progress State Result
  | .stat retrying requests lines => statStep setup retrying requests lines
  | .latency state => latencyStep setup state
  | .sync => syncStep setup
  | .header buf cells => headerStep setup buf cells
  | .payload left => payloadStep setup left
  | .replies output => repliesStep setup output
  | .scan _ found => scanStep setup found
  | .listening untested output => listenStep setup untested output

def statMode : State := .stat false 0 []

def latencyMode : State := .latency ⟨{}, [], setup.historyStart⟩

def slaveMode : State := .sync

def scanMode : State := .scan 0 []

def listen : State := .listening 2 (setup.output [])

def monitor : State := listen setup

def subscribe : State := listen setup

def begin : Mode → State
  | .stat => statMode
  | .latency => latencyMode setup
  | .slave => slaveMode
  | .scan => scanMode
  | .monitor => monitor setup
  | .subscribe => subscribe setup

def start (mode : Mode) : Progress State Result :=
  if setup.connected then .going (begin setup mode) else stop notConnected (setup.output [])

end Steps

/-! ## The loops that were modelled before -/

section Links

variable (setup : Setup)

def round (moment : Moment) : Latency.Round :=
  ⟨moment.start, match moment.answer with | .null _ => none | .reply _ _ => some moment.curTime⟩

-- A run of `LatencyMode` up to the test that finds it interrupted.
theorem run_latency (state : Latency.State Latency.Window) (moments : List Moment) (last : Moment)
    (before : ∀ moment ∈ moments, moment.interrupted = false) (flag : last.interrupted = true) :
    Halting.run (step setup) (.going (.latency state)) (moments ++ [last]) =
      let (err, state) := Latency.loop setup.config state (moments.map round)
      stop err (setup.texts (state.lines.map (Latency.Window.text setup.average))) := by
  induction moments generalizing state with
  | nil => simp [step, latencyStep, flag, Latency.loop, interrupted]
  | cons moment moments ih =>
      have passed := before moment (by simp)
      rw [List.cons_append, Halting.run_going, step, latencyStep]
      simp only [passed, Bool.false_eq_true, if_false]
      cases answered : moment.answer with
      | null failure => simp [round, answered, Latency.loop, stop, ioError]
      | reply reply context =>
          have later := fun state => ih state fun other member => before other (List.mem_cons_of_mem moment member)
          simp [later, round, answered, Latency.loop]

-- The bytes that a transfer asks for.
def asked : State → Option Nat
  | .header _ _ => some 1
  | .payload left => some (min 1024 left)
  | _ => none

/-- The steps of a transfer over a stream, which only depend on what is read. -/
def serve (moment : Moment) : State → Text → List Transport.Read → Progress State Result
  | state, _, [] => .going state
  | state, stream, read :: reads =>
    match asked state with
    | none => .going state
    | some size =>
      match Transport.receive size stream read with
      | none => step setup state { moment with read := none }
      | some (received, left) =>
        match step setup state { moment with read := some received } with
        | .going state => serve moment state left reads
        | ended => ended

/-- What becomes of a transfer, by its outcome. -/
def Agrees : Transport.Outcome UInt8 ErrorValue Unit → Progress State Result → Prop
  | .undefined, progress => progress = .undefined
  | .blocked, progress => ∃ state, progress = .going state ∧ asked state ≠ none
  | .error err, progress => progress = stop err (setup.output [])
  | .done _ _ _, progress => progress = .going (.replies (setup.output []))

theorem upTo_receive {size : Nat} {stream left : Text} {read : Transport.Read} {received : Transport.Received UInt8}
    (gives : Transport.receive size stream read = some (received, left)) : upTo size received = received := by
  cases read with
  | chunk most =>
      obtain ⟨rfl, -⟩ : Transport.Received.data _ = received ∧ _ = left := by simpa [Transport.receive] using gives
      have same : min size (min most size) = min most size := by omega
      rw [upTo, List.take_take, same]
  | fail => cases gives
  | status code =>
      obtain ⟨rfl, -⟩ : Transport.Received.status code = received ∧ stream = left := by
        simpa [Transport.receive] using gives
      rfl

theorem serve_discard (moment : Moment) (left : Nat) (stream : Text) (reads : List Transport.Read) :
    Agrees setup (Transport.untilZero 1024 (fun _ => Sync.readError) Sync.slaveModeStep left () stream reads)
      (serve setup moment (discard setup left) stream reads) := by
  induction reads generalizing left stream with
  | nil =>
      cases left with
      | zero => rfl
      | succ left => exact ⟨.payload (left + 1), rfl, by simp [asked]⟩
  | cons read reads ih =>
      cases left with
      | zero => rfl
      | succ left =>
          rw [Transport.untilZero, discard, if_neg (Nat.succ_ne_zero left), serve]
          simp only [asked]
          cases gives : Transport.receive (min 1024 (left + 1)) stream read with
          | none => rfl
          | some received =>
              obtain ⟨received, rest⟩ := received
              have whole := upTo_receive gives
              simpa [step, payloadStep, whole, Sync.slaveModeStep] using ih _ rest

theorem serve_header (moment : Moment) (buf : Text) (cells : Nat → UInt8) (stream : Text)
    (reads : List Transport.Read) :
    Agrees setup
      ((Transport.readLine 4096 Sync.lineFeed Sync.headerError buf cells stream reads).andThen fun buf left reads =>
        if buf.head? = some (byte '-') then
          .error (printedError setup.lib "SYNC with master failed: %s" (cString buf))
        else
          Transport.untilZero 1024 (fun _ => Sync.readError) Sync.slaveModeStep (Sync.strtoull buf.tail) () left reads)
      (serve setup moment (.header buf cells) stream reads) := by
  induction reads generalizing buf cells stream with
  | nil => exact ⟨.header buf cells, rfl, by simp [asked]⟩
  | cons read reads ih =>
      rw [Transport.readLine, serve]
      simp only [asked]
      cases gives : Transport.receive 1 stream read with
      | none => rfl
      | some received =>
          obtain ⟨received, left⟩ := received
          simp only [step, headerStep, upTo_receive gives]
          split
          · exact ih buf cells left
          · split
            · rfl
            · split
              · split
                · exact ih [] _ left
                · rw [Transport.Outcome.andThen, headerEnd]
                  split
                  · rfl
                  · exact serve_discard setup moment _ left reads
              · exact ih _ _ left

/-- The transfer of `SlaveMode`, over every stream and every way in which it is cut into pieces. -/
theorem serve_slaveMode (machine : Sync.Machine) (moment : Moment) (connected : machine.connected = true)
    (sent : machine.sent = true) (cells : machine.cells = setup.cells) (stream : Text) (reads : List Transport.Read) :
    Agrees setup (Sync.slaveMode setup.lib machine stream reads)
      (serve setup moment (.header [] setup.cells) stream reads) := by
  have header := serve_header setup moment [] setup.cells stream reads
  simp only [Sync.slaveMode, Sync.sendSync, connected, sent, cells, Bool.not_true, Bool.false_eq_true, if_false,
    Transport.Outcome.andThen_assoc]
  convert header using 3 with buf left reads
  split
  · rfl
  · rfl

end Links

end Modes

end FastoNoSQL.Redis
