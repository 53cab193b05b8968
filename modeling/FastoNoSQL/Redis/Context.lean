import FastoNoSQL.Redis.Modes
import FastoNoSQL.Redis.Wire

set_option autoImplicit false

/-!
# The context of a connection

`redisContext` with its output buffer and its reader, and the calls that append
commands, write them and read replies. A call for a reply writes and reads until
it has one; each `write` and `read` it makes meets an event.
-/

namespace FastoNoSQL.Redis

open Bytes Sds Framing Halting Modes

structure Context where
  err : Option (ContextError × Text) := none
  obuf : Text := []
  reader : Reader := {}

/-- What a call of `write` or `read` returns: -1 with `EINTR` or with another error, a count, or the bytes that are
read, of which there are none when the server has closed the connection. -/
inductive Event where
  | interrupted
  | failed (errstr : Text)
  | wrote (count : Nat)
  | read (piece : Text)
deriving DecidableEq

namespace Context

variable (c : Context)

-- `__redisSetError`
def setError (type : ContextError) (str : Text) : Context := { c with err := some (type, str.take 127) }

/-! ## Appending -/

-- `__redisAppendCommand`, whose `size_t` is made of an `int`.
def appendCommand (cmd : Text) (len : Int) : Option Context :=
  if 0 ≤ len ∧ len ≤ cmd.length then some { c with obuf := c.obuf ++ cmd.take len.toNat } else none

-- Whether the command was appended; none where the source asserts or reads past the command, and where a pattern does
-- not go with its arguments.
def appendFormatted (formatted : Option (Text × Int)) : Option (Bool × Context) :=
  match formatted with
  | none => none
  | some (cmd, len) =>
    if len = -1 then some (false, c.setError .oom (ascii "Out of memory"))
    else (c.appendCommand cmd len).map fun c => (true, c)

def redisAppendCommandArgv (argv : List Text) : Option (Bool × Context) :=
  c.appendFormatted (redisFormatSdsCommandArgv argv)

-- A pattern with arguments, as `redisCommand` and `redisAppendCommand` take it.
def redisvAppendCommand (format : Text) (args : List Arg) : Option (Bool × Context) :=
  c.appendFormatted (redisvFormatCommand format args)

theorem redisAppendCommandArgv_eq (argv : List Text) (small : (commandText argv).length < 2 ^ 31) :
    c.redisAppendCommandArgv argv = some (true, { c with obuf := c.obuf ++ commandText argv }) := by
  have size := toInt_eq (commandText argv).length (by omega) (by omega)
  rw [redisAppendCommandArgv, redisFormatSdsCommandArgv_eq, appendFormatted, size]
  simp [appendCommand]

-- Both ways to append a command write the same.
theorem redisvAppendCommand_eq (format : Text) (args : List Arg) (argv : List Text)
    (formatted : redisFormatCommand format args = some argv) (small : (commandText argv).length < 2 ^ 31) :
    c.redisvAppendCommand format args = c.redisAppendCommandArgv argv := by
  have size := toInt_eq (commandText argv).length (by omega) (by omega)
  rw [redisvAppendCommand, redisvFormatCommand, formatted, Option.bind_some, protocolCommand_eq argv small,
    redisAppendCommandArgv, redisFormatSdsCommandArgv_eq, size]

/-! ## Writing and reading -/

-- Whether it returns `REDIS_OK`.
def redisBufferWrite (event : Event) : Bool × Context :=
  if c.err.isSome then (false, c)
  else if c.obuf = [] then (true, c)
  else
    match event with
    | .failed errstr => (false, c.setError .io errstr)
    | .wrote count =>
      if 0 < count then
        if (count : Int) = toInt c.obuf.length then (true, { c with obuf := [] })
        else (true, { c with obuf := sdsrange c.obuf (toInt count) (-1) })
      else (true, c)
    | _ => (true, c)

def redisBufferRead (event : Event) : Bool × Context :=
  if c.err.isSome then (false, c)
  else
    match event with
    | .failed errstr => (false, c.setError .io errstr)
    | .read [] => (false, c.setError .eof (ascii "Server closed the connection"))
    | .read piece =>
      if (c.reader.redisReaderFeed piece).1 then (true, { c with reader := (c.reader.redisReaderFeed piece).2 })
      else (false, c.setError .protocol (c.reader.err.getD []))
    | _ => (true, c)

end Context

/-! ## A call for a reply -/

inductive Phase where
  | write
  | read
deriving DecidableEq

structure ReplyCall where
  context : Context
  phase : Phase

/-- The reply, unless the call fails. -/
structure Returned where
  reply : Option ReplyObject
  context : Context

namespace Context

variable (c : Context)

-- `redisGetReplyFromReader`, and how the call goes on without a reply.
def fromReader (next : Context → Progress ReplyCall Returned) : Progress ReplyCall Returned :=
  match c.reader.redisReaderGetReply with
  | none => .undefined
  | some (.message reply, reader) => .returned ⟨some reply, { c with reader := reader }⟩
  | some (.failed (.error errstr), reader) =>
    .returned ⟨none, { c with reader := reader }.setError .protocol errstr⟩
  | some (_, reader) => next { c with reader := reader }

-- The loop that reads, up to its next `read`.
def reading : Progress ReplyCall Returned := if c.err.isSome then .returned ⟨none, c⟩ else .going ⟨c, .read⟩

-- The loop that writes, up to its next `write` or its end.
def writing : Progress ReplyCall Returned :=
  if c.err.isSome then .returned ⟨none, c⟩ else if c.obuf = [] then c.reading else .going ⟨c, .write⟩

def redisGetReply : Progress ReplyCall Returned := c.fromReader writing

end Context

def ReplyCall.step (call : ReplyCall) (event : Event) : Progress ReplyCall Returned :=
  match call.phase with
  | .write =>
    let (ok, c) := call.context.redisBufferWrite event
    if ok then c.writing else .returned ⟨none, c⟩
  | .read =>
    let (ok, c) := call.context.redisBufferRead event
    if ok then c.fromReader Context.reading else .returned ⟨none, c⟩

end FastoNoSQL.Redis
