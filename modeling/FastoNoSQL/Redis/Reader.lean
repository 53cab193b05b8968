import FastoNoSQL.Bytes.Decimal
import FastoNoSQL.Bytes.Sections
import FastoNoSQL.Framing
import FastoNoSQL.Redis.Conversion
import FastoNoSQL.Sds.Strings

set_option autoImplicit false

/-!
# The reader of replies

`read.c` of the vendored hiredis, with the functions of `hiredis.c` that make the
objects of a reply: a buffer that is fed with what the server sent, and a stack
of tasks over the reply that is put together.
-/

namespace FastoNoSQL.Redis

open Bytes Sds Framing

/-- A `redisReply` while it is put together: a slot of an array is NULL until its element is there. -/
inductive ReplyObject where
  | node (type integer : Int) (str : Text) (elements : UInt64) (element : List (Option ReplyObject))

namespace ReplyObject

open RedisReply

def createStringObject (type : Int) (str : Text) : ReplyObject := node type 0 str 0 []

def createArrayObject (elements : Int) : ReplyObject :=
  node replyArray 0 [] (UInt64.ofInt elements) (List.replicate elements.toNat none)

def createIntegerObject (value : Int) : ReplyObject := node replyInteger value [] 0 []

def createNilObject : ReplyObject := node replyNil 0 [] 0 []

-- `parent->element[task->idx] = r`, with the way to the parent by the indexes of the tasks. The root is the reply.
def place (obj : ReplyObject) : List Int → Option ReplyObject → Option ReplyObject
  | [], _ => some obj
  | _ :: _, none => none
  | idx :: path, some (node type integer str elements element) =>
    if type = replyArray ∧ 0 ≤ idx then
      match element[idx.toNat]? with
      | none => none
      | some slot =>
        (place obj path slot).map fun slot => node type integer str elements (element.set idx.toNat (some slot))
    else none

end ReplyObject

/-- `redisReadTask`; a negative type was not read yet. -/
structure ReadTask where
  type : Int := -1
  elements : Int := -1
  idx : Int
deriving DecidableEq

/-- The tasks, the current one first, and the reply they belong to. -/
structure Parse where
  rstack : List ReadTask
  reply : Option ReplyObject

-- With the task of the root pushed.
def Parse.root : Parse := ⟨[{ idx := -1 }], none⟩

def Parse.path (state : Parse) : List Int := (state.rstack.dropLast.map ReadTask.idx).reverse

-- None where the source asserts or reads what is not there.
def moveToNextTask : List ReadTask → Option (List ReadTask)
  | [] => some []
  | [_] => some []
  | cur :: prv :: rstack =>
    if prv.type = RedisReply.replyArray then
      if cur.idx = prv.elements - 1 then moveToNextTask (prv :: rstack)
      else if cur.idx < prv.elements then some ({ idx := cur.idx + 1 } :: prv :: rstack)
      else none
    else none

/-! ## Items -/

-- The loops of `seekNewline` as one: `pos` goes up to a return that a newline follows.
def seekFrom (s : Text) (limit : Int) (pos : Nat) : Option Nat :=
  if pos < limit then
    if s[pos]? = some 13 ∧ s[pos + 1]? = some 10 then some pos else seekFrom s limit (pos + 1)
  else none
termination_by (limit - pos).toNat

def seekNewline (s : Text) : Option Nat := seekFrom s (toInt (s.length - 1)) 0

def readDigits (mult : Int) : Text → Int → Option Int
  | [], _ => none
  | c :: s, v =>
    if c = 13 then some (mult * v)
    else if isDigit c then
      -- `v` is a `long long`: more than it holds is undefined.
      if v * 10 + (c.toNat - 48) < 2 ^ 63 then readDigits mult s (v * 10 + (c.toNat - 48)) else none
    else some (-1)

def readLongLong : Text → Option Int
  | [] => none
  | c :: s =>
    if c = byte '-' then readDigits (-1) s 0
    else if c = byte '+' then readDigits 1 s 0
    else readDigits 1 (c :: s) 0

inductive Item where
  | more
  | ok (state : Parse) (used : Nat)
  | error (errstr : Text)
  | undefined

-- The object takes its place, and the next task is the current one.
def Parse.create (state : Parse) (obj : ReplyObject) (used : Nat) : Item :=
  match obj.place state.path state.reply, moveToNextTask state.rstack with
  | some reply, some rstack => .ok ⟨rstack, some reply⟩ used
  | _, _ => .undefined

open RedisReply ReplyObject

def hexDigit (n : Nat) : UInt8 := byte (Nat.digitChar n)

def chrtos (c : UInt8) : Text :=
  let quote := byte '"'
  if c = byte '\\' ∨ c = quote then [quote, byte '\\', c, quote]
  else if c = 10 then ascii "\"\\n\""
  else if c = 13 then ascii "\"\\r\""
  else if c = 9 then ascii "\"\\t\""
  else if c = 7 then ascii "\"\\a\""
  else if c = 8 then ascii "\"\\b\""
  else if 32 ≤ c ∧ c ≤ 126 then [quote, c, quote]
  else ascii "\"\\x" ++ [hexDigit (c.toNat / 16), hexDigit (c.toNat % 16), quote]

def protocolByteError (c : UInt8) : Text :=
  ascii "Protocol error, got " ++ chrtos c ++ ascii " as reply type byte"

def depthError : Text := ascii "No support for nested multi bulk replies with depth > 7"

def typeOfByte (c : UInt8) : Option Int :=
  if c = byte '-' then some replyError
  else if c = byte '+' then some replyStatus
  else if c = byte ':' then some replyInteger
  else if c = byte '$' then some replyString
  else if c = byte '*' then some replyArray
  else none

-- The first part of `processItem`, when the type is not known.
def processType (state : Parse) : Text → Item
  | [] => .more
  | c :: _ =>
    match state.rstack, typeOfByte c with
    | cur :: rstack, some type => .ok { state with rstack := { cur with type := type } :: rstack } 1
    | [], _ => .undefined
    | _, none => .error (protocolByteError c)

section Items

variable (seek : Text → Option Nat) (state : Parse) (cur : ReadTask) (text : Text)

def processLineItem : Item :=
  match seek text with
  | none => .more
  | some len =>
    if cur.type = replyInteger then
      match readLongLong text with
      | some value => state.create (createIntegerObject value) (len + 2)
      | none => .undefined
    else state.create (createStringObject cur.type (text.take len)) (len + 2)

def processBulkItem : Item :=
  match seek text with
  | none => .more
  | some line =>
    match readLongLong text with
    | none => .undefined
    | some len =>
      if len < 0 then state.create createNilObject (line + 2)
      else if len + 2 < 2 ^ 63 then
        if line + 2 + (len.toNat + 2) ≤ text.length then
          state.create (createStringObject cur.type ((text.drop (line + 2)).take len.toNat))
            (line + 2 + (len.toNat + 2))
        else .more
      else .undefined

def processMultiBulkItem : Item :=
  if state.rstack.length = 9 then .error depthError
  else
    match seek text with
    | none => .more
    | some len =>
      match readLongLong text with
      | none => .undefined
      | some elements =>
        if elements = -1 then state.create createNilObject (len + 2)
        else if elements > 0 then
          match place (createArrayObject (toInt elements)) state.path state.reply with
          | some reply =>
            .ok ⟨{ idx := 0 } :: { cur with elements := toInt elements } :: state.rstack.tail, some reply⟩ (len + 2)
          | none => .undefined
        else state.create (createArrayObject (toInt elements)) (len + 2)

-- The second part of `processItem`, when the type is known.
def processTyped : Item :=
  if cur.type = replyError ∨ cur.type = replyStatus ∨ cur.type = replyInteger then processLineItem seek state cur text
  else if cur.type = replyString then processBulkItem seek state cur text
  else if cur.type = replyArray then processMultiBulkItem seek state cur text
  else .undefined

end Items

/-! ## The reader -/

/-- `redisReader`. -/
structure Reader where
  err : Option Text := none
  buf : Text := []
  pos : Nat := 0
  rstack : List ReadTask := []
  reply : Option ReplyObject := none

/-- The error of a reader, or that what the source does is undefined. -/
inductive Fault where
  | error (errstr : Text)
  | undefined
deriving DecidableEq

namespace Reader

def setError (errstr : Text) : Reader := { err := some (errstr.take 127) }

def parse (r : Reader) : Parse := ⟨r.rstack, r.reply⟩

-- The reader after an item, and whether it goes on.
def follow (r : Reader) : Item → Option (Bool × Reader)
  | .more => some (false, r)
  | .ok state used => some (true, { r with pos := r.pos + used, rstack := state.rstack, reply := state.reply })
  | .error errstr => some (false, setError errstr)
  | .undefined => none

def processItem (r : Reader) : Option (Bool × Reader) :=
  match r.rstack with
  | [] => none
  | cur :: _ =>
    if cur.type < 0 then
      match r.follow (processType r.parse (r.buf.drop r.pos)) with
      | some (true, r) =>
        match r.rstack with
        | [] => none
        | cur :: _ => r.follow (processTyped seekNewline r.parse cur (r.buf.drop r.pos))
      | stopped => stopped
    else r.follow (processTyped seekNewline r.parse cur (r.buf.drop r.pos))

-- Each item uses some of the buffer.
def processItems : Nat → Reader → Option Reader
  | 0, r => some r
  | fuel + 1, r =>
    if r.rstack = [] then some r
    else
      match r.processItem with
      | none => none
      | some (true, r) => processItems fuel r
      | some (false, r) => some r

def redisReaderFeed (r : Reader) (buf : Text) : Bool × Reader :=
  if r.err.isSome then (false, r) else (true, { r with buf := r.buf ++ buf })

-- What was used is thrown away when it is at least a kilobyte.
def discard (r : Reader) : Reader :=
  if 1024 ≤ r.pos then { r with buf := sdsrange r.buf (toInt r.pos) (-1), pos := 0 } else r

def pushRoot (r : Reader) : Reader := if r.rstack = [] then { r with rstack := Parse.root.rstack } else r

-- The end of `redisReaderGetReply`: a reply is emitted when the stack is empty.
def emit (r : Reader) : Result ReplyObject Fault × Reader :=
  match r.err with
  | some errstr => (.failed (.error errstr), r)
  | none =>
    match r.discard.rstack, r.discard.reply with
    | [], some reply => (.message reply, { r.discard with reply := none })
    | _, _ => (.nothing, r.discard)

def redisReaderGetReply (r : Reader) : Option (Result ReplyObject Fault × Reader) :=
  match r.err with
  | some errstr => some (.failed (.error errstr), r)
  | none =>
    if r.buf = [] then some (.nothing, r) else (processItems (r.buf.length + 1) r.pushRoot).map emit

/-- The reader under its two calls; none when its state is undefined. -/
def step (r : Option Reader) : Op UInt8 → Result ReplyObject Fault × Option Reader
  | .feed symbols =>
    match r with
    | none => (.fed false, none)
    | some r => (.fed (r.redisReaderFeed symbols).1, some (r.redisReaderFeed symbols).2)
  | .pull =>
    match r.bind redisReaderGetReply with
    | none => (.failed .undefined, none)
    | some (result, r) => (result, some r)

end Reader

end FastoNoSQL.Redis
