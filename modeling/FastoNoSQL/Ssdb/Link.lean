import FastoNoSQL.Halting
import FastoNoSQL.Sds.Strings
import FastoNoSQL.Ssdb.Buffer

set_option autoImplicit false

/-!
# The link of the ssdb client

`Link` of the vendored ssdb client on a blocking socket, and the request that
`ClientImpl` makes over it: packets of records are written to one buffer and
parsed out of another, each time from the start of the packet.
-/

namespace FastoNoSQL.Ssdb

open Bytes Sds Halting

/-! ## Parsing -/

-- `atoi` of a text of at most 18 bytes that begins with a digit.
def atoi (text : Text) : Int := toInt (readNat (text.takeWhile isDigit))

inductive Line where
  | more
  | record (body : Text) (used : Nat)
  | done (used : Nat)
  | bad
  | undefined
deriving DecidableEq

-- The body of a record and the line end behind it.
def recordLine (head : Text) (headLen : Nat) (bodyLen : Int) : Line :=
  if bodyLen < 0 then .bad
  -- The sum of the two lengths is an `int`.
  else if 2 ^ 31 ≤ headLen + bodyLen then .undefined
  else if (head.length : Int) < headLen + bodyLen then .more
  else
    let body := (head.drop headLen).take bodyLen.toNat
    let used := headLen + bodyLen.toNat
    let rest := head.drop used
    if rest.head? = some 10 then .record body (used + 1)
    else if rest.take 2 = [13, 10] then .record body (used + 2)
    else if 2 ≤ rest.length then .bad
    else .more

-- One round of the loop of `recv`: the line that ends a packet, or a record.
def nextLine (head : Text) : Line :=
  let line := head.idxOf 10
  let headLen := line + 1
  if line = head.length then .more
  else if headLen = 1 ∨ headLen = 2 ∧ head.head? = some 13 then .done headLen
  else if isDigit (head.headD 0) = false then .bad
  else if 19 < headLen then .bad
  else recordLine head headLen (atoi (head.take line))

def maxPacketSize : Nat := 128 * 1024 * 1024

inductive Parsed where
  | notReady
  | packet (recvData : List Text) (parsed : Nat)
  | failed
  | undefined
deriving DecidableEq

-- Each round uses some of the data.
def parseLines : Nat → Text → Nat → List Text → Parsed
  | 0, _, _, _ => .notReady
  | fuel + 1, head, parsed, recvData =>
    match nextLine head with
    | .more => .notReady
    | .done used => .packet recvData (parsed + used)
    | .bad => .failed
    | .undefined => .undefined
    | .record body used =>
      if maxPacketSize < parsed + used then .failed
      else parseLines fuel (head.drop used) (parsed + used) (recvData ++ [body])

def isBlank (c : UInt8) : Bool := c = 10 || c = 13

/-- `input` and `output`. -/
structure Link where
  input : Buffer
  output : Buffer

inductive Received where
  | failed
  | notReady (input : Buffer)
  | ready (packet : List Text) (input : Buffer)
  | undefined

-- There is space behind the data when the packet is not complete.
def waiting (input : Buffer) : Received :=
  if input.space = 0 then
    if input.nice.space = 0 then
      match input.nice.grow with
      | none => .undefined
      | some input => .notReady input
    else .notReady input.nice
  else .notReady input

section Calls

-- The byte that the memory holds behind the data.
variable (behind : Buffer → UInt8)

def recv (input : Buffer) : Received :=
  if input.data = [] then .notReady input
  else
    let parsed := (input.data.takeWhile isBlank).length
    let head := input.data.drop parsed
    -- A packet of another protocol is parsed by `RedisLink`, which is left out.
    if head.headD (behind input) = byte '*' then .undefined
    else
      match parseLines (head.length + 1) head parsed [] with
      | .notReady => waiting input
      | .packet recvData parsed =>
        if fits : parsed ≤ input.data.length then .ready recvData (input.decr parsed fits) else .undefined
      | .failed => .failed
      | .undefined => .undefined

end Calls

/-! ## Requests -/

namespace Link

variable (link : Link)

-- `INIT_BUFFER_SIZE`
def initBufferSize : Nat := 8

def create : Link := ⟨.create initBufferSize, .create initBufferSize⟩

def send (packet : List Text) : Option Link :=
  if packet = [] then some link
  else do
    let output ← packet.foldlM Buffer.appendRecord link.output
    let output ← output.append 10
    return { link with output := output }

end Link

/-- What a call of `write` or `read` returns: -1 with `EINTR`, with `EWOULDBLOCK` or with another error, a count, or
the bytes that are read, of which there are none when the server has closed the connection. -/
inductive Event where
  | interrupted
  | wouldBlock
  | failed
  | wrote (count : Nat)
  | read (piece : Text)
deriving DecidableEq

inductive Phase where
  | flush
  | read
deriving DecidableEq

structure RequestCall where
  link : Link
  phase : Phase

/-- The packet that answers the request, unless the call fails. -/
structure Response where
  packet : Option (List Text)
  link : Link

namespace Link

variable (behind : Buffer → UInt8) (link : Link)

-- The start of `read`, which returns 0 when there is no space.
def reading : Progress RequestCall Response :=
  match if link.input.total = initBufferSize then link.input.grow else some link.input with
  | none => .undefined
  | some input =>
    if input.nice.space = 0 then .returned ⟨none, { link with input := input.nice }⟩
    else .going ⟨{ link with input := input.nice }, .read⟩

-- The loop of `response`, up to its next `read`.
def response : Progress RequestCall Response :=
  match recv behind link.input with
  | .failed => .returned ⟨none, link⟩
  | .notReady input => reading { link with input := input }
  | .ready [] input => reading { link with input := input }
  | .ready packet input => .returned ⟨some packet, { link with input := input }⟩
  | .undefined => .undefined

-- The loop of `flush`, up to its next `write` or its end.
def flush : Progress RequestCall Response :=
  if link.output.data = [] then link.response behind else .going ⟨link, .flush⟩

def request (packet : List Text) : Progress RequestCall Response :=
  match link.send packet with
  | none => .undefined
  | some link => link.flush behind

end Link

def RequestCall.step (behind : Buffer → UInt8) (call : RequestCall) (event : Event) : Progress RequestCall Response :=
  match call.phase, event with
  | _, .interrupted => .going call
  | _, .failed => .returned ⟨none, call.link⟩
  | .flush, .wouldBlock => Link.flush behind { call.link with output := call.link.output.nice }
  | .flush, .wrote count =>
    if fits : count ≤ call.link.output.data.length then
      Link.flush behind { call.link with output := (call.link.output.decr count fits).nice }
    else .undefined
  | .flush, .read _ => .going call
  | .read, .wouldBlock => .returned ⟨none, call.link⟩
  | .read, .wrote _ => .going call
  | .read, .read [] => .returned ⟨none, call.link⟩
  | .read, .read piece =>
    if room : piece.length ≤ call.link.input.space then
      Link.response behind { call.link with input := call.link.input.put piece room }
    else .undefined

end FastoNoSQL.Ssdb
