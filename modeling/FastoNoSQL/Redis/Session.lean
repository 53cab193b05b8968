import FastoNoSQL.Redis.Config
import FastoNoSQL.Runs
import FastoNoSQL.Server.Databases
import FastoNoSQL.Settings.SshInfo

set_option autoImplicit false

/-!
# Sessions with a redis server

`Connect`, `Auth` and `SelectImpl` of `core/redis/db_connection.cpp` over the
connection of `core/internal/connection.h` and the `Select` of
`core/internal/cdb_connection.h`, for a connection with a client. What the
transport and the server answer is given with each call.
-/

namespace FastoNoSQL.Redis

open Bytes

structure RConfig extends Config where
  sshInfo : SshInfo
deriving DecidableEq

namespace RConfig

def init (lib : Common) : RConfig := { Config.init lib with sshInfo := SshInfo.init lib }

end RConfig

/-- What `CreateConnection` connects to. -/
inductive Endpoint where
  | unix (hostsocket : Text)
  | tcp (host : HostAndPort) (sshInfo : SshInfo)
deriving DecidableEq

def RConfig.endpoint (config : RConfig) : Endpoint :=
  if config.hostsocket = [] then .tcp config.host config.sshInfo else .unix config.hostsocket

def Endpoint.text : Endpoint → Text
  | .unix hostsocket => hostsocket
  | .tcp host _ => host.text

/-- An open context, and the database that the server has selected for it. -/
structure NativeConnection where
  endpoint : Endpoint
  selected : Int32
deriving DecidableEq

/-- `connection_`, `isAuth_`, and the database that the client was last told of. -/
structure Session where
  handle : Option NativeConnection
  config : RConfig
  isAuth : Bool
  currentDatabase : Option Server.DataBaseInfo

inductive Transport where
  | opened
  | noContext
  | failed (errstr : Text)
deriving DecidableEq

/-- The reply to a command, null when it is lost; the server may then have run the command or not. -/
inductive Answer where
  | accepted
  | refused (str : Text)
  | lost (errstr : Text) (executed : Bool)
deriving DecidableEq

namespace Answer

def executed : Answer → Bool
  | accepted => true
  | refused _ => false
  | lost _ executed => executed

end Answer

section Calls

variable (lib : Common)

def cliPrintContextError (errstr : Text) : ErrorValue := printedError lib "Error: %s" errstr

def notConnected : ErrorValue := makeErrorValue "Not connected"

-- A new context starts in database 0.
def createConnection (config : RConfig) : Transport → Except ErrorValue NativeConnection
  | .opened => .ok ⟨config.endpoint, 0⟩
  | .noContext => .error (printedError lib "Could not connect to Redis at %s : no context" config.endpoint.text)
  | .failed errstr =>
    .error ⟨lib.memSPrintf (ascii "Could not connect to Redis at %s : %s") [.s config.endpoint.text, .s errstr], true⟩

-- No command is sent for an empty password.
def authContext (password : Text) (answer : Answer) : Option ErrorValue :=
  if password = [] then none
  else
    match answer with
    | .accepted => none
    | .refused str => some (printedError lib "Authentification error: %s" str)
    | .lost errstr _ => some (cliPrintContextError lib errstr)

namespace Session

variable (session : Session)

def isConnected : Bool := session.handle.isSome

-- `internal::Connection::Connect`: an open handle is kept.
def openHandle (config : RConfig) (transport : Transport) : Session × Option ErrorValue :=
  if session.isConnected then (session, none)
  else
    match createConnection lib config transport with
    | .error err => (session, some err)
    | .ok connection => ({ session with handle := some connection, config := config }, none)

def disconnect : Session × Option ErrorValue :=
  if session.isConnected then ({ session with handle := none, config := RConfig.init lib }, none)
  else (session, none)

def auth (password : Text) (answer : Answer) : Session × Option ErrorValue :=
  if session.isConnected then
    match authContext lib password answer with
    | some err => ({ session with isAuth := false }, some err)
    | none => ({ session with config := { session.config with auth := password }, isAuth := true }, none)
  else (session, some notConnected)

-- The server's side of `SELECT`.
def serveSelect (num : Int32) (answer : Answer) : Session :=
  { session with
    handle := session.handle.map fun connection =>
      if answer.executed then { connection with selected := num } else connection }

/-- `SelectImpl`: a reply is not looked at, only a missing one is an error. The size is that of
`DBkcount`, zero when it fails. -/
def selectImpl (name : Text) (answer : Answer) (dbsize : Option UInt64) :
    Session × Except ErrorValue Server.DataBaseInfo :=
  let num := lib.toInt name
  let served := session.serveSelect num answer
  match answer with
  | .lost errstr _ => (served, .error (cliPrintContextError lib errstr))
  | _ =>
    ({ served with config := { served.config with dbnum := num } },
      .ok ⟨intText num.toInt, true, dbsize.getD 0, []⟩)

def select (name : Text) (answer : Answer) (dbsize : Option UInt64) :
    Session × Except ErrorValue Server.DataBaseInfo :=
  if session.isConnected then
    match session.selectImpl lib name answer dbsize with
    | (session, .error err) => (session, .error err)
    | (session, .ok info) => ({ session with currentDatabase := some info }, .ok info)
  else (session, .error notConnected)

end Session

/-- What `Connect` meets: the transport, the replies to `AUTH` and `SELECT`, and the database size. -/
structure Attempt where
  transport : Transport
  auth : Answer
  select : Answer
  dbsize : Option UInt64

def Session.connect (session : Session) (config : RConfig) (outcome : Attempt) : Session × Option ErrorValue :=
  match session.openHandle lib config outcome.transport with
  | (session, some err) => (session, some err)
  | (session, none) =>
    match session.auth lib session.config.auth outcome.auth with
    | (session, some err) => (session, some err)
    | (session, none) =>
      match session.select lib (intText session.config.dbnum.toInt) outcome.select outcome.dbsize with
      | (session, .error err) => (session, some err)
      | (session, .ok _) => (session, none)

end Calls

/-! ## What `AUTH` and `SELECT` do to an open connection -/

section Open

variable {lib : Common} (session : Session) (connection : NativeConnection) (isOpen : session.handle = some connection)

-- No password, or one that the server accepts.
def Passes (password : Text) (answer : Answer) : Prop := password = [] ∨ answer = .accepted

theorem authContext_eq_none (password : Text) (answer : Answer) :
    authContext lib password answer = none ↔ Passes password answer := by
  unfold authContext Passes
  split
  next empty => simp [empty]
  next nonempty => cases answer <;> simp [nonempty]

include isOpen

theorem isConnected_of_open : session.isConnected = true := by
  rw [Session.isConnected, isOpen]
  rfl

theorem auth_open (answer : Answer) :
    session.auth lib session.config.auth answer =
      match authContext lib session.config.auth answer with
      | some err => ({ session with isAuth := false }, some err)
      | none => ({ session with isAuth := true }, none) := by
  rw [Session.auth, if_pos (isConnected_of_open session connection isOpen)]

-- The server's database after a `SELECT`.
def selectedAfter (before num : Int32) (answer : Answer) : Int32 := if answer.executed then num else before

theorem serveSelect_handle (num : Int32) (answer : Answer) :
    (session.serveSelect num answer).handle =
      some { connection with selected := selectedAfter connection.selected num answer } := by
  rw [Session.serveSelect, isOpen, Option.map_some, selectedAfter]
  split <;> rfl

theorem select_lost (name : Text) (errstr : Text) (executed : Bool) (dbsize : Option UInt64) :
    session.select lib name (.lost errstr executed) dbsize =
      (session.serveSelect (lib.toInt name) (.lost errstr executed), .error (cliPrintContextError lib errstr)) := by
  rw [Session.select, if_pos (isConnected_of_open session connection isOpen)]
  rfl

theorem select_answered (name : Text) (answer : Answer) (dbsize : Option UInt64)
    (answered : ∀ errstr executed, answer ≠ .lost errstr executed) :
    session.select lib name answer dbsize =
      ({ session.serveSelect (lib.toInt name) answer with
          config := { session.config with dbnum := lib.toInt name },
          currentDatabase := some ⟨intText (lib.toInt name).toInt, true, dbsize.getD 0, []⟩ },
        .ok ⟨intText (lib.toInt name).toInt, true, dbsize.getD 0, []⟩) := by
  rw [Session.select, if_pos (isConnected_of_open session connection isOpen)]
  cases answer with
  | lost errstr executed => exact absurd rfl (answered errstr executed)
  | accepted => rfl
  | refused str => rfl

end Open

/-! ## Sequences of `Select` -/

structure Selection where
  name : Text
  answer : Answer
  dbsize : Option UInt64

section Selections

variable (lib : Common) (session : Session) (selection : Selection)

def selectStep : Session := (session.select lib selection.name selection.answer selection.dbsize).1

-- The connection is open, and both of its copies are the database that the server has selected.
def Session.Agrees : Prop :=
  ∃ connection, session.handle = some connection ∧ session.config.dbnum = connection.selected ∧
    session.currentDatabase.map (·.name) = some (intText connection.selected.toInt)

/-- The copies agree with the server after the call, change if the server accepted the `SELECT`
and only then, and an error reply is an error of the call. -/
def Follows : Prop :=
  (selectStep lib session selection).Agrees ∧
    (selection.answer = .accepted → (selectStep lib session selection).config.dbnum = lib.toInt selection.name) ∧
    (selection.answer ≠ .accepted →
      (selectStep lib session selection).config = session.config ∧
        (selectStep lib session selection).currentDatabase = session.currentDatabase) ∧
    ∀ str, selection.answer = .refused str →
      (session.select lib selection.name selection.answer selection.dbsize).2.isOk = false

-- No error reply, and no lost reply to a `SELECT` that changed the database.
def Acknowledged : Prop :=
  match selection.answer with
  | .accepted => True
  | .refused _ => False
  | .lost _ executed => executed = true →
    session.handle.map (·.selected) = some (lib.toInt selection.name)

theorem agrees_select (agrees : session.Agrees) (acknowledged : Acknowledged lib session selection) :
    (selectStep lib session selection).Agrees := by
  obtain ⟨connection, isOpen, dbnum, current⟩ := agrees
  obtain ⟨name, answer, dbsize⟩ := selection
  cases answer with
  | refused str => exact acknowledged.elim
  | accepted =>
      rw [selectStep, select_answered session connection isOpen name .accepted dbsize (by simp)]
      exact ⟨_, serveSelect_handle session connection isOpen _ _, rfl, rfl⟩
  | lost errstr executed =>
      rw [selectStep, select_lost session connection isOpen name errstr executed dbsize]
      refine ⟨_, serveSelect_handle session connection isOpen _ _, ?_⟩
      have kept : selectedAfter connection.selected (lib.toInt name) (.lost errstr executed) = connection.selected := by
        unfold selectedAfter
        split
        next ran =>
          have same := acknowledged ran
          rw [isOpen] at same
          exact (Option.some.inj same).symm
        next => rfl
      rw [kept]
      exact ⟨dbnum, current⟩

theorem follows_iff (agrees : session.Agrees) : Follows lib session selection ↔ Acknowledged lib session selection := by
  constructor
  · intro ⟨after, _, _, refused⟩
    obtain ⟨connection, isOpen, dbnum, current⟩ := agrees
    obtain ⟨name, answer, dbsize⟩ := selection
    cases answer with
    | accepted => trivial
    | refused str =>
        have failed := refused str rfl
        rw [select_answered session connection isOpen name (.refused str) dbsize (by simp)] at failed
        cases failed
    | lost errstr executed =>
        intro ran
        obtain ⟨connection', isOpen', dbnum', _⟩ := after
        rw [selectStep, select_lost session connection isOpen name errstr executed dbsize] at isOpen' dbnum'
        rw [serveSelect_handle session connection isOpen] at isOpen'
        obtain rfl := Option.some.inj isOpen'
        have moved : connection.selected = lib.toInt name := by
          have kept : session.config.dbnum = selectedAfter connection.selected (lib.toInt name)
            (.lost errstr executed) := dbnum'
          rw [← dbnum, kept]
          exact if_pos ran
        rw [isOpen, Option.map_some, moved]
  · intro acknowledged
    refine ⟨agrees_select lib session selection agrees acknowledged, ?_⟩
    obtain ⟨connection, isOpen, dbnum, current⟩ := agrees
    obtain ⟨name, answer, dbsize⟩ := selection
    cases answer with
    | refused str => exact acknowledged.elim
    | accepted =>
        rw [selectStep, select_answered session connection isOpen name .accepted dbsize (by simp)]
        simp
    | lost errstr executed =>
        rw [selectStep, select_lost session connection isOpen name errstr executed dbsize]
        simp [Session.serveSelect]

/-- The copies follow the server over a run of selections exactly when each is acknowledged. -/
theorem follows_along_iff (agrees : session.Agrees) (selections : List Selection) :
    Runs.Along (selectStep lib) (Follows lib) session selections ↔
      Runs.Along (selectStep lib) (Acknowledged lib) session selections :=
  Runs.along_iff Session.Agrees (agrees_select lib) (follows_iff lib) agrees selections

end Selections

section Sample

def selecting : Session :=
  ⟨some ⟨(RConfig.init .std).endpoint, 0⟩, RConfig.init .std, true, some ⟨ascii "0", true, 3, []⟩⟩

/-- Two databases that the server accepts, and a reply that is lost with its command. -/
theorem selections_follow :
    Runs.Along (selectStep .std) (Follows .std) selecting
      [⟨ascii "1", .accepted, some 2⟩, ⟨ascii "2", .accepted, none⟩, ⟨ascii "3", .lost [] false, none⟩] := by
  apply (follows_along_iff .std selecting ⟨_, rfl, rfl, rfl⟩ _).mpr
  have unexecuted (session : Session) : Acknowledged .std session ⟨ascii "3", .lost [] false, none⟩ := by
    intro executed
    cases executed
  simp only [Runs.along_cons]
  exact ⟨trivial, trivial, unexecuted _, Runs.along_nil⟩

/-- The server refuses database 99, and the connection takes it for the selected one. -/
theorem refused_selection_taken :
    let refused : Selection := ⟨ascii "99", .refused (ascii "ERR DB index is out of range"), none⟩
    selecting.Agrees ∧ (selecting.select .std refused.name refused.answer refused.dbsize).2.isOk = true ∧
      (selectStep .std selecting refused).config.dbnum = 99 ∧
      (selectStep .std selecting refused).handle.map (·.selected) = some 0 ∧
      ¬ Runs.Along (selectStep .std) (Follows .std) selecting [refused] := by
  refine ⟨⟨_, rfl, rfl, rfl⟩, rfl, by decide, rfl, fun along => ?_⟩
  rw [Runs.along_cons] at along
  have failed := along.1.2.2.2 _ rfl
  cases failed

end Sample

/-! ## Sequences of `Connect` and `Disconnect` -/

inductive SessionCall where
  | connect (config : RConfig) (outcome : Attempt)
  | disconnect

section Calls

variable (lib : Common) (session : Session)

def SessionCall.step (session : Session) : SessionCall → Session
  | .connect config outcome => (session.connect lib config outcome).1
  | .disconnect => (session.disconnect lib).1

def Session.init : Session := ⟨none, RConfig.init lib, false, none⟩

-- Open to the host of the configuration, with it and with its database selected.
def Session.OpenWith (config : RConfig) : Prop :=
  session.config = config ∧ session.handle = some ⟨config.endpoint, config.dbnum⟩

-- `Connect` tries the transport with the given configuration, whatever comes of it.
def Session.Attempts (config : RConfig) (outcome : Attempt) : Prop :=
  match createConnection lib config outcome.transport with
  | .error err => session.connect lib config outcome = (session, some err)
  | .ok connection =>
    ((session.connect lib config outcome).1.handle.map (·.endpoint)) = some connection.endpoint ∧
      (session.connect lib config outcome).1.config = config

-- What comes back from a `Connect` with the configuration.
def Meets (config : RConfig) : Session × Option ErrorValue → Prop
  | (after, none) => after.OpenWith config
  | (after, some _) => after.handle = none ∧ ∀ later retried, after.Attempts lib later retried

-- Success means open with the given configuration, an error means closed, and the next call is then an attempt of its
-- own.
def Kept : SessionCall → Prop
  | .connect config outcome => Meets lib config (session.connect lib config outcome)
  | .disconnect => (session.disconnect lib).1.handle = none

-- The database is the wanted one after `SELECT`, and the reply is not lost.
def Selects (before wanted : Int32) : Answer → Prop
  | .accepted => True
  | .refused _ => before = wanted
  | .lost _ _ => False

/-- The connection is closed or already open with this configuration, and what comes after the
transport succeeds. -/
def Clean : SessionCall → Prop
  | .connect config outcome =>
    match session.handle with
    | none => outcome.transport = .opened →
        Passes config.auth outcome.auth ∧ Selects 0 config.dbnum outcome.select
    | some connection => session.config = config ∧
        Passes config.auth outcome.auth ∧ Selects connection.selected config.dbnum outcome.select
  | .disconnect => True

-- What an open handle is kept with as long as every call is clean.
def Session.Settled : Prop := ∀ connection, session.handle = some connection → session.OpenWith session.config

end Calls

section Enter

variable {lib : Common} (lawful : lib.Lawful) (session : Session) (connection : NativeConnection)
variable (config : RConfig) (outcome : Attempt)

/-- `Connect` once the handle is there: `AUTH` and `SELECT` of the stored configuration. -/
def Session.enter (lib : Common) (session : Session) (outcome : Attempt) : Session × Option ErrorValue :=
  match session.auth lib session.config.auth outcome.auth with
  | (session, some err) => (session, some err)
  | (session, none) =>
    match session.select lib (intText session.config.dbnum.toInt) outcome.select outcome.dbsize with
    | (session, .error err) => (session, some err)
    | (session, .ok _) => (session, none)

theorem connect_closed (closed : session.handle = none) :
    session.connect lib config outcome =
      match createConnection lib config outcome.transport with
      | .error err => (session, some err)
      | .ok connection => ({ session with handle := some connection, config := config } : Session).enter lib outcome := by
  have free : session.isConnected = false := by
    rw [Session.isConnected, closed]
    rfl
  unfold Session.connect Session.openHandle
  rw [free]
  cases createConnection lib config outcome.transport <;> rfl

variable (isOpen : session.handle = some connection)
include isOpen

theorem connect_open : session.connect lib config outcome = session.enter lib outcome := by
  unfold Session.connect Session.openHandle
  rw [isConnected_of_open session connection isOpen]
  rfl

theorem enter_refused (refused : ¬ Passes session.config.auth outcome.auth) :
    ∃ err, session.enter lib outcome = ({ session with isAuth := false }, some err) := by
  rw [Session.enter, auth_open session connection isOpen]
  cases found : authContext lib session.config.auth outcome.auth with
  | none => exact absurd ((authContext_eq_none _ _).mp found) refused
  | some err => exact ⟨err, rfl⟩

variable (passes : Passes session.config.auth outcome.auth)
include passes

theorem enter_passed :
    session.enter lib outcome =
      match ({ session with isAuth := true } : Session).select lib (intText session.config.dbnum.toInt)
        outcome.select outcome.dbsize with
      | (session, .error err) => (session, some err)
      | (session, .ok _) => (session, none) := by
  rw [Session.enter, auth_open session connection isOpen, (authContext_eq_none _ _).mpr passes]

theorem enter_lost (errstr : Text) (executed : Bool) (lost : outcome.select = .lost errstr executed) :
    ∃ after err, session.enter lib outcome = (after, some err) ∧ after.handle.isSome = true := by
  rw [enter_passed session connection outcome isOpen passes, lost,
    select_lost ({ session with isAuth := true } : Session) connection isOpen]
  refine ⟨_, _, rfl, ?_⟩
  rw [serveSelect_handle ({ session with isAuth := true } : Session) connection isOpen]
  rfl

include lawful

theorem enter_answered (answered : ∀ errstr executed, outcome.select ≠ .lost errstr executed) :
    ∃ after, session.enter lib outcome = (after, none) ∧ after.config = session.config ∧
      after.handle = some
        { connection with selected := selectedAfter connection.selected session.config.dbnum outcome.select } ∧
      after.currentDatabase.map (·.name) = some (intText session.config.dbnum.toInt) := by
  rw [enter_passed session connection outcome isOpen passes,
    select_answered ({ session with isAuth := true } : Session) connection isOpen _ _ _ answered]
  rw [lawful.toInt_intText]
  exact ⟨_, rfl, rfl, serveSelect_handle ({ session with isAuth := true } : Session) connection isOpen _ _, rfl⟩

end Enter

section Kept

variable {lib : Common} (lawful : lib.Lawful) (session : Session) (config : RConfig) (outcome : Attempt)

theorem answered_of_not_lost (answer : Answer) :
    (∃ errstr executed, answer = .lost errstr executed) ∨ ∀ errstr executed, answer ≠ .lost errstr executed := by
  cases answer with
  | lost errstr executed => exact Or.inl ⟨errstr, executed, rfl⟩
  | accepted => exact Or.inr (by simp)
  | refused str => exact Or.inr (by simp)

theorem selects_iff (before wanted : Int32) (answer : Answer)
    (answered : ∀ errstr executed, answer ≠ .lost errstr executed) :
    Selects before wanted answer ↔ selectedAfter before wanted answer = wanted := by
  cases answer with
  | lost errstr executed => exact absurd rfl (answered errstr executed)
  | accepted => simp [Selects, selectedAfter, Answer.executed]
  | refused str => simp [Selects, selectedAfter, Answer.executed]

theorem settled_of_kept (call : SessionCall) (kept : Kept lib session call) :
    (call.step lib session).Settled := by
  cases call with
  | disconnect =>
      intro connection isOpen
      have closed : (session.disconnect lib).1.handle = none := kept
      rw [SessionCall.step, closed] at isOpen
      cases isOpen
  | connect config outcome =>
      intro connection isOpen
      have met : Meets lib config (session.connect lib config outcome) := kept
      simp only [SessionCall.step] at isOpen ⊢
      cases result : session.connect lib config outcome with
      | mk after error =>
          rw [result] at met isOpen
          cases error with
          | none =>
              have opened : after.OpenWith config := met
              simpa [opened.1] using opened
          | some err =>
              have closed : after.handle = none := met.1
              rw [closed] at isOpen
              cases isOpen

include lawful

-- Neither `AUTH` nor `SELECT` closes the handle or changes the configuration.
theorem enter_keeps (connection : NativeConnection) (isOpen : session.handle = some connection) :
    (session.enter lib outcome).1.handle.map (·.endpoint) = some connection.endpoint ∧
      (session.enter lib outcome).1.config = session.config := by
  by_cases passes : Passes session.config.auth outcome.auth
  · rcases answered_of_not_lost outcome.select with ⟨errstr, executed, lost⟩ | answered
    · rw [enter_passed session connection outcome isOpen passes, lost,
        select_lost ({ session with isAuth := true } : Session) connection isOpen]
      constructor
      · rw [serveSelect_handle ({ session with isAuth := true } : Session) connection isOpen]
        rfl
      · rfl
    · obtain ⟨after, entered, config, handle, _⟩ :=
        enter_answered lawful session connection outcome isOpen passes answered
      rw [entered]
      refine ⟨?_, config⟩
      rw [handle]
      rfl
  · obtain ⟨err, entered⟩ := enter_refused session connection outcome isOpen passes
    rw [entered]
    refine ⟨?_, rfl⟩
    show session.handle.map (·.endpoint) = _
    rw [isOpen]
    rfl

theorem attempts_closed (closed : session.handle = none) : session.Attempts lib config outcome := by
  unfold Session.Attempts
  rw [connect_closed session config outcome closed]
  cases createConnection lib config outcome.transport with
  | error err => rfl
  | ok connection => exact enter_keeps lawful { session with handle := some connection, config := config } outcome _ rfl

-- A connection whose `SELECT` is accepted starts with both copies right.
theorem agrees_connect (closed : session.handle = none) (opened : outcome.transport = .opened)
    (passes : Passes config.auth outcome.auth) (accepted : outcome.select = .accepted) :
    (session.connect lib config outcome).1.Agrees := by
  have answered : ∀ errstr executed, outcome.select ≠ .lost errstr executed := by simp [accepted]
  obtain ⟨after, entered, kept, handle, current⟩ := enter_answered lawful
    ({ session with handle := some ⟨config.endpoint, 0⟩, config := config } : Session) _ outcome rfl passes answered
  rw [accepted] at handle
  rw [connect_closed session config outcome closed, opened]
  simp only [createConnection, entered]
  exact ⟨_, handle, by rw [kept]; rfl, current⟩

theorem meets_enter (connection : NativeConnection) (isOpen : session.handle = some connection)
    (same : connection.endpoint = session.config.endpoint) :
    Meets lib config (session.enter lib outcome) ↔
      session.config = config ∧ Passes session.config.auth outcome.auth ∧
        Selects connection.selected session.config.dbnum outcome.select := by
  by_cases passes : Passes session.config.auth outcome.auth
  · rcases answered_of_not_lost outcome.select with ⟨errstr, executed, lost⟩ | answered
    · obtain ⟨after, err, entered, handle⟩ :=
        enter_lost session connection outcome isOpen passes errstr executed lost
      rw [entered, lost]
      refine iff_of_false (fun meets => ?_) fun good => good.2.2
      rw [meets.1] at handle
      cases handle
    · obtain ⟨after, entered, kept, handle, _⟩ :=
        enter_answered lawful session connection outcome isOpen passes answered
      rw [entered, selects_iff _ _ _ answered]
      show after.OpenWith config ↔ _
      unfold Session.OpenWith
      rw [kept, handle]
      constructor
      · intro ⟨config, opened⟩
        subst config
        exact ⟨rfl, passes, congrArg NativeConnection.selected (Option.some.inj opened)⟩
      · intro ⟨config, _, selected⟩
        subst config
        exact ⟨rfl, by rw [selected, ← same]⟩
  · obtain ⟨err, entered⟩ := enter_refused session connection outcome isOpen passes
    rw [entered]
    refine iff_of_false (fun meets => ?_) fun good => passes good.2.1
    have closed : session.handle = none := meets.1
    rw [isOpen] at closed
    cases closed

theorem kept_iff (settled : session.Settled) (call : SessionCall) : Kept lib session call ↔ Clean session call := by
  cases call with
  | disconnect =>
      refine iff_of_true ?_ trivial
      show (session.disconnect lib).1.handle = none
      unfold Session.disconnect Session.isConnected
      split
      · rfl
      next closed => simpa using closed
  | connect config outcome =>
      show Meets lib config (session.connect lib config outcome) ↔ _
      cases handle : session.handle with
      | some connection =>
          have stored := (settled connection handle).2
          rw [handle, Option.some.injEq] at stored
          rw [connect_open session connection config outcome handle,
            meets_enter lawful session config outcome connection handle (by rw [stored])]
          simp only [Clean, handle]
          apply and_congr_right
          intro same
          rw [same]
      | none =>
          simp only [Clean, handle]
          rw [connect_closed session config outcome handle]
          cases transport : outcome.transport with
          | opened =>
              have entered := meets_enter lawful
                ({ session with handle := some ⟨config.endpoint, 0⟩, config := config } : Session) config outcome _ rfl rfl
              simpa [createConnection] using entered
          | noContext =>
              refine iff_of_true ⟨handle, fun later retried => attempts_closed lawful session later retried handle⟩ ?_
              simp
          | failed errstr =>
              refine iff_of_true ⟨handle, fun later retried => attempts_closed lawful session later retried handle⟩ ?_
              simp

end Kept

/-- Every call of a sequence keeps the contract of `Connect` exactly when every call is clean. -/
theorem session_along_iff (lib : Common) (lawful : lib.Lawful) (calls : List SessionCall) :
    Runs.Along (SessionCall.step lib) (Kept lib) (Session.init lib) calls ↔
      Runs.Along (SessionCall.step lib) Clean (Session.init lib) calls :=
  Runs.along_iff Session.Settled
    (fun session call settled clean =>
      settled_of_kept session call ((kept_iff lawful session settled call).mpr clean))
    (fun session call settled => kept_iff lawful session settled call)
    (fun _ isOpen => by cases isOpen) calls

section Sample

def passworded (password : Text) : RConfig :=
  { RConfig.init .std with auth := password, dbnum := 1 }

def answers (auth : Answer) : Attempt := ⟨.opened, auth, .accepted, some 3⟩

/-- A connection that fails, one that succeeds and the same again are all as they should be. -/
theorem connects_kept :
    Runs.Along (SessionCall.step .std) (Kept .std) (Session.init .std)
      [.connect (passworded (ascii "secret")) { answers .accepted with transport := .noContext },
        .connect (passworded (ascii "secret")) (answers .accepted),
        .connect (passworded (ascii "secret")) (answers .accepted), .disconnect] := by
  apply (session_along_iff .std Common.std_lawful _).mpr
  simp only [Runs.along_cons]
  exact ⟨by simp [Clean, Session.init, answers], fun _ => ⟨Or.inr rfl, trivial⟩, ⟨rfl, Or.inr rfl, trivial⟩, trivial,
    Runs.along_nil⟩

/-- After a wrong password the connection stays open, and the right one is not even tried. -/
theorem corrected_password_ignored :
    let wrong := (Session.init .std).connect .std (passworded (ascii "wrong")) (answers (.refused (ascii "ERR")))
    wrong.2.isSome = true ∧ wrong.1.handle.isSome = true ∧
      (wrong.1.connect .std (passworded (ascii "right")) (answers (.refused (ascii "ERR")))).1.config.auth =
        ascii "wrong" ∧
      ¬ Runs.Along (SessionCall.step .std) (Kept .std) (Session.init .std)
        [.connect (passworded (ascii "wrong")) (answers (.refused (ascii "ERR"))),
          .connect (passworded (ascii "right")) (answers (.refused (ascii "ERR")))] := by
  refine ⟨rfl, rfl, rfl, fun along => ?_⟩
  rw [Runs.along_cons] at along
  have closed := along.1.1
  cases closed

end Sample

end FastoNoSQL.Redis
