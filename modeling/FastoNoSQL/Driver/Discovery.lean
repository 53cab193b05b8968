import FastoNoSQL.Types
import Mathlib.Data.List.Induction
import Mathlib.Tactic.Common

set_option autoImplicit false

/-!
# What a driver knows of its server

The connection of an `IDriver`, its `server_info_` and its
`current_database_info_`, under the requests that it handles and the two
getters that a window may call at any time. The getters and the handler of the
databases request abort the program when a `CHECK` fails.
-/

namespace FastoNoSQL.Discovery

variable {ServerInfo DatabaseInfo : Type}

structure State (ServerInfo DatabaseInfo : Type) where
  connected : Bool
  serverInfo : Option ServerInfo
  currentDatabaseInfo : Option DatabaseInfo

/-- What a command does to the driver when it succeeds. -/
inductive Command (DatabaseInfo : Type) where
  | select (db : DatabaseInfo)
  | quit
  | other

/-- Requests with the outcome of what the driver calls for them, and calls of the getters. -/
inductive Event (ServerInfo DatabaseInfo : Type) where
  | connect (opened authorized : Bool) (selected : Option DatabaseInfo)
  | disconnect (closed : Bool)
  -- Whether the list of databases is answered with an array.
  | loadDatabases (answered : Bool)
  | discovery (info : Option ServerInfo) (selected : Option DatabaseInfo)
  | serverInfo
  | execute (commands : List (Command DatabaseInfo))
  | currentServerInfo
  | currentDatabaseInfo

namespace State

variable (state : State ServerInfo DatabaseInfo)

-- `OnCurrentDataBaseChanged`.
def changeDatabase (db : DatabaseInfo) : State ServerInfo DatabaseInfo :=
  { state with currentDatabaseInfo := some db }

-- An open connection is kept; only redis goes on to `AUTH` and `SELECT`.
def connect (type : ConnectionType) (opened authorized : Bool) (selected : Option DatabaseInfo) :
    State ServerInfo DatabaseInfo :=
  let state := { state with connected := state.connected || opened }
  if type = .redis && state.connected && authorized then
    match selected with
    | some db => state.changeDatabase db
    | none => state
  else state

def disconnect (closed : Bool) : State ServerInfo DatabaseInfo :=
  { state with connected := state.connected && !closed }

def discover (info : Option ServerInfo) (selected : Option DatabaseInfo) : State ServerInfo DatabaseInfo :=
  if state.connected then
    match info, selected with
    | some info, some db => { state with serverInfo := some info, currentDatabaseInfo := some db }
    | _, _ => state
  else state

def command (state : State ServerInfo DatabaseInfo) (command : Command DatabaseInfo) : State ServerInfo DatabaseInfo :=
  if state.connected then
    match command with
    | .select db => state.changeDatabase db
    | .quit => { state with connected := false }
    | .other => state
  else state

-- `CurrentServerInfo()`: none when its `CHECK` fails, else the pointer.
def getServerInfo : Option (Option ServerInfo) :=
  if state.connected then state.serverInfo.map some else some none

def getDatabaseInfo : Option (Option DatabaseInfo) :=
  if state.connected then state.currentDatabaseInfo.map some else some none

-- `CHECK(curdb)` on what `CurrentDatabaseInfo()` returns.
def checkDatabase : Option (State ServerInfo DatabaseInfo) := do
  let curdb ← state.getDatabaseInfo
  let _ ← curdb
  return state

-- redis asks its server first, and needs the current database only for an array.
def loadDatabases (type : ConnectionType) (answered : Bool) : Option (State ServerInfo DatabaseInfo) :=
  if type = .redis && !(state.connected && answered) then some state else state.checkDatabase

/-- One event; none when the program aborts. -/
def handle (type : ConnectionType) (state : State ServerInfo DatabaseInfo) :
    Event ServerInfo DatabaseInfo → Option (State ServerInfo DatabaseInfo)
  | .connect opened authorized selected => some (state.connect type opened authorized selected)
  | .disconnect closed => some (state.disconnect closed)
  | .loadDatabases answered => state.loadDatabases type answered
  | .discovery info selected => some (state.discover info selected)
  | .serverInfo => some state
  | .execute commands => some (commands.foldl command state)
  | .currentServerInfo => state.getServerInfo.map fun _ => state
  | .currentDatabaseInfo => state.getDatabaseInfo.map fun _ => state

def initial : State ServerInfo DatabaseInfo := ⟨false, none, none⟩

def run (type : ConnectionType) (events : List (Event ServerInfo DatabaseInfo)) :
    Option (State ServerInfo DatabaseInfo) := events.foldlM (handle type) initial

end State

/-! ## Histories -/

abbrev History (ServerInfo DatabaseInfo : Type) := List (Event ServerInfo DatabaseInfo)

def Command.isQuit : Command DatabaseInfo → Bool
  | quit => true
  | _ => false

def Command.isSelect : Command DatabaseInfo → Bool
  | select _ => true
  | _ => false

/-- Whether the connection is open after a history. -/
def connectedAfter (history : History ServerInfo DatabaseInfo) : Bool :=
  history.foldl (fun connected event =>
    match event with
    | .connect opened _ _ => connected || opened
    | .disconnect closed => connected && !closed
    | .execute commands => connected && !commands.any Command.isQuit
    | _ => connected) false

-- Some event of the history had the property, after what went before it.
def Earlier (property : History ServerInfo DatabaseInfo → Event ServerInfo DatabaseInfo → Prop)
    (history : History ServerInfo DatabaseInfo) : Prop :=
  ∃ before event after, history = before ++ event :: after ∧ property before event

def Discovers (before : History ServerInfo DatabaseInfo) : Event ServerInfo DatabaseInfo → Prop
  | .discovery info selected => connectedAfter before = true ∧ info.isSome = true ∧ selected.isSome = true
  | _ => False

/-- A database is selected: by a discovery, by a command before any `QUIT`, or by the connect of redis. -/
def Selects (type : ConnectionType) (before : History ServerInfo DatabaseInfo) : Event ServerInfo DatabaseInfo → Prop
  | .discovery info selected => connectedAfter before = true ∧ info.isSome = true ∧ selected.isSome = true
  | .execute commands =>
    connectedAfter before = true ∧ (commands.takeWhile fun command => !command.isQuit).any Command.isSelect = true
  | .connect opened authorized selected =>
    type = .redis ∧ (connectedAfter before || opened) = true ∧ authorized = true ∧ selected.isSome = true
  | _ => False

/-- The order that the checks rely on. -/
def Ordered (type : ConnectionType) (before : History ServerInfo DatabaseInfo) :
    Event ServerInfo DatabaseInfo → Prop
  | .currentServerInfo => connectedAfter before = true → Earlier Discovers before
  | .currentDatabaseInfo => connectedAfter before = true → Earlier (Selects type) before
  | .loadDatabases answered =>
    if type = .redis then
      connectedAfter before = true → answered = true → Earlier (Selects type) before
    else connectedAfter before = true ∧ Earlier (Selects type) before
  | _ => True

/-! ## What the state says about the history -/

section Histories

variable (type : ConnectionType) (history : History ServerInfo DatabaseInfo) (event : Event ServerInfo DatabaseInfo)

theorem earlier_nil (property : History ServerInfo DatabaseInfo → Event ServerInfo DatabaseInfo → Prop) :
    ¬ Earlier property [] := by
  intro ⟨before, event, after, split, _⟩
  simp at split

theorem earlier_concat (property : History ServerInfo DatabaseInfo → Event ServerInfo DatabaseInfo → Prop) :
    Earlier property (history ++ [event]) ↔ Earlier property history ∨ property history event := by
  constructor
  · intro ⟨before, found, after, split, holds⟩
    rcases List.eq_nil_or_concat after with rfl | ⟨init, last, rfl⟩
    · obtain ⟨rfl, same⟩ := List.append_inj' split rfl
      obtain rfl := (List.cons.inj same).1
      exact Or.inr holds
    · left
      rw [List.concat_eq_append, ← List.cons_append, ← List.append_assoc] at split
      obtain ⟨rfl, _⟩ := List.append_inj' split rfl
      exact ⟨before, found, init, rfl, holds⟩
  · intro cases
    rcases cases with ⟨before, found, after, rfl, holds⟩ | holds
    · exact ⟨before, found, after ++ [event], by simp, holds⟩
    · exact ⟨history, event, [], rfl, holds⟩

/-- The state after a history, as far as the checks read it. -/
structure Reflects (state : State ServerInfo DatabaseInfo) : Prop where
  connected : state.connected = connectedAfter history
  serverInfo : state.serverInfo.isSome = true ↔ Earlier Discovers history
  currentDatabaseInfo : state.currentDatabaseInfo.isSome = true ↔ Earlier (Selects type) history

end Histories

theorem foldl_command (commands : List (Command DatabaseInfo)) (state : State ServerInfo DatabaseInfo) :
    let after := commands.foldl State.command state
    after.connected = (state.connected && !commands.any Command.isQuit) ∧ after.serverInfo = state.serverInfo ∧
      (after.currentDatabaseInfo.isSome = true ↔
        state.currentDatabaseInfo.isSome = true ∨ state.connected = true ∧
          (commands.takeWhile fun command => !command.isQuit).any Command.isSelect = true) := by
  induction commands generalizing state with
  | nil => simp
  | cons command commands ih =>
      obtain ⟨connected, info, db⟩ := ih (state.command command)
      rw [List.foldl_cons]
      cases live : state.connected with
      | false =>
          have kept : state.command command = state := by simp [State.command, live]
          rw [kept] at connected info db ⊢
          simp only [live, Bool.false_and, Bool.false_eq_true, false_and, or_false] at connected db ⊢
          exact ⟨connected, info, db⟩
      | true =>
          cases command with
          | select chosen =>
              simp only [State.command, State.changeDatabase, live, if_true] at connected info db ⊢
              refine ⟨?_, info, ?_⟩
              · simpa [Command.isQuit] using connected
              · rw [db]
                simp [Command.isQuit, Command.isSelect]
          | quit =>
              simp only [State.command, live, if_true] at connected info db ⊢
              refine ⟨?_, info, ?_⟩
              · simpa [Command.isQuit] using connected
              · rw [db]
                simp [Command.isQuit]
          | other =>
              have kept : state.command .other = state := by simp [State.command]
              rw [kept] at connected info db ⊢
              simp only [live] at connected db
              refine ⟨?_, info, ?_⟩
              · simpa [Command.isQuit] using connected
              · rw [db]
                simp [Command.isQuit, Command.isSelect]

section Steps

variable (type : ConnectionType) (history : History ServerInfo DatabaseInfo) (state : State ServerInfo DatabaseInfo)
variable (reflects : Reflects type history state)

theorem connectedAfter_concat (event : Event ServerInfo DatabaseInfo) :
    connectedAfter (history ++ [event]) =
      match event with
      | .connect opened _ _ => connectedAfter history || opened
      | .disconnect closed => connectedAfter history && !closed
      | .execute commands => connectedAfter history && !commands.any Command.isQuit
      | _ => connectedAfter history := by
  simp only [connectedAfter, List.foldl_append, List.foldl_cons, List.foldl_nil]

include reflects

-- An event that selects nothing and leaves the connection alone.
theorem Reflects.concat_idle (event : Event ServerInfo DatabaseInfo)
    (connected : connectedAfter (history ++ [event]) = connectedAfter history)
    (discovers : ¬ Discovers history event) (selects : ¬ Selects type history event) :
    Reflects type (history ++ [event]) state := by
  refine ⟨by rw [connected, reflects.connected], ?_, ?_⟩
  · rw [earlier_concat, reflects.serverInfo, or_iff_left discovers]
  · rw [earlier_concat, reflects.currentDatabaseInfo, or_iff_left selects]

theorem Reflects.connect (opened authorized : Bool) (selected : Option DatabaseInfo) :
    Reflects type (history ++ [.connect opened authorized selected])
      (state.connect type opened authorized selected) := by
  have connected : (state.connect type opened authorized selected).connected = (state.connected || opened) := by
    unfold State.connect
    dsimp only
    split
    · cases selected <;> rfl
    · rfl
  have info : (state.connect type opened authorized selected).serverInfo = state.serverInfo := by
    unfold State.connect
    dsimp only
    split
    · cases selected <;> rfl
    · rfl
  refine ⟨?_, ?_, ?_⟩
  · rw [connected, connectedAfter_concat, reflects.connected]
  · rw [info, earlier_concat, reflects.serverInfo, or_iff_left (by simp [Discovers])]
  · rw [earlier_concat, ← reflects.currentDatabaseInfo]
    simp only [Selects, ← reflects.connected]
    unfold State.connect
    dsimp only
    split
    next all =>
      simp only [Bool.and_eq_true, decide_eq_true_eq] at all
      obtain ⟨⟨redis, live⟩, allowed⟩ := all
      cases selected with
      | none => simp
      | some db => simp [State.changeDatabase, redis, live, allowed]
    next some =>
      simp only [Bool.and_eq_true, decide_eq_true_eq, not_and] at some
      constructor
      · exact Or.inl
      · intro cases
        rcases cases with known | ⟨redis, live, allowed, _⟩
        · exact known
        · exact absurd allowed (some ⟨redis, live⟩)

theorem Reflects.discover (info : Option ServerInfo) (selected : Option DatabaseInfo) :
    Reflects type (history ++ [.discovery info selected]) (state.discover info selected) := by
  cases live : state.connected with
  | false =>
      have kept : state.discover info selected = state := by simp [State.discover, live]
      have closed : connectedAfter history = false := by rw [← reflects.connected, live]
      rw [kept]
      exact reflects.concat_idle _ _ _ _ (by rw [connectedAfter_concat]) (by simp [Discovers, closed])
        (by simp [Selects, closed])
  | true =>
      have opened : connectedAfter history = true := by rw [← reflects.connected, live]
      match info, selected with
      | some info, some db =>
          refine ⟨?_, ?_, ?_⟩
          · rw [connectedAfter_concat]
            simp [State.discover, live, opened]
          · rw [earlier_concat]
            simp [State.discover, live, Discovers, opened]
          · rw [earlier_concat]
            simp [State.discover, live, Selects, opened]
      | none, selected =>
          have kept : state.discover none selected = state := by simp [State.discover]
          rw [kept]
          exact reflects.concat_idle _ _ _ _ (by rw [connectedAfter_concat]) (by simp [Discovers]) (by simp [Selects])
      | some info, none =>
          have kept : state.discover (some info) none = state := by simp [State.discover]
          rw [kept]
          exact reflects.concat_idle _ _ _ _ (by rw [connectedAfter_concat]) (by simp [Discovers]) (by simp [Selects])

theorem Reflects.execute (commands : List (Command DatabaseInfo)) :
    Reflects type (history ++ [.execute commands]) (commands.foldl State.command state) := by
  obtain ⟨connected, info, db⟩ := foldl_command commands state
  refine ⟨?_, ?_, ?_⟩
  · rw [connected, connectedAfter_concat, reflects.connected]
  · rw [info, earlier_concat, reflects.serverInfo, or_iff_left (by simp [Discovers])]
  · rw [db, earlier_concat, reflects.currentDatabaseInfo, reflects.connected]
    rfl

theorem Reflects.checkDatabase_iff :
    state.checkDatabase = some state ↔ connectedAfter history = true ∧ Earlier (Selects type) history := by
  rw [← reflects.connected, ← reflects.currentDatabaseInfo]
  simp only [State.checkDatabase, State.getDatabaseInfo]
  cases state.connected with
  | false => simp
  | true => cases state.currentDatabaseInfo <;> simp

omit reflects in
theorem checkDatabase_same (after : State ServerInfo DatabaseInfo) (done : state.checkDatabase = some after) :
    after = state := by
  simp only [State.checkDatabase, Option.bind_eq_bind, Option.bind_eq_some_iff, Option.pure_def,
    Option.some.injEq] at done
  obtain ⟨_, _, _, _, same⟩ := done
  exact same.symm

theorem Reflects.getServerInfo_iff :
    state.getServerInfo.isSome = true ↔ (connectedAfter history = true → Earlier Discovers history) := by
  rw [← reflects.connected, ← reflects.serverInfo]
  cases live : state.connected <;> simp [State.getServerInfo, live]

theorem Reflects.getDatabaseInfo_iff :
    state.getDatabaseInfo.isSome = true ↔ (connectedAfter history = true → Earlier (Selects type) history) := by
  rw [← reflects.connected, ← reflects.currentDatabaseInfo]
  cases live : state.connected <;> simp [State.getDatabaseInfo, live]

theorem Reflects.loadDatabases_iff (answered : Bool) :
    (state.loadDatabases type answered).isSome = true ↔ Ordered type history (.loadDatabases answered) := by
  have checked : state.checkDatabase.isSome = true ↔
      connectedAfter history = true ∧ Earlier (Selects type) history := by
    rw [← reflects.checkDatabase_iff, Option.isSome_iff_exists]
    constructor
    · intro ⟨after, done⟩
      rw [done, checkDatabase_same state after done]
    · exact fun done => ⟨state, done⟩
  simp only [State.loadDatabases, Ordered]
  by_cases redis : type = .redis
  · rw [if_pos redis]
    cases live : state.connected with
    | false => simp [redis, ← reflects.connected, live]
    | true =>
        cases answered with
        | false => simp [redis]
        | true =>
            have opened : connectedAfter history = true := by rw [← reflects.connected, live]
            simpa [redis, opened] using checked
  · simpa [redis] using checked

-- A step aborts exactly when it comes out of order.
theorem Reflects.handle_iff (event : Event ServerInfo DatabaseInfo) :
    (state.handle type event).isSome = true ↔ Ordered type history event := by
  cases event with
  | loadDatabases answered => exact reflects.loadDatabases_iff type history state answered
  | currentServerInfo => simpa [State.handle, Ordered] using reflects.getServerInfo_iff
  | currentDatabaseInfo => simpa [State.handle, Ordered] using reflects.getDatabaseInfo_iff
  | connect | disconnect | discovery | serverInfo | execute => simp [State.handle, Ordered]

theorem Reflects.handle (event : Event ServerInfo DatabaseInfo) (after : State ServerInfo DatabaseInfo)
    (done : state.handle type event = some after) : Reflects type (history ++ [event]) after := by
  cases event with
  | connect opened authorized selected =>
      obtain rfl := Option.some.inj done
      exact reflects.connect type history state opened authorized selected
  | disconnect closed =>
      obtain rfl := Option.some.inj done
      refine ⟨by rw [connectedAfter_concat, ← reflects.connected]; rfl, ?_, ?_⟩
      · rw [earlier_concat, or_iff_left (by simp [Discovers])]
        exact reflects.serverInfo
      · rw [earlier_concat, or_iff_left (by simp [Selects])]
        exact reflects.currentDatabaseInfo
  | discovery info selected =>
      obtain rfl := Option.some.inj done
      exact reflects.discover type history state info selected
  | execute commands =>
      obtain rfl := Option.some.inj done
      exact reflects.execute type history state commands
  | loadDatabases answered =>
      obtain rfl : after = state := by
        simp only [State.handle, State.loadDatabases] at done
        split at done
        · exact (Option.some.inj done).symm
        · exact checkDatabase_same state after done
      exact reflects.concat_idle _ _ _ _ (by rw [connectedAfter_concat]) (by simp [Discovers]) (by simp [Selects])
  | serverInfo =>
      obtain rfl := Option.some.inj done
      exact reflects.concat_idle _ _ _ _ (by rw [connectedAfter_concat]) (by simp [Discovers]) (by simp [Selects])
  | currentServerInfo =>
      obtain ⟨_, _, rfl⟩ := Option.map_eq_some_iff.mp done
      exact reflects.concat_idle _ _ _ _ (by rw [connectedAfter_concat]) (by simp [Discovers]) (by simp [Selects])
  | currentDatabaseInfo =>
      obtain ⟨_, _, rfl⟩ := Option.map_eq_some_iff.mp done
      exact reflects.concat_idle _ _ _ _ (by rw [connectedAfter_concat]) (by simp [Discovers]) (by simp [Selects])

end Steps

/-! ## Runs -/

theorem run_reflects (type : ConnectionType) (events : History ServerInfo DatabaseInfo)
    (state : State ServerInfo DatabaseInfo) (done : State.run type events = some state) :
    Reflects type events state := by
  induction events using List.reverseRecOn generalizing state with
  | nil =>
      obtain rfl := Option.some.inj done
      exact ⟨rfl, by simp [State.initial, earlier_nil], by simp [State.initial, earlier_nil]⟩
  | append_singleton events event ih =>
      simp only [State.run, List.foldlM_append, List.foldlM_cons, List.foldlM_nil, Option.bind_eq_bind,
        Option.bind_eq_some_iff, Option.pure_def] at done
      obtain ⟨before, earlier, after, step, same⟩ := done
      obtain rfl := Option.some.inj same
      exact (ih before earlier).handle type events before event after step

/-- No `CHECK` fails in a run exactly when every event of it comes in the order that the checks
rely on. -/
theorem run_isSome_iff (type : ConnectionType) (events : History ServerInfo DatabaseInfo) :
    (State.run type events).isSome = true ↔
      ∀ before event after, events = before ++ event :: after → Ordered type before event := by
  induction events using List.reverseRecOn with
  | nil => simp [State.run]
  | append_singleton events event ih =>
      have shape : State.run type (events ++ [event]) =
          (State.run type events).bind fun state => state.handle type event := by
        simp [State.run, List.foldlM_append]
      have parts : (∀ before next after, events ++ [event] = before ++ next :: after → Ordered type before next) ↔
          (∀ before next after, events = before ++ next :: after → Ordered type before next) ∧
            Ordered type events event := by
        have negated := (earlier_concat events event fun before next => ¬ Ordered type before next).not
        simp only [Earlier, not_exists, not_and, not_or, not_not] at negated
        exact negated
      rw [shape, parts, ← ih]
      cases done : State.run type events with
      | none => simp
      | some state => simpa using (run_reflects type events state done).handle_iff type events state event

/-- A window asks for the server's information between the connect response and the discovery, or
the databases are requested before there is a connection. -/
theorem early_request_aborts :
    State.run .leveldb ([.connect true true none, .currentServerInfo] : History Unit Unit) = none ∧
      State.run .leveldb ([.loadDatabases true] : History Unit Unit) = none := ⟨rfl, rfl⟩

end FastoNoSQL.Discovery
