import FastoNoSQL.Driver.Discovery
import FastoNoSQL.Driver.Execute

set_option autoImplicit false

/-!
# The requests that a driver answers

`IDriver::customEvent` and the handlers of `core/driver/idriver.cpp`, with those
that the drivers of the back-ends override. A handler posts events to the server
that sent the request: progress, one response, and the roots and modes that it
opens and closes.
-/

namespace FastoNoSQL.Requests

open Bytes

/-- The requests, under the names of the functions of `IServer` that post them. -/
inductive Kind where
  | connect
  | disconnect
  | loadDatabases
  | loadDatabaseContent
  | setDefaultDB
  | clearDB
  | execute
  | shutDown
  | backupToPath
  | exportFromPath
  | changePassword
  | setMaxConnection
  | loadServerInfo
  | serverProperty
  | changeProperty
  | requestHistoryInfo
  | clearHistory
  | processDiscoveryInfo
  | processConfigArgs
deriving DecidableEq

-- The text, the repetitions and the silence are those of an execute request.
structure Request where
  kind : Kind
  text : Text := []
  repetitions : UInt64 := 0
  silence : Bool := false
deriving DecidableEq

inductive Event where
  | progress (value : Int)
  | responce (kind : Kind) (error : Option ErrorValue)
  | commandRootCreated
  | commandRootCompleated
  | enterMode
  | leaveMode (error : Option ErrorValue)
deriving DecidableEq

variable {ServerInfo DatabaseInfo : Type}

/-- What the calls that a handler makes come back with, and what they do to the driver. -/
structure Results (ServerInfo DatabaseInfo : Type) where
  error : Option ErrorValue
  effect : Discovery.State ServerInfo DatabaseInfo → Discovery.State ServerInfo DatabaseInfo
  -- The list of databases of a redis server comes as an array.
  answered : Bool
  -- The log file could be opened, or could be emptied or removed.
  logFile : Bool
  -- The commands of an execute request, and the progress of the n-th of them, a truncated `double`.
  backend : Driver (Discovery.State ServerInfo DatabaseInfo)
  progress : Nat → Int
  -- The modes that the configuration of a redis connection turns on.
  modes : List (Option ErrorValue)

namespace Results

variable (results : Results ServerInfo DatabaseInfo)

-- `if (er && er->isError()) res.setErrorInfo(er)`
def failure : Option ErrorValue := results.error.filter (·.isError)

end Results

-- `NotifyProgress` at the given values, the response, and the progress that ends the request.
def reply (values : List Int) (kind : Kind) (error : Option ErrorValue) : List Event :=
  values.map .progress ++ [.responce kind error, .progress 100]

def replyNotImplementedYet (kind : Kind) (command : String) : List Event :=
  reply [0] kind (some (makeErrorValue ("Sorry, but now FastoNoSQL not supported " ++ command ++ " command.")))

section Execute

variable {State : Type} (driver : Driver State)

-- How many commands are begun, each after a `NotifyProgress`.
def begunCommands : List Text → Run State → Nat
  | [], _ => 0
  | command :: commands, run =>
    if driver.isInterrupted run.state then 0
    else
      match driver.execute (createCommand command) run with
      | (run, some err) => if err.isError then 1 else begunCommands commands run + 1
      | (run, none) => begunCommands commands run + 1

def begunRepeated (commands : List Text) : Nat → Run State → Nat
  | 0, _ => 0
  | count + 1, run =>
    let next := driver.runCommands commands run
    begunCommands driver commands run + if next.error.isSome then 0 else begunRepeated commands count next

end Execute

section Handlers

variable (lib : Common) (type : ConnectionType) (results : Results ServerInfo DatabaseInfo)
variable (state : Discovery.State ServerInfo DatabaseInfo) (request : Request)

-- The root of the request is created before the first command and completed after the last event.
def executeEvents : List Event :=
  let run := results.backend.handleExecuteEvent lib request.text request.repetitions state
  let commands := lib.tokenize request.text [byte '\n']
  if request.text = [] ∨ commands = [] then reply [0] .execute run.error
  else
    let begun := begunRepeated results.backend commands (request.repetitions + 1).toNat { state }
    let root (event : Event) := if request.silence then [] else [event]
    .progress 0 :: root .commandRootCreated ++
      reply ((List.range begun).map results.progress) .execute run.error ++ root .commandRootCompleated

-- `InteracteveMode` opens no root.
def modeEvents (modes : List (Option ErrorValue)) : List Event :=
  (modes.flatMap fun error =>
    [.progress 0, .enterMode, .commandRootCreated, .leaveMode error, .progress 100, .commandRootCompleated]) ++
    [.progress 0, .enterMode, .leaveMode none, .progress 100]

abbrev Handled (ServerInfo DatabaseInfo : Type) := Discovery.State ServerInfo DatabaseInfo × List Event

-- A handler around one call, which reports its progress before and after it.
def called (values : List Int) (kind : Kind) : Option (Handled ServerInfo DatabaseInfo) :=
  some (results.effect state, reply values kind results.failure)

-- A handler of `redis::Driver` in place of the one of `IDriver` that refuses.
def overridden (values : List Int) (kind : Kind) (command : String) : Option (Handled ServerInfo DatabaseInfo) :=
  if type = .redis then called results state values kind
  else some (state, replyNotImplementedYet kind command)

-- `HandleLoadDatabaseInfosEvent`: the current database is checked, on redis only for an array.
def handleLoadDatabaseInfosEvent : Option (Handled ServerInfo DatabaseInfo) :=
  if type = .redis then
    if results.failure.isSome ∨ results.answered = false then called results state [0, 50, 75] .loadDatabases
    else (results.effect state).checkDatabase.map (·, reply [0, 50, 75] .loadDatabases none)
  else state.checkDatabase.map (·, reply [0, 50] .loadDatabases none)

def handleDiscoveryInfoEvent : Option (Handled ServerInfo DatabaseInfo) :=
  if state.connected then called results state [0, 50, 75] .processDiscoveryInfo
  else
    some (state, reply [0, 50, 75] .processDiscoveryInfo
      (some (makeErrorValue "Not connected to server, impossible to get discovery info!")))

def handleProcessCommandLineArgsEvent : Option (Handled ServerInfo DatabaseInfo) :=
  if type = .redis then
    some (results.effect state, modeEvents results.modes ++ [.responce .processConfigArgs none])
  else some (state, [])

/-- `IDriver::customEvent`: none when a `CHECK` aborts the program. -/
def customEvent : Option (Handled ServerInfo DatabaseInfo) :=
  match request.kind with
  | .connect => called results state [0, 25, 75] .connect
  | .disconnect => called results state [0, 50] .disconnect
  | .loadDatabases => handleLoadDatabaseInfosEvent type results state
  | .loadDatabaseContent => called results state [0, 50, 75] .loadDatabaseContent
  | .setDefaultDB => overridden type results state [0, 50, 75] .setDefaultDB "set default database"
  | .clearDB =>
    -- Only memcached leaves it to `IDriver`.
    if type = .memcached then some (state, replyNotImplementedYet .clearDB "clear database")
    else called results state [0, 50, 75] .clearDB
  | .execute =>
    let run := results.backend.handleExecuteEvent lib request.text request.repetitions state
    some (run.state, executeEvents lib results state request)
  | .shutDown => overridden type results state [0, 25, 75] .shutDown "shutdown"
  | .backupToPath => overridden type results state [0, 25, 75] .backupToPath "backup server"
  | .exportFromPath => overridden type results state [0, 25, 75] .exportFromPath "export server"
  | .changePassword => overridden type results state [0, 25, 75] .changePassword "change password"
  | .setMaxConnection => overridden type results state [0, 25, 75] .setMaxConnection "change maximum connection"
  | .loadServerInfo => called results state [0, 50, 75] .loadServerInfo
  | .serverProperty => overridden type results state [0, 50, 75] .serverProperty "server property"
  | .changeProperty => overridden type results state [0, 50, 75] .changeProperty "change server property"
  -- The two handlers around the log file report no progress at all.
  | .requestHistoryInfo =>
    some (state, [.responce .requestHistoryInfo
      (if results.logFile then none else some (makeErrorValue "History file not found"))])
  | .clearHistory =>
    some (state, [.responce .clearHistory
      (if results.logFile then none else some (makeErrorValue "Clear file error!"))])
  | .processDiscoveryInfo => handleDiscoveryInfoEvent results state
  | .processConfigArgs => handleProcessCommandLineArgsEvent type results state

-- What the `CHECK`s of a load-databases request ask of the driver.
def DatabaseKnown : Prop :=
  if type = .redis then
    results.failure.isSome ∨ results.answered = false ∨
      (results.effect state).connected = true ∧ (results.effect state).currentDatabaseInfo.isSome = true
  else state.connected = true ∧ state.currentDatabaseInfo.isSome = true

end Handlers

/-! ## What the handlers post -/

def Event.isResponce : Event → Bool
  | responce _ _ => true
  | _ => false

def Event.isConnect : Event → Bool
  | responce .connect _ => true
  | _ => false

-- One response, the last progress of the request after it, and at most a root to be completed.
def Answers (kind : Kind) (events : List Event) : Prop :=
  ∃ front back error, events = front ++ .responce kind error :: .progress 100 :: back ∧
    (∀ event ∈ front, event.isResponce = false) ∧ ∀ event ∈ back, event = .commandRootCompleated

theorem reply_answers (values : List Int) (kind : Kind) (error : Option ErrorValue) :
    Answers kind (reply values kind error) := by
  refine ⟨values.map .progress, [], error, rfl, fun event member => ?_, by simp⟩
  obtain ⟨value, _, rfl⟩ := List.mem_map.mp member
  rfl

theorem Answers.inside {kind : Kind} {events : List Event} (answers : Answers kind events) (before after : List Event)
    (quiet : ∀ event ∈ before, event.isResponce = false) (closing : ∀ event ∈ after, event = .commandRootCompleated) :
    Answers kind (before ++ events ++ after) := by
  obtain ⟨front, back, error, rfl, none, rest⟩ := answers
  refine ⟨before ++ front, back ++ after, error, by simp, fun event member => ?_, fun event member => ?_⟩
  · exact (List.mem_append.mp member).elim (quiet event) (none event)
  · exact (List.mem_append.mp member).elim (rest event) (closing event)

section Handlers

variable (lib : Common) (type : ConnectionType) (results : Results ServerInfo DatabaseInfo)
variable (state : Discovery.State ServerInfo DatabaseInfo) (request : Request)

theorem executeEvents_answers : Answers .execute (executeEvents lib results state request) := by
  unfold executeEvents
  dsimp only
  split
  · exact reply_answers _ _ _
  · cases request.silence with
    | true =>
        apply (reply_answers _ _ _).inside [.progress 0] []
        · simp [Event.isResponce]
        · simp
    | false =>
        apply (reply_answers _ _ _).inside [.progress 0, .commandRootCreated] [.commandRootCompleated]
        · simp [Event.isResponce]
        · simp

theorem called_answers (values : List Int) (kind : Kind) (after : Discovery.State ServerInfo DatabaseInfo)
    (events : List Event) (handled : called results state values kind = some (after, events)) :
    Answers kind events := by
  obtain ⟨_, rfl⟩ := Prod.mk.inj (Option.some.inj handled)
  exact reply_answers _ _ _

theorem overridden_answers (values : List Int) (kind : Kind) (command : String)
    (after : Discovery.State ServerInfo DatabaseInfo) (events : List Event)
    (handled : overridden type results state values kind command = some (after, events)) : Answers kind events := by
  unfold overridden at handled
  split at handled
  · exact called_answers _ _ _ _ _ _ handled
  · obtain ⟨_, rfl⟩ := Prod.mk.inj (Option.some.inj handled)
    exact reply_answers _ _ _

theorem handleLoadDatabaseInfosEvent_answers (after : Discovery.State ServerInfo DatabaseInfo) (events : List Event)
    (handled : handleLoadDatabaseInfosEvent type results state = some (after, events)) :
    Answers .loadDatabases events := by
  unfold handleLoadDatabaseInfosEvent at handled
  split at handled
  · split at handled
    · exact called_answers _ _ _ _ _ _ handled
    · obtain ⟨_, _, same⟩ := Option.map_eq_some_iff.mp handled
      obtain ⟨_, rfl⟩ := Prod.mk.inj same
      exact reply_answers _ _ _
  · obtain ⟨_, _, same⟩ := Option.map_eq_some_iff.mp handled
    obtain ⟨_, rfl⟩ := Prod.mk.inj same
    exact reply_answers _ _ _

theorem handleDiscoveryInfoEvent_answers (after : Discovery.State ServerInfo DatabaseInfo) (events : List Event)
    (handled : handleDiscoveryInfoEvent results state = some (after, events)) :
    Answers .processDiscoveryInfo events := by
  unfold handleDiscoveryInfoEvent at handled
  split at handled
  · exact called_answers _ _ _ _ _ _ handled
  · obtain ⟨_, rfl⟩ := Prod.mk.inj (Option.some.inj handled)
    exact reply_answers _ _ _

variable (after : Discovery.State ServerInfo DatabaseInfo) (events : List Event)
variable (handled : customEvent lib type results state request = some (after, events))

include handled

-- All handlers but three end with a response and the last progress.
theorem customEvent_answers (history : request.kind ≠ .requestHistoryInfo) (cleared : request.kind ≠ .clearHistory)
    (config : request.kind ≠ .processConfigArgs) : Answers request.kind events := by
  unfold customEvent at handled
  cases kind : request.kind <;> rw [kind] at handled <;> dsimp only at handled
  case requestHistoryInfo => exact absurd kind history
  case clearHistory => exact absurd kind cleared
  case processConfigArgs => exact absurd kind config
  case loadDatabases => exact handleLoadDatabaseInfosEvent_answers _ _ _ _ _ handled
  case processDiscoveryInfo => exact handleDiscoveryInfoEvent_answers _ _ _ _ handled
  case execute =>
    obtain ⟨_, rfl⟩ := Prod.mk.inj (Option.some.inj handled)
    exact executeEvents_answers _ _ _ _
  case clearDB =>
    split at handled
    · obtain ⟨_, rfl⟩ := Prod.mk.inj (Option.some.inj handled)
      exact reply_answers _ _ _
    · exact called_answers _ _ _ _ _ _ handled
  all_goals
    first
      | exact called_answers _ _ _ _ _ _ handled
      | exact overridden_answers _ _ _ _ _ _ _ _ handled

theorem customEvent_log (kind : request.kind = .requestHistoryInfo ∨ request.kind = .clearHistory) :
    ∃ error, events = [.responce request.kind error] := by
  unfold customEvent at handled
  rcases kind with kind | kind
  all_goals
    rw [kind] at handled
    obtain ⟨_, rfl⟩ := Prod.mk.inj (Option.some.inj handled)
    exact ⟨_, by rw [kind]⟩

theorem customEvent_config (kind : request.kind = .processConfigArgs) :
    ∀ event ∈ events, event.isResponce = true → event = .responce .processConfigArgs none := by
  unfold customEvent at handled
  rw [kind] at handled
  dsimp only [handleProcessCommandLineArgsEvent] at handled
  split at handled
  · obtain ⟨_, rfl⟩ := Prod.mk.inj (Option.some.inj handled)
    intro event member responce
    simp only [modeEvents, List.mem_append, List.mem_flatMap, List.mem_cons, List.not_mem_nil, or_false] at member
    rcases member with (⟨_, _, found⟩ | found) | found
    · rcases found with rfl | rfl | rfl | rfl | rfl | rfl <;> cases responce
    · rcases found with rfl | rfl | rfl | rfl <;> cases responce
    · exact found
  · obtain ⟨_, rfl⟩ := Prod.mk.inj (Option.some.inj handled)
    simp

theorem customEvent_connects :
    events.countP Event.isConnect ≤ if request.kind = .connect then 1 else 0 := by
  have quiet (events : List Event) (none : ∀ event ∈ events, event.isResponce = false) :
      events.countP Event.isConnect = 0 := by
    rw [List.countP_eq_zero]
    intro event member isConnect
    have responce := none event member
    unfold Event.isConnect at isConnect
    split at isConnect
    · cases responce
    · cases isConnect
  by_cases config : request.kind = .processConfigArgs
  · rw [List.countP_eq_zero.mpr]
    · exact Nat.zero_le _
    intro event member isConnect
    have responce : event.isResponce = true := by
      unfold Event.isConnect at isConnect
      split at isConnect
      · rfl
      · cases isConnect
    rw [customEvent_config lib type results state request after events handled config event member responce] at isConnect
    cases isConnect
  by_cases log : request.kind = .requestHistoryInfo ∨ request.kind = .clearHistory
  · obtain ⟨error, rfl⟩ := customEvent_log lib type results state request after events handled log
    rcases log with log | log <;> simp [log, Event.isConnect]
  · rw [not_or] at log
    obtain ⟨front, back, error, rfl, none, closing⟩ :=
      customEvent_answers lib type results state request after events handled log.1 log.2 config
    have last : back.countP Event.isConnect = 0 := by
      apply quiet
      intro event member
      rw [closing event member]
      rfl
    rw [List.countP_append, quiet front none, List.countP_cons, List.countP_cons, last]
    cases request.kind <;> simp [Event.isConnect]

omit handled in
-- Only the `CHECK`s of a load-databases request abort.
theorem customEvent_isSome_iff :
    (customEvent lib type results state request).isSome = true ↔
      (request.kind = .loadDatabases → DatabaseKnown type results state) := by
  have checked (state : Discovery.State ServerInfo DatabaseInfo) :
      state.checkDatabase.isSome = true ↔ state.connected = true ∧ state.currentDatabaseInfo.isSome = true := by
    simp only [Discovery.State.checkDatabase, Discovery.State.getDatabaseInfo]
    cases state.connected with
    | false => simp
    | true => cases state.currentDatabaseInfo <;> simp
  unfold customEvent
  cases kind : request.kind <;> dsimp only
  case loadDatabases =>
    simp only [handleLoadDatabaseInfosEvent, DatabaseKnown, forall_const]
    split
    · split
      next early => simpa [called] using early.elim Or.inl fun no => Or.inr (Or.inl no)
      next late =>
        rw [Option.isSome_map, checked]
        rw [not_or] at late
        rw [or_iff_right late.1, or_iff_right late.2]
    · rw [Option.isSome_map, checked]
  case clearDB => split <;> simp [called]
  case processDiscoveryInfo =>
    unfold handleDiscoveryInfoEvent
    split <;> simp [called]
  case processConfigArgs =>
    unfold handleProcessCommandLineArgsEvent
    split <;> simp
  case setDefaultDB | shutDown | backupToPath | exportFromPath | changePassword | setMaxConnection |
      serverProperty | changeProperty =>
    unfold overridden
    split <;> simp [called]
  all_goals simp [called]

end Handlers

end FastoNoSQL.Requests
