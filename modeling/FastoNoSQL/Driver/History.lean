import FastoNoSQL.Runs
import FastoNoSQL.Stdio
import FastoNoSQL.Server.ServerInfo

set_option autoImplicit false

/-!
# The history of server infos

`core/driver/idriver.cpp`: the timer handler appends snapshots to the log file,
two requests clear the file and read it back.
-/

namespace FastoNoSQL.History

open Bytes Runs Stdio

def magicNumber : UInt8 := 0x1E

/-! ## Stamps -/

def createStamp (time : Int64) : Text := magicNumber :: (intText time.toInt ++ [lineFeed])

/-- `ConvertFromBytes<time64_t>` is a parameter; a stamp of zero is none. -/
def getStamp (toTime : Text → Int64) : Text → Option Int64
  | [] => none
  | c :: stamp =>
    if c ≠ magicNumber then none
    else if stamp = [] then none
    else
      let time := toTime (if stamp.getLast? = some lineFeed then stamp.dropLast else stamp)
      if time ≠ 0 then some time else none

section Stamps

variable (toTime : Text → Int64)

theorem getStamp_createStamp (reads : ∀ t : Int64, 0 < t → toTime (intText t.toInt) = t) (time : Int64)
    (positive : 0 < time) : getStamp toTime (createStamp time) = some time := by
  have nonzero : time ≠ 0 := by
    rintro rfl
    exact absurd positive (by decide)
  simp [getStamp, createStamp, reads time positive, nonzero]

theorem getStamp_other (text : Text) (unmarked : text.head? ≠ some magicNumber) : getStamp toTime text = none := by
  cases text with
  | nil => rfl
  | cons c text =>
      have other : c ≠ magicNumber := by simpa using unmarked
      simp [getStamp, other]

end Stamps

/-! ## The log file -/

/-- `log_file_`. -/
inductive LogFile where
  | null
  | closed
  | opened
deriving DecidableEq

/-- The file at the logging path and the driver's handle on it. -/
structure Log where
  file : Option Text
  logFile : LogFile := .null

/-- What a timer event finds: `active` when it is the info timer, logging is enabled and the
driver is connected; `info` is none when `CurrentServerInfo` fails. -/
structure Tick where
  active : Bool
  isDirectory : Bool
  opens : Bool
  time : Int64
  info : Option ServerInfo

def Log.create (log : Log) (isDirectory : Bool) : Log :=
  if log.logFile = .null ∧ isDirectory then { log with logFile := .closed } else log

-- `open("ab+")`
def Log.open (log : Log) (opens : Bool) : Log :=
  if log.logFile = .closed ∧ opens then { file := some (log.file.getD []), logFile := .opened } else log

def Log.append (log : Log) (text : Text) : Log := { log with file := some (log.file.getD [] ++ text) }

abbrev Shot := Int64 × ServerInfo

def record (lib : Library) (shot : Shot) : Text := createStamp shot.1 ++ shot.2.text lib

/-- `timerEvent`, with the snapshot it emits. -/
def timerEvent (lib : Library) (log : Log) (tick : Tick) : Log × Option Shot :=
  if tick.active then
    let log := (log.create tick.isDirectory).open tick.opens
    if log.logFile = .opened then
      match tick.info with
      | none => (log, none)
      | some info => (log.append (record lib (tick.time, info)), some (tick.time, info))
    else (log, none)
  else (log, none)

/-- `HandleClearServerHistoryEvent`, with what it answers; `succeeds` is the outcome of the
truncation or of the removal. -/
def handleClearServerHistory (log : Log) (succeeds : Bool) : Log × Bool :=
  if log.logFile = .opened then
    if succeeds then ({ log with file := some [] }, true) else (log, false)
  else
    match log.file with
    | some _ => if succeeds then ({ log with file := none }, true) else (log, false)
    | none => (log, true)

/-! ## Reading -/

/-- `ServerInfoSnapShoot`; the info is null when its text was refused. -/
structure SnapShoot where
  msec : Int64
  info : Option ServerInfo
deriving DecidableEq

structure Reading where
  curStamp : Int64 := 0
  dataInfo : Text := []
  infos : List SnapShoot := []

/-- `ServerInfoHistoryResponce`. -/
structure Response where
  infos : List SnapShoot := []
  errorInfo : Option ErrorValue := none

def notFound : ErrorValue := makeErrorValue "History file not found"

section Load

variable (lib : Library) (toTime : Text → Int64) (garbage : Nat → Garbage) (type : ConnectionType)

def Reading.finish (reading : Reading) : Reading :=
  if reading.curStamp ≠ 0 then
    let info := makeServerInfoFromString lib (garbage reading.infos.length) reading.dataInfo type
    { reading with infos := reading.infos ++ [⟨reading.curStamp, info⟩] }
  else reading

def Reading.absorb (reading : Reading) (data : Text) : Reading :=
  match getStamp toTime data with
  | some stamp => { curStamp := stamp, infos := (reading.finish lib garbage type).infos }
  | none => { reading with dataInfo := reading.dataInfo ++ data }

-- `HandleLoadServerInfoHistoryEvent`; no result means that the fuel did not suffice.
def handleLoadServerInfoHistory (files : Files) (fuel : Nat) (log : Log) : Option Response :=
  match log.file with
  | none => some { errorInfo := some notFound }
  | some content =>
    (forLines files (Reading.absorb lib toTime garbage type) (Reading.finish lib garbage type) fuel
      (files.openRead content) {}).map fun reading => { infos := reading.infos }

/-- A text that the stamps can frame: it ends a line and starts none with the magic number. -/
structure Framed (text : Text) : Prop where
  ends : text.getLast? = some lineFeed
  unmarked : ∀ line ∈ text.splitOn lineFeed, line.head? ≠ some magicNumber

/-- A snapshot whose info the text keeps. -/
structure Kept (shot : Shot) : Prop where
  positive : 0 < shot.1
  framed : Framed (shot.2.text lib)
  reads : ∀ garbage, makeServerInfoFromString lib garbage (shot.2.text lib) type = some shot.2

def Shot.snapShoot (shot : Shot) : SnapShoot := ⟨shot.1, some shot.2⟩

-- The state between two records: all are read but the last, which is still open.
def reading (shots : List Shot) : Reading :=
  match shots.getLast? with
  | none => {}
  | some last =>
    { curStamp := last.1, dataInfo := last.2.text lib, infos := shots.dropLast.map Shot.snapShoot }

variable {lib type}

theorem finish_reading (shots : List Shot) (kept : ∀ shot ∈ shots, Kept lib type shot) :
    ((reading lib shots).finish lib garbage type).infos = shots.map Shot.snapShoot := by
  cases last : shots.getLast? with
  | none =>
      obtain rfl := List.getLast?_eq_none_iff.mp last
      simp [reading, Reading.finish]
  | some shot =>
      obtain ⟨before, rfl⟩ := List.getLast?_eq_some_iff.mp last
      have good := kept shot (by simp)
      have nonzero : shot.1 ≠ 0 := by
        intro zero
        have positive := good.positive
        rw [zero] at positive
        exact absurd positive (by decide)
      simp [reading, Reading.finish, nonzero, good.reads, Shot.snapShoot]

theorem foldl_absorb_unmarked (lines : List Text) (start : Reading)
    (unmarked : ∀ line ∈ lines, line.head? ≠ some magicNumber) :
    lines.foldl (fun reading line => reading.absorb lib toTime garbage type (line ++ [lineFeed])) start =
      { start with dataInfo := start.dataInfo ++ lines.flatMap fun line => line ++ [lineFeed] } := by
  induction lines generalizing start with
  | nil => simp
  | cons line lines ih =>
      have plain : (line ++ [lineFeed]).head? ≠ some magicNumber := by
        have notMarked := unmarked line (by simp)
        cases line with
        | nil => decide
        | cons c line => simpa using notMarked
      have step : start.absorb lib toTime garbage type (line ++ [lineFeed]) =
          { start with dataInfo := start.dataInfo ++ (line ++ [lineFeed]) } := by
        rw [Reading.absorb, getStamp_other toTime _ plain]
      rw [List.foldl_cons, step, ih _ fun other member => unmarked other (List.mem_cons_of_mem line member)]
      simp

-- Reading a record closes the one before it and leaves the new one open.
theorem foldl_absorb_record (reads : ∀ t : Int64, 0 < t → toTime (intText t.toInt) = t) (shots : List Shot)
    (shot : Shot) (earlier : ∀ shot ∈ shots, Kept lib type shot) (kept : Kept lib type shot) :
    ∃ lines : List Text, record lib shot = (lines.flatMap fun line => line ++ [lineFeed]) ∧
      (∀ line ∈ lines, lineFeed ∉ line) ∧
      lines.foldl (fun reading line => reading.absorb lib toTime garbage type (line ++ [lineFeed]))
        (reading lib shots) = reading lib (shots ++ [shot]) := by
  obtain ⟨lines, text, pieces⟩ := exists_lines (shot.2.text lib) kept.framed.ends
  refine ⟨(magicNumber :: intText shot.1.toInt) :: lines, ?_, ?_, ?_⟩
  · simp [record, createStamp, ← text]
  · intro line member
    rcases List.mem_cons.mp member with rfl | member
    · have quiet := (quiet_intText shot.1.toInt).1.2
      simpa [lineFeed, magicNumber] using quiet
    · exact (pieces line member).1
  · have stamp : getStamp toTime ((magicNumber :: intText shot.1.toInt) ++ [lineFeed]) = some shot.1 :=
      getStamp_createStamp toTime reads shot.1 kept.positive
    rw [List.foldl_cons, Reading.absorb, stamp, finish_reading garbage shots earlier,
      foldl_absorb_unmarked toTime garbage lines _ fun line member => kept.framed.unmarked line (pieces line member).2,
      ← text]
    simp [reading]

theorem foldl_absorb_records (reads : ∀ t : Int64, 0 < t → toTime (intText t.toInt) = t) (shots : List Shot)
    (kept : ∀ shot ∈ shots, Kept lib type shot) :
    ∃ lines : List Text, shots.flatMap (record lib) = (lines.flatMap fun line => line ++ [lineFeed]) ∧
      (∀ line ∈ lines, lineFeed ∉ line) ∧
      lines.foldl (fun reading line => reading.absorb lib toTime garbage type (line ++ [lineFeed])) {} =
        reading lib shots := by
  induction shots using List.reverseRecOn with
  | nil => exact ⟨[], rfl, by simp, rfl⟩
  | append_singleton shots shot ih =>
      have earlier : ∀ other ∈ shots, Kept lib type other := fun other member => kept other (by simp [member])
      obtain ⟨before, written, clean, read⟩ := ih earlier
      obtain ⟨lines, text, lineClean, next⟩ :=
        foldl_absorb_record toTime garbage reads shots shot earlier (kept shot (by simp))
      refine ⟨before ++ lines, by simp [written, text], ?_, by rw [List.foldl_append, read, next]⟩
      intro line member
      exact (List.mem_append.mp member).elim (clean line) (lineClean line)

theorem length_le_flatMap (lines : List Text) :
    lines.length ≤ (lines.flatMap fun line => line ++ [lineFeed]).length := by
  induction lines with
  | nil => simp
  | cons line lines ih =>
      simp only [List.flatMap_cons, List.length_append, List.length_cons, List.length_nil]
      omega

theorem load_records (reads : ∀ t : Int64, 0 < t → toTime (intText t.toInt) = t) (files : Files)
    (remaining : files.Handle → Text) (lawful : files.Lawful remaining) (shots : List Shot)
    (kept : ∀ shot ∈ shots, Kept lib type shot) (log : Log) (content : log.file = some (shots.flatMap (record lib)))
    (fuel : Nat) (enough : (shots.flatMap (record lib)).length < fuel) :
    handleLoadServerInfoHistory lib toTime garbage type files fuel log =
      some { infos := shots.map Shot.snapShoot } := by
  obtain ⟨lines, text, clean, read⟩ := foldl_absorb_records toTime garbage reads shots kept
  have size : lines.length < fuel := by
    rw [text] at enough
    exact Nat.lt_of_le_of_lt (length_le_flatMap lines) enough
  have start := lawful.remaining_openRead (shots.flatMap (record lib))
  have all := forLines_lines files (Reading.absorb lib toTime garbage type) (Reading.finish lib garbage type) remaining
    lawful lines clean fuel size _ {} (lawful.isEof_openRead (shots.flatMap (record lib))) (start.trans text)
  simp only [handleLoadServerInfoHistory, content]
  rw [all, read, Option.map_some, finish_reading garbage shots kept]

end Load

/-! ## Runs -/

inductive Event where
  | tick (tick : Tick)
  | clear (succeeds : Bool)

/-- The log with the snapshots that were emitted since the last clear that succeeded. -/
structure State where
  log : Log
  recorded : List Shot := []

section Run

variable (lib : Library) (type : ConnectionType)

def step (state : State) : Event → State
  | .tick tick =>
    let (log, shot) := timerEvent lib state.log tick
    ⟨log, state.recorded ++ shot.toList⟩
  | .clear succeeds =>
    let (log, cleared) := handleClearServerHistory state.log succeeds
    ⟨log, if cleared then [] else state.recorded⟩

-- The snapshot the event writes, if any, is kept by its text.
def WritesKept (state : State) : Event → Prop
  | .tick tick => ∀ shot ∈ (timerEvent lib state.log tick).2, Kept lib type shot
  | .clear _ => True

structure Mirrors (state : State) : Prop where
  content : state.log.file.getD [] = state.recorded.flatMap (record lib)
  opened : state.log.logFile = .opened → state.log.file ≠ none
  kept : ∀ shot ∈ state.recorded, Kept lib type shot

-- A timer event appends what it emits, and a file that is there stays.
theorem timerEvent_appends (log : Log) (tick : Tick) :
    (timerEvent lib log tick).1.file.getD [] =
      log.file.getD [] ++ (timerEvent lib log tick).2.toList.flatMap (record lib) := by
  unfold timerEvent Log.create Log.open Log.append
  grind

theorem timerEvent_file (log : Log) (tick : Tick) :
    (log.file ≠ none → (timerEvent lib log tick).1.file ≠ none) ∧
      ((log.logFile = .opened → log.file ≠ none) →
        (timerEvent lib log tick).1.logFile = .opened → (timerEvent lib log tick).1.file ≠ none) := by
  unfold timerEvent Log.create Log.open Log.append
  grind

theorem handleClear_cases (log : Log) (succeeds : Bool) :
    (handleClearServerHistory log succeeds = (log, false)) ∨
      ((handleClearServerHistory log succeeds).2 = true ∧
        (handleClearServerHistory log succeeds).1.file.getD [] = [] ∧
        (handleClearServerHistory log succeeds).1.logFile = log.logFile ∧
        (log.logFile = .opened → (handleClearServerHistory log succeeds).1.file ≠ none)) := by
  unfold handleClearServerHistory
  grind

variable {lib type}

theorem mirrors_step (state : State) (event : Event) (mirrors : Mirrors lib type state)
    (kept : WritesKept lib type state event) : Mirrors lib type (step lib state event) := by
  cases event with
  | tick tick =>
      refine ⟨?content, (timerEvent_file lib state.log tick).2 mirrors.opened, ?kept⟩
      case content =>
        simp only [step]
        rw [timerEvent_appends, mirrors.content, List.flatMap_append]
      case kept =>
        intro shot member
        simp only [step, List.mem_append, Option.mem_toList] at member
        exact member.elim (mirrors.kept shot) (kept shot)
  | clear succeeds =>
      rcases handleClear_cases state.log succeeds with failed | ⟨cleared, content, handle, file⟩
      · simpa [step, failed] using mirrors
      · refine ⟨?_, ?_, ?_⟩
        · simpa [step, cleared] using content
        · simp only [step, handle]
          exact file
        · simp [step, cleared]

theorem file_step (state : State) (event : Event) (file : state.log.file ≠ none) (other : event ≠ .clear true) :
    (step lib state event).log.file ≠ none := by
  cases event with
  | tick tick => exact (timerEvent_file lib state.log tick).1 file
  | clear succeeds =>
      obtain rfl : succeeds = false := by simpa using other
      obtain ⟨content, there⟩ := Option.ne_none_iff_exists'.mp file
      simp [step, handleClearServerHistory, there]

/-- From an empty log file, the history is what was written since the last clear that succeeded.
Only a clear can remove the file, and then nothing has been written since. -/
theorem load_run (toTime : Text → Int64) (reads : ∀ t : Int64, 0 < t → toTime (intText t.toInt) = t)
    (files : Files) (remaining : files.Handle → Text) (lawful : files.Lawful remaining)
    (garbage : Nat → Garbage) (log : Log) (empty : log.file = some []) (events : List Event)
    (kept : Along (step lib) (WritesKept lib type) ⟨log, []⟩ events) (fuel : Nat)
    (enough : ((run (step lib) ⟨log, []⟩ events).log.file.getD []).length < fuel) :
    let state := run (step lib) ⟨log, []⟩ events
    handleLoadServerInfoHistory lib toTime garbage type files fuel state.log =
        some
          { infos := state.recorded.map Shot.snapShoot
            errorInfo := if state.log.file = none then some notFound else none } ∧
      (state.log.file = none → state.recorded = [] ∧ .clear true ∈ events) := by
  intro state
  have mirrors : Mirrors lib type state :=
    invariant_run (Mirrors lib type) mirrors_step ⟨by simp [empty], by simp [empty], by simp⟩ events kept
  have content := mirrors.content
  cases file : state.log.file with
  | none =>
      have nothing : state.recorded = [] := by
        rw [file] at content
        have empties := List.flatMap_eq_nil_iff.mp content.symm
        rw [List.eq_nil_iff_forall_not_mem]
        exact fun shot member => absurd (empties shot member) (by simp [record, createStamp])
      refine ⟨by simp [handleLoadServerInfoHistory, file, nothing], fun _ => ⟨nothing, ?_⟩⟩
      by_contra never
      have others : Along (step lib) (fun _ event => event ≠ .clear true) ⟨log, []⟩ events := by
        intro before event after split
        rintro rfl
        exact never (by simp [split])
      exact invariant_run (fun state => state.log.file ≠ none) file_step (by simp [empty]) events others file
  | some text =>
      rw [file, Option.getD_some] at content
      have size : (state.recorded.flatMap (record lib)).length < fuel := by
        rw [← content]
        simpa [state, file] using enough
      refine ⟨?_, nofun⟩
      rw [load_records toTime garbage reads files remaining lawful state.recorded mirrors.kept state.log
        (by rw [file, content]) fuel size]
      rfl

theorem timerEvent_emits (log : Log) (tick : Tick) (shot : Shot) (emitted : (timerEvent lib log tick).2 = some shot) :
    shot.1 = tick.time ∧ tick.info = some shot.2 := by
  unfold timerEvent at emitted
  grind

theorem along_writesKept (state : State) (events : List Event)
    (good : ∀ tick, .tick tick ∈ events → ∀ info ∈ tick.info, Kept lib type (tick.time, info)) :
    Along (step lib) (WritesKept lib type) state events := by
  intro before event after split
  cases event with
  | tick tick =>
      intro shot emitted
      obtain ⟨time, info⟩ := timerEvent_emits _ tick shot emitted
      have kept := good tick (by simp [split]) shot.2 info
      rwa [← time] at kept
  | clear succeeds => trivial

end Run

def shots : List Shot := [(1500000000000, .leveldb ⟨1, 0, 7, 2, 4⟩), (1500000010000, .leveldb ⟨2, 3, 4, 5, 6⟩)]

def clearedHistory : List Event :=
  let tick (shot : Shot) : Event := .tick ⟨true, true, true, shot.1, some shot.2⟩
  shots.map tick ++ .clear true :: shots.map tick

def emptyLog : Log := { file := some [] }

theorem run_clearedHistory : run (step Library.std) ⟨emptyLog, []⟩ clearedHistory =
    ⟨⟨some (shots.flatMap (record Library.std)), .opened⟩, shots⟩ := by
  simp [emptyLog, clearedHistory, shots, step, timerEvent, Log.create, Log.open, Log.append, handleClearServerHistory]

theorem kept_shots : ∀ shot ∈ shots, Kept Library.std .leveldb shot := by
  have reads : ∀ stats garbage, makeServerInfoFromString Library.std garbage
      ((ServerInfo.leveldb stats).text Library.std) .leveldb = some (.leveldb stats) :=
    fun stats _ => congrArg (Option.map ServerInfo.leveldb)
      (ServerInfo.leveldbFormat_text Library.std Library.std_lawful _ _ stats)
  simp only [shots, List.forall_mem_cons]
  refine ⟨⟨by decide, ⟨by decide, by decide⟩, reads _⟩, ?_, by simp⟩
  exact ⟨by decide, ⟨by decide, by decide⟩, reads _⟩

theorem history_after_clear :
    handleLoadServerInfoHistory Library.std (fun text => Int64.ofInt (readInt text))
      (fun _ => ⟨fun _ => 9, fun _ => 9⟩) .leveldb Files.std ((shots.flatMap (record Library.std)).length + 1)
      (run (step Library.std) ⟨emptyLog, []⟩ clearedHistory).log = some { infos := shots.map Shot.snapShoot } := by
  have kept : Along (step Library.std) (WritesKept Library.std .leveldb) ⟨emptyLog, []⟩ clearedHistory := by
    apply along_writesKept
    intro tick member info same
    have shot : (tick.time, info) ∈ shots := by
      simp only [clearedHistory, List.mem_append, List.mem_cons, List.mem_map, reduceCtorEq, false_or,
        or_self] at member
      obtain ⟨shot, member, made⟩ := member
      cases made
      cases same
      exact member
    exact kept_shots _ shot
  have size : ((run (step Library.std) ⟨emptyLog, []⟩ clearedHistory).log.file.getD []).length <
      (shots.flatMap (record Library.std)).length + 1 := by
    rw [run_clearedHistory, Option.getD_some]
    omega
  have read := load_run (fun text => Int64.ofInt (readInt text)) (fun t _ => by simp) Files.std Prod.fst
    Files.std_lawful (fun _ => ⟨fun _ => 9, fun _ => 9⟩) emptyLog rfl clearedHistory kept
    ((shots.flatMap (record Library.std)).length + 1) size
  simp only [run_clearedHistory] at read ⊢
  simpa using read

end FastoNoSQL.History
