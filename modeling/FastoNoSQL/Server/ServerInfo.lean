import FastoNoSQL.Redis.ServerInfo
import FastoNoSQL.Types

set_option autoImplicit false

/-!
# Server infos

`core/<backend>/server_info.cpp` of the other back-ends and
`Driver::MakeServerInfoFromString`, which reads the text of a back-end's info.
-/

namespace FastoNoSQL

open Bytes

structure MemcachedStats where
  pid : UInt32
  uptime : UInt32
  time : UInt32
  version : Text
  pointerSize : UInt32
  rusageUser : UInt32
  rusageSystem : UInt32
  currItems : UInt32
  totalItems : UInt32
  bytes : UInt32
  currConnections : UInt32
  totalConnections : UInt32
  connectionStructures : UInt32
  cmdGet : UInt32
  cmdSet : UInt32
  getHits : UInt32
  getMisses : UInt32
  evictions : UInt32
  bytesRead : UInt32
  bytesWritten : UInt32
  limitMaxbytes : UInt32
  threads : UInt32
deriving DecidableEq

def MemcachedStats.fields (stats : MemcachedStats) : List (Text × Text) :=
  [(ascii "pid", natText stats.pid.toNat),
    (ascii "uptime", natText stats.uptime.toNat),
    (ascii "time", natText stats.time.toNat),
    (ascii "version", stats.version),
    (ascii "pointer_size", natText stats.pointerSize.toNat),
    (ascii "rusage_user", natText stats.rusageUser.toNat),
    (ascii "rusage_system", natText stats.rusageSystem.toNat),
    (ascii "curr_items", natText stats.currItems.toNat),
    (ascii "total_items", natText stats.totalItems.toNat),
    (ascii "bytes", natText stats.bytes.toNat),
    (ascii "curr_connections", natText stats.currConnections.toNat),
    (ascii "total_connections", natText stats.totalConnections.toNat),
    (ascii "connection_structures", natText stats.connectionStructures.toNat),
    (ascii "cmd_get", natText stats.cmdGet.toNat),
    (ascii "cmd_set", natText stats.cmdSet.toNat),
    (ascii "get_hits", natText stats.getHits.toNat),
    (ascii "get_misses", natText stats.getMisses.toNat),
    (ascii "evictions", natText stats.evictions.toNat),
    (ascii "bytes_read", natText stats.bytesRead.toNat),
    (ascii "bytes_written", natText stats.bytesWritten.toNat),
    (ascii "limit_maxbytes", natText stats.limitMaxbytes.toNat),
    (ascii "threads", natText stats.threads.toNat)]

def MemcachedStats.setters : List (Setter Library MemcachedStats) :=
  [uint32Field "pid" fun value stats => { stats with pid := value },
    uint32Field "uptime" fun value stats => { stats with uptime := value },
    uint32Field "time" fun value stats => { stats with time := value },
    textField "version" fun value stats => { stats with version := value },
    uint32Field "pointer_size" fun value stats => { stats with pointerSize := value },
    uint32Field "rusage_user" fun value stats => { stats with rusageUser := value },
    uint32Field "rusage_system" fun value stats => { stats with rusageSystem := value },
    uint32Field "curr_items" fun value stats => { stats with currItems := value },
    uint32Field "total_items" fun value stats => { stats with totalItems := value },
    uint32Field "bytes" fun value stats => { stats with bytes := value },
    uint32Field "curr_connections" fun value stats => { stats with currConnections := value },
    uint32Field "total_connections" fun value stats => { stats with totalConnections := value },
    uint32Field "connection_structures" fun value stats => { stats with connectionStructures := value },
    uint32Field "cmd_get" fun value stats => { stats with cmdGet := value },
    uint32Field "cmd_set" fun value stats => { stats with cmdSet := value },
    uint32Field "get_hits" fun value stats => { stats with getHits := value },
    uint32Field "get_misses" fun value stats => { stats with getMisses := value },
    uint32Field "evictions" fun value stats => { stats with evictions := value },
    uint32Field "bytes_read" fun value stats => { stats with bytesRead := value },
    uint32Field "bytes_written" fun value stats => { stats with bytesWritten := value },
    uint32Field "limit_maxbytes" fun value stats => { stats with limitMaxbytes := value },
    uint32Field "threads" fun value stats => { stats with threads := value }]

-- `Stats() {}` leaves the numbers as the memory was.
def MemcachedStats.uninitialized (memory : Nat → UInt32) : MemcachedStats where
  pid := memory 0
  uptime := memory 1
  time := memory 2
  version := []
  pointerSize := memory 3
  rusageUser := memory 4
  rusageSystem := memory 5
  currItems := memory 6
  totalItems := memory 7
  bytes := memory 8
  currConnections := memory 9
  totalConnections := memory 10
  connectionStructures := memory 11
  cmdGet := memory 12
  cmdSet := memory 13
  getHits := memory 14
  getMisses := memory 15
  evictions := memory 16
  bytesRead := memory 17
  bytesWritten := memory 18
  limitMaxbytes := memory 19
  threads := memory 20

def MemcachedStats.format : StateField MemcachedStats where
  fields _ stats := stats.fields
  table := ⟨MemcachedStats.setters, by decide +kernel, by decide +kernel⟩
  strings := [MemcachedStats.version]
  names _ _ := rfl
  written lib lawful stats := by
    simp [MemcachedStats.fields, quiet_natText]
  sets := by simp [MemcachedStats.setters]

structure SsdbStats where
  version : Text
  links : UInt32
  totalCalls : UInt32
  dbsize : UInt32
  binlogs : Text
deriving DecidableEq

def SsdbStats.fields (stats : SsdbStats) : List (Text × Text) :=
  [(ascii "version", stats.version),
    (ascii "links", natText stats.links.toNat),
    (ascii "total_calls", natText stats.totalCalls.toNat),
    (ascii "dbsize", natText stats.dbsize.toNat),
    (ascii "binlogs", stats.binlogs)]

def SsdbStats.setters : List (Setter Library SsdbStats) :=
  [textField "version" fun value stats => { stats with version := value },
    uint32Field "links" fun value stats => { stats with links := value },
    uint32Field "total_calls" fun value stats => { stats with totalCalls := value },
    uint32Field "dbsize" fun value stats => { stats with dbsize := value },
    textField "binlogs" fun value stats => { stats with binlogs := value }]

def SsdbStats.uninitialized (memory : Nat → UInt32) : SsdbStats := ⟨[], memory 0, memory 1, memory 2, []⟩

def SsdbStats.format : StateField SsdbStats where
  fields _ stats := stats.fields
  table := ⟨SsdbStats.setters, by decide +kernel, by decide +kernel⟩
  strings := [SsdbStats.version, SsdbStats.binlogs]
  names _ _ := rfl
  written lib lawful stats := by
    simp [SsdbStats.fields, quiet_natText]
  sets := by simp [SsdbStats.setters]

structure LeveldbStats where
  compactionsLevel : UInt32
  fileSizeMb : UInt32
  timeSec : UInt32
  readMb : UInt32
  writeMb : UInt32
deriving DecidableEq

def LeveldbStats.fields (stats : LeveldbStats) : List (Text × Text) :=
  [(ascii "compactions_level", natText stats.compactionsLevel.toNat),
    (ascii "file_size_mb", natText stats.fileSizeMb.toNat),
    (ascii "time_sec", natText stats.timeSec.toNat),
    (ascii "read_mb", natText stats.readMb.toNat),
    (ascii "write_mb", natText stats.writeMb.toNat)]

def LeveldbStats.setters : List (Setter Library LeveldbStats) :=
  [uint32Field "compactions_level" fun value stats => { stats with compactionsLevel := value },
    uint32Field "file_size_mb" fun value stats => { stats with fileSizeMb := value },
    uint32Field "time_sec" fun value stats => { stats with timeSec := value },
    uint32Field "read_mb" fun value stats => { stats with readMb := value },
    uint32Field "write_mb" fun value stats => { stats with writeMb := value }]

-- The constructor that reads a text has no initializers either.
def LeveldbStats.uninitialized (memory : Nat → UInt32) : LeveldbStats :=
  ⟨memory 0, memory 1, memory 2, memory 3, memory 4⟩

def LeveldbStats.format : StateField LeveldbStats where
  fields _ stats := stats.fields
  table := ⟨LeveldbStats.setters, by decide +kernel, by decide +kernel⟩
  strings := []
  names _ _ := rfl
  written lib lawful stats := by
    simp [LeveldbStats.fields, quiet_natText]
  sets := by simp

-- The stats of rocksdb have the fields and labels of those of leveldb.
abbrev RocksdbStats := LeveldbStats

def RocksdbStats.format : StateField RocksdbStats := LeveldbStats.format

/-- The stats of a database in a file: its path under the back-end's label. -/
structure PathStats where
  path : Text
deriving DecidableEq

def pathFormat (label : String) (plain : Plain (ascii label)) : StateField PathStats where
  fields _ stats := [(ascii label, stats.path)]
  table :=
    { setters := [textField label fun value stats => { stats with path := value }]
      distinct := by simp
      plain := by simpa [textField] using plain }
  strings := [PathStats.path]
  names _ _ := rfl
  written := by simp
  sets := by simp

def UnqliteStats.format : StateField PathStats := pathFormat "file_name" (by decide)
def LmdbStats.format : StateField PathStats := pathFormat "db_path" (by decide)
def UpscaledbStats.format : StateField PathStats := pathFormat "db_path" (by decide)

inductive ServerInfo where
  | redis (info : Redis.ServerInfo)
  | memcached (stats : MemcachedStats)
  | ssdb (stats : SsdbStats)
  | leveldb (stats : LeveldbStats)
  | rocksdb (stats : RocksdbStats)
  | unqlite (stats : PathStats)
  | lmdb (stats : PathStats)
  | upscaledb (stats : PathStats)
deriving DecidableEq

/-- What `new` and a constructor find in the numbers that they do not initialize. -/
structure Garbage where
  initial : Nat → UInt32
  fresh : Nat → UInt32

def commonLabel : Text := ascii "# Common"
def statsLabel : Text := ascii "# Stats"

namespace ServerInfo

def type : ServerInfo → ConnectionType
  | redis _ => .redis
  | memcached _ => .memcached
  | ssdb _ => .ssdb
  | leveldb _ => .leveldb
  | rocksdb _ => .rocksdb
  | unqlite _ => .unqlite
  | lmdb _ => .lmdb
  | upscaledb _ => .upscaledb

variable (lib : Library)

def text : ServerInfo → Text
  | redis info => info.text lib
  | memcached stats => commonLabel ++ (crlf ++ MemcachedStats.format.text lib stats)
  | ssdb stats => commonLabel ++ (crlf ++ SsdbStats.format.text lib stats)
  | leveldb stats => statsLabel ++ (crlf ++ LeveldbStats.format.text lib stats)
  | rocksdb stats => statsLabel ++ (crlf ++ RocksdbStats.format.text lib stats)
  | unqlite stats => statsLabel ++ (crlf ++ UnqliteStats.format.text lib stats)
  | lmdb stats => statsLabel ++ (crlf ++ LmdbStats.format.text lib stats)
  | upscaledb stats => statsLabel ++ (crlf ++ UpscaledbStats.format.text lib stats)

end ServerInfo

section Make

variable (lib : Library) (garbage : Garbage) (content : Text)

-- The loop over several sections, kept for the one there is: it breaks at the only header.
def makeMemcachedServerInfo : Option MemcachedStats :=
  if content = [] then none
  else some (MemcachedStats.format.readSection lib (.uninitialized garbage.initial) (.uninitialized garbage.fresh)
    (sections [commonLabel] content)[0]?)

-- A back-end whose text has one section: what follows its header is read.
def makeSectionServerInfo {σ : Type} (format : StateField σ) (label : Text) (initial fresh : σ) : Option σ :=
  if content = [] then none else some (format.readSection lib initial fresh (afterHeader label [] content))

def makeSsdbServerInfo : Option SsdbStats :=
  makeSectionServerInfo lib content SsdbStats.format commonLabel (.uninitialized garbage.initial)
    (.uninitialized garbage.fresh)

def makeLeveldbServerInfo : Option LeveldbStats :=
  makeSectionServerInfo lib content LeveldbStats.format statsLabel ⟨0, 0, 0, 0, 0⟩ (.uninitialized garbage.fresh)

def makeRocksdbServerInfo : Option RocksdbStats :=
  makeSectionServerInfo lib content RocksdbStats.format statsLabel ⟨0, 0, 0, 0, 0⟩ (.uninitialized garbage.fresh)

def makeUnqliteServerInfo : Option PathStats :=
  makeSectionServerInfo lib content UnqliteStats.format statsLabel ⟨[]⟩ ⟨[]⟩

def makeLmdbServerInfo : Option PathStats :=
  makeSectionServerInfo lib content LmdbStats.format statsLabel ⟨[]⟩ ⟨[]⟩

def makeUpscaleDBServerInfo : Option PathStats :=
  makeSectionServerInfo lib content UpscaledbStats.format statsLabel ⟨[]⟩ ⟨[]⟩

def makeServerInfoFromString (type : ConnectionType) : Option ServerInfo :=
  match type with
  | .redis => (Redis.ServerInfo.makeRedisServerInfo lib content).map .redis
  | .memcached => (makeMemcachedServerInfo lib garbage content).map .memcached
  | .ssdb => (makeSsdbServerInfo lib garbage content).map .ssdb
  | .leveldb => (makeLeveldbServerInfo lib garbage content).map .leveldb
  | .rocksdb => (makeRocksdbServerInfo lib garbage content).map .rocksdb
  | .unqlite => (makeUnqliteServerInfo lib content).map .unqlite
  | .lmdb => (makeLmdbServerInfo lib content).map .lmdb
  | .upscaledb => (makeUpscaleDBServerInfo lib content).map .upscaledb

end Make

/-! ## The round trip -/

namespace ServerInfo

-- The string fields of an info.
def strings : ServerInfo → List Text
  | redis info => info.strings
  | memcached stats => [stats.version]
  | ssdb stats => [stats.version, stats.binlogs]
  | leveldb _ | rocksdb _ => []
  | unqlite stats | lmdb stats | upscaledb stats => [stats.path]

variable (lib : Library)

theorem makeSectionServerInfo_text {σ : Type} (lawful : lib.Lawful) (format : StateField σ) (label : Text)
    (initial fresh stats : σ) (nonempty : label ≠ [])
    (clean : ∀ string ∈ format.strings, OneLine (string stats)) :
    makeSectionServerInfo lib (label ++ (crlf ++ format.text lib stats)) format label initial fresh =
      some (setAll lib format.table.setters ((format.fields lib stats).map Prod.snd) fresh) := by
  have found : afterHeader label [] (label ++ (crlf ++ format.text lib stats)) =
      some (crlf ++ format.text lib stats) := by
    have walk := afterHeader_append label [] (crlf ++ format.text lib stats) nonempty
    rwa [List.nil_append] at walk
  have some : label ++ (crlf ++ format.text lib stats) ≠ [] := by simp [nonempty]
  rw [makeSectionServerInfo, if_neg some, found, StateField.readSection, format.ofText_text lib lawful _ _ clean]

theorem memcached_uninitialized (garbage : Garbage) (content : Text) (nonempty : content ≠ []) :
    makeMemcachedServerInfo lib garbage content = some (.uninitialized garbage.initial) := by
  have none : sections [commonLabel] content = [] := sectionsFrom_singleton _ _ _ _ _ _
  rw [makeMemcachedServerInfo, if_neg nonempty, none]
  rfl

theorem makeSsdbServerInfo_text (lawful : lib.Lawful) (garbage : Garbage) (stats : SsdbStats)
    (clean : ∀ string ∈ SsdbStats.format.strings, OneLine (string stats)) :
    makeSsdbServerInfo lib garbage (commonLabel ++ (crlf ++ SsdbStats.format.text lib stats)) = some stats := by
  rw [makeSsdbServerInfo, makeSectionServerInfo_text lib lawful _ _ _ _ _ (by decide) clean]
  show some (setAll lib SsdbStats.setters (stats.fields.map Prod.snd) _) = _
  simp [SsdbStats.setters, SsdbStats.fields, lawful.common.toUInt32_natText]

-- Leveldb and rocksdb: every number is set, so what the constructor found does not matter.
theorem leveldbFormat_text (lawful : lib.Lawful) (initial fresh stats : LeveldbStats) :
    makeSectionServerInfo lib (statsLabel ++ (crlf ++ LeveldbStats.format.text lib stats)) LeveldbStats.format
      statsLabel initial fresh = some stats := by
  rw [makeSectionServerInfo_text lib lawful _ _ _ _ _ (by decide) (by simp [LeveldbStats.format])]
  show some (setAll lib LeveldbStats.setters (stats.fields.map Prod.snd) _) = _
  simp [LeveldbStats.setters, LeveldbStats.fields, lawful.common.toUInt32_natText]

theorem pathFormat_text (lawful : lib.Lawful) (label : String) (plain : Plain (ascii label)) (initial stats : PathStats)
    (clean : OneLine stats.path) :
    makeSectionServerInfo lib (statsLabel ++ (crlf ++ (pathFormat label plain).text lib stats))
      (pathFormat label plain) statsLabel initial initial = some stats := by
  rw [makeSectionServerInfo_text lib lawful _ _ _ _ _ (by decide) (by simpa [pathFormat] using clean)]
  simp [pathFormat]

/-- Every back-end but memcached reads its own text back, whatever the memory held before. -/
theorem makeServerInfoFromString_text_iff (lawful : lib.Lawful) (info : ServerInfo) (other : info.type ≠ .redis)
    (clean : ∀ string ∈ info.strings, OneLine string) :
    (∀ garbage, makeServerInfoFromString lib garbage (info.text lib) info.type = some info) ↔
      info.type ≠ .memcached := by
  cases info with
  | redis info => exact absurd rfl other
  | memcached stats =>
      simp only [type, ne_eq, not_true_eq_false, iff_false]
      intro reads
      have nonempty : (memcached stats).text lib ≠ [] := by simp [text, commonLabel, ascii]
      have read := reads ⟨fun _ => stats.pid + 1, fun _ => 0⟩
      simp only [makeServerInfoFromString, memcached_uninitialized lib _ _ nonempty, Option.map_some,
        Option.some.injEq, memcached.injEq] at read
      have pid : stats.pid + 1 = stats.pid := congrArg MemcachedStats.pid read
      simp at pid
  | ssdb stats =>
      refine iff_of_true (fun garbage => ?_) (by simp [type])
      have read := makeSsdbServerInfo_text lib lawful garbage stats
        (by simpa [SsdbStats.format, strings] using clean)
      simp only [makeServerInfoFromString, text, type, read, Option.map_some]
  | leveldb stats =>
      refine iff_of_true (fun garbage => ?_) (by simp [type])
      exact congrArg (Option.map leveldb) (leveldbFormat_text lib lawful _ _ stats)
  | rocksdb stats =>
      refine iff_of_true (fun garbage => ?_) (by simp [type])
      exact congrArg (Option.map rocksdb) (leveldbFormat_text lib lawful _ _ stats)
  | unqlite stats =>
      refine iff_of_true (fun _ => ?_) (by simp [type])
      exact congrArg (Option.map unqlite) (pathFormat_text lib lawful _ _ _ stats (clean _ (List.mem_singleton_self _)))
  | lmdb stats =>
      refine iff_of_true (fun _ => ?_) (by simp [type])
      exact congrArg (Option.map lmdb) (pathFormat_text lib lawful _ _ _ stats (clean _ (List.mem_singleton_self _)))
  | upscaledb stats =>
      refine iff_of_true (fun _ => ?_) (by simp [type])
      exact congrArg (Option.map upscaledb)
        (pathFormat_text lib lawful _ _ _ stats (clean _ (List.mem_singleton_self _)))

theorem ssdb_reads_back :
    let stats : SsdbStats := ⟨ascii "1.9.4", 1, 0, 4294967295, ascii "binlogs: 0"⟩
    ∀ garbage, makeServerInfoFromString Library.std garbage ((ssdb stats).text Library.std) .ssdb =
      some (ssdb stats) :=
  (makeServerInfoFromString_text_iff Library.std Library.std_lawful (ssdb _) nofun (by decide)).mpr nofun

-- Not even the version, which the text holds, is read.
theorem memcached_text_unread :
    let stats := { MemcachedStats.uninitialized (fun _ => 0) with version := ascii "1.4.25" }
    ∀ garbage, makeServerInfoFromString Library.std garbage ((memcached stats).text Library.std) .memcached ≠
      some (memcached stats) := by
  intro stats garbage read
  have nonempty : (memcached stats).text Library.std ≠ [] := by simp [text, commonLabel, ascii]
  simp only [makeServerInfoFromString, memcached_uninitialized Library.std _ _ nonempty, Option.map_some,
    Option.some.injEq, memcached.injEq] at read
  have version : ([] : Text) = ascii "1.4.25" := congrArg MemcachedStats.version read
  revert version
  decide

end ServerInfo

end FastoNoSQL
