import FastoNoSQL.Config
import FastoNoSQL.Types
import FastoNoSQL.Redis.Config
import FastoNoSQL.Settings.SshInfo

set_option autoImplicit false

/-!
# Stand-alone connections

`core/connection_settings*` and `core/connection_settings_factory.cpp`: the
settings of one connection, the text they are saved as, and the factory that
reads the text by counting commas.
-/

namespace FastoNoSQL

open Bytes Sds

def ConnectionType.index : ConnectionType → Nat
  | .redis => 0
  | .memcached => 1
  | .ssdb => 2
  | .leveldb => 3
  | .rocksdb => 4
  | .unqlite => 5
  | .lmdb => 6
  | .upscaledb => 7

def isRemoteType (type : ConnectionType) : Bool :=
  type = .redis || type = .memcached || type = .ssdb

-- `static_cast<connectionTypes>(elText[0] - 48)`, where the factory knows the type.
def ConnectionType.ofDigit (elText : Text) : Option ConnectionType :=
  [redis, memcached, ssdb, leveldb, rocksdb, unqlite, lmdb, upscaledb].find? fun type =>
    elText.headD 0 = natDigit type.index
where natDigit (n : Nat) : UInt8 := 48 + n.toUInt8

/-- The `info_` of the connection settings of each back-end, with the SSH info that redis alone has. -/
inductive Info where
  | redis (config : Redis.Config) (ssh : SshInfo)
  | memcached (config : UserConfig)
  | ssdb (config : UserConfig)
  | leveldb (config : StoreConfig)
  | rocksdb (config : StoreConfig)
  | unqlite (config : StoreConfig)
  | lmdb (config : StoreConfig)
  | upscaledb (config : StoreConfig)
deriving DecidableEq

namespace Info

def type : Info → ConnectionType
  | .redis _ _ => .redis
  | .memcached _ => .memcached
  | .ssdb _ => .ssdb
  | .leveldb _ => .leveldb
  | .rocksdb _ => .rocksdb
  | .unqlite _ => .unqlite
  | .lmdb _ => .lmdb
  | .upscaledb _ => .upscaledb

def init (lib : Common) : ConnectionType → Info
  | .redis => .redis (.init lib) (.init lib)
  | .memcached => .memcached (Memcached.config lib)
  | .ssdb => .ssdb (Ssdb.config lib)
  | .leveldb => .leveldb (Leveldb.config lib)
  | .rocksdb => .rocksdb (Rocksdb.config lib)
  | .unqlite => .unqlite (Unqlite.config lib)
  | .lmdb => .lmdb (Lmdb.config lib)
  | .upscaledb => .upscaledb (Upscaledb.config lib)

def commandLine (lib : Common) : Info → Text
  | .redis config _ => config.convertToString lib
  | .memcached config | .ssdb config => config.convertToString lib
  | .leveldb config | .rocksdb config | .unqlite config | .lmdb config | .upscaledb config =>
    config.convertToString

def setCommandLine (lib : Common) (line : Text) : Info → Info
  | .redis _ ssh => .redis (Redis.Config.convertFromString lib line) ssh
  | .memcached _ => .memcached (readConfig (UserConfig.options lib) (Memcached.config lib) line)
  | .ssdb _ => .ssdb (readConfig (UserConfig.options lib) (Ssdb.config lib) line)
  | .leveldb _ => .leveldb (readConfig StoreConfig.options (Leveldb.config lib) line)
  | .rocksdb _ => .rocksdb (readConfig StoreConfig.options (Rocksdb.config lib) line)
  | .unqlite _ => .unqlite (readConfig StoreConfig.options (Unqlite.config lib) line)
  | .lmdb _ => .lmdb (readConfig StoreConfig.options (Lmdb.config lib) line)
  | .upscaledb _ => .upscaledb (readConfig StoreConfig.options (Upscaledb.config lib) line)

def sshInfo : Info → Option SshInfo
  | .redis _ ssh => some ssh
  | _ => none

-- The `dynamic_cast` to `IConnectionSettingsRemoteSSH` succeeds for redis alone.
def setSSHInfo (ssh : SshInfo) : Info → Info
  | .redis config _ => .redis config ssh
  | info => info

@[simp] theorem type_init (lib : Common) (type : ConnectionType) : (init lib type).type = type := by
  cases type <;> rfl

@[simp] theorem type_setCommandLine (lib : Common) (line : Text) (info : Info) :
    (info.setCommandLine lib line).type = info.type := by
  cases info <;> rfl

@[simp] theorem sshInfo_setCommandLine (lib : Common) (line : Text) (info : Info) :
    (info.setCommandLine lib line).sshInfo = info.sshInfo := by
  cases info <;> rfl

end Info

def headerText (type : ConnectionType) (path : Text) (msinterval : UInt32) : Text :=
  natText type.index ++ byte ',' :: (path ++ byte ',' :: natText msinterval.toNat)

structure ConnectionSettings where
  path : Text
  msinterval : UInt32 := 0
  info : Info
deriving DecidableEq

namespace ConnectionSettings

def type (settings : ConnectionSettings) : ConnectionType := settings.info.type

def commandLine (lib : Common) (settings : ConnectionSettings) : Text := settings.info.commandLine lib

def header (settings : ConnectionSettings) : Text :=
  headerText settings.type settings.path settings.msinterval

def toString (lib : Common) (settings : ConnectionSettings) : Text :=
  let base := settings.header ++ byte ',' :: settings.commandLine lib
  match settings.info.sshInfo with
  | some ssh => base ++ byte ',' :: ssh.text
  | none => base

def createFromType (lib : Common) (type : ConnectionType) (path : Text) : ConnectionSettings where
  path := path
  info := .init lib type

/-- How many commas the factory has met, with the object made at the first. -/
inductive Reading where
  | type
  | path (result : ConnectionSettings)
  | interval (result : ConnectionSettings)
  | line (result : ConnectionSettings)

def Reading.result : Reading → Option ConnectionSettings
  | .type => none
  | .path result | .interval result | .line result => some result

/-- The branches of the factory's loop on a comma: read on, or leave the loop. -/
def onComma (lib : Common) (elText rest : Text) : Reading → Reading ⊕ Option ConnectionSettings
  | .type =>
    match ConnectionType.ofDigit elText with
    | some type => .inl (.path (createFromType lib type []))
    | none => .inr none
  | .path result => .inl (.interval { result with path := elText })
  | .interval result =>
    let result := { result with msinterval := lib.toUInt32 elText }
    if isRemoteType result.type then .inl (.line result)
    else .inr (some { result with info := result.info.setCommandLine lib rest })
  | .line result =>
    .inr (some { result with
      info := (result.info.setCommandLine lib elText).setSSHInfo (SshInfo.ofText lib rest) })

def createFrom (lib : Common) (reading : Reading) (elText : Text) : Text → Option ConnectionSettings
  | [] => reading.result
  | ch :: rest =>
    if ch = byte ',' then
      match onComma lib elText rest reading with
      | .inl reading => createFrom lib reading [] rest
      | .inr result => result
    else createFrom lib reading (elText ++ [ch]) rest

def createFromString (lib : Common) (val : Text) : Option ConnectionSettings :=
  if val = [] then none else createFrom lib .type [] val

theorem createFrom_comma (lib : Common) (reading : Reading) (elText field rest : Text)
    (clean : byte ',' ∉ field) :
    createFrom lib reading elText (field ++ byte ',' :: rest) =
      match onComma lib (elText ++ field) rest reading with
      | .inl reading => createFrom lib reading [] rest
      | .inr result => result := by
  induction field generalizing elText with
  | nil => simp [createFrom]
  | cons c field ih =>
      have head : c ≠ byte ',' := fun comma => clean (by simp [comma])
      have next := ih (elText ++ [c]) fun member => clean (List.mem_cons_of_mem c member)
      simpa [createFrom, head] using next

theorem createFrom_end (lib : Common) (reading : Reading) (elText field : Text) (clean : byte ',' ∉ field) :
    createFrom lib reading elText field = reading.result := by
  induction field generalizing elText with
  | nil => rfl
  | cons c field ih =>
      have head : c ≠ byte ',' := fun comma => clean (by simp [comma])
      simp only [createFrom, head, if_false]
      exact ih _ fun member => clean (List.mem_cons_of_mem c member)

theorem comma_not_mem_natText (n : Nat) : byte ',' ∉ natText n := fun member => by
  have digit := isDigit_of_mem_natText n _ member
  revert digit
  decide

theorem ofDigit_index (type : ConnectionType) : ConnectionType.ofDigit (natText type.index) = some type := by
  cases type <;> decide

theorem createFromString_header (lib : Common) (lawful : lib.Lawful) (settings : ConnectionSettings)
    (path : byte ',' ∉ settings.path) (rest : Text) :
    createFromString lib (settings.header ++ byte ',' :: rest) =
      if isRemoteType settings.type then
        createFrom lib (.line { settings with info := .init lib settings.type }) [] rest
      else some { settings with info := (Info.init lib settings.type).setCommandLine lib rest } := by
  have nonempty : settings.header ++ byte ',' :: rest ≠ [] := by simp
  rw [createFromString, if_neg nonempty, header, headerText]
  simp only [List.append_assoc, List.cons_append]
  rw [createFrom_comma lib .type [] _ _ (comma_not_mem_natText _)]
  simp only [List.nil_append, onComma, ofDigit_index]
  rw [createFrom_comma lib _ [] _ _ path]
  simp only [List.nil_append, onComma]
  rw [createFrom_comma lib _ [] _ _ (comma_not_mem_natText _)]
  simp only [List.nil_append, onComma, lawful.toUInt32_natText, createFromType, type, Info.type_init]
  by_cases remote : isRemoteType settings.info.type = true
  · simp [remote]
  · simp [remote]

/-- What a saved connection must avoid: its separators, inside its fields. -/
structure Savable (lib : Common) (settings : ConnectionSettings) : Prop where
  path : byte ',' ∉ settings.path
  line : byte ',' ∉ settings.commandLine lib
  ssh : ∀ ssh ∈ settings.info.sshInfo, ssh.Writable lib

-- The info that the factory gives back.
def restoredInfo (lib : Common) (settings : ConnectionSettings) : Info :=
  match settings.info with
  | .redis _ ssh => .redis (Redis.Config.convertFromString lib (settings.commandLine lib)) ssh
  | .memcached _ => .memcached (Memcached.config lib)
  | .ssdb _ => .ssdb (Ssdb.config lib)
  | info => info.setCommandLine lib (settings.commandLine lib)

-- A redis text with any tail in the place of the SSH info.
theorem createFromString_redis (lib : Common) (lawful : lib.Lawful) (settings : ConnectionSettings)
    (redis : settings.type = .redis) (path : byte ',' ∉ settings.path)
    (line : byte ',' ∉ settings.commandLine lib) (tail : Text) :
    createFromString lib (settings.header ++ byte ',' :: (settings.commandLine lib ++ byte ',' :: tail)) =
      some { settings with
        info := .redis (Redis.Config.convertFromString lib (settings.commandLine lib)) (.ofText lib tail) } := by
  rw [createFromString_header lib lawful settings path, redis]
  refine Eq.trans (if_pos rfl) ?_
  rw [createFrom_comma lib _ [] _ _ line]
  rfl

theorem createFromString_toString (lib : Common) (lawful : lib.Lawful) (settings : ConnectionSettings)
    (savable : settings.Savable lib) :
    createFromString lib (settings.toString lib) =
      some { settings with info := settings.restoredInfo lib } := by
  obtain ⟨path, msinterval, info⟩ := settings
  have read := createFromString_header lib lawful ⟨path, msinterval, info⟩ savable.path
  cases info with
  | redis config ssh =>
      have whole := createFromString_redis lib lawful _ rfl savable.path savable.line ssh.text
      rw [SshInfo.ofText_text lib ssh (savable.ssh ssh rfl)] at whole
      simpa only [toString, Info.sshInfo, List.append_assoc, List.cons_append, restoredInfo] using whole
  | memcached config | ssdb config =>
      -- The text ends before the fourth comma, which alone would set the command line.
      simp only [toString, Info.sshInfo]
      refine (read _).trans (Eq.trans (if_pos rfl) ?_)
      rw [createFrom_end lib _ [] _ savable.line]
      rfl
  | leveldb config | rocksdb config | unqlite config | lmdb config | upscaledb config =>
      simp only [toString, Info.sshInfo]
      rw [read]
      rfl

/-- `restored` stands for `settings` to the rest of the program. -/
structure Same (lib : Common) (settings restored : ConnectionSettings) : Prop where
  type : restored.type = settings.type
  path : restored.path = settings.path
  msinterval : restored.msinterval = settings.msinterval
  commandLine : restored.commandLine lib = settings.commandLine lib
  sshInfo : restored.info.sshInfo = settings.info.sshInfo

def RoundTrips (lib : Common) (settings : ConnectionSettings) : Prop :=
  ∃ restored, createFromString lib (settings.toString lib) = some restored ∧ settings.Same lib restored

-- The command lines that survive: the default one for memcached and ssdb, those that the reader and the writer of the
-- configuration reproduce for the others.
def LineRestorable (lib : Common) (settings : ConnectionSettings) : Prop :=
  if settings.type = .memcached ∨ settings.type = .ssdb then
    settings.commandLine lib = (Info.init lib settings.type).commandLine lib
  else (settings.info.setCommandLine lib (settings.commandLine lib)).commandLine lib = settings.commandLine lib

theorem commandLine_restoredInfo (lib : Common) (settings : ConnectionSettings) :
    (settings.restoredInfo lib).commandLine lib = settings.commandLine lib ↔ settings.LineRestorable lib := by
  obtain ⟨path, msinterval, info⟩ := settings
  cases info with
  | memcached config | ssdb config => exact eq_comm
  | redis | leveldb | rocksdb | unqlite | lmdb | upscaledb => exact Iff.rfl

def tunnelled : ConnectionSettings where
  path := ascii "/work/cache"
  msinterval := 250
  info := .redis { Redis.Config.init Common.std with dbnum := 2, auth := ascii "secret" }
    { SshInfo.init Common.std with userName := ascii "ops", currentMethod := .publickey }

-- A memcached connection with a user, whose saved text has three commas.
def authenticated : ConnectionSettings where
  path := ascii "/work/cache"
  info := .memcached { Memcached.config Common.std with user := ascii "bob", password := ascii "pw" }

end ConnectionSettings

end FastoNoSQL
