import FastoNoSQL.Settings.Connection

set_option autoImplicit false

/-!
# The command line of a connection

A connection is saved as the command line of its configuration. For the
back-ends other than redis: which configurations come back from it.
-/

namespace FastoNoSQL

open Bytes Options Sds

-- What a command line can be written from: no blanks, quotes, braces or backslashes.
def isOrdinary (text : Text) : Bool := text.all Redis.Config.isWordByte

theorem isWord_of_isOrdinary (text : Text) (ordinary : isOrdinary text = true) (clean : (0 : UInt8) ∉ text)
    (nonempty : text ≠ []) : isWord text = true := by
  simp only [isOrdinary, List.all_eq_true, Redis.Config.isWordByte, Bool.and_eq_true] at ordinary
  simp only [isWord, isPlain, Bool.and_eq_true, List.all_eq_true, decide_eq_true_eq]
  exact ⟨nonempty, fun c member =>
    ⟨by simpa [decide_eq_true_eq] using (ordinary c member).1.1, fun zero => clean (zero ▸ member)⟩⟩

theorem readConfig_words {σ : Type} (table : List (Text × Spec σ)) (default : σ) (words : List Text)
    (all : ∀ word ∈ words, isWord word = true) :
    readConfig table default (unwords words) = parse table default words := by
  rw [readConfig, sdssplitargslong_words words all]

-- What the options keep and the default has, every configuration that is read has.
theorem readConfig_invariant {σ : Type} (table : List (Text × Spec σ)) (default : σ) (line : Text)
    (invariant : σ → Prop) (keeps : ∀ entry ∈ table, entry.2.Keeps invariant) (start : invariant default) :
    invariant (readConfig table default line) := by
  rw [readConfig]
  split
  · exact parse_invariant table default invariant keeps _ start
  · exact start

/-! ## Stores on disk -/

namespace StoreConfig

def texts (cfg : StoreConfig) : List Text := [cfg.dbname, cfg.delimiter, cfg.nsSeparator]

variable (default cfg : StoreConfig)

theorem isWord_of_mem_words (ordinary : ∀ text ∈ cfg.texts, isOrdinary text = true)
    (clean : ∀ text ∈ cfg.texts, (0 : UInt8) ∉ text) :
    ∀ word ∈ cfg.toLocalConfig.args ++ wordsIf (cfg.createIfMissing = true) [ascii "-c"], isWord word = true := by
  have ofText (text : Text) (member : text ∈ cfg.texts) := isWord_of_isOrdinary text (ordinary text member)
    (clean text member)
  simp only [LocalConfig.args, BaseConfig.args, List.forall_mem_append, forall_mem_wordsIf, List.forall_mem_cons,
    List.not_mem_nil, false_implies, implies_true, and_true]
  exact ⟨⟨fun written => ⟨by decide, ofText _ (by simp [texts]) written⟩,
    fun written => ⟨by decide, ofText _ (by simp [texts]) written⟩,
    fun written => ⟨by decide, ofText _ (by simp [texts]) written⟩⟩, fun _ => by decide⟩

-- The configuration that the written line means to the reader.
def readBack : StoreConfig where
  dbname := if cfg.dbname ≠ [] then cfg.dbname else default.dbname
  delimiter := if cfg.delimiter ≠ [] then cfg.delimiter else default.delimiter
  nsSeparator := if cfg.nsSeparator ≠ [] then cfg.nsSeparator else default.nsSeparator
  createIfMissing := if cfg.createIfMissing = true then true else default.createIfMissing

theorem readConfig_convertToString (ordinary : ∀ text ∈ cfg.texts, isOrdinary text = true)
    (clean : ∀ text ∈ cfg.texts, (0 : UInt8) ∉ text) :
    readConfig options default cfg.convertToString = readBack default cfg := by
  rw [convertToString, readConfig_words _ _ _ (isWord_of_mem_words cfg ordinary clean)]
  simp only [LocalConfig.args, BaseConfig.args, List.append_assoc]
  rw [parse_value _ _ (·.dbname) (fun text cfg => { cfg with dbname := text }) _ (ascii "-f") _ id
      _ rfl rfl fun _ => clean _ (by simp [texts]),
    parse_value _ _ (·.delimiter) (fun text cfg => { cfg with delimiter := text }) _ (ascii "-d") _ id
      _ rfl rfl fun _ => clean _ (by simp [texts]),
    parse_value _ _ (·.nsSeparator) (fun text cfg => { cfg with nsSeparator := text }) _ (ascii "-ns") _ id
      _ rfl rfl fun _ => clean _ (by simp [texts]),
    ← List.append_nil (wordsIf (cfg.createIfMissing = true) [ascii "-c"]),
    parse_flag _ _ (·.createIfMissing) (fun mode cfg => { cfg with createIfMissing := mode }) _ (ascii "-c") true
      _ rfl rfl, parse_nil]
  rfl

theorem readConfig_clean (line : Text) (start : ∀ text ∈ default.texts, (0 : UInt8) ∉ text) :
    ∀ text ∈ (readConfig options default line).texts, (0 : UInt8) ∉ text := by
  refine readConfig_invariant options default line (fun cfg => ∀ text ∈ cfg.texts, (0 : UInt8) ∉ text) ?_ start
  simp only [options, List.forall_mem_cons, Spec.Keeps, texts, List.not_mem_nil, false_implies,
    implies_true, and_true]
  and_intros <;> simp +contextual

structure IsDefault (default : StoreConfig) : Prop where
  clean : ∀ text ∈ default.texts, (0 : UInt8) ∉ text
  written : ∀ text ∈ default.texts, text ≠ []
  createIfMissing : default.createIfMissing = false

theorem readBack_eq_iff (isDefault : IsDefault default) :
    readBack default cfg = cfg ↔ ∀ text ∈ cfg.texts, text ≠ [] := by
  obtain ⟨⟨⟨delimiter, nsSeparator⟩, dbname⟩, createIfMissing⟩ := cfg
  have written := isDefault.written
  simp only [texts, List.forall_mem_cons, List.not_mem_nil, false_implies, implies_true, and_true] at written ⊢
  obtain ⟨db, delim, ns⟩ := written
  simp only [readBack, isDefault.createIfMissing, mk.injEq, LocalConfig.mk.injEq, BaseConfig.mk.injEq,
    Redis.Config.ite_default_eq_iff _ _ db, Redis.Config.ite_default_eq_iff _ _ delim,
    Redis.Config.ite_default_eq_iff _ _ ns]
  cases createIfMissing <;> simp <;> tauto

theorem roundTrips_iff (isDefault : IsDefault default) (ordinary : ∀ text ∈ cfg.texts, isOrdinary text = true) :
    readConfig options default cfg.convertToString = cfg ↔
      ∀ text ∈ cfg.texts, text ≠ [] ∧ (0 : UInt8) ∉ text := by
  constructor
  · intro same
    have clean : ∀ text ∈ cfg.texts, (0 : UInt8) ∉ text := by
      have read := readConfig_clean default cfg.convertToString isDefault.clean
      rwa [same] at read
    rw [readConfig_convertToString default cfg ordinary clean, readBack_eq_iff default cfg isDefault] at same
    exact fun text member => ⟨same text member, clean text member⟩
  · intro restorable
    rw [readConfig_convertToString default cfg ordinary fun text member => (restorable text member).2,
      readBack_eq_iff default cfg isDefault]
    exact fun text member => (restorable text member).1

end StoreConfig

/-! ## Servers with a user and a password -/

namespace UserConfig

def texts (cfg : UserConfig) : List Text := [cfg.host.host, cfg.delimiter, cfg.nsSeparator, cfg.user, cfg.password]

variable (lib : Common) (default cfg : UserConfig)

theorem isWord_of_mem_words (host : lib.isValid cfg.host = true → cfg.host.host ≠ [])
    (ordinary : ∀ text ∈ cfg.texts, isOrdinary text = true) (clean : ∀ text ∈ cfg.texts, (0 : UInt8) ∉ text) :
    ∀ word ∈ cfg.toRemoteConfig.args lib ++ wordsIf (cfg.user ≠ []) [ascii "-u", cfg.user] ++
      wordsIf (cfg.password ≠ []) [ascii "-a", cfg.password], isWord word = true := by
  have ofText (text : Text) (member : text ∈ cfg.texts) := isWord_of_isOrdinary text (ordinary text member)
    (clean text member)
  simp only [RemoteConfig.args, BaseConfig.args, List.forall_mem_append, forall_mem_wordsIf, List.forall_mem_cons,
    isWord_natText, List.not_mem_nil, false_implies, implies_true, and_true]
  exact ⟨⟨⟨fun valid => ⟨by decide, ofText _ (by simp [texts]) (host valid), by decide⟩,
    fun written => ⟨by decide, ofText _ (by simp [texts]) written⟩,
    fun written => ⟨by decide, ofText _ (by simp [texts]) written⟩⟩,
    fun written => ⟨by decide, ofText _ (by simp [texts]) written⟩⟩,
    fun written => ⟨by decide, ofText _ (by simp [texts]) written⟩⟩

def readBack : UserConfig where
  host := if lib.isValid cfg.host = true then cfg.host else default.host
  delimiter := if cfg.delimiter ≠ [] then cfg.delimiter else default.delimiter
  nsSeparator := if cfg.nsSeparator ≠ [] then cfg.nsSeparator else default.nsSeparator
  user := if cfg.user ≠ [] then cfg.user else default.user
  password := if cfg.password ≠ [] then cfg.password else default.password

theorem parse_host (lawful : lib.Lawful) (start : UserConfig) (rest : List Text)
    (clean : (0 : UInt8) ∉ cfg.host.host) :
    parse (options lib) start
        (wordsIf (lib.isValid cfg.host = true)
          [ascii "-h", cfg.host.host, ascii "-p", natText cfg.host.port.toNat] ++ rest) =
      parse (options lib)
        { start with host := if lib.isValid cfg.host = true then cfg.host else start.host } rest := by
  by_cases valid : lib.isValid cfg.host = true
  · have name : (options lib).lookup (cString (ascii "-h")) =
        some (.value fun text cfg => { cfg with host.host := text }) := rfl
    have port : (options lib).lookup (cString (ascii "-p")) =
        some (.value fun text cfg => { cfg with host.port := lib.toUInt16 text }) := rfl
    simp [wordsIf, valid, parse, name, port, cString_eq_self _ clean, lawful.toUInt16_natText,
      cString_eq_self _ (Redis.Config.natText_clean cfg.host.port.toNat)]
  · simp [wordsIf, valid]

theorem readConfig_convertToString (lawful : lib.Lawful) (host : lib.isValid cfg.host = true → cfg.host.host ≠ [])
    (ordinary : ∀ text ∈ cfg.texts, isOrdinary text = true) (clean : ∀ text ∈ cfg.texts, (0 : UInt8) ∉ text) :
    readConfig (options lib) default (cfg.convertToString lib) = readBack lib default cfg := by
  rw [convertToString, readConfig_words _ _ _ (isWord_of_mem_words lib cfg host ordinary clean)]
  simp only [RemoteConfig.args, BaseConfig.args, List.append_assoc]
  rw [parse_host lib cfg lawful _ _ (clean _ (by simp [texts])),
    parse_value _ _ (·.delimiter) (fun text cfg => { cfg with delimiter := text }) _ (ascii "-d") _ id
      _ rfl rfl fun _ => clean _ (by simp [texts]),
    parse_value _ _ (·.nsSeparator) (fun text cfg => { cfg with nsSeparator := text }) _ (ascii "-ns") _ id
      _ rfl rfl fun _ => clean _ (by simp [texts]),
    parse_value _ _ (·.user) (fun text cfg => { cfg with user := text }) _ (ascii "-u") _ id
      _ rfl rfl fun _ => clean _ (by simp [texts]),
    ← List.append_nil (wordsIf (cfg.password ≠ []) [ascii "-a", cfg.password]),
    parse_value _ _ (·.password) (fun text cfg => { cfg with password := text }) _ (ascii "-a") _ id
      _ rfl rfl fun _ => clean _ (by simp [texts]), parse_nil]
  rfl

theorem readConfig_clean (line : Text) (start : ∀ text ∈ default.texts, (0 : UInt8) ∉ text) :
    ∀ text ∈ (readConfig (options lib) default line).texts, (0 : UInt8) ∉ text := by
  refine readConfig_invariant (options lib) default line (fun cfg => ∀ text ∈ cfg.texts, (0 : UInt8) ∉ text) ?_ start
  simp only [options, List.forall_mem_cons, Spec.Keeps, texts, List.not_mem_nil, false_implies,
    implies_true, and_true]
  and_intros <;> simp +contextual

section Init

variable (lawful : lib.Lawful) (port : UInt16) (open' : port ≠ 0)
include lawful open'

theorem readBack_eq_iff :
    readBack lib (init lib port) cfg = cfg ↔
      lib.isValid cfg.host = true ∧ cfg.delimiter ≠ [] ∧ cfg.nsSeparator ≠ [] := by
  obtain ⟨⟨⟨delimiter, nsSeparator⟩, host⟩, user, password⟩ := cfg
  have valid : (if lib.isValid host = true then host else lib.createLocalHost port) = host ↔
      lib.isValid host = true := by
    by_cases holds : lib.isValid host = true
    · simp [holds]
    · rw [if_neg holds]
      exact iff_of_false (fun same => holds (same ▸ lawful.isValid_localHost port open')) holds
  have empty (text : Text) : (if text ≠ [] then text else []) = text := by
    by_cases nothing : text = [] <;> simp [nothing]
  simp only [readBack, init, mk.injEq, RemoteConfig.mk.injEq, BaseConfig.mk.injEq, valid, empty,
    Redis.Config.ite_default_eq_iff _ (ascii "\n") (by decide),
    Redis.Config.ite_default_eq_iff _ (ascii ":") (by decide), and_true]
  tauto

theorem roundTrips_iff (host : lib.isValid cfg.host = true → cfg.host.host ≠ [])
    (ordinary : ∀ text ∈ cfg.texts, isOrdinary text = true) :
    readConfig (options lib) (init lib port) (cfg.convertToString lib) = cfg ↔
      (∀ text ∈ cfg.texts, (0 : UInt8) ∉ text) ∧
        lib.isValid cfg.host = true ∧ cfg.delimiter ≠ [] ∧ cfg.nsSeparator ≠ [] := by
  have start : ∀ text ∈ (init lib port).texts, (0 : UInt8) ∉ text := by
    simp only [texts, init, List.forall_mem_cons, List.not_mem_nil, false_implies, implies_true, and_true,
      not_false_eq_true]
    exact ⟨lawful.nul_not_mem_localHost port, by decide, by decide⟩
  constructor
  · intro same
    have clean : ∀ text ∈ cfg.texts, (0 : UInt8) ∉ text := by
      have read := readConfig_clean lib (init lib port) (cfg.convertToString lib) start
      rwa [same] at read
    rw [readConfig_convertToString lib _ cfg lawful host ordinary clean,
      readBack_eq_iff lib cfg lawful port open'] at same
    exact ⟨clean, same⟩
  · intro ⟨clean, written⟩
    rw [readConfig_convertToString lib _ cfg lawful host ordinary clean,
      readBack_eq_iff lib cfg lawful port open']
    exact written

end Init

end UserConfig

/-! ## Every back-end but redis -/

namespace Info

def texts : Info → List Text
  | .redis config _ => config.texts
  | .memcached config | .ssdb config => config.texts
  | .leveldb config | .rocksdb config | .unqlite config | .lmdb config | .upscaledb config => config.texts

/-- The texts fit on a command line, and a valid host has a name. -/
structure Writable (lib : Common) (info : Info) : Prop where
  ordinary : ∀ text ∈ info.texts, isOrdinary text = true
  host : ∀ config, info = .memcached config ∨ info = .ssdb config →
    lib.isValid config.host = true → config.host.host ≠ []

/-- Nothing is left out of the command line, and no NUL byte cuts it short. -/
def Restorable (lib : Common) (info : Info) : Prop :=
  (∀ text ∈ info.texts, (0 : UInt8) ∉ text) ∧
    match info with
    | .redis config _ => config.Restorable lib
    | .memcached config | .ssdb config =>
      lib.isValid config.host = true ∧ config.delimiter ≠ [] ∧ config.nsSeparator ≠ []
    | .leveldb config | .rocksdb config | .unqlite config | .lmdb config | .upscaledb config =>
      config.dbname ≠ [] ∧ config.delimiter ≠ [] ∧ config.nsSeparator ≠ []

-- `prepare_path` returns a path.
def PreparesPaths (lib : Common) : Prop :=
  ∀ path, path ≠ [] → (0 : UInt8) ∉ path → lib.preparePath path ≠ [] ∧ (0 : UInt8) ∉ lib.preparePath path

theorem isDefault_init (lib : Common) (prepares : PreparesPaths lib) (path : Text) (nonempty : path ≠ [])
    (clean : (0 : UInt8) ∉ path) : (StoreConfig.init lib path).IsDefault := by
  obtain ⟨some, whole⟩ := prepares path nonempty clean
  refine ⟨?_, ?_, rfl⟩
  · simp only [StoreConfig.texts, StoreConfig.init, List.forall_mem_cons, List.not_mem_nil, false_implies,
      implies_true, and_true]
    exact ⟨whole, by decide, by decide⟩
  · simp only [StoreConfig.texts, StoreConfig.init, List.forall_mem_cons, List.not_mem_nil, false_implies,
      implies_true, and_true]
    exact ⟨some, by decide, by decide⟩

theorem store_roundTrips_iff (lib : Common) (prepares : PreparesPaths lib) (path : Text) (nonempty : path ≠ [])
    (clean : (0 : UInt8) ∉ path) (config : StoreConfig) (ordinary : ∀ text ∈ config.texts, isOrdinary text = true) :
    readConfig StoreConfig.options (.init lib path) config.convertToString = config ↔
      (∀ text ∈ config.texts, (0 : UInt8) ∉ text) ∧
        config.dbname ≠ [] ∧ config.delimiter ≠ [] ∧ config.nsSeparator ≠ [] := by
  rw [StoreConfig.roundTrips_iff _ config (isDefault_init lib prepares path nonempty clean) ordinary]
  simp only [StoreConfig.texts, List.forall_mem_cons, List.not_mem_nil, false_implies, implies_true, and_true]
  tauto

/-- A configuration of a back-end other than redis comes back from its command line exactly when it
is restorable. -/
theorem setCommandLine_commandLine_iff (lib : Common) (lawful : lib.Lawful) (prepares : PreparesPaths lib)
    (info : Info) (other : info.type ≠ .redis) (writable : info.Writable lib) :
    info.setCommandLine lib (info.commandLine lib) = info ↔ info.Restorable lib := by
  have store (path : Text) (nonempty : path ≠ []) (clean : (0 : UInt8) ∉ path) (config : StoreConfig)
      (ordinary : ∀ text ∈ config.texts, isOrdinary text = true) :=
    store_roundTrips_iff lib prepares path nonempty clean config ordinary
  cases info with
  | redis config ssh => exact absurd rfl other
  | memcached config =>
      simp only [setCommandLine, commandLine, memcached.injEq]
      exact UserConfig.roundTrips_iff lib config lawful 11211 (by decide) (writable.host config (Or.inl rfl))
        writable.ordinary
  | ssdb config =>
      simp only [setCommandLine, commandLine, ssdb.injEq]
      exact UserConfig.roundTrips_iff lib config lawful 8888 (by decide) (writable.host config (Or.inr rfl))
        writable.ordinary
  | leveldb config =>
      simp only [setCommandLine, commandLine, leveldb.injEq]
      exact store _ (by decide) (by decide) config writable.ordinary
  | rocksdb config =>
      simp only [setCommandLine, commandLine, rocksdb.injEq]
      exact store _ (by decide) (by decide) config writable.ordinary
  | unqlite config =>
      simp only [setCommandLine, commandLine, unqlite.injEq]
      exact store _ (by decide) (by decide) config writable.ordinary
  | lmdb config =>
      simp only [setCommandLine, commandLine, lmdb.injEq]
      exact store _ (by decide) (by decide) config writable.ordinary
  | upscaledb config =>
      simp only [setCommandLine, commandLine, upscaledb.injEq]
      exact store _ (by decide) (by decide) config writable.ordinary

theorem std_preparesPaths : PreparesPaths .std := by
  have home : (0 : UInt8) ∉ ascii "/home/user" ∧ ascii "/home/user" ≠ [] := by decide
  intro path nonempty clean
  cases path with
  | nil => exact absurd rfl nonempty
  | cons c rest =>
      simp only [Common.std]
      split
      · have tail : (0 : UInt8) ∉ rest := fun member => clean (List.mem_cons_of_mem c member)
        simp [home, tail]
      · exact ⟨nonempty, clean⟩

def sampleStore : Info :=
  .leveldb { dbname := ascii "/var/db/test", delimiter := ascii "\n", nsSeparator := ascii ":", createIfMissing := true }

theorem sampleStore_restored :
    sampleStore.setCommandLine .std (sampleStore.commandLine .std) = sampleStore :=
  (setCommandLine_commandLine_iff .std Common.std_lawful std_preparesPaths sampleStore (by decide)
    ⟨by decide, fun config cases => by rcases cases with same | same <;> cases same⟩).mpr
    ⟨by decide, by decide, by decide, by decide⟩

-- A host without a port is not valid, and so it is not written.
def portless : Info := .memcached { Memcached.config .std with host := ⟨ascii "example", 0⟩ }

-- The command line is a C string and ends at a NUL byte.
def nulPath : Info := .leveldb { dbname := [byte 'a', 0], delimiter := ascii "\n", nsSeparator := ascii ":" }

theorem portless_not_restored :
    portless.Writable .std ∧ portless.type ≠ .redis ∧
      portless.setCommandLine .std (portless.commandLine .std) = .memcached (Memcached.config .std) ∧
      portless.setCommandLine .std (portless.commandLine .std) ≠ portless ∧
      nulPath.Writable .std ∧ nulPath.setCommandLine .std (nulPath.commandLine .std) ≠ nulPath := by
  refine ⟨⟨by decide, ?_⟩, by decide, by decide, by decide, ⟨by decide, ?_⟩,
    by decide⟩
  · intro config cases valid
    rcases cases with same | same
    · cases same
      exact absurd valid (by decide)
    · cases same
  · intro config cases
    rcases cases with same | same <;> cases same

end Info

end FastoNoSQL
