import FastoNoSQL.Config

set_option autoImplicit false

/-!
# Redis configuration

`core/redis/config.cpp`: the options of a redis connection, their writer
`convertToString` and their reader `convertFromString`.
-/

namespace FastoNoSQL.Redis

open Bytes Options Sds

@[ext] structure Config extends RemoteConfig where
  hostsocket : Text := []
  interval : UInt64 := 0
  dbnum : Int32 := 0
  interactive : Int32 := 0
  latencyMode : Int32 := 0
  latencyHistory : Int32 := 0
  clusterMode : Int32 := 0
  clusterReissueCommand : Int32 := 0
  slaveMode : Int32 := 0
  getrdbMode : Int32 := 0
  statMode : Int32 := 0
  scanMode : Int32 := 0
  intrinsicLatencyMode : Int32 := 0
  intrinsicLatencyDuration : Int32 := 0
  pattern : Text := []
  rdbFilename : Text := []
  bigkeys : Int32 := 0
  auth : Text := []
  eval : Text := []
  lastCmdType : Int32 := -1
deriving DecidableEq

namespace Config

def init (lib : Common) : Config := { host := lib.createLocalHost 6379 }

-- `cfg.interval = atof(text) * 1000000`.
def readInterval (lib : Common) (text : Text) : UInt64 :=
  let microseconds := (atof text).mulNat 1000000
  microseconds.toUInt64?.getD (lib.outOfRange microseconds)

def options (lib : Common) : List (Text × Spec Config) :=
  [(ascii "-h", .value fun text cfg => { cfg with host.host := text }),
    (ascii "-p", .value fun text cfg => { cfg with host.port := lib.toUInt16 text }),
    (ascii "-s", .value fun text cfg => { cfg with hostsocket := text }),
    (ascii "-i", .value fun text cfg => { cfg with interval := readInterval lib text }),
    (ascii "-n", .value fun text cfg => { cfg with dbnum := lib.toInt text }),
    (ascii "-a", .value fun text cfg => { cfg with auth := text }),
    (ascii "--latency", .flag fun cfg => { cfg with latencyMode := 1 }),
    (ascii "--latency-history", .flag fun cfg => { cfg with latencyMode := 1, latencyHistory := 1 }),
    (ascii "--slave", .flag fun cfg => { cfg with slaveMode := 1 }),
    (ascii "--stat", .flag fun cfg => { cfg with statMode := 1 }),
    (ascii "--scan", .flag fun cfg => { cfg with scanMode := 1 }),
    (ascii "--pattern", .value fun text cfg => { cfg with pattern := text }),
    (ascii "--intrinsic-latency", .value fun text cfg =>
      { cfg with intrinsicLatencyMode := 1, intrinsicLatencyDuration := lib.toInt text }),
    (ascii "--rdb", .value fun text cfg => { cfg with getrdbMode := 1, rdbFilename := text }),
    (ascii "--bigkeys", .flag fun cfg => { cfg with bigkeys := 1 }),
    (ascii "--eval", .value fun text cfg => { cfg with eval := text }),
    (ascii "-c", .flag fun cfg => { cfg with clusterMode := 1 }),
    (ascii "-d", .value fun text cfg => { cfg with delimiter := text }),
    (ascii "-ns", .value fun text cfg => { cfg with nsSeparator := text })]

-- The writer up to `--pattern`; the intrinsic latency and what it cuts off come after.
def firstWords (lib : Common) (cfg : Config) : List Text :=
  cfg.toRemoteConfig.args lib ++
    (wordsIf (cfg.hostsocket ≠ []) [ascii "-s", cfg.hostsocket] ++
    (wordsIf (cfg.interval ≠ 0) [ascii "-i", natText (cfg.interval / 1000000).toNat] ++
    (wordsIf (cfg.dbnum ≠ 0) [ascii "-n", intText cfg.dbnum.toInt] ++
    (wordsIf (cfg.auth ≠ []) [ascii "-a", cfg.auth] ++
    (wordsIf (cfg.latencyMode ≠ 0)
      [if cfg.latencyHistory ≠ 0 then ascii "--latency-history" else ascii "--latency"] ++
    (wordsIf (cfg.slaveMode ≠ 0) [ascii "--slave"] ++
    (wordsIf (cfg.statMode ≠ 0) [ascii "--stat"] ++
    (wordsIf (cfg.scanMode ≠ 0) [ascii "--scan"] ++
    wordsIf (cfg.pattern ≠ []) [ascii "--pattern", cfg.pattern]))))))))

def lastWords (cfg : Config) : List Text :=
  wordsIf (cfg.getrdbMode ≠ 0) [ascii "--rdb", cfg.rdbFilename] ++
    (wordsIf (cfg.bigkeys ≠ 0) [ascii "--bigkeys"] ++
    (wordsIf (cfg.eval ≠ []) [ascii "--eval", cfg.eval] ++
    wordsIf (cfg.clusterMode ≠ 0) [ascii "-c"]))

def words (lib : Common) (cfg : Config) : List Text :=
  cfg.firstWords lib ++
    (wordsIf (cfg.intrinsicLatencyMode ≠ 0)
      [ascii "--intrinsic-latency", intText cfg.intrinsicLatencyMode.toInt,
        intText cfg.intrinsicLatencyDuration.toInt] ++
    cfg.lastWords)

def convertToString (lib : Common) (cfg : Config) : Text := unwords (cfg.words lib)

def convertFromString (lib : Common) (line : Text) : Config := readConfig (options lib) (init lib) line

-- The fields that the command line has an option for.
def optionFields (cfg : Config) : Config :=
  { cfg with interactive := 0, clusterReissueCommand := 0, lastCmdType := -1 }

def RoundTrips (lib : Common) (cfg : Config) : Prop :=
  (convertFromString lib (convertToString lib cfg)).optionFields = cfg.optionFields

def texts (cfg : Config) : List Text :=
  [cfg.host.host, cfg.hostsocket, cfg.auth, cfg.pattern, cfg.rdbFilename, cfg.eval, cfg.delimiter,
    cfg.nsSeparator]

def isWordByte (c : UInt8) : Bool :=
  c ≠ byte ' ' && c ≠ byte '"' && c ≠ byte '\'' && c ≠ byte '{' && c ≠ byte '}' && c ≠ byte '\\'

def modeFlags (cfg : Config) : List Int32 :=
  [cfg.latencyMode, cfg.latencyHistory, cfg.clusterMode, cfg.slaveMode, cfg.getrdbMode, cfg.statMode,
    cfg.scanMode, cfg.intrinsicLatencyMode, cfg.bigkeys]

/-- The configurations that one command line can mean to express. -/
structure WellFormed (lib : Common) (cfg : Config) : Prop where
  flags : ∀ flag ∈ cfg.modeFlags, flag = 0 ∨ flag = 1
  ordinary : ∀ text ∈ cfg.texts, ∀ c ∈ text, isWordByte c = true
  host : lib.isValid cfg.host = true → cfg.host.host ≠ []
  rdb : cfg.getrdbMode ≠ 0 ↔ cfg.rdbFilename ≠ []
  latency : cfg.latencyHistory ≠ 0 → cfg.latencyMode ≠ 0
  duration : cfg.intrinsicLatencyDuration ≠ 0 → cfg.intrinsicLatencyMode ≠ 0

/-- What the writer and the reader lose nothing of. -/
structure Restorable (lib : Common) (cfg : Config) : Prop where
  clean : ∀ text ∈ cfg.texts, (0 : UInt8) ∉ text
  host : lib.isValid cfg.host = true
  delimiter : cfg.delimiter ≠ []
  nsSeparator : cfg.nsSeparator ≠ []
  interval : nearestDouble (cfg.interval.toNat / 1000000 * 1000000) = cfg.interval.toNat
  intrinsic : cfg.intrinsicLatencyMode ≠ 0 →
    cfg.intrinsicLatencyDuration = 1 ∧ cfg.getrdbMode = 0 ∧ cfg.bigkeys = 0 ∧ cfg.eval = [] ∧
      cfg.clusterMode = 0

/-! ## What is read back -/

/-- The configuration after the words up to `--pattern`. -/
def readFirst (lib : Common) (cfg : Config) : Config where
  host := if lib.isValid cfg.host = true then cfg.host else lib.createLocalHost 6379
  delimiter := if cfg.delimiter ≠ [] then cfg.delimiter else ascii "\n"
  nsSeparator := if cfg.nsSeparator ≠ [] then cfg.nsSeparator else ascii ":"
  hostsocket := cfg.hostsocket
  interval := if cfg.interval ≠ 0 then readInterval lib (natText (cfg.interval / 1000000).toNat) else 0
  dbnum := cfg.dbnum
  auth := cfg.auth
  latencyMode := if cfg.latencyMode ≠ 0 then 1 else 0
  latencyHistory := if cfg.latencyMode ≠ 0 ∧ cfg.latencyHistory ≠ 0 then 1 else 0
  slaveMode := if cfg.slaveMode ≠ 0 then 1 else 0
  statMode := if cfg.statMode ≠ 0 then 1 else 0
  scanMode := if cfg.scanMode ≠ 0 then 1 else 0
  pattern := cfg.pattern

theorem natText_clean (n : Nat) : (0 : UInt8) ∉ natText n := fun member => by
  have digit := isDigit_of_mem_natText n 0 member
  revert digit
  decide

theorem intText_clean (i : Int) : (0 : UInt8) ∉ intText i := fun member => by
  have cases := mem_intText i 0 member
  revert cases
  decide

theorem parse_host (lib : Common) (cfg start : Config) (rest : List Text) (clean : (0 : UInt8) ∉ cfg.host.host) :
    parse (options lib) start
        (wordsIf (lib.isValid cfg.host = true)
          [ascii "-h", cfg.host.host, ascii "-p", natText cfg.host.port.toNat] ++ rest) =
      parse (options lib)
        { start with host := if lib.isValid cfg.host = true then
            ⟨cfg.host.host, lib.toUInt16 (natText cfg.host.port.toNat)⟩ else start.host } rest := by
  by_cases valid : lib.isValid cfg.host = true
  · have name : (options lib).lookup (cString (ascii "-h")) =
        some (.value fun text cfg => { cfg with host.host := text }) := rfl
    have port : (options lib).lookup (cString (ascii "-p")) =
        some (.value fun text cfg => { cfg with host.port := lib.toUInt16 text }) := rfl
    simp [wordsIf, valid, parse, name, port, cString_eq_self _ clean,
      cString_eq_self _ (natText_clean cfg.host.port.toNat)]
  · simp [wordsIf, valid]

theorem parse_latency (lib : Common) (cfg start : Config) (rest : List Text) :
    parse (options lib) start
        (wordsIf (cfg.latencyMode ≠ 0)
          [if cfg.latencyHistory ≠ 0 then ascii "--latency-history" else ascii "--latency"] ++ rest) =
      parse (options lib)
        { start with
          latencyMode := if cfg.latencyMode ≠ 0 then 1 else start.latencyMode
          latencyHistory :=
            if cfg.latencyMode ≠ 0 ∧ cfg.latencyHistory ≠ 0 then 1 else start.latencyHistory } rest := by
  by_cases mode : cfg.latencyMode = 0
  · simp [wordsIf, mode]
  by_cases history : cfg.latencyHistory = 0
  · have found : (options lib).lookup (cString (ascii "--latency")) =
        some (.flag fun cfg => { cfg with latencyMode := 1 }) := rfl
    simp [wordsIf, mode, history, parse, found]
  · have found : (options lib).lookup (cString (ascii "--latency-history")) =
        some (.flag fun cfg => { cfg with latencyMode := 1, latencyHistory := 1 }) := rfl
    simp [wordsIf, mode, history, parse, found]

theorem parse_firstWords (lib : Common) (lawful : lib.Lawful) (cfg : Config)
    (clean : ∀ text ∈ cfg.texts, (0 : UInt8) ∉ text) (rest : List Text) :
    parse (options lib) (init lib) (cfg.firstWords lib ++ rest) =
      parse (options lib) (cfg.readFirst lib) rest := by
  simp only [firstWords, RemoteConfig.args, BaseConfig.args, List.append_assoc]
  rw [parse_host lib cfg _ _ (clean _ (by simp [texts])),
    parse_value _ _ (·.delimiter) (fun text cfg => { cfg with delimiter := text }) _ (ascii "-d") _ id
      _ rfl rfl fun _ => clean _ (by simp [texts]),
    parse_value _ _ (·.nsSeparator) (fun text cfg => { cfg with nsSeparator := text }) _ (ascii "-ns") _ id
      _ rfl rfl fun _ => clean _ (by simp [texts]),
    parse_value _ _ (·.hostsocket) (fun text cfg => { cfg with hostsocket := text }) _ (ascii "-s") _ id
      _ rfl rfl fun _ => clean _ (by simp [texts]),
    parse_value _ _ (·.interval) (fun value cfg => { cfg with interval := value }) _ (ascii "-i") _
      (readInterval lib) _ rfl rfl fun _ => natText_clean _,
    parse_value _ _ (·.dbnum) (fun value cfg => { cfg with dbnum := value }) _ (ascii "-n") _ lib.toInt
      _ rfl rfl fun _ => intText_clean _,
    parse_value _ _ (·.auth) (fun text cfg => { cfg with auth := text }) _ (ascii "-a") _ id
      _ rfl rfl fun _ => clean _ (by simp [texts]),
    parse_latency,
    parse_flag _ _ (·.slaveMode) (fun mode cfg => { cfg with slaveMode := mode }) _ (ascii "--slave") 1
      _ rfl rfl,
    parse_flag _ _ (·.statMode) (fun mode cfg => { cfg with statMode := mode }) _ (ascii "--stat") 1
      _ rfl rfl,
    parse_flag _ _ (·.scanMode) (fun mode cfg => { cfg with scanMode := mode }) _ (ascii "--scan") 1
      _ rfl rfl,
    parse_value _ _ (·.pattern) (fun text cfg => { cfg with pattern := text }) _ (ascii "--pattern") _ id
      _ rfl rfl fun _ => clean _ (by simp [texts])]
  congr 1
  simp only [lawful.toUInt16_natText, lawful.toInt_intText, init, readFirst, id]
  apply Config.ext <;> simp
  exact Eq.symm

theorem parse_lastWords (lib : Common) (cfg start : Config) (clean : ∀ text ∈ cfg.texts, (0 : UInt8) ∉ text) :
    parse (options lib) start cfg.lastWords =
      { start with
        getrdbMode := if cfg.getrdbMode ≠ 0 then 1 else start.getrdbMode
        rdbFilename := if cfg.getrdbMode ≠ 0 then cfg.rdbFilename else start.rdbFilename
        bigkeys := if cfg.bigkeys ≠ 0 then 1 else start.bigkeys
        eval := if cfg.eval ≠ [] then cfg.eval else start.eval
        clusterMode := if cfg.clusterMode ≠ 0 then 1 else start.clusterMode } := by
  rw [lastWords,
    parse_value _ _ (fun cfg => (cfg.getrdbMode, cfg.rdbFilename))
      (fun rdb cfg => { cfg with getrdbMode := rdb.1, rdbFilename := rdb.2 }) _ (ascii "--rdb") _
      (fun text => (1, text)) _ rfl rfl fun _ => clean _ (by simp [texts]),
    parse_flag _ _ (·.bigkeys) (fun mode cfg => { cfg with bigkeys := mode }) _ (ascii "--bigkeys") 1
      _ rfl rfl,
    parse_value _ _ (·.eval) (fun text cfg => { cfg with eval := text }) _ (ascii "--eval") _ id
      _ rfl rfl fun _ => clean _ (by simp [texts]),
    ← List.append_nil (wordsIf (cfg.clusterMode ≠ 0) [ascii "-c"]),
    parse_flag _ _ (·.clusterMode) (fun mode cfg => { cfg with clusterMode := mode }) _ (ascii "-c") 1
      _ rfl rfl, parse_nil]
  apply Config.ext <;> simp [apply_ite Prod.fst, apply_ite Prod.snd]

-- The names of the options have a letter, so no number is one.
theorem lookup_intText (lib : Common) (i : Int) : (options lib).lookup (cString (intText i)) = none := by
  have named : ∀ entry ∈ options lib, ∃ c ∈ entry.1, isDigit c = false ∧ c ≠ byte '-' := by
    have names : (options lib).map Prod.fst = (options Common.std).map Prod.fst := rfl
    have letters : ∀ name ∈ (options Common.std).map Prod.fst, ∃ c ∈ name, isDigit c = false ∧ c ≠ byte '-' := by
      decide
    intro entry member
    exact letters entry.1 (names ▸ List.mem_map_of_mem member)
  rw [cString_eq_self _ (intText_clean i), List.lookup_eq_none_iff]
  intro entry member
  obtain ⟨c, inName, letter, notMinus⟩ := named entry member
  rw [bne_iff_ne]
  intro same
  rcases mem_intText i c (same ▸ inName) with digit | minus
  · simp [digit] at letter
  · exact notMinus minus

-- The writer emits the mode and the duration, the reader takes the mode for the duration and stops.
theorem parse_intrinsic (lib : Common) (start : Config) (rest : List Text) (mode duration : Int) :
    parse (options lib) start
        (ascii "--intrinsic-latency" :: intText mode :: intText duration :: rest) =
      { start with intrinsicLatencyMode := 1, intrinsicLatencyDuration := lib.toInt (intText mode) } := by
  have found : (options lib).lookup (cString (ascii "--intrinsic-latency")) =
      some (.value fun text cfg =>
        { cfg with intrinsicLatencyMode := 1, intrinsicLatencyDuration := lib.toInt text }) := rfl
  have argument := parse_value (options lib) start
    (fun cfg => (cfg.intrinsicLatencyMode, cfg.intrinsicLatencyDuration))
    (fun latency cfg => { cfg with
      intrinsicLatencyMode := latency.1, intrinsicLatencyDuration := latency.2 })
    True (ascii "--intrinsic-latency") (intText mode) (fun text => (1, lib.toInt text))
    (intText duration :: rest) found rfl fun _ => intText_clean mode
  rw [parse_unknown _ _ _ _ (lookup_intText lib duration)] at argument
  simpa [wordsIf] using argument

/-- The configuration that the written line means to the reader. -/
def readBack (lib : Common) (cfg : Config) : Config :=
  if cfg.intrinsicLatencyMode ≠ 0 then
    { cfg.readFirst lib with
      intrinsicLatencyMode := 1, intrinsicLatencyDuration := cfg.intrinsicLatencyMode }
  else
    { cfg.readFirst lib with
      getrdbMode := if cfg.getrdbMode ≠ 0 then 1 else 0
      rdbFilename := if cfg.getrdbMode ≠ 0 then cfg.rdbFilename else []
      bigkeys := if cfg.bigkeys ≠ 0 then 1 else 0
      eval := cfg.eval
      clusterMode := if cfg.clusterMode ≠ 0 then 1 else 0 }

theorem parse_words (lib : Common) (lawful : lib.Lawful) (cfg : Config)
    (clean : ∀ text ∈ cfg.texts, (0 : UInt8) ∉ text) :
    parse (options lib) (init lib) (cfg.words lib) = cfg.readBack lib := by
  rw [words, parse_firstWords lib lawful cfg clean]
  by_cases mode : cfg.intrinsicLatencyMode = 0
  · simp only [wordsIf, mode, ne_eq, not_true_eq_false, if_false, List.nil_append, readBack]
    rw [parse_lastWords lib cfg _ clean]
    apply Config.ext <;> simp [readFirst]
  · simp only [wordsIf, mode, ne_eq, not_false_eq_true, if_true, readBack]
    exact (parse_intrinsic lib _ cfg.lastWords _ _).trans (by rw [lawful.toInt_intText])

theorem isWord_of_text (lib : Common) (cfg : Config) (wellFormed : cfg.WellFormed lib)
    (clean : ∀ text ∈ cfg.texts, (0 : UInt8) ∉ text) (text : Text) (member : text ∈ cfg.texts)
    (nonempty : text ≠ []) : isWord text = true := by
  simp only [isWord, Bool.and_eq_true, List.all_eq_true, decide_eq_true_eq]
  refine ⟨nonempty, fun c inText => ⟨?_, fun zero => clean text member (zero ▸ inText)⟩⟩
  have ordinary := wellFormed.ordinary text member c inText
  simp only [isWordByte, Bool.and_eq_true] at ordinary
  simp only [isPlain, Bool.and_eq_true]
  exact ordinary.1.1

theorem isWord_of_mem_words (lib : Common) (cfg : Config) (wellFormed : cfg.WellFormed lib)
    (clean : ∀ text ∈ cfg.texts, (0 : UInt8) ∉ text) : ∀ word ∈ cfg.words lib, isWord word = true := by
  have ofText := isWord_of_text lib cfg wellFormed clean
  have latency : isWord (if cfg.latencyHistory ≠ 0 then ascii "--latency-history" else ascii "--latency") =
      true := by
    split <;> decide
  simp only [words, firstWords, lastWords, RemoteConfig.args, BaseConfig.args, List.append_assoc,
    List.forall_mem_append, forall_mem_wordsIf, List.forall_mem_cons, isWord_natText, isWord_intText, latency,
    List.not_mem_nil, false_implies, implies_true, and_true, true_and]
  refine ⟨fun valid => ⟨by decide, ofText _ (by simp [texts]) (wellFormed.host valid), by decide⟩,
    fun written => ⟨by decide, ofText _ (by simp [texts]) written⟩,
    fun written => ⟨by decide, ofText _ (by simp [texts]) written⟩,
    fun written => ⟨by decide, ofText _ (by simp [texts]) written⟩,
    fun _ => by decide, fun _ => by decide,
    fun written => ⟨by decide, ofText _ (by simp [texts]) written⟩,
    fun _ => by decide, fun _ => by decide, fun _ => by decide,
    fun written => ⟨by decide, ofText _ (by simp [texts]) written⟩,
    fun _ => by decide,
    fun mode => ⟨by decide, ofText _ (by simp [texts]) (wellFormed.rdb.mp mode)⟩,
    fun _ => by decide,
    fun written => ⟨by decide, ofText _ (by simp [texts]) written⟩,
    fun _ => by decide⟩

theorem convertFromString_convertToString (lib : Common) (lawful : lib.Lawful) (cfg : Config)
    (wellFormed : cfg.WellFormed lib) (clean : ∀ text ∈ cfg.texts, (0 : UInt8) ∉ text) :
    convertFromString lib (convertToString lib cfg) = cfg.readBack lib := by
  have split := sdssplitargslong_words _ (isWord_of_mem_words lib cfg wellFormed clean)
  simp only [convertFromString, readConfig, convertToString, split]
  exact parse_words lib lawful cfg clean

theorem convertFromString_clean (lib : Common) (lawful : lib.Lawful) (line : Text) :
    ∀ text ∈ (convertFromString lib line).texts, (0 : UInt8) ∉ text := by
  have start : ∀ text ∈ (init lib).texts, (0 : UInt8) ∉ text := by
    have local' := lawful.nul_not_mem_localHost 6379
    simp only [texts, init, List.forall_mem_cons, List.not_mem_nil, false_implies, implies_true, and_true,
      not_false_eq_true]
    exact ⟨local', by decide, by decide⟩
  rw [convertFromString, readConfig]
  split
  next argv _ =>
    refine parse_invariant (options lib) (init lib) (fun cfg => ∀ text ∈ cfg.texts, (0 : UInt8) ∉ text)
      ?_ argv start
    simp only [options, List.forall_mem_cons, Spec.Keeps, texts, List.not_mem_nil, false_implies,
      implies_true, and_true]
    and_intros <;> simp +contextual
  next => exact start

theorem readInterval_eq_iff (lib : Common) (interval : UInt64) :
    (if interval ≠ 0 then readInterval lib (natText (interval / 1000000).toNat) else 0) = interval ↔
      nearestDouble (interval.toNat / 1000000 * 1000000) = interval.toNat := by
  by_cases zero : interval = 0
  · simp only [zero, ne_eq, not_true_eq_false, if_false, true_iff]
    exact nearestDouble_of_heldExactly 0 (by decide)
  have seconds : (interval / 1000000).toNat = interval.toNat / 1000000 := by simp
  have bound : interval.toNat / 1000000 * 1000000 < 2 ^ 64 :=
    Nat.lt_of_le_of_lt (Nat.div_mul_le_self _ _) interval.toNat_lt
  obtain ⟨value, range⟩ := microseconds_of_natText (interval.toNat / 1000000) bound
  simp only [zero, ne_eq, not_false_eq_true, if_true, readInterval, seconds, value, Option.getD_some]
  rw [← UInt64.toNat_inj, UInt64.toNat_ofNat_of_lt' range]

theorem flag_eq_self (flag : Int32) (mode : flag = 0 ∨ flag = 1) : (if flag ≠ 0 then 1 else 0) = flag := by
  rcases mode with rfl | rfl <;> rfl

theorem latencyHistory_eq_self (lib : Common) (cfg : Config) (wellFormed : cfg.WellFormed lib) :
    (if cfg.latencyMode ≠ 0 ∧ cfg.latencyHistory ≠ 0 then 1 else 0) = cfg.latencyHistory := by
  rw [← flag_eq_self cfg.latencyHistory (wellFormed.flags _ (by simp [modeFlags]))]
  by_cases history : cfg.latencyHistory = 0
  · simp [history]
  · simp [history, wellFormed.latency history]

theorem readFirst_fields (lib : Common) (cfg : Config) (wellFormed : cfg.WellFormed lib) :
    cfg.readFirst lib =
      { cfg with
        host := if lib.isValid cfg.host = true then cfg.host else lib.createLocalHost 6379
        delimiter := if cfg.delimiter ≠ [] then cfg.delimiter else ascii "\n"
        nsSeparator := if cfg.nsSeparator ≠ [] then cfg.nsSeparator else ascii ":"
        interval :=
          if cfg.interval ≠ 0 then readInterval lib (natText (cfg.interval / 1000000).toNat) else 0
        interactive := 0, clusterReissueCommand := 0, lastCmdType := -1
        intrinsicLatencyMode := 0, intrinsicLatencyDuration := 0
        getrdbMode := 0, rdbFilename := [], bigkeys := 0, eval := [], clusterMode := 0 } := by
  have flag (mode : Int32) (member : mode ∈ cfg.modeFlags) := flag_eq_self mode (wellFormed.flags mode member)
  rw [readFirst, latencyHistory_eq_self lib cfg wellFormed, flag cfg.latencyMode (by simp [modeFlags]),
    flag cfg.slaveMode (by simp [modeFlags]), flag cfg.statMode (by simp [modeFlags]),
    flag cfg.scanMode (by simp [modeFlags])]

theorem ite_localHost_eq_iff (lib : Common) (lawful : lib.Lawful) (host : HostAndPort) :
    (if lib.isValid host = true then host else lib.createLocalHost 6379) = host ↔ lib.isValid host = true := by
  constructor
  · intro same
    by_contra invalid
    rw [if_neg invalid] at same
    exact invalid (same ▸ lawful.isValid_localHost 6379 (by decide))
  · intro valid
    exact if_pos valid

theorem ite_default_eq_iff (text default : Text) (nonempty : default ≠ []) :
    (if text ≠ [] then text else default) = text ↔ text ≠ [] := by
  by_cases empty : text = []
  · simp [empty, nonempty]
  · simp [empty]

theorem readBack_eq_iff (lib : Common) (lawful : lib.Lawful) (cfg : Config) (wellFormed : cfg.WellFormed lib) :
    (cfg.readBack lib).optionFields = cfg.optionFields ↔
      lib.isValid cfg.host = true ∧ cfg.delimiter ≠ [] ∧ cfg.nsSeparator ≠ [] ∧
        nearestDouble (cfg.interval.toNat / 1000000 * 1000000) = cfg.interval.toNat ∧
        (cfg.intrinsicLatencyMode ≠ 0 →
          cfg.intrinsicLatencyDuration = 1 ∧ cfg.getrdbMode = 0 ∧ cfg.bigkeys = 0 ∧ cfg.eval = [] ∧
            cfg.clusterMode = 0) := by
  have newline : ascii "\n" ≠ [] := by decide
  have colon : ascii ":" ≠ [] := by decide
  rw [readBack, readFirst_fields lib cfg wellFormed]
  have flag (mode : Int32) (member : mode ∈ cfg.modeFlags) := flag_eq_self mode (wellFormed.flags mode member)
  by_cases mode : cfg.intrinsicLatencyMode = 0
  · have duration : cfg.intrinsicLatencyDuration = 0 := by
      by_contra nonzero
      exact wellFormed.duration nonzero mode
    have rdb : (if cfg.getrdbMode ≠ 0 then cfg.rdbFilename else []) = cfg.rdbFilename := by
      split
      next => rfl
      next absent => exact (not_ne_iff.mp (mt wellFormed.rdb.mpr absent)).symm
    rw [if_neg (not_not.mpr mode), flag cfg.getrdbMode (by simp [modeFlags]), rdb,
      flag cfg.bigkeys (by simp [modeFlags]), flag cfg.clusterMode (by simp [modeFlags])]
    simp only [Config.ext_iff, optionFields, mode, duration, ite_localHost_eq_iff lib lawful,
      ite_default_eq_iff _ _ newline, ite_default_eq_iff _ _ colon, readInterval_eq_iff]
    tauto
  · have one : cfg.intrinsicLatencyMode = 1 :=
      (wellFormed.flags cfg.intrinsicLatencyMode (by simp [modeFlags])).resolve_left mode
    have rdb : cfg.getrdbMode = 0 ↔ cfg.rdbFilename = [] := not_iff_not.mp wellFormed.rdb
    rw [if_pos mode]
    simp only [Config.ext_iff, optionFields, one, ite_localHost_eq_iff lib lawful,
      ite_default_eq_iff _ _ newline, ite_default_eq_iff _ _ colon, readInterval_eq_iff,
      eq_comm (a := (1 : Int32)), eq_comm (a := (0 : Int32)), eq_comm (a := ([] : Text))]
    tauto

/-- The command line brings a configuration back exactly when it is restorable. -/
theorem roundTrips_iff_restorable (lib : Common) (lawful : lib.Lawful) (cfg : Config)
    (wellFormed : cfg.WellFormed lib) : cfg.RoundTrips lib ↔ cfg.Restorable lib := by
  constructor
  · intro same
    have sameTexts := congrArg texts same
    have clean : ∀ text ∈ cfg.texts, (0 : UInt8) ∉ text := by
      have read := convertFromString_clean lib lawful (convertToString lib cfg)
      intro text member
      exact read text (sameTexts ▸ member)
    rw [RoundTrips, convertFromString_convertToString lib lawful cfg wellFormed clean,
      readBack_eq_iff lib lawful cfg wellFormed] at same
    obtain ⟨host, delimiter, nsSeparator, interval, intrinsic⟩ := same
    exact ⟨clean, host, delimiter, nsSeparator, interval, intrinsic⟩
  · intro restorable
    rw [RoundTrips, convertFromString_convertToString lib lawful cfg wellFormed restorable.clean,
      readBack_eq_iff lib lawful cfg wellFormed]
    exact ⟨restorable.host, restorable.delimiter, restorable.nsSeparator, restorable.interval,
      restorable.intrinsic⟩

-- `--latency-history -i 15 -n 3 -a secret --rdb dump -c` on the local host.
def sampleConfig : Config :=
  { init Common.std with
    interval := 15000000, dbnum := 3, auth := ascii "secret", latencyMode := 1, latencyHistory := 1,
    getrdbMode := 1, rdbFilename := ascii "dump", clusterMode := 1 }

theorem roundTrips_sampleConfig : sampleConfig.WellFormed Common.std ∧ sampleConfig.RoundTrips Common.std := by
  have wellFormed : sampleConfig.WellFormed Common.std :=
    { flags := by simp [modeFlags, sampleConfig, init], ordinary := by decide +kernel, host := by decide,
      rdb := by decide, latency := by decide, duration := by decide }
  refine ⟨wellFormed, (roundTrips_iff_restorable _ Common.std_lawful _ wellFormed).mpr ?_⟩
  exact { clean := by decide, host := by decide, delimiter := by decide, nsSeparator := by decide,
          interval := by decide +kernel, intrinsic := by decide }

-- `--intrinsic-latency` for a hundred seconds, with `--bigkeys`.
def latencyConfig : Config :=
  { init Common.std with intrinsicLatencyMode := 1, intrinsicLatencyDuration := 100, bigkeys := 1 }

theorem latencyConfig_not_roundTrips :
    latencyConfig.WellFormed Common.std ∧ ¬ latencyConfig.RoundTrips Common.std := by
  refine ⟨{ flags := by simp [modeFlags, latencyConfig, init], ordinary := by decide +kernel,
            host := by decide, rdb := by decide, latency := by decide, duration := by decide }, ?_⟩
  unfold RoundTrips
  decide

end Config

end FastoNoSQL.Redis
