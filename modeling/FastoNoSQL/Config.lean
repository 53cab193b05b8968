import FastoNoSQL.Bytes.Options
import FastoNoSQL.Common
import FastoNoSQL.Sds

set_option autoImplicit false

/-!
# Command-line configurations

`core/config/config.cpp` and the `Config` of every back-end but redis. A
configuration is kept as a command line: `convertToString` writes it and
`convertFromString` reads it.
-/

namespace FastoNoSQL

open Bytes Options Sds

structure BaseConfig where
  delimiter : Text := ascii "\n"
  nsSeparator : Text := ascii ":"
deriving DecidableEq

structure LocalConfig extends BaseConfig where
  dbname : Text
deriving DecidableEq

structure RemoteConfig extends BaseConfig where
  host : HostAndPort
deriving DecidableEq

def BaseConfig.args (cfg : BaseConfig) : List Text :=
  wordsIf (cfg.delimiter ≠ []) [ascii "-d", cfg.delimiter] ++
    wordsIf (cfg.nsSeparator ≠ []) [ascii "-ns", cfg.nsSeparator]

def LocalConfig.args (cfg : LocalConfig) : List Text :=
  wordsIf (cfg.dbname ≠ []) [ascii "-f", cfg.dbname] ++ cfg.toBaseConfig.args

def RemoteConfig.args (lib : Common) (cfg : RemoteConfig) : List Text :=
  wordsIf (lib.isValid cfg.host = true)
      [ascii "-h", cfg.host.host, ascii "-p", natText cfg.host.port.toNat] ++
    cfg.toBaseConfig.args

-- `ConvertFromString<Config>`: a line that does not split gives the default.
def readConfig {σ : Type} (table : List (Text × Spec σ)) (default : σ) (line : Text) : σ :=
  match sdssplitargslong line with
  | some argv => parse table default argv
  | none => default

/-! ## Stores on disk -/

structure StoreConfig extends LocalConfig where
  createIfMissing : Bool := false
deriving DecidableEq

namespace StoreConfig

def init (lib : Common) (path : Text) : StoreConfig := { dbname := lib.preparePath path }

def options : List (Text × Spec StoreConfig) :=
  [(ascii "-d", .value fun text cfg => { cfg with delimiter := text }),
    (ascii "-ns", .value fun text cfg => { cfg with nsSeparator := text }),
    (ascii "-f", .value fun text cfg => { cfg with dbname := text }),
    (ascii "-c", .flag fun cfg => { cfg with createIfMissing := true })]

def convertToString (cfg : StoreConfig) : Text :=
  unwords (cfg.toLocalConfig.args ++ wordsIf (cfg.createIfMissing = true) [ascii "-c"])

end StoreConfig

def Leveldb.config (lib : Common) : StoreConfig := .init lib (ascii "~/test.leveldb")
def Rocksdb.config (lib : Common) : StoreConfig := .init lib (ascii "~/test.rocksdb")
def Unqlite.config (lib : Common) : StoreConfig := .init lib (ascii "~/test.unqlite")
def Lmdb.config (lib : Common) : StoreConfig := .init lib (ascii "~/test.lmdb")
def Upscaledb.config (lib : Common) : StoreConfig := .init lib (ascii "~/test.upscaledb")

/-! ## Servers with a user and a password -/

structure UserConfig extends RemoteConfig where
  user : Text := []
  password : Text := []
deriving DecidableEq

namespace UserConfig

def init (lib : Common) (port : UInt16) : UserConfig := { host := lib.createLocalHost port }

def options (lib : Common) : List (Text × Spec UserConfig) :=
  [(ascii "-h", .value fun text cfg => { cfg with host.host := text }),
    (ascii "-p", .value fun text cfg => { cfg with host.port := lib.toUInt16 text }),
    (ascii "-u", .value fun text cfg => { cfg with user := text }),
    (ascii "-a", .value fun text cfg => { cfg with password := text }),
    (ascii "-d", .value fun text cfg => { cfg with delimiter := text }),
    (ascii "-ns", .value fun text cfg => { cfg with nsSeparator := text })]

def convertToString (lib : Common) (cfg : UserConfig) : Text :=
  unwords (cfg.toRemoteConfig.args lib ++ wordsIf (cfg.user ≠ []) [ascii "-u", cfg.user] ++
    wordsIf (cfg.password ≠ []) [ascii "-a", cfg.password])

end UserConfig

def Memcached.config (lib : Common) : UserConfig := .init lib 11211
def Ssdb.config (lib : Common) : UserConfig := .init lib 8888

end FastoNoSQL
