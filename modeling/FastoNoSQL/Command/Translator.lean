import FastoNoSQL.Common
import FastoNoSQL.Types

set_option autoImplicit false

/-!
# Command translators

`core/*/command_translator.cpp`: for each back-end, the text of the command that
creates, loads, deletes or renames a key or changes its TTL. The key and the
value are put into the text as they are.
-/

namespace FastoNoSQL

open Bytes

structure CommandTranslator where
  createKeyCommand : NDbKValue → Except ErrorValue Text
  loadKeyCommand : NKey → ValueType → Except ErrorValue Text
  deleteKeyCommand : NKey → Except ErrorValue Text
  renameKeyCommand : NKey → Text → Except ErrorValue Text
  changeKeyTTLCommand : NKey → Int32 → Except ErrorValue Text

namespace CommandTranslator

def print (lib : Common) (pattern : String) (args : List Arg) : Except ErrorValue Text :=
  .ok (lib.memSPrintf (ascii pattern) args)

def redis (lib : Common) : CommandTranslator where
  createKeyCommand value :=
    let args := [.s value.key.key, .s value.valueString]
    match value.type with
    | .array => print lib "LPUSH %s %s" args
    | .set => print lib "SADD %s %s" args
    | .zset => print lib "ZADD %s %s" args
    | .hash => print lib "HMSET %s %s" args
    | _ => print lib "SET %s %s" args
  loadKeyCommand key type :=
    match type with
    | .array => print lib "LRANGE %s 0 -1" [.s key.key]
    | .set => print lib "SMEMBERS %s" [.s key.key]
    | .zset => print lib "ZRANGE %s 0 -1 WITHSCORES" [.s key.key]
    | .hash => print lib "HGETALL %s" [.s key.key]
    | _ => print lib "GET %s" [.s key.key]
  deleteKeyCommand key := print lib "DEL %s" [.s key.key]
  renameKeyCommand key newName := print lib "RENAME %s %s" [.s key.key, .s newName]
  changeKeyTTLCommand key ttl :=
    if ttl = -1 then print lib "PERSIST %s" [.s key.key]
    else print lib "EXPIRE %s %d" [.s key.key, .d ttl.toInt]

def ssdb (lib : Common) : CommandTranslator where
  createKeyCommand value :=
    let args := [.s value.key.key, .s value.valueString]
    match value.type with
    | .array => print lib "LPUSH %s %s" args
    | .set => print lib "SADD %s %s" args
    | .zset => print lib "ZADD %s %s" args
    | .hash => print lib "HMSET %s %s" args
    | _ => print lib "SET %s %s" args
  loadKeyCommand key type :=
    match type with
    | .array => print lib "LRANGE %s 0 -1" [.s key.key]
    | .set => print lib "SMEMBERS %s" [.s key.key]
    | .zset => print lib "ZRANGE %s 0 -1" [.s key.key]
    | .hash => print lib "HGET %s" [.s key.key]
    | _ => print lib "GET %s" [.s key.key]
  deleteKeyCommand key := print lib "DEL %s" [.s key.key]
  renameKeyCommand key newName := print lib "RENAME %s %s" [.s key.key, .s newName]
  changeKeyTTLCommand _ _ :=
    .error (makeErrorValue "Sorry, but now FastoNoSQL not supported change ttl command for SSDB.")

def memcached (lib : Common) : CommandTranslator where
  createKeyCommand value := print lib "SET %s 0 0 %s" [.s value.key.key, .s value.valueString]
  loadKeyCommand key _ := print lib "GET %s" [.s key.key]
  deleteKeyCommand key := print lib "DEL %s" [.s key.key]
  renameKeyCommand key newName := print lib "RENAME %s %s" [.s key.key, .s newName]
  changeKeyTTLCommand key ttl := print lib "EXPIRE %s %d" [.s key.key, .d ttl.toInt]

-- The five embedded stores translate alike, up to the name in the message.
def embedded (lib : Common) (title : String) : CommandTranslator where
  createKeyCommand value := print lib "SET %s %s" [.s value.key.key, .s value.valueString]
  loadKeyCommand key _ := print lib "GET %s" [.s key.key]
  deleteKeyCommand key := print lib "DEL %s" [.s key.key]
  renameKeyCommand key newName := print lib "RENAME %s %s" [.s key.key, .s newName]
  changeKeyTTLCommand _ _ :=
    .error (makeErrorValue
      ("Sorry, but now FastoNoSQL not supported change ttl command for " ++ title ++ "."))

def leveldb (lib : Common) : CommandTranslator := embedded lib "LevelDB"
def rocksdb (lib : Common) : CommandTranslator := embedded lib "RocksDB"
def unqlite (lib : Common) : CommandTranslator := embedded lib "UnqLite"
def lmdb (lib : Common) : CommandTranslator := embedded lib "LMDB"
def upscaledb (lib : Common) : CommandTranslator := embedded lib "UPSCALEDB"

def ofType (lib : Common) : ConnectionType → CommandTranslator
  | .redis => redis lib
  | .memcached => memcached lib
  | .ssdb => ssdb lib
  | .leveldb => leveldb lib
  | .rocksdb => rocksdb lib
  | .unqlite => unqlite lib
  | .lmdb => lmdb lib
  | .upscaledb => upscaledb lib

end CommandTranslator

/-- What a user asks a translator for. Values are strings. -/
inductive KeyRequest where
  | create (key value : Text)
  | load (key : Text) (type : ValueType)
  | delete (key : Text)
  | rename (key newName : Text)
  | changeTTL (key : Text) (ttl : Int32)

namespace KeyRequest

def translate (translator : CommandTranslator) : KeyRequest → Except ErrorValue Text
  | create key value => translator.createKeyCommand ⟨⟨key, -1⟩, .string, value⟩
  | load key type => translator.loadKeyCommand ⟨key, -1⟩ type
  | delete key => translator.deleteKeyCommand ⟨key, -1⟩
  | rename key newName => translator.renameKeyCommand ⟨key, -1⟩ newName
  | changeTTL key ttl => translator.changeKeyTTLCommand ⟨key, -1⟩ ttl

-- The texts of the request that have to arrive as one argument each.
def parts : KeyRequest → List Text
  | create key value => [key, value]
  | load key _ | delete key | changeTTL key _ => [key]
  | rename key newName => [key, newName]

/-- The command that is asked for, as the command word and its arguments. -/
def argv : ConnectionType → KeyRequest → List Text
  | .memcached, create key value => [ascii "SET", key, ascii "0", ascii "0", value]
  | _, create key value => [ascii "SET", key, value]
  | .redis, load key .array => [ascii "LRANGE", key, ascii "0", ascii "-1"]
  | .redis, load key .set => [ascii "SMEMBERS", key]
  | .redis, load key .zset => [ascii "ZRANGE", key, ascii "0", ascii "-1", ascii "WITHSCORES"]
  | .redis, load key .hash => [ascii "HGETALL", key]
  | .ssdb, load key .array => [ascii "LRANGE", key, ascii "0", ascii "-1"]
  | .ssdb, load key .set => [ascii "SMEMBERS", key]
  | .ssdb, load key .zset => [ascii "ZRANGE", key, ascii "0", ascii "-1"]
  | .ssdb, load key .hash => [ascii "HGET", key]
  | _, load key _ => [ascii "GET", key]
  | _, delete key => [ascii "DEL", key]
  | _, rename key newName => [ascii "RENAME", key, newName]
  | .redis, changeTTL key ttl =>
    if ttl = -1 then [ascii "PERSIST", key] else [ascii "EXPIRE", key, intText ttl.toInt]
  | _, changeTTL key ttl => [ascii "EXPIRE", key, intText ttl.toInt]

end KeyRequest

end FastoNoSQL
