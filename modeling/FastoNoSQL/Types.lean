import FastoNoSQL.Common

set_option autoImplicit false

/-!
# Shared types of the core

`core/connection_types.h`, `core/db_key.h`, the two types of the `common`
library that every layer passes on, errors and the tags of values, and the
request for a page of keys.
-/

namespace FastoNoSQL

open Bytes

inductive ConnectionType where
  | redis
  | memcached
  | ssdb
  | leveldb
  | rocksdb
  | unqlite
  | lmdb
  | upscaledb
deriving DecidableEq

/-- `common::ErrorValue`; a null `common::Error` is `none`. -/
structure ErrorValue where
  description : Text
  isError : Bool
deriving DecidableEq

def makeErrorValue (description : String) : ErrorValue := ⟨ascii description, true⟩

-- `make_error_value(MemSPrintf(pattern, text), E_ERROR)`
def printedError (lib : Common) (pattern : String) (text : Text) : ErrorValue :=
  ⟨lib.memSPrintf (ascii pattern) [.s text], true⟩

inductive ValueType where
  | null
  | boolean
  | integer
  | uinteger
  | double
  | string
  | array
  | byteArray
  | set
  | zset
  | hash
  | command
  | error
deriving DecidableEq

structure NKey where
  key : Text
  ttl : Int32 := -1
deriving DecidableEq

/-- A key and its value, of which the translators read the type and `ValueString`. -/
structure NDbKValue where
  key : NKey
  type : ValueType
  valueString : Text
deriving DecidableEq

structure ContentRequest where
  pattern : Text
  countKeys : UInt32
  cursorIn : UInt32

/-- `NDbKValue` with an empty value of the type. -/
structure LoadedKey where
  key : NKey
  type : ValueType
deriving DecidableEq

structure ContentResponce where
  error : Option ErrorValue := none
  keys : List LoadedKey := []
  cursorOut : UInt32 := 0
  dbKeysCount : UInt64 := 0

end FastoNoSQL
