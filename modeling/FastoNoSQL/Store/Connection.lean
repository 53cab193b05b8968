import Mathlib.Data.List.Dedup
import Mathlib.Logic.Function.Basic
import Mathlib.Tactic.Common
import FastoNoSQL.Types

set_option autoImplicit false

/-!
# Connections to a store

`DBConnection` of the back-ends whose library is a map from keys to values, and
the part of `CDBConnection` that is common to them. Every call of the library
may fail, and a failed call leaves the store as it was.
-/

namespace FastoNoSQL.Store

open Bytes

abbrev Content := Text → Option Text

def Content.put (content : Content) (key value : Text) : Content := Function.update content key (some value)

theorem Content.put_same (content : Content) (key value : Text) : content.put key value key = some value := by
  simp [put]

theorem Content.put_injective (content : Content) (key value other : Text)
    (same : content.put key value = content.put key other) : value = other := by
  have found := congrFun same key
  rw [put_same, put_same] at found
  exact Option.some.inj found

def Content.erase (content : Content) (key : Text) : Content := Function.update content key none

def Content.eraseAll (content : Content) (keys : List Text) : Content :=
  fun key => if key ∈ keys then none else content key

-- Those of the keys that are in the store.
def Content.taken (content : Content) (keys : List Text) : List Text :=
  keys.dedup.filter fun key => (content key).isSome

/-- A store library under one back-end's connection. -/
structure Library where
  getError : String
  delError : String
  setError : String
  -- Whether deleting an absent key is a success.
  deletesAbsent : Bool
  notFound : Text
  -- The message with which the library fails its `n`-th call, if it does.
  faults : Nat → Option Text

-- leveldb and rocksdb answer OK to the deletion of an absent key, as does the server of ssdb.
def Library.ofType (notFound : Text) (faults : Nat → Option Text) :
    (type : ConnectionType) → type ≠ .redis → Library
  | .leveldb, _ | .rocksdb, _ | .ssdb, _ =>
    ⟨"get function error: ", "del function error: ", "set function error: ", true, notFound, faults⟩
  | .lmdb, _ | .unqlite, _ | .upscaledb, _ =>
    ⟨"get function error: ", "delete function error: ", "set function error: ", false, notFound, faults⟩
  | .memcached, _ =>
    ⟨"Get function error: ", "Delete function error: ", "Set function error: ", false, notFound, faults⟩

structure Connection where
  connected : Bool
  content : Content
  -- Library calls made so far.
  calls : Nat

variable (library : Library)

def notConnected : ErrorValue := makeErrorValue "Not connected"

/-- One library call: its fault if it has one, else what the store answers. -/
def perform {Answer : Type} (connection : Connection) (title : String)
    (answer : Except Text (Answer × Content)) : Except ErrorValue Answer × Connection :=
  if connection.connected then
    let after := { connection with calls := connection.calls + 1 }
    match library.faults connection.calls, answer with
    | some message, _ => (.error ⟨ascii title ++ message, true⟩, after)
    | none, .error message => (.error ⟨ascii title ++ message, true⟩, after)
    | none, .ok (value, content) => (.ok value, { after with content := content })
  else (.error notConnected, connection)

def getInner (key : Text) (connection : Connection) : Except ErrorValue Text × Connection :=
  perform library connection library.getError
    (match connection.content key with
      | some value => .ok (value, connection.content)
      | none => .error library.notFound)

def delInner (key : Text) (connection : Connection) : Except ErrorValue Unit × Connection :=
  perform library connection library.delError
    (if (connection.content key).isSome || library.deletesAbsent then .ok ((), connection.content.erase key)
      else .error library.notFound)

def setInner (key value : Text) (connection : Connection) : Except ErrorValue Unit × Connection :=
  perform library connection library.setError (.ok ((), connection.content.put key value))

def setImpl (key : NDbKValue) (connection : Connection) : Except ErrorValue NDbKValue × Connection :=
  match setInner library key.key.key key.valueString connection with
  | (.error err, connection) => (.error err, connection)
  | (.ok _, connection) => (.ok key, connection)

def getImpl (key : NKey) (connection : Connection) : Except ErrorValue NDbKValue × Connection :=
  match getInner library key.key connection with
  | (.error err, connection) => (.error err, connection)
  | (.ok value, connection) => (.ok ⟨key, .string, value⟩, connection)

/-- A failed delete is passed over. -/
def deleteImpl : List NKey → Connection → List NKey × Connection
  | [], connection => ([], connection)
  | key :: keys, connection =>
    match delInner library key.key connection with
    | (.error _, connection) => deleteImpl keys connection
    | (.ok _, connection) =>
      let (deleted, connection) := deleteImpl keys connection
      (key :: deleted, connection)

def renameImpl (key : NKey) (newKey : Text) (connection : Connection) :
    Except ErrorValue Unit × Connection :=
  match getInner library key.key connection with
  | (.error err, connection) => (.error err, connection)
  | (.ok value, connection) =>
    match delInner library key.key connection with
    | (.error err, connection) => (.error err, connection)
    | (.ok _, connection) => setInner library newKey value connection

/-! ## `CDBConnection` -/

/-- What the client of a connection is told. -/
inductive Notification where
  | keysRemoved (keys : List NKey)
  | keyAdded (key : NDbKValue)
  | keyLoaded (key : NDbKValue)
  | keyRenamed (key : NKey) (newKey : Text)
deriving DecidableEq

structure Answer (Value : Type) where
  result : Except ErrorValue Value
  connection : Connection
  notifications : List Notification

/-- The wrapper of every operation: nothing but an error without a connection, and a notification
only after success. -/
def guarded {Value : Type} (connection : Connection)
    (impl : Connection → Except ErrorValue Value × Connection) (notify : Value → Notification) :
    Answer Value :=
  if connection.connected then
    match impl connection with
    | (.error err, connection) => ⟨.error err, connection, []⟩
    | (.ok value, connection) => ⟨.ok value, connection, [notify value]⟩
  else ⟨.error notConnected, connection, []⟩

def delete (keys : List NKey) (connection : Connection) : Answer (List NKey) :=
  guarded connection
    (fun connection =>
      let (deleted, connection) := deleteImpl library keys connection
      (.ok deleted, connection))
    .keysRemoved

def set (key : NDbKValue) (connection : Connection) : Answer NDbKValue :=
  guarded connection (setImpl library key) .keyAdded

def get (key : NKey) (connection : Connection) : Answer NDbKValue :=
  guarded connection (getImpl library key) .keyLoaded

def rename (key : NKey) (newKey : Text) (connection : Connection) : Answer Unit :=
  guarded connection (renameImpl library key newKey) fun _ => .keyRenamed key newKey

/-! ## Library calls on a live connection -/

section Calls

variable (connection : Connection) (live : connection.connected = true)
include live

theorem getInner_live (key : Text) :
    getInner library key connection =
      match library.faults connection.calls, connection.content key with
      | none, some value => (.ok value, { connection with calls := connection.calls + 1 })
      | some message, _ =>
        (.error ⟨ascii library.getError ++ message, true⟩, { connection with calls := connection.calls + 1 })
      | none, none =>
        (.error ⟨ascii library.getError ++ library.notFound, true⟩,
          { connection with calls := connection.calls + 1 }) := by
  simp only [getInner, perform, live, if_true]
  cases library.faults connection.calls <;> cases connection.content key <;> rfl

theorem setInner_live (key value : Text) :
    setInner library key value connection =
      match library.faults connection.calls with
      | none => (.ok (), { connection with content := connection.content.put key value, calls := connection.calls + 1 })
      | some message =>
        (.error ⟨ascii library.setError ++ message, true⟩, { connection with calls := connection.calls + 1 }) := by
  simp only [setInner, perform, live, if_true]
  cases library.faults connection.calls <;> rfl

theorem delInner_live (key : Text) :
    delInner library key connection =
      match library.faults connection.calls, (connection.content key).isSome || library.deletesAbsent with
      | none, true => (.ok (), { connection with content := connection.content.erase key, calls := connection.calls + 1 })
      | some message, _ =>
        (.error ⟨ascii library.delError ++ message, true⟩, { connection with calls := connection.calls + 1 })
      | none, false =>
        (.error ⟨ascii library.delError ++ library.notFound, true⟩,
          { connection with calls := connection.calls + 1 }) := by
  simp only [delInner, perform, live, if_true]
  cases library.faults connection.calls <;>
    cases (connection.content key).isSome || library.deletesAbsent <;> rfl

end Calls

end FastoNoSQL.Store
