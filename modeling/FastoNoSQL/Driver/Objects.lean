import FastoNoSQL.Driver.Execute
import FastoNoSQL.Redis.Collections
import FastoNoSQL.Redis.Commands
import FastoNoSQL.Rose
import Mathlib.Logic.Function.Basic

set_option autoImplicit false

/-!
# The objects of a request

`FastoObject` of `global/global.cpp` with its observer `RootLocker`, and the
objects that `core/redis/db_connection.cpp` makes of replies.
-/

namespace FastoNoSQL.OutputTree

open Bytes Sds

/-- An object is named by the object it was made for and the number of objects made for the request before it. -/
inductive FastoObject where
  | root (request : Nat)
  | command (parent : FastoObject) (number : Nat) (inputCommand : Text)
  | array (parent : FastoObject) (number : Nat)
  | plain (parent : FastoObject) (number : Nat)
deriving DecidableEq

namespace FastoObject

def parent : FastoObject → Option FastoObject
  | root _ => none
  | command parent _ _ | array parent _ | plain parent _ => some parent

def number : FastoObject → Nat
  | root _ => 0
  | command _ number _ | array _ number | plain _ number => number

def request : FastoObject → Nat
  | root request => request
  | command parent _ _ | array parent _ | plain parent _ => request parent

def isCommand : FastoObject → Bool
  | command _ _ _ => true
  | _ => false

theorem request_eq_of_parent {object parent : FastoObject} (made : object.parent = some parent) :
    object.request = parent.request := by
  cases object with
  | root request => cases made
  | command owner number inputCommand | array owner number | plain owner number =>
      obtain rfl : owner = parent := Option.some.inj made
      rfl

end FastoObject

/-- `common::Value` as objects hold it; the array of a `FastoObjectArray` is filled later. -/
inductive ObjectValue where
  | value (value : Redis.Value)
  | error (text : Text)
  | command (inputCommand : Text)
  | array (elements : List ObjectValue)

-- The `static_cast` and the call of `FastoObjectArray::Append`.
def ObjectValue.append : ObjectValue → ObjectValue → ObjectValue
  | array elements, element => array (elements ++ [element])
  | other, _ => other

/-- A shared pointer to a value: the one an object was made with, a later one, or a copy of a text. -/
inductive ValueRef where
  | own (object : FastoObject)
  | later (n : Nat)
  | copy (text : Text)
deriving DecidableEq

/-! ## Objects and their observer -/

inductive Notification where
  | rootCreated (root : FastoObject)
  | childAdded (child : FastoObject)
  | itemUpdated (item : FastoObject) (newValue : ValueRef)
  | keyAdded (key : Text) (value : ValueRef)
deriving DecidableEq

/-- The objects of the request with an observer, the values that `SetValue` gave, and the values. -/
structure Objects where
  observed : List FastoObject := []
  replaced : FastoObject → Option Nat := fun _ => none
  content : ValueRef → ObjectValue := fun _ => .value .null
  values : Nat := 0

namespace Objects

variable (objects : Objects)

def value (object : FastoObject) : ValueRef :=
  match objects.replaced object with
  | none => .own object
  | some n => .later n

def get : ValueRef → ObjectValue
  | .copy text => .value (.string text)
  | ref => objects.content ref

def make (object : FastoObject) (value : ObjectValue) : Objects :=
  { objects with
    replaced := Function.update objects.replaced object none
    content := Function.update objects.content (.own object) value }

-- `FastoObject::CreateRoot` for a `RootLocker` that is not silent. The observer of the earlier objects is gone.
def createRoot (root : FastoObject) (text : Text) : Objects × List Notification :=
  ({ objects.make root (.value (.string text)) with observed := [root] }, [.rootCreated root])

/-- A new object and `AddChildren` of its parent. -/
def addChildren (child : FastoObject) (value : ObjectValue) : Objects × List Notification :=
  let objects := objects.make child value
  match child.parent with
  | none => (objects, [])
  | some parent =>
    if parent ∈ objects.observed then ({ objects with observed := child :: objects.observed }, [.childAdded child])
    else (objects, [])

def append (array : FastoObject) (value : ObjectValue) : Objects × List Notification :=
  let ref := objects.value array
  ({ objects with content := Function.update objects.content ref ((objects.content ref).append value) }, [])

-- A value that is allocated now.
def allocate (value : ObjectValue) : Objects :=
  { objects with
    content := Function.update objects.content (.later objects.values) value
    values := objects.values + 1 }

def setValue (object : FastoObject) (value : ObjectValue) : Objects × List Notification :=
  let allocated := objects.allocate value
  ({ allocated with replaced := Function.update objects.replaced object (some objects.values) },
    if object ∈ objects.observed then [.itemUpdated object (.later objects.values)] else [])

def keyAdded (key : Text) (value : ObjectValue) : Objects × List Notification :=
  (objects.allocate value, [.keyAdded key (.later objects.values)])

theorem addChildren_content (child : FastoObject) (value : ObjectValue) :
    (objects.addChildren child value).1.content = Function.update objects.content (.own child) value := by
  rw [Objects.addChildren]
  split
  · rfl
  · split <;> rfl

theorem addChildren_replaced (child : FastoObject) (value : ObjectValue) :
    (objects.addChildren child value).1.replaced = Function.update objects.replaced child none := by
  rw [Objects.addChildren]
  split
  · rfl
  · split <;> rfl

theorem observed_addChildren (child : FastoObject) (value : ObjectValue) :
    objects.observed ⊆ (objects.addChildren child value).1.observed := by
  rw [Objects.addChildren]
  split
  · exact List.Subset.refl _
  · split
    · exact List.subset_cons_self _ _
    · exact List.Subset.refl _

theorem own_ne_value {array object : FastoObject} (other : array ≠ object) :
    ValueRef.own object ≠ objects.value array := by
  rw [Objects.value]
  split
  · exact fun same => other (ValueRef.own.inj same).symm
  · exact fun same => by cases same

end Objects

/-! ## What a request does -/

inductive Op where
  | createRoot (root : FastoObject) (text : Text)
  | addChildren (child : FastoObject) (value : ObjectValue)
  | append (array : FastoObject) (value : ObjectValue)
  | keyAdded (key : Text) (value : ObjectValue)

namespace Op

def child? : Op → Option FastoObject
  | addChildren child _ => some child
  | _ => none

def perform (objects : Objects) : Op → Objects × List Notification
  | createRoot root text => objects.createRoot root text
  | addChildren child value => objects.addChildren child value
  | append array value => objects.append array value
  | keyAdded key value => objects.keyAdded key value

end Op

-- The objects that are attached.
def added (ops : List Op) : List FastoObject := ops.filterMap Op.child?

@[simp] theorem added_nil : added [] = [] := rfl

@[simp] theorem added_append (first last : List Op) : added (first ++ last) = added first ++ added last :=
  List.filterMap_append

/-- What a command's handler makes: a child with a value, the children of a reply, or a key. -/
inductive Output where
  | value (value : Redis.Value)
  | reply (reply : Redis.Reply)
  | keyAdded (key : NKey) (value : Redis.Value)

/-- A command that is executed, with what it makes; `synced` tells whether `SendSync` succeeds. -/
structure Execution where
  line : Text
  synced : Bool
  outputs : List Output

def syncRequest : Text := ascii "SYNC"

def handler (input : Text) : Option Redis.Handler := do
  let argv ← sdssplitargslong input
  match dispatch Redis.commands argv with
  | .call holder _ => some holder.func
  | _ => none

mutual

/-- `CliFormatReplyRaw` for an array object; `number` is that of the next object. -/
def cliFormatReplyRawArray (ar : FastoObject) (number : Nat) : Redis.Reply → List Op
  | .nil => [.append ar (.value .null)]
  | .error text => [.append ar (.error text)]
  | .status text | .string text => [.append ar (.value (.string text))]
  | .integer value => [.append ar (.value (.integer value))]
  | .array elements =>
    .addChildren (.array ar number) (.array []) :: formatElements (.array ar number) (number + 1) elements

def formatElements (ar : FastoObject) (number : Nat) : List Redis.Reply → List Op
  | [] => []
  | element :: elements =>
    let ops := cliFormatReplyRawArray ar number element
    ops ++ formatElements ar (number + (added ops).length) elements

end

/-- `CliFormatReplyRaw`; the error that it returns ends the command. -/
def cliFormatReplyRaw (out : FastoObject) (number : Nat) : Redis.Reply → List Op
  | .nil => [.addChildren (.plain out number) (.value .null)]
  | .error _ => []
  | .status text | .string text => [.addChildren (.plain out number) (.value (.string text))]
  | .integer value => [.addChildren (.plain out number) (.value (.integer value))]
  | .array elements =>
    .addChildren (.array out number) (.array []) :: formatElements (.array out number) (number + 1) elements

def Output.ops (out : FastoObject) (number : Nat) : Output → List Op
  | .value result => [.addChildren (.plain out number) (.value result)]
  | .reply read => cliFormatReplyRaw out number read
  | .keyAdded key result => [.keyAdded key.key (.value result)]

-- One thing after the other, the objects numbered on.
def inTurn {A : Type} (ops : Nat → A → List Op) : Nat → List A → List Op
  | _, [] => []
  | number, first :: rest => ops number first ++ inTurn ops (number + (added (ops number first)).length) rest

-- `SlaveMode`, as the handler of `SYNC` and `PSYNC` calls it.
def slaveMode (out : FastoObject) (number : Nat) (execution : Execution) : List Op :=
  if execution.synced then
    .addChildren (.command out number syncRequest) (.command syncRequest) ::
      inTurn (Output.ops (.command out number syncRequest)) (number + 1) execution.outputs
  else []

/-- `CreateCommand` and `Execute` in the loop of `HandleExecuteEvent`. -/
def Execution.ops (root : FastoObject) (number : Nat) (execution : Execution) : List Op :=
  match createCommand execution.line with
  | none => []
  | some input =>
    .addChildren (.command root number input) (.command input) ::
      if handler input = some .sync then slaveMode (.command root number input) (number + 1) execution
      else inTurn (Output.ops (.command root number input)) (number + 1) execution.outputs

/-- An `Execute` request with history that is not silent, with the commands that it executes. -/
structure Request where
  text : Text
  commands : List Execution

def Request.ops (n : Nat) (request : Request) : List Op :=
  .createRoot (.root n) request.text :: inTurn (Execution.ops (.root n)) 1 request.commands

def session (requests : List Request) : List Op :=
  requests.zipIdx.flatMap fun (request, n) => request.ops n

end FastoNoSQL.OutputTree
