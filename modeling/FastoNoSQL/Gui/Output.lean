import FastoNoSQL.Driver.Results

set_option autoImplicit false

/-!
# The output tree

`gui/widgets/output_widget.cpp` over the tree model of
`gui/fasto_common_model.cpp`: the view is built from the notifications of the
driver, in the order in which they were emitted and at any time after that.
-/

namespace FastoNoSQL.OutputTree

open Bytes

/-- What the widget uses of the `common` library, of Qt and of the memory: `TreeModel::findItem`
gives the number of an item, which is 0 for the root. -/
structure Library (Address Name : Type) where
  address : FastoObject → Address
  findItem : Rose Address → Address → Option Nat
  fromString : Text → Name
  trimWhitespace : Text → Text

/-- Objects of one request have their own addresses, and the search finds what there is. -/
structure Library.Lawful {Address Name : Type} (lib : Library Address Name) : Prop where
  address_inj : ∀ first second, first.request = second.request → lib.address first = lib.address second →
    first = second
  found : ∀ pointers pointer n, lib.findItem pointers pointer = some n → pointers.values[n]? = some pointer
  missed : ∀ pointers pointer, lib.findItem pointers pointer = none → pointer ∉ pointers.values

-- The first item with the pointer, and ASCII white space.
def Library.std : Library FastoObject Text where
  address := id
  findItem pointers pointer := pointers.values.idxOf? pointer
  fromString := id
  trimWhitespace text := (((text.dropWhile isspace).reverse).dropWhile isspace).reverse

theorem Library.std_lawful : Library.std.Lawful where
  address_inj _ _ _ same := same
  found pointers pointer n found := by
    obtain ⟨bound, here, -⟩ := List.idxOf?_eq_some_iff.mp found
    rw [List.getElem?_eq_getElem bound, here]
  missed pointers pointer missed := List.idxOf?_eq_none_iff.mp missed

/-- `FastoCommonItem`; the delimiter is the same for all. -/
structure Row (Address : Type) where
  pointer : Address
  key : Text
  readOnly : Bool
  value : ValueRef
deriving DecidableEq

variable {Address Name : Type} (lib : Library Address Name)

def getFirstWordFromLine (input : Text) : Text := input.takeWhile (· ≠ byte ' ')

-- The two parts of `GetKeyValueFromLine`.
def inputCmd (input : Text) : Text := input.takeWhile (· ≠ byte ' ')

def inputArgs (input : Text) : Text := lib.trimWhitespace ((input.dropWhile (· ≠ byte ' ')).drop 1)

def isReadOnly (input : Text) : Bool := inputCmd input = [] || lower (inputCmd input) ≠ ascii "get"

/-! ## The widget -/

abbrev Model (Address : Type) := Rose (Row Address)

section Widget

variable (objects : Objects) (model : Model Address)

def createItem (key : Text) (readOnly : Bool) (item : FastoObject) : Row Address :=
  ⟨lib.address item, key, readOnly, objects.value item⟩

-- `rootCreate`: the old items go with the old root. None when the `CHECK` of `createRootItem` fails.
def rootCreate (root : FastoObject) : Option (Model Address) :=
  match objects.get (objects.value root) with
  | .value (.string text) => some (.leaf ⟨lib.address root, [], true, .copy text⟩)
  | _ => none

-- What both branches of `addChild` do with the parent that they look up.
def insertBelow (parent : FastoObject) (key : Text) (readOnly : Bool) (child : FastoObject) : Model Address :=
  match lib.findItem (model.map Row.pointer) (lib.address parent) with
  | none => model
  | some n => model.insertAt n (.leaf (createItem lib objects key readOnly child))

/-- `addChild`, none when its `CHECK` fails. -/
def addChild : FastoObject → Option (Model Address)
  | .command _ _ _ => some model
  | child =>
    match child.parent with
    | some (.command parent _ inputCommand) =>
      some (insertBelow lib objects model parent (getFirstWordFromLine (inputArgs lib inputCommand))
        (isReadOnly inputCommand) child)
    | some (.array parent number) => some (insertBelow lib objects model (.array parent number) [] true child)
    | _ => none

-- `updateItem`; the root has no valid index.
def updateItem (item : FastoObject) (newValue : ValueRef) : Model Address :=
  match lib.findItem (model.map Row.pointer) (lib.address item) with
  | none | some 0 => model
  | some (n + 1) => model.modifyAt (fun row => { row with value := newValue }) (n + 1)

variable [DecidableEq Name]

-- The first item of a row with the key.
def changeFirst (key : Text) (value : ValueRef) : Model Address → Model Address
  | .nil => .nil
  | .node row children rest =>
    if lib.fromString row.key = lib.fromString key then .node { row with value := value } children rest
    else .node row children (changeFirst key value rest)

-- `FastoCommonModel::changeValue`, on the items below the root.
def changeValue (key : Text) (value : ValueRef) : Model Address → Model Address
  | .nil => .nil
  | .node root items rest => .node root (changeFirst lib key value items) rest

def handle : Notification → Option (Model Address)
  | .rootCreated root => rootCreate lib objects root
  | .childAdded child => addChild lib objects model child
  | .itemUpdated item newValue => some (updateItem lib model item newValue)
  | .keyAdded key value => some (changeValue lib key value model)

end Widget

/-! ## Driver and widget -/

/-- The queue holds what was emitted and not yet delivered. -/
structure System (Address : Type) where
  objects : Objects := {}
  queue : List Notification := []
  model : Model Address := .nil

inductive Event where
  | perform (op : Op)
  | setValue (object : FastoObject) (value : ObjectValue)
  | deliver

def Event.op? : Event → Option Op
  | perform op => some op
  | _ => none

namespace System

variable [DecidableEq Name] (system : System Address)

def emit (result : Objects × List Notification) : System Address :=
  { system with objects := result.1, queue := system.queue ++ result.2 }

/-- None when a `CHECK` fails. -/
def step : Event → Option (System Address)
  | .perform op => some (system.emit (op.perform system.objects))
  | .setValue object value => some (system.emit (system.objects.setValue object value))
  | .deliver =>
    match system.queue with
    | [] => some system
    | note :: queue =>
      (handle lib system.objects system.model note).map fun model => { system with queue := queue, model := model }

def run (events : List Event) : Option (System Address) := events.foldlM (step lib) system

end System

/-! ## No check fails -/

section Checks

-- What the driver emits can be shown.
def Notification.Sound (objects : Objects) : Notification → Prop
  | rootCreated root =>
    (∃ n, root = .root n) ∧ ∃ text, objects.content (.own root) = .value (.string text)
  | childAdded child => child.isCommand = true ∨ (anchor child).isSome = true
  | _ => True

structure System.Sound (system : System Address) : Prop where
  roots : ∀ n, system.objects.replaced (.root n) = none
  notes : ∀ note ∈ system.queue, note.Sound system.objects

def Op.Sound : Op → Prop
  | createRoot root _ => ∃ n, root = .root n
  | addChildren child _ => child.isCommand = true ∨ (anchor child).isSome = true
  | append array _ => ∃ parent number, array = .array parent number
  | keyAdded _ _ => True

def Event.Sound : Event → Prop
  | perform op => op.Sound
  | setValue object _ => ∀ n, object ≠ .root n
  | deliver => True

variable {objects : Objects}

theorem Attaches.sound {before : List FastoObject} {ops : List Op} (attaches : Attaches before ops) :
    ∀ op ∈ ops, op.Sound := by
  induction ops generalizing before with
  | nil => simp
  | cons op ops ih =>
      rw [List.forall_mem_cons]
      cases op with
      | createRoot root text => exact attaches.elim
      | addChildren child value => exact ⟨attaches.2.2.1, ih attaches.2.2.2⟩
      | append array value => exact ⟨attaches.1, ih attaches.2⟩
      | keyAdded key value => exact ⟨trivial, ih attaches⟩

theorem allocate_own (value : ObjectValue) (object : FastoObject) :
    (objects.allocate value).content (.own object) = objects.content (.own object) := by
  have other : ValueRef.own object ≠ .later objects.values := by simp
  simp only [Objects.allocate, Function.update_of_ne other]

theorem ne_root_of_seen {child : FastoObject} (n : Nat)
    (seen : child.isCommand = true ∨ (anchor child).isSome = true) : child ≠ .root n := by
  rintro rfl
  simp [FastoObject.isCommand, anchor] at seen

-- The text of a root lasts until another root is created.
theorem perform_root (op : Op) (sound : op.Sound) (n : Nat) (same : ∀ text, op ≠ .createRoot (.root n) text) :
    (op.perform objects).1.content (.own (.root n)) = objects.content (.own (.root n)) := by
  cases op with
  | createRoot root text =>
      have other : ValueRef.own (.root n) ≠ .own root := by
        intro equal
        exact same text (by rw [ValueRef.own.inj equal])
      exact Function.update_of_ne other _ _
  | addChildren child value =>
      have other : ValueRef.own (.root n) ≠ .own child :=
        fun equal => ne_root_of_seen n sound (ValueRef.own.inj equal).symm
      show (objects.addChildren child value).1.content _ = _
      rw [Objects.addChildren_content, Function.update_of_ne other]
  | append array value =>
      obtain ⟨parent, number, rfl⟩ := sound
      exact Function.update_of_ne (Objects.own_ne_value objects (by simp)) _ _
  | keyAdded key value => exact allocate_own value _

theorem perform_replaced (op : Op) (n : Nat) (old : objects.replaced (.root n) = none) :
    (op.perform objects).1.replaced (.root n) = none := by
  have updated (object : FastoObject) : Function.update objects.replaced object none (.root n) = none := by
    rw [Function.update_apply]
    split
    · rfl
    · exact old
  cases op with
  | createRoot root text => exact updated root
  | addChildren child value =>
      show (objects.addChildren child value).1.replaced _ = _
      rw [Objects.addChildren_replaced, updated]
  | _ => exact old

theorem addChild_isSome (model : Model Address) (child : FastoObject)
    (seen : child.isCommand = true ∨ (anchor child).isSome = true) :
    (addChild lib objects model child).isSome = true := by
  cases child with
  | command parent number inputCommand => rfl
  | root n => simp [FastoObject.isCommand, anchor] at seen
  | array parent number | plain parent number =>
      cases parent with
      | command | array => rfl
      | _ => simp [FastoObject.isCommand, anchor] at seen

variable [DecidableEq Name] {system : System Address}

theorem emit_sound {result : Objects × List Notification} (roots : ∀ n, result.1.replaced (.root n) = none)
    (old : ∀ n, (∃ text, system.objects.content (.own (.root n)) = .value (.string text)) →
      ∃ text, result.1.content (.own (.root n)) = .value (.string text))
    (new : ∀ note ∈ result.2, note.Sound result.1) (sound : system.Sound) : (system.emit result).Sound where
  roots := roots
  notes note member := by
    rcases List.mem_append.mp member with before | now
    · have held := sound.notes note before
      cases note with
      | rootCreated root =>
          obtain ⟨⟨n, rfl⟩, text⟩ := held
          exact ⟨⟨n, rfl⟩, old n text⟩
      | _ => exact held
    · exact new note now

theorem perform_notes (op : Op) (sound : op.Sound) :
    ∀ note ∈ (op.perform objects).2, note.Sound (op.perform objects).1 := by
  intro note member
  cases op with
  | createRoot root text =>
      obtain rfl : note = .rootCreated root := by simpa [Op.perform, Objects.createRoot] using member
      exact ⟨sound, text, Function.update_self ..⟩
  | addChildren child value =>
      have emitted : note = .childAdded child := by
        rw [Op.perform, Objects.addChildren] at member
        split at member
        · simp at member
        · split at member <;> simp at member
          exact member
      subst emitted
      exact sound
  | append array value => simp [Op.perform, Objects.append] at member
  | keyAdded key value =>
      obtain rfl : note = .keyAdded key (.later objects.values) := by
        simpa [Op.perform, Objects.keyAdded] using member
      trivial

theorem step_sound (event : Event) (allowed : event.Sound) (sound : system.Sound) :
    ∃ next, system.step lib event = some next ∧ next.Sound := by
  cases event with
  | perform op =>
      refine ⟨_, rfl, emit_sound (fun n => perform_replaced op n (sound.roots n)) ?_ (perform_notes op allowed)
        sound⟩
      intro n ⟨text, held⟩
      by_cases same : ∃ text, op = .createRoot (.root n) text
      · obtain ⟨text, rfl⟩ := same
        exact ⟨text, Function.update_self ..⟩
      · exact ⟨text, by rw [perform_root op allowed n fun text equal => same ⟨text, equal⟩, held]⟩
  | setValue object value =>
      refine ⟨_, rfl, emit_sound ?_ ?_ ?_ sound⟩
      · intro n
        exact (Function.update_of_ne (Ne.symm (allowed n)) _ _).trans (sound.roots n)
      · intro n ⟨text, held⟩
        exact ⟨text, (allocate_own value _).trans held⟩
      · intro note member
        rw [Objects.setValue] at member
        split at member <;> simp at member
        rw [member]
        trivial
  | deliver =>
      rw [System.step]
      cases queued : system.queue with
      | nil => exact ⟨system, rfl, sound⟩
      | cons note queue =>
          have held := sound.notes
          rw [queued, List.forall_mem_cons] at held
          have handled : (handle lib system.objects system.model note).isSome = true := by
            cases note with
            | rootCreated root =>
                obtain ⟨⟨⟨n, rfl⟩, text, value⟩, -⟩ := held
                simp [handle, rootCreate, Objects.value, sound.roots, Objects.get, value]
            | childAdded child => exact addChild_isSome lib system.model child held.1
            | _ => rfl
          obtain ⟨model, shown⟩ := Option.isSome_iff_exists.mp handled
          refine ⟨{ system with queue := queue, model := model }, ?_, sound.roots, held.2⟩
          simp only [shown, Option.map_some]

theorem run_sound (events : List Event) (allowed : ∀ event ∈ events, event.Sound) (sound : system.Sound) :
    ∃ next, system.run lib events = some next ∧ next.Sound := by
  induction events generalizing system with
  | nil => exact ⟨system, rfl, sound⟩
  | cons event events ih =>
      rw [List.forall_mem_cons] at allowed
      obtain ⟨middle, step, kept⟩ := step_sound lib event allowed.1 sound
      obtain ⟨next, rest, kept⟩ := ih allowed.2 kept
      refine ⟨next, ?_, kept⟩
      rw [System.run, List.foldlM_cons, step]
      exact rest

end Checks

end FastoNoSQL.OutputTree
