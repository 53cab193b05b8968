import Mathlib.Data.List.InsertIdx
import FastoNoSQL.Runs
import FastoNoSQL.Types

set_option autoImplicit false

/-!
# The key editor

`gui/dialogs/dbkey_dialog.cpp`: one control for each kind of value, of which one
is visible, and the value that is read back from them.
-/

namespace FastoNoSQL.KeyDialog

open Bytes

-- `SupportedTypesFromType`
def supportedTypesFromType : ConnectionType → List ValueType
  | .redis => [.boolean, .integer, .uinteger, .double, .string, .array, .set, .zset, .hash]
  | .memcached => [.boolean, .integer, .uinteger, .double, .string]
  | .ssdb => [.boolean, .integer, .uinteger, .double, .string, .array, .set, .zset, .hash]
  | .leveldb => [.boolean, .integer, .uinteger, .double, .string]
  | .rocksdb => [.boolean, .integer, .uinteger, .double, .string]
  | .unqlite => [.boolean, .integer, .uinteger, .double, .string]
  | .lmdb => [.boolean, .integer, .uinteger, .double, .string]
  | .upscaledb => [.boolean, .integer, .uinteger, .double, .string]

inductive NumberKind where
  | integer
  | uinteger
  | double
deriving DecidableEq

/-- `common::Value` with the texts of its elements; a container is what was inserted into it, in order. -/
inductive Value where
  | boolean (value : Bool)
  | number (kind : NumberKind) (text : Text)
  | string (text : Text)
  | array (elements : List Text)
  | set (elements : List Text)
  | zset (entries : List (Text × Text))
  | hash (entries : List (Text × Text))
deriving DecidableEq

namespace Value

def type : Value → ValueType
  | boolean _ => .boolean
  | number .integer _ => .integer
  | number .uinteger _ => .uinteger
  | number .double _ => .double
  | string _ => .string
  | array _ => .array
  | set _ => .set
  | zset _ => .zset
  | hash _ => .hash

-- Only a string converts.
def getAsString : Value → Option Text
  | string text => some text
  | _ => none

end Value

inductive Control where
  | valueEdit
  | boolValueEdit
  | valueListEdit
  | valueTableEdit
deriving DecidableEq

/-- The combo box of the types and the controls; a cell of the table can be absent. -/
structure Dialog where
  types : List ValueType
  currentIndex : Nat
  visible : Control
  valueEdit : Text
  boolValueEdit : Int
  valueListEdit : List Text
  valueTableEdit : List (Option Text × Option Text)

namespace Dialog

variable (dialog : Dialog)

def type : ValueType := dialog.types.getD dialog.currentIndex .null

def controlOf : ValueType → Control
  | .array => .valueListEdit
  | .set => .valueListEdit
  | .zset => .valueTableEdit
  | .hash => .valueTableEdit
  | .boolean => .boolValueEdit
  | _ => .valueEdit

-- `clear` of the table keeps its rows; `boolValueEdit_` is not touched.
def typeChanged (index : Nat) : Dialog :=
  { dialog with
    visible := controlOf (dialog.types.getD index .null)
    valueEdit := []
    valueTableEdit := dialog.valueTableEdit.map fun _ => (none, none)
    valueListEdit := [] }

-- `currentIndexChanged` is emitted for another index only.
def setCurrentIndex (index : Nat) : Dialog :=
  if index = dialog.currentIndex ∨ dialog.types.length ≤ index then dialog
  else typeChanged { dialog with currentIndex := index } index

def insertRow (first second : Text) : Dialog :=
  if first = [] ∨ second = [] then dialog
  else { dialog with valueTableEdit := (some first, some second) :: dialog.valueTableEdit }

-- An item that is constructed with its list is in it already when it is added.
def insertText (text : Text) : Dialog :=
  if text = [] then dialog else { dialog with valueListEdit := dialog.valueListEdit ++ [text] }

-- The texts are those of an accepted input dialog. The buttons are visible with the list and the table only.
def addItem (first second : Text) : Dialog :=
  match dialog.visible with
  | .valueListEdit => dialog.insertText first
  | .valueTableEdit => dialog.insertRow first second
  | _ => dialog

/-- The current row is negative when there is none. -/
def removeItem (row : Int) : Dialog :=
  if row < 0 then dialog
  else
    match dialog.visible with
    | .valueListEdit => { dialog with valueListEdit := dialog.valueListEdit.eraseIdx row.toNat }
    | .valueTableEdit => { dialog with valueTableEdit := dialog.valueTableEdit.eraseIdx row.toNat }
    | _ => dialog

def syncControls : Value → Dialog
  | .array elements => elements.foldl insertText dialog
  | .set elements => elements.foldl insertText dialog
  | .zset entries => entries.foldl (fun dialog entry => dialog.insertRow entry.1 entry.2) dialog
  | .hash entries => entries.foldl (fun dialog entry => dialog.insertRow entry.1 entry.2) dialog
  | .boolean value => { dialog with boolValueEdit := if value then 0 else 1 }
  | value =>
    match value.getAsString with
    | some text => { dialog with valueEdit := text }
    | none => dialog

end Dialog

-- The last index at which the type stands.
def indexOfType (types : List ValueType) (type : ValueType) : Nat :=
  types.zipIdx.foldl (fun index entry => if type = entry.1 then entry.2 else index) 0

-- The constructor, without a value for a new key.
def dbKeyDialog (types : List ValueType) (value : Option Value) : Dialog :=
  let created : Dialog := ⟨types, 0, .valueEdit, [], 0, [], []⟩
  let dialog := created.setCurrentIndex (indexOfType types ((value.map Value.type).getD .string))
  match value with
  | some value => dialog.syncControls value
  | none => dialog

inductive Outcome where
  | refused
  -- The text of a null item is read.
  | absentCell
  | accepted (value : Value)
deriving DecidableEq

def readRows : List (Option Text × Option Text) → Option (List (Text × Text))
  | [] => some []
  | (some first, some second) :: rows => (readRows rows).map ((first, second) :: ·)
  | _ :: _ => none

namespace Dialog

variable (dialog : Dialog)

def itemOfRows (create : List (Text × Text) → Value) : Outcome :=
  if dialog.valueTableEdit = [] then .refused
  else
    match readRows dialog.valueTableEdit with
    | some entries => .accepted (create entries)
    | none => .absentCell

def itemOfList (create : List Text → Value) : Outcome :=
  if dialog.valueListEdit = [] then .refused else .accepted (create dialog.valueListEdit)

def item : Outcome :=
  match dialog.type with
  | .array => dialog.itemOfList .array
  | .set => dialog.itemOfList .set
  | .zset => dialog.itemOfRows .zset
  | .hash => dialog.itemOfRows .hash
  | .boolean => if dialog.boolValueEdit = -1 then .refused else .accepted (.boolean (dialog.boolValueEdit = 0))
  | _ => if dialog.valueEdit = [] then .refused else .accepted (.string dialog.valueEdit)

def validateAndApply (key : Text) : Outcome := if key = [] then .refused else dialog.item

end Dialog

/-! ## What is done with the dialog -/

inductive Event where
  | typeChanged (index : Nat)
  | addItem (first second : Text)
  | removeItem (row : Int)

def step (dialog : Dialog) : Event → Dialog
  | .typeChanged index => dialog.setCurrentIndex index
  | .addItem first second => dialog.addItem first second
  | .removeItem row => dialog.removeItem row

/-! ## What it should return -/

/-- The elements are the entries of the visible control. -/
def Dialog.Shows (dialog : Dialog) : Value → Prop
  | .boolean value => dialog.visible = .boolValueEdit ∧ dialog.boolValueEdit = if value then 0 else 1
  | .number _ text => dialog.visible = .valueEdit ∧ dialog.valueEdit = text
  | .string text => dialog.visible = .valueEdit ∧ dialog.valueEdit = text
  | .array elements => dialog.visible = .valueListEdit ∧ dialog.valueListEdit = elements
  | .set elements => dialog.visible = .valueListEdit ∧ dialog.valueListEdit = elements
  | .zset entries => dialog.visible = .valueTableEdit ∧
    dialog.valueTableEdit = entries.map fun entry => (some entry.1, some entry.2)
  | .hash entries => dialog.visible = .valueTableEdit ∧
    dialog.valueTableEdit = entries.map fun entry => (some entry.1, some entry.2)

namespace Value

def TextsNonempty : Value → Prop
  | boolean _ => True
  | number _ text => text ≠ []
  | string text => text ≠ []
  | array elements => ∀ element ∈ elements, element ≠ []
  | set elements => ∀ element ∈ elements, element ≠ []
  | zset entries => ∀ entry ∈ entries, entry.1 ≠ [] ∧ entry.2 ≠ []
  | hash entries => ∀ entry ∈ entries, entry.1 ≠ [] ∧ entry.2 ≠ []

def IsEmpty : Value → Prop
  | array elements => elements = []
  | set elements => elements = []
  | zset entries => entries = []
  | hash entries => entries = []
  | _ => False

-- The same elements, of an array in the same order.
def SameElements : Value → Value → Prop
  | set elements, set elements' => elements.Perm elements'
  | zset entries, zset entries' => entries.Perm entries'
  | hash entries, hash entries' => entries.Perm entries'
  | value, value' => value = value'

end Value

structure Returns (opened : Option Value) (events : List Event) (dialog : Dialog) (outcome : Outcome) : Prop where
  cells : outcome ≠ .absentCell
  shown : ∀ value, outcome = .accepted value → value.type = dialog.type ∧ dialog.Shows value
  unchanged : events = [] → ∀ value ∈ opened, ¬ value.IsEmpty →
    ∃ returned, outcome = .accepted returned ∧ returned.SameElements value

/-! ## Rows that are left over -/

def leftoverAfter (dialog : Dialog) (stale : Nat) : Event → Nat
  | .typeChanged index =>
    if index = dialog.currentIndex ∨ dialog.types.length ≤ index then stale else dialog.valueTableEdit.length
  | .addItem _ _ => stale
  | .removeItem row =>
    if dialog.visible = .valueTableEdit ∧ dialog.valueTableEdit.length - stale ≤ row.toNat ∧
      0 ≤ row ∧ row < dialog.valueTableEdit.length then stale - 1
    else stale

-- How many rows of the table are from before the last change of the type.
def leftover : Dialog → Nat → List Event → Nat
  | _, stale, [] => stale
  | dialog, stale, event :: events => leftover (step dialog event) (leftoverAfter dialog stale event) events

def Event.changes (types : List ValueType) : Event → Bool
  | typeChanged index => decide (0 < index ∧ index < types.length)
  | _ => false

def shownRow (entry : Text × Text) : Option Text × Option Text := (some entry.1, some entry.2)

/-- What the handlers keep: the rows left over are the last ones, and a dialog that was opened on a boolean
shows the wrong control until the type is changed. -/
structure Sound (stale : Nat) (hidden : Bool) (dialog : Dialog) : Prop where
  first : dialog.types[0]? = some .boolean
  index : dialog.currentIndex < dialog.types.length
  control : dialog.visible = if hidden then .valueEdit else Dialog.controlOf dialog.type
  untouched : hidden = true → dialog.currentIndex = 0
  text : dialog.valueEdit ≠ [] → dialog.type = .string
  rows : ∃ fresh : List (Text × Text), dialog.valueTableEdit = fresh.map shownRow ++ List.replicate stale (none, none)
  choice : dialog.boolValueEdit = 0 ∨ dialog.boolValueEdit = 1

-- Erasing a row of the table erases one that was read in or one that is left over.
theorem eraseIdx_rows (fresh : List (Text × Text)) (stale row : Nat) :
    ∃ fresh' : List (Text × Text),
      (fresh.map shownRow ++ List.replicate stale (none, none)).eraseIdx row = fresh'.map shownRow ++
        List.replicate (if fresh.length ≤ row ∧ row < fresh.length + stale then stale - 1 else stale) (none, none) := by
  by_cases within : row < fresh.length
  · refine ⟨fresh.eraseIdx row, ?_⟩
    rw [List.eraseIdx_append_of_lt_length (by simpa using within), List.eraseIdx_map, if_neg (by omega)]
  · refine ⟨fresh, ?_⟩
    rw [List.eraseIdx_append_of_length_le (by simpa using Nat.le_of_not_lt within), List.eraseIdx_replicate,
      List.length_map]
    by_cases below : row - fresh.length < stale
    · rw [if_pos below, if_pos (by omega)]
    · rw [if_neg below, if_neg (by omega)]

section Steps

variable {stale : Nat} {hidden : Bool} {dialog : Dialog} (sound : Sound stale hidden dialog)
include sound

theorem sound_typeChanged (index : Nat) :
    Sound (leftoverAfter dialog stale (.typeChanged index)) (hidden && !Event.changes dialog.types (.typeChanged index))
      (step dialog (.typeChanged index)) := by
  rw [step, Dialog.setCurrentIndex, leftoverAfter]
  by_cases same : index = dialog.currentIndex ∨ dialog.types.length ≤ index
  · rw [if_pos same, if_pos same]
    have kept : (hidden && !Event.changes dialog.types (.typeChanged index)) = hidden := by
      cases hidden with
      | false => rfl
      | true =>
          have start := sound.untouched rfl
          have idle : ¬ (0 < index ∧ index < dialog.types.length) := by omega
          simp [Event.changes, idle]
    rw [kept]
    exact sound
  · rw [if_neg same, if_neg same]
    have index' : index < dialog.types.length := by omega
    have changed : (hidden && !Event.changes dialog.types (.typeChanged index)) = false := by
      cases hidden with
      | false => rfl
      | true =>
          have start := sound.untouched rfl
          have moves : 0 < index ∧ index < dialog.types.length := by omega
          simp [Event.changes, moves]
    rw [changed]
    exact
      { first := sound.first
        index := index'
        control := rfl
        untouched := nofun
        text := fun nonempty => absurd rfl nonempty
        rows := ⟨[], by simp [Dialog.typeChanged, List.map_const']⟩
        choice := sound.choice }

theorem sound_of_entries (list : List Text) (table : List (Option Text × Option Text)) (stale' : Nat)
    (rows : ∃ fresh : List (Text × Text), table = fresh.map shownRow ++ List.replicate stale' (none, none)) :
    Sound stale' hidden { dialog with valueListEdit := list, valueTableEdit := table } :=
  ⟨sound.first, sound.index, sound.control, sound.untouched, sound.text, rows, sound.choice⟩

theorem sound_addItem (first second : Text) : Sound stale hidden (step dialog (.addItem first second)) := by
  rw [step, Dialog.addItem]
  split
  · rw [Dialog.insertText]
    split
    · exact sound
    · exact sound_of_entries sound _ _ stale sound.rows
  · rw [Dialog.insertRow]
    split
    · exact sound
    · obtain ⟨fresh, rows⟩ := sound.rows
      refine sound_of_entries sound _ _ stale ⟨(first, second) :: fresh, ?_⟩
      rw [rows]
      rfl
  · exact sound

theorem sound_removeItem (row : Int) :
    Sound (leftoverAfter dialog stale (.removeItem row)) hidden (step dialog (.removeItem row)) := by
  rw [step, Dialog.removeItem, leftoverAfter]
  by_cases negative : row < 0
  · rw [if_pos negative, if_neg (by omega)]
    exact sound
  rw [if_neg negative]
  generalize counted : (if dialog.visible = .valueTableEdit ∧ dialog.valueTableEdit.length - stale ≤ row.toNat ∧
    0 ≤ row ∧ row < dialog.valueTableEdit.length then stale - 1 else stale) = stale'
  split
  next visible =>
    rw [if_neg (by simp [visible])] at counted
    exact sound_of_entries sound _ _ stale' (counted ▸ sound.rows)
  next visible =>
    obtain ⟨fresh, rows⟩ := sound.rows
    have length : dialog.valueTableEdit.length = fresh.length + stale := by simp [rows]
    obtain ⟨fresh', erased⟩ := eraseIdx_rows fresh stale row.toNat
    have counts :
        (if fresh.length ≤ row.toNat ∧ row.toNat < fresh.length + stale then stale - 1 else stale) = stale' := by
      rw [← counted, length]
      simp only [visible, true_and]
      by_cases last : fresh.length ≤ row.toNat ∧ row.toNat < fresh.length + stale
      · rw [if_pos last, if_pos (by omega)]
      · rw [if_neg last, if_neg (by omega)]
    rw [counts] at erased
    exact sound_of_entries sound _ _ stale' ⟨fresh', by rw [rows, erased]⟩
  next _ other =>
    rw [if_neg fun visible => other visible.1] at counted
    exact counted ▸ sound

end Steps

@[simp] theorem step_types (dialog : Dialog) (event : Event) : (step dialog event).types = dialog.types := by
  cases event with
  | typeChanged index =>
      rw [step, Dialog.setCurrentIndex]
      split <;> rfl
  | addItem first second =>
      rw [step, Dialog.addItem]
      split
      · rw [Dialog.insertText]
        split <;> rfl
      · rw [Dialog.insertRow]
        split <;> rfl
      · rfl
  | removeItem row =>
      rw [step, Dialog.removeItem]
      split
      · rfl
      · split <;> rfl

theorem sound_step {stale : Nat} {hidden : Bool} {dialog : Dialog} (sound : Sound stale hidden dialog) (event : Event) :
    Sound (leftoverAfter dialog stale event) (hidden && !event.changes dialog.types) (step dialog event) := by
  cases event with
  | typeChanged index => exact sound_typeChanged sound index
  | addItem first second =>
      simpa [Event.changes, leftoverAfter] using sound_addItem sound first second
  | removeItem row =>
      simpa [Event.changes] using sound_removeItem sound row

theorem sound_run {stale : Nat} {hidden : Bool} {dialog : Dialog} (sound : Sound stale hidden dialog)
    (events : List Event) :
    Sound (leftover dialog stale events) (hidden && !events.any (Event.changes dialog.types))
      (Runs.run step dialog events) := by
  induction events generalizing stale hidden dialog with
  | nil => simpa [leftover] using sound
  | cons event events ih =>
      have rest := ih (sound_step sound event)
      rw [step_types, Bool.and_assoc, ← Bool.not_or] at rest
      exact rest

/-! ## The dialog that is opened -/

theorem types_first (type : ConnectionType) : (supportedTypesFromType type)[0]? = some .boolean := by
  cases type <;> rfl

theorem indexOfType_supported (type : ConnectionType) : ∀ kind ∈ supportedTypesFromType type,
    indexOfType (supportedTypesFromType type) kind < (supportedTypesFromType type).length ∧
      (supportedTypesFromType type).getD (indexOfType (supportedTypesFromType type) kind) .null = kind ∧
      (indexOfType (supportedTypesFromType type) kind = 0 ↔ kind = .boolean) := by
  cases type <;> decide

theorem string_supported (type : ConnectionType) : .string ∈ supportedTypesFromType type := by
  cases type <;> decide

namespace Value

def line : Value → Text
  | string text => text
  | _ => []

def elements : Value → List Text
  | array elements => elements
  | set elements => elements
  | _ => []

def entries : Value → List (Text × Text)
  | zset entries => entries
  | hash entries => entries
  | _ => []

def choice : Value → Int
  | boolean value => if value then 0 else 1
  | _ => 0

end Value

theorem foldl_insertText (dialog : Dialog) (elements : List Text) (texts : ∀ element ∈ elements, element ≠ []) :
    elements.foldl Dialog.insertText dialog = { dialog with valueListEdit := dialog.valueListEdit ++ elements } := by
  induction elements generalizing dialog with
  | nil => simp
  | cons element elements ih =>
      have first : element ≠ [] := texts element (by simp)
      rw [List.foldl_cons, ih _ fun other member => texts other (by simp [member]), Dialog.insertText, if_neg first]
      simp

theorem foldl_insertRow (dialog : Dialog) (entries : List (Text × Text))
    (texts : ∀ entry ∈ entries, entry.1 ≠ [] ∧ entry.2 ≠ []) :
    entries.foldl (fun dialog entry => dialog.insertRow entry.1 entry.2) dialog =
      { dialog with valueTableEdit := entries.reverse.map shownRow ++ dialog.valueTableEdit } := by
  induction entries generalizing dialog with
  | nil => simp
  | cons entry entries ih =>
      have first : ¬ (entry.1 = [] ∨ entry.2 = []) := by simpa using texts entry (by simp)
      rw [List.foldl_cons, ih _ fun other member => texts other (by simp [member]), Dialog.insertRow, if_neg first]
      simp [shownRow]

/-- The controls of a dialog that is opened on a value. -/
def opened (types : List ValueType) (value : Value) : Dialog where
  types := types
  currentIndex := indexOfType types value.type
  visible := if value.type = .boolean then .valueEdit else Dialog.controlOf value.type
  valueEdit := value.line
  boolValueEdit := value.choice
  valueListEdit := value.elements
  valueTableEdit := value.entries.reverse.map shownRow

theorem setCurrentIndex_first (type : ConnectionType) (kind : ValueType)
    (supported : kind ∈ supportedTypesFromType type) :
    Dialog.setCurrentIndex ⟨supportedTypesFromType type, 0, .valueEdit, [], 0, [], []⟩
        (indexOfType (supportedTypesFromType type) kind) =
      ⟨supportedTypesFromType type, indexOfType (supportedTypesFromType type) kind,
        if kind = .boolean then .valueEdit else Dialog.controlOf kind, [], 0, [], []⟩ := by
  obtain ⟨inside, found, start⟩ := indexOfType_supported type kind supported
  rw [Dialog.setCurrentIndex]
  by_cases boolean : kind = .boolean
  · rw [if_pos (Or.inl (start.mpr boolean)), start.mpr boolean, if_pos boolean]
  · have moves := mt start.mp boolean
    rw [if_neg (by simp only; omega), if_neg boolean, Dialog.typeChanged, found]
    rfl

theorem dbKeyDialog_value (type : ConnectionType) (value : Value) (supported : value.type ∈ supportedTypesFromType type)
    (texts : value.TextsNonempty) :
    dbKeyDialog (supportedTypesFromType type) (some value) = opened (supportedTypesFromType type) value := by
  rw [dbKeyDialog, Option.map_some, Option.getD_some, setCurrentIndex_first type value.type supported, opened]
  cases value with
  | boolean value => rfl
  | number kind text => rfl
  | string text => rfl
  | array elements => exact foldl_insertText _ elements texts
  | set elements => exact foldl_insertText _ elements texts
  | zset entries =>
      refine (foldl_insertRow _ entries texts).trans ?_
      rw [List.append_nil]
      rfl
  | hash entries =>
      refine (foldl_insertRow _ entries texts).trans ?_
      rw [List.append_nil]
      rfl

-- A new key starts as a string without text.
theorem dbKeyDialog_none (type : ConnectionType) :
    dbKeyDialog (supportedTypesFromType type) none = opened (supportedTypesFromType type) (.string []) := by
  rw [dbKeyDialog, Option.map_none, Option.getD_none, setCurrentIndex_first type .string (string_supported type)]
  rfl

theorem sound_opened (type : ConnectionType) (value : Value) (supported : value.type ∈ supportedTypesFromType type) :
    Sound 0 (value.type = .boolean) (opened (supportedTypesFromType type) value) := by
  obtain ⟨inside, found, start⟩ := indexOfType_supported type value.type supported
  have selected : (opened (supportedTypesFromType type) value).type = value.type := found
  exact
    { first := types_first type
      index := inside
      control := by
        rw [selected]
        simp only [opened, decide_eq_true_eq]
      untouched := fun boolean => start.mpr (of_decide_eq_true boolean)
      text := fun nonempty => by
        rw [selected]
        cases value with
        | string text => rfl
        | _ => exact absurd rfl nonempty
      rows := ⟨value.entries.reverse, (List.append_nil _).symm⟩
      choice := by
        cases value with
        | boolean value => cases value <;> simp [opened, Value.choice]
        | _ => exact Or.inl rfl }

/-! ## What is read back -/

theorem readRows_append (fresh : List (Text × Text)) (rows : List (Option Text × Option Text)) :
    readRows (fresh.map shownRow ++ rows) = (readRows rows).map (fresh ++ ·) := by
  induction fresh with
  | nil => simp
  | cons entry fresh ih =>
      rw [List.map_cons, List.cons_append, shownRow, readRows, ih, Option.map_map]
      rfl

section Results

variable {stale : Nat} {hidden : Bool} {dialog : Dialog} (sound : Sound stale hidden dialog)
include sound

theorem itemOfRows_of_sound (create : List (Text × Text) → Value) :
    (stale ≠ 0 ∧ dialog.itemOfRows create = .absentCell) ∨
      (stale = 0 ∧ (dialog.itemOfRows create = .refused ∨
        ∃ entries, dialog.itemOfRows create = .accepted (create entries) ∧
          dialog.valueTableEdit = entries.map shownRow)) := by
  obtain ⟨fresh, rows⟩ := sound.rows
  rw [Dialog.itemOfRows]
  cases stale with
  | zero =>
      refine Or.inr ⟨rfl, ?_⟩
      split
      · exact Or.inl rfl
      · have read : readRows dialog.valueTableEdit = some fresh := by
          rw [rows, readRows_append]
          simp [readRows]
        rw [read]
        exact Or.inr ⟨fresh, rfl, by simpa using rows⟩
  | succ stale =>
      have nonempty : dialog.valueTableEdit ≠ [] := by simp [rows, List.replicate_succ]
      have read : readRows dialog.valueTableEdit = none := by
        rw [rows, readRows_append, List.replicate_succ]
        rfl
      rw [if_neg nonempty, read]
      exact Or.inl ⟨Nat.succ_ne_zero stale, rfl⟩

theorem hidden_boolean (isHidden : hidden = true) : dialog.type = .boolean := by
  have start := sound.untouched isHidden
  rw [Dialog.type, start, List.getD_eq_getElem?_getD, sound.first]
  rfl

omit sound in
theorem list_shown (create : List Text → Value) (own : dialog.item = dialog.itemOfList create)
    (kind : ∀ elements, (create elements).type = dialog.type)
    (shows : ∀ elements, dialog.valueListEdit = elements → dialog.Shows (create elements)) :
    dialog.item ≠ .absentCell ∧
      ∀ value, dialog.item = .accepted value → value.type = dialog.type ∧ dialog.Shows value := by
  rw [own, Dialog.itemOfList]
  split
  · exact ⟨nofun, nofun⟩
  · refine ⟨nofun, ?_⟩
    rintro _ ⟨⟩
    exact ⟨kind _, shows _ rfl⟩

theorem table_shown_iff (create : List (Text × Text) → Value) (own : dialog.item = dialog.itemOfRows create)
    (kind : ∀ entries, (create entries).type = dialog.type)
    (shows : ∀ entries, dialog.valueTableEdit = entries.map shownRow → dialog.Shows (create entries)) :
    (dialog.item ≠ .absentCell ∧
      ∀ value, dialog.item = .accepted value → value.type = dialog.type ∧ dialog.Shows value) ↔ stale = 0 := by
  rw [own]
  rcases itemOfRows_of_sound sound create with ⟨left, absent⟩ | ⟨clean, refused | ⟨entries, accepted, rows⟩⟩
  · exact iff_of_false (fun returns => returns.1 absent) left
  · exact iff_of_true (by simp [refused]) clean
  · refine iff_of_true ⟨by simp [accepted], ?_⟩ clean
    intro value read
    rw [accepted] at read
    obtain rfl := Outcome.accepted.inj read
    exact ⟨kind entries, shows entries rows⟩

theorem text_shown
    (own : dialog.item = if dialog.valueEdit = [] then .refused else .accepted (.string dialog.valueEdit))
    (visible : dialog.visible = .valueEdit) :
    dialog.item ≠ .absentCell ∧
      ∀ value, dialog.item = .accepted value → value.type = dialog.type ∧ dialog.Shows value := by
  rw [own]
  split
  · exact ⟨nofun, nofun⟩
  next nonempty =>
    refine ⟨nofun, ?_⟩
    rintro _ ⟨⟩
    exact ⟨(sound.text nonempty).symm, visible, rfl⟩

-- What is read back is what is shown, unless rows are left over or the wrong control is visible.
theorem item_shows_iff :
    (dialog.item ≠ .absentCell ∧ ∀ value, dialog.item = .accepted value →
      value.type = dialog.type ∧ dialog.Shows value) ↔
      (Dialog.controlOf dialog.type = .valueTableEdit → stale = 0) ∧ hidden = false := by
  have control := sound.control
  have chosen : dialog.boolValueEdit ≠ -1 := by
    rcases sound.choice with choice | choice <;> simp [choice]
  cases isHidden : hidden with
  | true =>
      have boolean := hidden_boolean sound isHidden
      rw [isHidden, if_pos rfl] at control
      refine iff_of_false ?_ (by simp)
      intro ⟨_, shown⟩
      have read : dialog.item = .accepted (.boolean (dialog.boolValueEdit = 0)) := by
        rw [Dialog.item, boolean]
        exact if_neg chosen
      have visible := (shown _ read).2.1
      rw [control] at visible
      cases visible
  | false =>
      rw [isHidden, if_neg Bool.false_ne_true] at control
      simp only [and_true]
      cases kind : dialog.type with
      | array =>
          rw [kind] at control
          refine iff_of_true ?_ nofun
          have shown := list_shown .array (by rw [Dialog.item, kind]) (fun _ => kind.symm) fun _ same => ⟨control, same⟩
          rwa [kind] at shown
      | set =>
          rw [kind] at control
          refine iff_of_true ?_ nofun
          have shown := list_shown .set (by rw [Dialog.item, kind]) (fun _ => kind.symm) fun _ same => ⟨control, same⟩
          rwa [kind] at shown
      | zset =>
          rw [kind] at control
          have shown := table_shown_iff sound .zset (by rw [Dialog.item, kind]) (fun _ => kind.symm)
            fun _ same => ⟨control, same⟩
          rw [kind] at shown
          rw [shown]
          exact ⟨fun clean _ => clean, fun clean => clean rfl⟩
      | hash =>
          rw [kind] at control
          have shown := table_shown_iff sound .hash (by rw [Dialog.item, kind]) (fun _ => kind.symm)
            fun _ same => ⟨control, same⟩
          rw [kind] at shown
          rw [shown]
          exact ⟨fun clean _ => clean, fun clean => clean rfl⟩
      | boolean =>
          rw [kind] at control
          have read : dialog.item = .accepted (.boolean (dialog.boolValueEdit = 0)) := by
            rw [Dialog.item, kind]
            exact if_neg chosen
          refine iff_of_true ⟨by simp [read], ?_⟩ nofun
          intro value accepted
          rw [read] at accepted
          obtain rfl := Outcome.accepted.inj accepted
          refine ⟨rfl, control, ?_⟩
          rcases sound.choice with choice | choice <;> simp [choice]
      | _ =>
          rw [kind] at control
          have shown := text_shown sound (by rw [Dialog.item, kind]) control
          rw [kind] at shown
          exact iff_of_true shown nofun

end Results

-- Without a change the dialog gives back the value that it was opened on, unless that is a number.
theorem opened_item_iff (type : ConnectionType) (value : Value) (supported : value.type ∈ supportedTypesFromType type)
    (texts : value.TextsNonempty) (nonempty : ¬ value.IsEmpty) :
    (∃ returned, (opened (supportedTypesFromType type) value).item = .accepted returned ∧ returned.SameElements value) ↔
      ∀ kind text, value ≠ .number kind text := by
  have selected : (opened (supportedTypesFromType type) value).type = value.type :=
    (indexOfType_supported type value.type supported).2.1
  have rows (entries : List (Text × Text)) : readRows (entries.reverse.map shownRow) = some entries.reverse := by
    have read := readRows_append entries.reverse []
    rw [List.append_nil] at read
    rw [read, readRows, Option.map_some, List.append_nil]
  have filled (entries : List (Text × Text)) (some : entries ≠ []) : entries.reverse.map shownRow ≠ [] := by
    simpa using some
  rw [Dialog.item, selected]
  cases value with
  | boolean value =>
      refine iff_of_true ⟨.boolean value, ?_, rfl⟩ nofun
      cases value <;> rfl
  | number kind text =>
      refine iff_of_false ?_ fun other => other kind text rfl
      intro ⟨returned, read, _⟩
      cases kind <;> cases read
  | string text => exact iff_of_true ⟨.string text, if_neg texts, rfl⟩ nofun
  | array elements => exact iff_of_true ⟨.array elements, if_neg nonempty, rfl⟩ nofun
  | set elements => exact iff_of_true ⟨.set elements, if_neg nonempty, List.Perm.refl _⟩ nofun
  | zset entries =>
      refine iff_of_true ⟨.zset entries.reverse, ?_, List.reverse_perm entries⟩ nofun
      show (if entries.reverse.map shownRow = [] then _ else _) = _
      rw [if_neg (filled entries nonempty)]
      simp only [opened, Value.entries, rows]
  | hash entries =>
      refine iff_of_true ⟨.hash entries.reverse, ?_, List.reverse_perm entries⟩ nofun
      show (if entries.reverse.map shownRow = [] then _ else _) = _
      rw [if_neg (filled entries nonempty)]
      simp only [opened, Value.entries, rows]

theorem hidden_iff (types : List ValueType) (boolean : Bool) (events : List Event) :
    (boolean && !events.any (Event.changes types)) = false ↔
      (boolean = true → ∃ index, .typeChanged index ∈ events ∧ 0 < index ∧ index < types.length) := by
  rw [Bool.and_eq_false_imp, Bool.not_eq_false', List.any_eq_true]
  apply imp_congr_right
  intro _
  constructor
  · intro ⟨event, member, moves⟩
    cases event with
    | typeChanged index => exact ⟨index, member, of_decide_eq_true moves⟩
    | addItem first second => cases moves
    | removeItem row => cases moves
  · intro ⟨index, member, moves⟩
    exact ⟨_, member, decide_eq_true moves⟩

/-- What the dialog returns is what it shows exactly when no row of its table is left over from another type,
a boolean that it was opened on has been changed in type, and a number has not been left alone. -/
theorem returns_iff (type : ConnectionType) (value : Option Value)
    (supported : ∀ held ∈ value, held.type ∈ supportedTypesFromType type)
    (texts : ∀ held ∈ value, held.TextsNonempty) (events : List Event) (key : Text) (named : key ≠ []) :
    Returns value events (Runs.run step (dbKeyDialog (supportedTypesFromType type) value) events)
        ((Runs.run step (dbKeyDialog (supportedTypesFromType type) value) events).validateAndApply key) ↔
      (Dialog.controlOf (Runs.run step (dbKeyDialog (supportedTypesFromType type) value) events).type =
        .valueTableEdit →
        leftover (dbKeyDialog (supportedTypesFromType type) value) 0 events = 0) ∧
      (value.map Value.type = some .boolean → ∃ index, .typeChanged index ∈ events ∧
        0 < index ∧ index < (supportedTypesFromType type).length) ∧
      (events = [] → ∀ kind text, value ≠ some (.number kind text)) := by
  have start : ∃ start : Value, dbKeyDialog (supportedTypesFromType type) value =
      opened (supportedTypesFromType type) start ∧
      Sound 0 (value.map Value.type = some .boolean) (opened (supportedTypesFromType type) start) := by
    cases value with
    | none => exact ⟨.string [], dbKeyDialog_none type, sound_opened type (.string []) (string_supported type)⟩
    | some value =>
        refine ⟨value, dbKeyDialog_value type value (supported value rfl) (texts value rfl), ?_⟩
        simpa using sound_opened type value (supported value rfl)
  obtain ⟨start, own, sound⟩ := start
  have after := sound_run sound events
  rw [← own] at sound after
  have types : (dbKeyDialog (supportedTypesFromType type) value).types = supportedTypesFromType type := by
    rw [own]
    rfl
  rw [types] at after
  have shows := item_shows_iff after
  rw [hidden_iff, decide_eq_true_eq] at shows
  have applied : (Runs.run step (dbKeyDialog (supportedTypesFromType type) value) events).validateAndApply key =
      (Runs.run step (dbKeyDialog (supportedTypesFromType type) value) events).item := if_neg named
  rw [applied]
  constructor
  · intro returns
    obtain ⟨clean, visible⟩ := shows.mp ⟨returns.cells, returns.shown⟩
    refine ⟨clean, visible, ?_⟩
    rintro rfl kind text rfl
    have given := returns.unchanged rfl (.number kind text) rfl id
    rw [Runs.run_nil, dbKeyDialog_value type _ (supported _ rfl) (texts _ rfl),
      opened_item_iff type _ (supported _ rfl) (texts _ rfl) id] at given
    exact given kind text rfl
  · intro ⟨clean, visible, text⟩
    obtain ⟨cells, shown⟩ := shows.mpr ⟨clean, visible⟩
    refine ⟨cells, shown, ?_⟩
    rintro rfl held rfl nonempty
    rw [Runs.run_nil, dbKeyDialog_value type held (supported _ rfl) (texts _ rfl),
      opened_item_iff type held (supported _ rfl) (texts _ rfl) nonempty]
    intro kind number same
    exact text rfl kind number (congrArg some same)

theorem hash_given_back :
    Returns (some (.hash [(ascii "f", ascii "v")])) []
      (dbKeyDialog (supportedTypesFromType .redis) (some (.hash [(ascii "f", ascii "v")])))
      ((dbKeyDialog (supportedTypesFromType .redis) (some (.hash [(ascii "f", ascii "v")]))).validateAndApply
        (ascii "k")) := by
  have supported : ∀ held ∈ some (Value.hash [(ascii "f", ascii "v")]), held.type ∈ supportedTypesFromType .redis := by
    rintro _ ⟨⟩
    decide
  have texts : ∀ held ∈ some (Value.hash [(ascii "f", ascii "v")]), held.TextsNonempty := by
    rintro _ ⟨⟩
    simp [Value.TextsNonempty, ascii]
  apply (returns_iff .redis _ supported texts [] (ascii "k") (by decide)).mpr
  exact ⟨fun _ => rfl, nofun, nofun⟩

/-- The rows of a hash are still there when it has been made a sorted set, without their cells. -/
theorem zset_of_hash_fails :
    ¬ Returns (some (.hash [(ascii "f", ascii "v")])) [.typeChanged 7]
      (Runs.run step (dbKeyDialog (supportedTypesFromType .redis) (some (.hash [(ascii "f", ascii "v")])))
        [.typeChanged 7])
      ((Runs.run step (dbKeyDialog (supportedTypesFromType .redis) (some (.hash [(ascii "f", ascii "v")])))
        [.typeChanged 7]).validateAndApply (ascii "k")) := by
  intro returns
  exact returns.cells (by decide)

end FastoNoSQL.KeyDialog
