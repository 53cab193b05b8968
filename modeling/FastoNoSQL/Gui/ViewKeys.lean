import FastoNoSQL.Runs
import FastoNoSQL.Types

set_option autoImplicit false

/-!
# The dialog that pages through keys

`gui/dialogs/view_keys_dialog.cpp`: a list of cursors, the position in it, and
the controls that show them. A position outside of the list is undefined.
-/

namespace FastoNoSQL.ViewKeys

open Bytes

-- The conversion of a sum of `size_t` to `int`.
def toInt (n : Int) : Int := (Int32.ofInt n).toInt

/-- `QSpinBox`, with its defaults. -/
structure SpinBox where
  value : Int := 0
  minimum : Int := 0
  maximum : Int := 99

namespace SpinBox

variable (box : SpinBox)

def setValue (val : Int) : SpinBox := { box with value := max box.minimum (min val box.maximum) }

@[simp] theorem setValue_value (val : Int) :
    (box.setValue val).value = max box.minimum (min val box.maximum) := rfl

@[simp] theorem setValue_minimum (val : Int) : (box.setValue val).minimum = box.minimum := rfl

@[simp] theorem setValue_maximum (val : Int) : (box.setValue val).maximum = box.maximum := rfl

def setMinimum (min : Int) : SpinBox := { box with minimum := min, maximum := max min box.maximum }.setValue box.value

def setMaximum (max : Int) : SpinBox := { box with minimum := min box.minimum max, maximum := max }.setValue box.value

end SpinBox

structure Dialog where
  cursorStack : List UInt32 := []
  curPos : UInt32 := 0
  searchBox : Text := ascii "*"
  countSpinEdit : UInt32 := 100
  currentKey : SpinBox := {}
  countKey : SpinBox := {}
  leftButton : Bool := true
  rightButton : Bool := true
  searchButton : Bool := true
  rows : List LoadedKey := []

namespace Dialog

variable (dialog : Dialog)

def updateControls : Option Dialog := do
  let isEmptyDb := dialog.countKey.value == 0
  let isEndSearch ←
    if dialog.curPos = 0 then some false else (dialog.cursorStack[dialog.curPos.toNat]?).map (· == 0)
  return { dialog with
    leftButton := decide (dialog.curPos > 0)
    rightButton := !isEmptyDb && !isEndSearch
    searchButton := !isEmptyDb && !isEndSearch }

-- Every request of the server starts with this signal.
def startLoadDatabaseContent : Dialog := { dialog with rows := [] }

def request (cursor : UInt32) : ContentRequest where
  pattern := dialog.searchBox
  countKeys := dialog.countSpinEdit
  cursorIn := cursor

-- An empty list gets cursor 0.
def started : Dialog := { dialog with cursorStack := if dialog.cursorStack = [] then [0] else dialog.cursorStack }

-- The position is moved when the request is made.
def search (forward : Bool) : Option (Dialog × Option ContentRequest) :=
  if dialog.searchBox = [] then some (dialog, none)
  else if forward then do
    let cursor ← dialog.started.cursorStack[dialog.curPos.toNat]?
    return ({ dialog.started.startLoadDatabaseContent with curPos := dialog.curPos + 1 }, some (dialog.request cursor))
  else if dialog.curPos > 0 then do
    let cursor ← dialog.started.cursorStack[(dialog.curPos - 1).toNat]?
    return ({ dialog.started.startLoadDatabaseContent with curPos := dialog.curPos - 1 }, some (dialog.request cursor))
  else some (dialog.started, none)

def searchLineChanged (text : Text) : Option Dialog :=
  updateControls { dialog with
    searchBox := text
    cursorStack := []
    curPos := 0
    currentKey := dialog.currentKey.setValue 0 }

-- A response in the middle of the list is taken for one to a step back.
def finishLoadDatabaseContent (res : ContentResponce) : Option Dialog :=
  if res.error.any (·.isError) then some dialog
  else
    let dialog := { dialog with rows := dialog.rows ++ res.keys }
    let curv := dialog.currentKey.value
    let size := res.keys.length
    if dialog.cursorStack.length = dialog.curPos.toNat then
      updateControls { dialog with
        cursorStack := dialog.cursorStack ++ [res.cursorOut]
        currentKey := dialog.currentKey.setValue (toInt (curv + size)) }
    else updateControls { dialog with currentKey := dialog.currentKey.setValue (toInt (curv - size)) }

end Dialog

/-- The dialog as it is opened for a database with this number of keys. -/
def viewKeysDialog (keysCount : UInt64) : Option Dialog :=
  let currentKey : SpinBox := {}
  let countKey : SpinBox := {}
  Dialog.updateControls {
    currentKey := ((currentKey.setValue 0).setMinimum 0).setMaximum (toInt keysCount.toNat)
    countKey := countKey.setValue (toInt keysCount.toNat) }

/-- What the user does, and what the server signals to the dialog, whoever asked for it. -/
inductive Event where
  | rightPageClicked
  | leftPageClicked
  | searchClicked
  | searchLineChanged (text : Text)
  | countChanged (count : UInt32)
  | startLoadDatabaseContent
  | finishLoadDatabaseContent (res : ContentResponce)

-- Only an enabled button is clicked.
def Dialog.click (dialog : Dialog) (enabled forward : Bool) : Option Dialog :=
  if enabled then (dialog.search forward).map Prod.fst else some dialog

def Dialog.handle (dialog : Dialog) : Event → Option Dialog
  | .rightPageClicked => dialog.click dialog.rightButton true
  | .leftPageClicked => dialog.click dialog.leftButton false
  | .searchClicked => dialog.click dialog.searchButton true
  | .searchLineChanged text => if text = dialog.searchBox then some dialog else dialog.searchLineChanged text
  | .countChanged count => some { dialog with countSpinEdit := count }
  | .startLoadDatabaseContent => some dialog.startLoadDatabaseContent
  | .finishLoadDatabaseContent res => dialog.finishLoadDatabaseContent res

-- After an access outside of the list nothing is known.
def step (state : Option Dialog) (event : Event) : Option Dialog := state.bind (·.handle event)

def Dialog.StartsAtZero (dialog : Dialog) : Prop := dialog.cursorStack = [] ∨ dialog.cursorStack.head? = some 0

/-- The list is accessed inside, and starts with cursor 0 when it has a cursor. -/
def Inside (state : Option Dialog) (event : Event) : Prop :=
  ∃ next, step state event = some next ∧ next.StartsAtZero

-- A step forward is from a cursor that has arrived.
def Dialog.Arrived (dialog : Dialog) : Prop :=
  dialog.searchBox = [] ∨ dialog.cursorStack = [] ∨ dialog.curPos.toNat < dialog.cursorStack.length

def Allowed (state : Option Dialog) (event : Event) : Prop :=
  ∀ dialog ∈ state,
    match event with
    | .rightPageClicked => dialog.rightButton = true → dialog.Arrived
    | .searchClicked => dialog.searchButton = true → dialog.Arrived
    | .finishLoadDatabaseContent res =>
      res.error.any (·.isError) = true ∨ dialog.cursorStack ≠ [] ∨ res.cursorOut = 0
    | _ => True

/-! ## The position stays within the list -/

/-- The position is at most one behind the last cursor. -/
structure Dialog.Kept (dialog : Dialog) : Prop where
  position : dialog.curPos.toNat ≤ dialog.cursorStack.length
  start : dialog.StartsAtZero

namespace Dialog

variable {dialog : Dialog}

theorem Kept.curPos_of_nil (kept : dialog.Kept) (empty : dialog.cursorStack = []) : dialog.curPos = 0 := by
  have position := kept.position
  rw [empty, List.length_nil, Nat.le_zero] at position
  exact UInt32.toNat_inj.mp position

theorem updateControls_eq (dialog : Dialog)
    (inside : dialog.curPos = 0 ∨ dialog.curPos.toNat < dialog.cursorStack.length) :
    ∃ ended, dialog.updateControls = some { dialog with
      leftButton := decide (dialog.curPos > 0)
      rightButton := !(dialog.countKey.value == 0) && !ended
      searchButton := !(dialog.countKey.value == 0) && !ended } := by
  rw [updateControls]
  by_cases first : dialog.curPos = 0
  · exact ⟨false, by rw [if_pos first]; rfl⟩
  · have found := inside.resolve_left first
    exact ⟨dialog.cursorStack[dialog.curPos.toNat] == 0, by
      rw [if_neg first, List.getElem?_eq_getElem found]; rfl⟩

@[simp] theorem curPos_started : dialog.started.curPos = dialog.curPos := rfl

theorem Kept.started (kept : dialog.Kept) : dialog.started.Kept := by
  by_cases empty : dialog.cursorStack = []
  · have first := kept.curPos_of_nil empty
    constructor
    · simp [Dialog.started, empty, first]
    · exact .inr (by simp [Dialog.started, empty])
  · have same : dialog.started = dialog := by simp [Dialog.started, empty]
    rwa [same]

theorem started_inside_iff (kept : dialog.Kept) :
    dialog.curPos.toNat < dialog.started.cursorStack.length ↔
      dialog.cursorStack = [] ∨ dialog.curPos.toNat < dialog.cursorStack.length := by
  by_cases empty : dialog.cursorStack = []
  · simp [Dialog.started, empty, kept.curPos_of_nil empty]
  · simp [Dialog.started, empty]

theorem search_forward (pattern : dialog.searchBox ≠ []) :
    dialog.search true = (dialog.started.cursorStack[dialog.curPos.toNat]?).map fun cursor =>
      ({ dialog.started.startLoadDatabaseContent with curPos := dialog.curPos + 1 }, some (dialog.request cursor)) := by
  rw [search, if_neg pattern, if_pos rfl, Option.map_eq_bind]
  rfl

theorem search_back (pattern : dialog.searchBox ≠ []) (later : dialog.curPos > 0) :
    dialog.search false = (dialog.started.cursorStack[(dialog.curPos - 1).toNat]?).map fun cursor =>
      ({ dialog.started.startLoadDatabaseContent with curPos := dialog.curPos - 1 }, some (dialog.request cursor)) := by
  rw [search, if_neg pattern, if_neg Bool.false_ne_true, if_pos later, Option.map_eq_bind]
  rfl

-- A position that is moved by one within the list or to its end.
theorem Kept.moved (kept : dialog.Kept) (curPos : UInt32)
    (position : curPos.toNat ≤ dialog.started.cursorStack.length) :
    Kept { dialog.started.startLoadDatabaseContent with curPos } :=
  ⟨position, kept.started.start⟩

theorem click_forward_iff (kept : dialog.Kept) :
    (∃ next, (dialog.search true).map Prod.fst = some next ∧ next.StartsAtZero) ↔ dialog.Arrived := by
  by_cases pattern : dialog.searchBox = []
  · simp [search, Arrived, pattern, kept.start]
  · rw [search_forward pattern, Arrived, ← started_inside_iff kept]
    simp only [pattern, false_or, Option.map_map, Option.map_eq_some_iff, List.getElem?_eq_some_iff]
    constructor
    · rintro ⟨next, ⟨cursor, ⟨inside, _⟩, _⟩, _⟩
      exact inside
    · intro inside
      exact ⟨_, ⟨_, ⟨inside, rfl⟩, rfl⟩, kept.started.start⟩

theorem click_forward_kept (kept : dialog.Kept) (arrived : dialog.Arrived) :
    ∃ next, (dialog.search true).map Prod.fst = some next ∧ next.Kept := by
  by_cases pattern : dialog.searchBox = []
  · exact ⟨dialog, by simp [search, pattern], kept⟩
  · have inside := (started_inside_iff kept).mpr (arrived.resolve_left pattern)
    rw [search_forward pattern, List.getElem?_eq_getElem inside]
    refine ⟨_, rfl, kept.moved _ ?_⟩
    have moved : (dialog.curPos + 1).toNat ≤ dialog.curPos.toNat + 1 := by
      rw [UInt32.toNat_add]
      exact Nat.mod_le _ _
    exact moved.trans inside

theorem click_back_kept (kept : dialog.Kept) :
    ∃ next, (dialog.search false).map Prod.fst = some next ∧ next.Kept := by
  by_cases pattern : dialog.searchBox = []
  · exact ⟨dialog, by simp [search, pattern], kept⟩
  · by_cases later : dialog.curPos > 0
    · have position : dialog.curPos.toNat ≤ dialog.started.cursorStack.length := kept.started.position
      have positive : 0 < dialog.curPos.toNat := later
      have moved : (dialog.curPos - 1).toNat = dialog.curPos.toNat - 1 := UInt32.toNat_sub_of_le _ _ positive
      have inside : (dialog.curPos - 1).toNat < dialog.started.cursorStack.length := by omega
      rw [search_back pattern later, List.getElem?_eq_getElem inside]
      exact ⟨_, rfl, kept.moved _ (by omega)⟩
    · refine ⟨dialog.started, ?_, kept.started⟩
      rw [search, if_neg pattern, if_neg Bool.false_ne_true, if_neg later]
      rfl

theorem searchLineChanged_kept (text : Text) : ∃ next, dialog.searchLineChanged text = some next ∧ next.Kept := by
  obtain ⟨_, updated⟩ := updateControls_eq { dialog with
    searchBox := text
    cursorStack := []
    curPos := 0
    currentKey := dialog.currentKey.setValue 0 } (.inl rfl)
  exact ⟨_, updated, Nat.le_refl 0, .inl rfl⟩

/-- What the dialog makes of a response without an error. -/
structure Finished (dialog : Dialog) (res : ContentResponce) (next : Dialog) : Prop where
  curPos : next.curPos = dialog.curPos
  stack : next.cursorStack =
    if dialog.cursorStack.length = dialog.curPos.toNat then dialog.cursorStack ++ [res.cursorOut]
    else dialog.cursorStack
  current : next.currentKey = dialog.currentKey.setValue (toInt
    (if dialog.cursorStack.length = dialog.curPos.toNat then dialog.currentKey.value + res.keys.length
    else dialog.currentKey.value - res.keys.length))
  rows : next.rows = dialog.rows ++ res.keys
  left : next.leftButton = decide (dialog.curPos > 0)
  searchBox : next.searchBox = dialog.searchBox
  countSpinEdit : next.countSpinEdit = dialog.countSpinEdit

theorem finish_eq (res : ContentResponce) (succeeded : ¬ res.error.any (·.isError) = true)
    (position : dialog.curPos.toNat ≤ dialog.cursorStack.length) :
    ∃ next, dialog.finishLoadDatabaseContent res = some next ∧ Finished dialog res next := by
  rw [finishLoadDatabaseContent, if_neg succeeded]
  by_cases last : dialog.cursorStack.length = dialog.curPos.toNat
  · simp only [last, if_true]
    obtain ⟨_, updated⟩ := updateControls_eq { dialog with
      rows := dialog.rows ++ res.keys
      cursorStack := dialog.cursorStack ++ [res.cursorOut]
      currentKey := dialog.currentKey.setValue (toInt (dialog.currentKey.value + res.keys.length)) }
      (.inr (by simp [last]))
    exact ⟨_, updated, rfl, by rw [if_pos last], by rw [if_pos last], rfl, rfl, rfl, rfl⟩
  · simp only [last, if_false]
    obtain ⟨_, updated⟩ := updateControls_eq { dialog with
      rows := dialog.rows ++ res.keys
      currentKey := dialog.currentKey.setValue (toInt (dialog.currentKey.value - res.keys.length)) }
      (.inr (show dialog.curPos.toNat < dialog.cursorStack.length by omega))
    exact ⟨_, updated, rfl, by rw [if_neg last], by rw [if_neg last], rfl, rfl, rfl, rfl⟩

-- The first cursor of the list is the one that a response brings only when the list is empty.
theorem Finished.startsAtZero_iff (kept : dialog.Kept) {res : ContentResponce} {next : Dialog}
    (finished : Finished dialog res next) : next.StartsAtZero ↔ dialog.cursorStack ≠ [] ∨ res.cursorOut = 0 := by
  rw [StartsAtZero, finished.stack]
  by_cases empty : dialog.cursorStack = []
  · simp [empty, kept.curPos_of_nil empty]
  · have start := kept.start.resolve_left empty
    obtain ⟨first, rest, shape⟩ := List.exists_cons_of_ne_nil empty
    rw [shape, List.head?_cons] at start
    simp only [shape, List.cons_append, ne_eq, reduceCtorEq, not_false_eq_true, true_or, iff_true]
    split <;> simp [start]

theorem finish_iff (kept : dialog.Kept) (res : ContentResponce) :
    (∃ next, dialog.finishLoadDatabaseContent res = some next ∧ next.StartsAtZero) ↔
      res.error.any (·.isError) = true ∨ dialog.cursorStack ≠ [] ∨ res.cursorOut = 0 := by
  by_cases failed : res.error.any (·.isError) = true
  · rw [finishLoadDatabaseContent, if_pos failed]
    exact iff_of_true ⟨dialog, rfl, kept.start⟩ (.inl failed)
  · obtain ⟨next, done, finished⟩ := finish_eq res failed kept.position
    rw [done, ← finished.startsAtZero_iff kept]
    simp [failed]

theorem finish_kept (kept : dialog.Kept) (res : ContentResponce)
    (allowed : res.error.any (·.isError) = true ∨ dialog.cursorStack ≠ [] ∨ res.cursorOut = 0) :
    ∃ next, dialog.finishLoadDatabaseContent res = some next ∧ next.Kept := by
  by_cases failed : res.error.any (·.isError) = true
  · exact ⟨dialog, by rw [finishLoadDatabaseContent, if_pos failed], kept⟩
  · obtain ⟨next, done, finished⟩ := finish_eq res failed kept.position
    have position := kept.position
    refine ⟨next, done, ?_, (finished.startsAtZero_iff kept).mpr (allowed.resolve_left failed)⟩
    rw [finished.curPos, finished.stack]
    split
    next => simp only [List.length_append, List.length_singleton]; omega
    next => exact position

end Dialog

/-! ## Runs -/

def Kept (state : Option Dialog) : Prop := ∃ dialog, state = some dialog ∧ dialog.Kept

theorem kept_step (state : Option Dialog) (event : Event) (kept : Kept state) (allowed : Allowed state event) :
    Kept (step state event) := by
  obtain ⟨dialog, rfl, kept⟩ := kept
  have here := allowed dialog rfl
  have clicked (enabled forward : Bool)
      (found : enabled = true → ∃ next, (dialog.search forward).map Prod.fst = some next ∧ next.Kept) :
      ∃ next, dialog.click enabled forward = some next ∧ next.Kept := by
    cases enabled with
    | false => exact ⟨dialog, rfl, kept⟩
    | true => exact found rfl
  cases event with
  | rightPageClicked => exact clicked _ true fun enabled => Dialog.click_forward_kept kept (here enabled)
  | leftPageClicked => exact clicked _ false fun _ => Dialog.click_back_kept kept
  | searchClicked => exact clicked _ true fun enabled => Dialog.click_forward_kept kept (here enabled)
  | searchLineChanged text =>
      show ∃ next, dialog.handle (.searchLineChanged text) = some next ∧ next.Kept
      rw [Dialog.handle]
      split
      next => exact ⟨dialog, rfl, kept⟩
      next => exact Dialog.searchLineChanged_kept text
  | countChanged count => exact ⟨_, rfl, kept.position, kept.start⟩
  | startLoadDatabaseContent => exact ⟨_, rfl, kept.position, kept.start⟩
  | finishLoadDatabaseContent res => exact Dialog.finish_kept kept res here

theorem inside_iff (state : Option Dialog) (event : Event) (kept : Kept state) :
    Inside state event ↔ Allowed state event := by
  have after := kept_step state event kept
  constructor
  · obtain ⟨dialog, rfl, kept⟩ := kept
    rintro ⟨next, stepped, start⟩ dialog' ⟨⟩
    have clicked (enabled : Bool) (done : dialog.click enabled true = some next) :
        enabled = true → dialog.Arrived := by
      rintro rfl
      exact (Dialog.click_forward_iff kept).mp ⟨next, done, start⟩
    cases event with
    | rightPageClicked => exact clicked _ stepped
    | searchClicked => exact clicked _ stepped
    | finishLoadDatabaseContent res => exact (Dialog.finish_iff kept res).mp ⟨next, stepped, start⟩
    | _ => trivial
  · intro allowed
    obtain ⟨next, stepped, kept⟩ := after allowed
    exact ⟨next, stepped, kept.start⟩

theorem viewKeysDialog_kept (keysCount : UInt64) : Kept (viewKeysDialog keysCount) :=
  ⟨_, rfl, Nat.le_refl 0, .inl rfl⟩

/-- The list is accessed inside and starts with cursor 0 throughout a run exactly when no click goes on from a cursor
that has not arrived and no response with another cursor arrives before the first search. -/
theorem paging_inside_iff (keysCount : UInt64) (events : List Event) :
    Runs.Along step Inside (viewKeysDialog keysCount) events ↔
      Runs.Along step Allowed (viewKeysDialog keysCount) events :=
  Runs.along_iff Kept kept_step inside_iff (viewKeysDialog_kept keysCount) events

/-- Two clicks before the first response go on from a cursor that is not there, and so does a click after an error. A
response to another request comes first in the list. -/
theorem paging_outside :
    Runs.run step (viewKeysDialog 5) [.rightPageClicked, .rightPageClicked] = none ∧
      ¬ Runs.Along step Inside (viewKeysDialog 5) [.rightPageClicked, .rightPageClicked] ∧
      Runs.run step (viewKeysDialog 5) [.rightPageClicked,
        .finishLoadDatabaseContent { error := some (makeErrorValue "Not connected") }, .rightPageClicked] = none ∧
      ∃ dialog, Runs.run step (viewKeysDialog 5)
          [.startLoadDatabaseContent, .finishLoadDatabaseContent { cursorOut := 7 }] = some dialog ∧
        dialog.cursorStack = [7] := by
  refine ⟨by decide, ?_, by decide, _, rfl, rfl⟩
  intro along
  obtain ⟨next, stepped, _⟩ := along [.rightPageClicked] .rightPageClicked [] rfl
  cases stepped

end FastoNoSQL.ViewKeys
