import FastoNoSQL.Gui.ViewKeys
import Mathlib.Algebra.Group.Int.Defs

set_option autoImplicit false

/-!
# Paging to and fro

The dialog that pages through keys over a database whose pages do not change,
when every click is answered before the next one.
-/

namespace FastoNoSQL.ViewKeys

open Bytes

/-- The keys and the next cursor that a database answers to a request. -/
abbrev Database := ContentRequest → List LoadedKey × UInt32

inductive Click where
  | next | previous

/-- The dialog after some clicks, and their numbers. -/
structure View where
  dialog : Option Dialog
  next : Nat := 0
  previous : Nat := 0

def View.position (view : View) : Nat := view.next - view.previous

section Definitions

variable (database : Database) (pattern : Text) (count : UInt32)

-- The cursors from 0 on, each from the page of the one before.
def cursorAt : Nat → UInt32
  | 0 => 0
  | n + 1 => (database ⟨pattern, count, cursorAt n⟩).2

-- Page 1 is the one loaded from cursor 0.
def page (n : Nat) : List LoadedKey := (database ⟨pattern, count, cursorAt database pattern count (n - 1)⟩).1

-- The number of keys on pages 1 to `n`.
def total : Nat → Nat
  | 0 => 0
  | n + 1 => total n + (page database pattern count (n + 1)).length

def Dialog.answered (dialog : Dialog) (forward : Bool) : Option Dialog := do
  let (dialog, request) ← dialog.search forward
  match request with
  | none => return dialog
  | some request =>
    dialog.finishLoadDatabaseContent { keys := (database request).1, cursorOut := (database request).2 }

def Click.enabled (dialog : Dialog) : Click → Bool
  | next => dialog.rightButton
  | previous => dialog.leftButton

def View.isEnabled (view : View) (click : Click) : Bool := view.dialog.any click.enabled

-- A click on a button that is not enabled is none.
def View.click (view : View) (click : Click) : View :=
  if view.isEnabled click then
    match click with
    | .next => { view with dialog := view.dialog.bind (·.answered database true), next := view.next + 1 }
    | .previous => { view with dialog := view.dialog.bind (·.answered database false), previous := view.previous + 1 }
  else view

/-- The dialog opened for this number of keys, with the pattern and the number of keys on a page. -/
def opened (keysCount : UInt64) : View where
  dialog := (viewKeysDialog keysCount).bind fun dialog =>
    (dialog.handle (.searchLineChanged pattern)).bind (·.handle (.countChanged count))

/-- The table has the keys of the page, unless that is before the first, and the running count is right. -/
def View.Shows (view : View) : Prop :=
  ∃ dialog, view.dialog = some dialog ∧
    (1 ≤ view.position → dialog.rows = page database pattern count view.position) ∧
    dialog.currentKey.value = total database pattern count view.position

-- The positions have 32 bits.
def Within (view : View) : Prop := view.position + 1 < 2 ^ 32

instance (view : View) : Decidable (Within view) := inferInstanceAs (Decidable (view.position + 1 < 2 ^ 32))

def ShowsAfter (view : View) (click : Click) : Prop :=
  view.isEnabled click = true → View.Shows database pattern count (view.click database click) ∧ Within view

-- A page that was visited before is empty, a new one leaves the count within its bounds, and going back shows the
-- page that is left.
def Reversible (view : View) (click : Click) : Prop :=
  view.isEnabled click = true → Within view ∧ ∀ dialog ∈ view.dialog,
    match click with
    | .next =>
      if view.position + 1 < dialog.cursorStack.length then page database pattern count (view.position + 1) = []
      else total database pattern count (view.position + 1) ≤ dialog.currentKey.maximum
    | .previous =>
      view.position = 1 ∨
        page database pattern count view.position = page database pattern count (view.position - 1)

end Definitions

/-! ## The running count -/

theorem toInt_eq (n : Int) (low : -2 ^ 31 ≤ n) (high : n < 2 ^ 31) : toInt n = n := Int32.toInt_ofInt_of_le low high

theorem value_setValue (box : SpinBox) (val : Int) (low : box.minimum ≤ val) (high : val ≤ box.maximum) :
    (box.setValue val).value = val := by
  rw [SpinBox.setValue_value]
  omega

/-! ## One click -/

section Clicks

variable (database : Database) (pattern : Text) (count : UInt32)

/-- The cursors of the pages that were visited, and the position among them. -/
structure Paged (dialog : Dialog) (visited position : Nat) : Prop where
  searchBox : dialog.searchBox = pattern
  countSpinEdit : dialog.countSpinEdit = count
  curPos : dialog.curPos.toNat = position
  left : dialog.leftButton = true → 0 < position
  reached : position ≤ visited
  stack : dialog.started.cursorStack = (List.range (visited + 1)).map (cursorAt database pattern count)
  empty : dialog.cursorStack = [] → visited = 0
  current : dialog.currentKey.value = total database pattern count position
  minimum : dialog.currentKey.minimum = 0
  room : total database pattern count visited ≤ dialog.currentKey.maximum
  most : dialog.currentKey.maximum < 2 ^ 31

/-- The dialog after the answer to a click. -/
structure Landed (visited position : Nat) (rows : List LoadedKey) (currentKey : SpinBox) (next : Dialog) : Prop where
  searchBox : next.searchBox = pattern
  countSpinEdit : next.countSpinEdit = count
  curPos : next.curPos.toNat = position
  left : next.leftButton = true → 0 < position
  rows : next.rows = rows
  stack : next.cursorStack = (List.range (visited + 1)).map (cursorAt database pattern count)
  currentKey : next.currentKey = currentKey

variable {database pattern count} {dialog : Dialog} {visited position : Nat}

theorem total_mono {n m : Nat} (le : n ≤ m) : total database pattern count n ≤ total database pattern count m := by
  induction le with
  | refl => exact Nat.le_refl _
  | step _ ih => exact ih.trans (Nat.le_add_right _ _)

theorem Paged.length_started (paged : Paged database pattern count dialog visited position) :
    dialog.started.cursorStack.length = visited + 1 := by
  rw [paged.stack, List.length_map, List.length_range]

theorem Paged.cursor (paged : Paged database pattern count dialog visited position) (n : Nat) (inside : n ≤ visited) :
    dialog.started.cursorStack[n]? = some (cursorAt database pattern count n) := by
  rw [paged.stack, List.getElem?_map, List.getElem?_range (by omega), Option.map_some]

theorem Paged.request (paged : Paged database pattern count dialog visited position) (cursor : UInt32) :
    dialog.request cursor = ⟨pattern, count, cursor⟩ := by
  rw [Dialog.request, paged.searchBox, paged.countSpinEdit]

-- The page after the position was visited before.
theorem Paged.revisits_iff (paged : Paged database pattern count dialog visited position) :
    position + 1 < dialog.cursorStack.length ↔ position < visited := by
  have reached := paged.reached
  by_cases empty : dialog.cursorStack = []
  · have none := paged.empty empty
    simp only [empty, List.length_nil]
    omega
  · have same : dialog.started.cursorStack = dialog.cursorStack := by simp [Dialog.started, empty]
    have length := paged.length_started
    rw [same] at length
    omega

/-- A request that is answered before anything else happens. -/
theorem Dialog.finish_answered (database : Database) (asked : Dialog) (request : ContentRequest)
    (position : asked.curPos.toNat ≤ asked.cursorStack.length) :
    ∃ next, asked.finishLoadDatabaseContent { keys := (database request).1, cursorOut := (database request).2 } =
        some next ∧
      Finished asked { keys := (database request).1, cursorOut := (database request).2 } next :=
  Dialog.finish_eq _ (by simp) position

theorem Paged.answered_next (paged : Paged database pattern count dialog visited position) (nonempty : pattern ≠ [])
    (within : position + 1 < 2 ^ 32) :
    ∃ next, dialog.answered database true = some next ∧
      Landed database pattern count (max visited (position + 1)) (position + 1)
        (page database pattern count (position + 1))
        (dialog.currentKey.setValue (toInt
          (if position < visited then
            total database pattern count position - (page database pattern count (position + 1)).length
          else total database pattern count (position + 1)))) next := by
  have reached := paged.reached
  have moved : (dialog.curPos + 1).toNat = position + 1 := by
    rw [UInt32.toNat_add, paged.curPos]
    exact Nat.mod_eq_of_lt within
  have found := paged.cursor position reached
  rw [← paged.curPos] at found
  have length := paged.length_started
  have searched := Dialog.search_forward (paged.searchBox ▸ nonempty : dialog.searchBox ≠ [])
  rw [found, Option.map_some, paged.request, paged.curPos] at searched
  obtain ⟨next, done, finished⟩ := Dialog.finish_answered database
    { dialog.started.startLoadDatabaseContent with curPos := dialog.curPos + 1 }
    ⟨pattern, count, cursorAt database pattern count position⟩ (by
      show (dialog.curPos + 1).toNat ≤ dialog.started.cursorStack.length
      omega)
  have last : dialog.started.startLoadDatabaseContent.cursorStack.length = (dialog.curPos + 1).toNat ↔
      visited = position := by
    rw [moved]
    show dialog.started.cursorStack.length = position + 1 ↔ _
    omega
  refine ⟨next, ?_, finished.searchBox.trans paged.searchBox, finished.countSpinEdit.trans paged.countSpinEdit,
    (congrArg UInt32.toNat finished.curPos).trans moved, fun left => ?_, finished.rows, ?_, ?_⟩
  · rw [Dialog.answered, searched]
    exact done
  · rw [finished.left, decide_eq_true_eq, gt_iff_lt, UInt32.lt_iff_toNat_lt] at left
    exact lt_of_lt_of_eq left moved
  · rw [finished.stack]
    simp only [last]
    split
    next same =>
      have top : max visited (position + 1) = visited + 1 := by omega
      rw [top, List.range_succ, List.map_append, ← paged.stack, same]
      rfl
    next other =>
      have same : max visited (position + 1) = visited := by omega
      rw [same]
      exact paged.stack
  · rw [finished.current]
    simp only [last]
    show dialog.currentKey.setValue (toInt (if visited = position then
        dialog.currentKey.value + (page database pattern count (position + 1)).length
      else dialog.currentKey.value - (page database pattern count (position + 1)).length)) = _
    rw [paged.current]
    by_cases same : visited = position
    · have top : ¬ position < visited := by omega
      rw [if_pos same, if_neg top, total, Int.natCast_add]
    · have before : position < visited := by omega
      rw [if_neg same, if_pos before]

theorem Paged.answered_previous (paged : Paged database pattern count dialog visited position)
    (nonempty : pattern ≠ []) (later : 0 < position) :
    ∃ next, dialog.answered database false = some next ∧
      Landed database pattern count visited (position - 1) (page database pattern count position)
        (dialog.currentKey.setValue (toInt (total database pattern count (position - 1)))) next := by
  have reached := paged.reached
  have after : dialog.curPos > 0 := by
    rw [gt_iff_lt, UInt32.lt_iff_toNat_lt, paged.curPos]
    exact later
  have moved : (dialog.curPos - 1).toNat = position - 1 := by
    rw [UInt32.toNat_sub_of_le _ _ after, paged.curPos]
    rfl
  have found := paged.cursor (position - 1) (by omega)
  rw [← moved] at found
  have length := paged.length_started
  have searched := Dialog.search_back (paged.searchBox ▸ nonempty : dialog.searchBox ≠ []) after
  rw [found, Option.map_some, paged.request, moved] at searched
  have inside : (dialog.curPos - 1).toNat < dialog.started.cursorStack.length := by omega
  obtain ⟨next, done, finished⟩ := Dialog.finish_answered database
    { dialog.started.startLoadDatabaseContent with curPos := dialog.curPos - 1 }
    ⟨pattern, count, cursorAt database pattern count (position - 1)⟩ (Nat.le_of_lt inside)
  have middle : ¬ dialog.started.startLoadDatabaseContent.cursorStack.length = (dialog.curPos - 1).toNat :=
    Nat.ne_of_gt inside
  refine ⟨next, ?_, finished.searchBox.trans paged.searchBox, finished.countSpinEdit.trans paged.countSpinEdit,
    (congrArg UInt32.toNat finished.curPos).trans moved, fun left => ?_, finished.rows, ?_, ?_⟩
  · rw [Dialog.answered, searched]
    exact done
  · rw [finished.left, decide_eq_true_eq, gt_iff_lt, UInt32.lt_iff_toNat_lt] at left
    exact lt_of_lt_of_eq left moved
  · rw [finished.stack]
    exact (if_neg middle).trans paged.stack
  · rw [finished.current]
    simp only [middle, if_false]
    show dialog.currentKey.setValue (toInt
      (dialog.currentKey.value - (page database pattern count position).length)) = _
    obtain ⟨before, rfl⟩ : ∃ before, position = before + 1 := ⟨position - 1, by omega⟩
    rw [paged.current, total, Int.natCast_add, Nat.add_sub_cancel, Int.add_sub_cancel]

theorem Landed.paged {rows : List LoadedKey} {currentKey : SpinBox} {next : Dialog}
    (landed : Landed database pattern count visited position rows currentKey next) (reached : position ≤ visited)
    (current : currentKey.value = total database pattern count position) (minimum : currentKey.minimum = 0)
    (room : total database pattern count visited ≤ currentKey.maximum) (most : currentKey.maximum < 2 ^ 31) :
    Paged database pattern count next visited position := by
  have some : next.cursorStack ≠ [] := by
    rw [landed.stack]
    simp
  refine ⟨landed.searchBox, landed.countSpinEdit, landed.curPos, landed.left, reached, ?_, fun none => absurd none some,
    ?_, ?_, ?_, ?_⟩
  · rw [Dialog.started, if_neg some]
    exact landed.stack
  all_goals rw [landed.currentKey]
  · exact current
  · exact minimum
  · exact room
  · exact most

-- The count after a step forward: a page that was visited before is subtracted.
theorem Paged.count_next_iff (paged : Paged database pattern count dialog visited position) :
    (dialog.currentKey.setValue (toInt
      (if position < visited then
        total database pattern count position - (page database pattern count (position + 1)).length
      else total database pattern count (position + 1)))).value = total database pattern count (position + 1) ↔
      if position < visited then page database pattern count (position + 1) = []
      else total database pattern count (position + 1) ≤ dialog.currentKey.maximum := by
  have minimum := paged.minimum
  have room := paged.room
  have most := paged.most
  rw [SpinBox.setValue_value, minimum]
  by_cases before : position < visited
  · have within : total database pattern count (position + 1) ≤ total database pattern count visited :=
      total_mono before
    rw [total] at within ⊢
    rw [if_pos before, if_pos before, ← List.length_eq_zero_iff, toInt_eq _ (by omega) (by omega)]
    omega
  · rw [if_neg before, if_neg before]
    constructor
    · intro same
      omega
    · intro fits
      rw [toInt_eq _ (by omega) (by omega)]
      omega

theorem Paged.count_previous (paged : Paged database pattern count dialog visited position) :
    (dialog.currentKey.setValue (toInt (total database pattern count (position - 1)))).value =
      total database pattern count (position - 1) := by
  have reached := paged.reached
  have minimum := paged.minimum
  have room := paged.room
  have most := paged.most
  have within : total database pattern count (position - 1) ≤ total database pattern count visited :=
    total_mono (by omega)
  rw [toInt_eq _ (by omega) (by omega)]
  exact value_setValue _ _ (by omega) (by omega)

end Clicks

/-! ## Views -/

section Views

variable (database : Database) (pattern : Text) (count : UInt32)

/-- The position of the dialog is the number of clicks forward less the number of those back. -/
def Regular (view : View) : Prop :=
  view.previous ≤ view.next ∧
    ∃ dialog visited, view.dialog = some dialog ∧ Paged database pattern count dialog visited view.position

variable {database pattern count} {view : View}

theorem View.click_disabled (click : Click) (disabled : ¬ view.isEnabled click = true) :
    view.click database click = view := if_neg disabled

theorem View.click_next (dialog : Dialog) (here : view.dialog = some dialog) (enabled : dialog.rightButton = true) :
    view.click database .next = ⟨dialog.answered database true, view.next + 1, view.previous⟩ := by
  have clicked : view.isEnabled .next = true := by rw [View.isEnabled, here]; exact enabled
  refine (if_pos clicked).trans ?_
  rw [here]
  rfl

theorem View.click_previous (dialog : Dialog) (here : view.dialog = some dialog) (enabled : dialog.leftButton = true) :
    view.click database .previous = ⟨dialog.answered database false, view.next, view.previous + 1⟩ := by
  have clicked : view.isEnabled .previous = true := by rw [View.isEnabled, here]; exact enabled
  refine (if_pos clicked).trans ?_
  rw [here]
  rfl

-- After an enabled click, the dialog has landed on the position that the clicks give.
theorem View.landed_next (nonempty : pattern ≠ []) (order : view.previous ≤ view.next) {dialog : Dialog}
    {visited : Nat} (here : view.dialog = some dialog)
    (paged : Paged database pattern count dialog visited view.position) (enabled : dialog.rightButton = true)
    (within : Within view) :
    (view.click database .next).position = view.position + 1 ∧
      ∃ next, (view.click database .next).dialog = some next ∧
        Landed database pattern count (max visited (view.position + 1)) (view.position + 1)
          (page database pattern count (view.position + 1))
          (dialog.currentKey.setValue (toInt
            (if view.position < visited then
              total database pattern count view.position - (page database pattern count (view.position + 1)).length
            else total database pattern count (view.position + 1)))) next := by
  rw [View.click_next dialog here enabled]
  refine ⟨?_, paged.answered_next nonempty within⟩
  simp only [View.position]
  omega

theorem View.landed_previous (nonempty : pattern ≠ []) {dialog : Dialog} {visited : Nat}
    (here : view.dialog = some dialog) (paged : Paged database pattern count dialog visited view.position)
    (enabled : dialog.leftButton = true) :
    (view.click database .previous).position = view.position - 1 ∧
      ∃ next, (view.click database .previous).dialog = some next ∧
        Landed database pattern count visited (view.position - 1) (page database pattern count view.position)
          (dialog.currentKey.setValue (toInt (total database pattern count (view.position - 1)))) next := by
  rw [View.click_previous dialog here enabled]
  refine ⟨?_, paged.answered_previous nonempty (paged.left enabled)⟩
  simp only [View.position]
  omega

theorem next_iff (nonempty : pattern ≠ []) (order : view.previous ≤ view.next) {dialog : Dialog}
    {visited : Nat} (here : view.dialog = some dialog)
    (paged : Paged database pattern count dialog visited view.position) (enabled : dialog.rightButton = true)
    (within : Within view) :
    View.Shows database pattern count (view.click database .next) ↔
      if view.position < visited then page database pattern count (view.position + 1) = []
      else total database pattern count (view.position + 1) ≤ dialog.currentKey.maximum := by
  obtain ⟨position, next, after, landed⟩ := View.landed_next nonempty order here paged enabled within
  rw [View.Shows, position, ← paged.count_next_iff, ← landed.currentKey, after]
  simp [landed.rows]

theorem previous_iff (nonempty : pattern ≠ []) {dialog : Dialog} {visited : Nat} (here : view.dialog = some dialog)
    (paged : Paged database pattern count dialog visited view.position) (enabled : dialog.leftButton = true) :
    View.Shows database pattern count (view.click database .previous) ↔
      view.position = 1 ∨
        page database pattern count view.position = page database pattern count (view.position - 1) := by
  obtain ⟨position, next, after, landed⟩ := View.landed_previous nonempty here paged enabled
  have positive := paged.left enabled
  have counted := paged.count_previous
  rw [← landed.currentKey] at counted
  rw [View.Shows, position, after]
  simp only [Option.some.injEq, exists_eq_left', landed.rows, counted, and_true]
  constructor
  · intro shown
    by_cases first : view.position = 1
    · exact .inl first
    · exact .inr (shown (by omega))
  · intro met later
    exact met.resolve_left (by omega)

theorem regular_next (nonempty : pattern ≠ []) (order : view.previous ≤ view.next) {dialog : Dialog}
    {visited : Nat} (here : view.dialog = some dialog)
    (paged : Paged database pattern count dialog visited view.position) (enabled : dialog.rightButton = true)
    (within : Within view)
    (met : if view.position < visited then page database pattern count (view.position + 1) = []
      else total database pattern count (view.position + 1) ≤ dialog.currentKey.maximum) :
    Regular database pattern count (view.click database .next) := by
  obtain ⟨position, next, after, landed⟩ := View.landed_next nonempty order here paged enabled within
  refine ⟨?_, next, max visited (view.position + 1), after, ?_⟩
  · rw [View.click_next dialog here enabled]
    exact order.trans (Nat.le_succ _)
  · rw [position]
    have room := paged.room
    refine landed.paged (Nat.le_max_right _ _) (paged.count_next_iff.mpr met) paged.minimum ?_ paged.most
    rw [SpinBox.setValue_maximum]
    split at met
    next before =>
      have same : max visited (view.position + 1) = visited := by omega
      rwa [same]
    next last =>
      have reached := paged.reached
      have same : max visited (view.position + 1) = view.position + 1 := by omega
      rwa [same]

theorem regular_previous (nonempty : pattern ≠ []) {dialog : Dialog} {visited : Nat}
    (here : view.dialog = some dialog) (paged : Paged database pattern count dialog visited view.position)
    (enabled : dialog.leftButton = true) : Regular database pattern count (view.click database .previous) := by
  obtain ⟨position, next, after, landed⟩ := View.landed_previous nonempty here paged enabled
  have positive := paged.left enabled
  have reached := paged.reached
  refine ⟨?_, next, visited, after, ?_⟩
  · rw [View.click_previous dialog here enabled]
    simp only [View.position] at positive
    show view.previous + 1 ≤ view.next
    omega
  · rw [position]
    exact landed.paged (by omega) paged.count_previous paged.minimum paged.room paged.most

/-! ## Runs -/

theorem regular_click (nonempty : pattern ≠ []) (view : View) (click : Click)
    (regular : Regular database pattern count view) (reversible : Reversible database pattern count view click) :
    Regular database pattern count (view.click database click) := by
  obtain ⟨order, dialog, visited, here, paged⟩ := regular
  by_cases enabled : view.isEnabled click = true
  · obtain ⟨within, met⟩ := reversible enabled
    have allowed := met dialog here
    rw [View.isEnabled, here, Option.any_some] at enabled
    cases click with
    | next =>
        simp only [paged.revisits_iff] at allowed
        exact regular_next nonempty order here paged enabled within allowed
    | previous => exact regular_previous nonempty here paged enabled
  · rw [View.click_disabled click enabled]
    exact ⟨order, dialog, visited, here, paged⟩

theorem showsAfter_iff (nonempty : pattern ≠ []) (view : View) (click : Click)
    (regular : Regular database pattern count view) :
    ShowsAfter database pattern count view click ↔ Reversible database pattern count view click := by
  obtain ⟨order, dialog, visited, here, paged⟩ := regular
  refine imp_congr_right fun enabled => ?_
  rw [and_comm]
  refine and_congr_right fun within => ?_
  rw [View.isEnabled, here, Option.any_some] at enabled
  simp only [here, Option.mem_def, Option.some.injEq, forall_eq']
  cases click with
  | next => simp only [next_iff nonempty order here paged enabled within, paged.revisits_iff]
  | previous => exact previous_iff nonempty here paged enabled

/-- A dialog without cursors, and a running count of 0 when the number of keys fits. -/
structure Unused (searchBox : Text) (maximum : Int) (dialog : Dialog) : Prop where
  searchBox : dialog.searchBox = searchBox
  curPos : dialog.curPos = 0
  left : dialog.leftButton = false
  stack : dialog.cursorStack = []
  value : dialog.currentKey.value = min 0 maximum
  minimum : dialog.currentKey.minimum = min 0 maximum
  maximum : dialog.currentKey.maximum = maximum

theorem viewKeysDialog_unused (keysCount : UInt64) :
    ∃ dialog, viewKeysDialog keysCount = some dialog ∧ Unused (ascii "*") (toInt keysCount.toNat) dialog := by
  refine ⟨_, rfl, rfl, rfl, rfl, rfl, ?_, rfl, rfl⟩
  show max (min 0 (toInt keysCount.toNat)) (min 0 (toInt keysCount.toNat)) = min 0 (toInt keysCount.toNat)
  omega

theorem Unused.searchLineChanged {searchBox : Text} {maximum : Int} {dialog : Dialog}
    (unused : Unused searchBox maximum dialog) (text : Text) :
    ∃ next, dialog.handle (.searchLineChanged text) = some next ∧ Unused text maximum next := by
  rw [Dialog.handle]
  split
  next same => exact ⟨dialog, rfl, same ▸ { unused with searchBox := rfl }⟩
  next other =>
    obtain ⟨_, updated⟩ := Dialog.updateControls_eq { dialog with
      searchBox := text
      cursorStack := []
      curPos := 0
      currentKey := dialog.currentKey.setValue 0 } (.inl rfl)
    refine ⟨_, updated, rfl, rfl, rfl, rfl, ?_, unused.minimum, unused.maximum⟩
    show max dialog.currentKey.minimum (min 0 dialog.currentKey.maximum) = min 0 maximum
    rw [unused.minimum, unused.maximum]
    omega

theorem opened_unused (pattern : Text) (count : UInt32) (keysCount : UInt64) :
    ∃ dialog, (opened pattern count keysCount).dialog = some dialog ∧ dialog.countSpinEdit = count ∧
      Unused pattern (toInt keysCount.toNat) dialog := by
  obtain ⟨first, created, unused⟩ := viewKeysDialog_unused keysCount
  obtain ⟨second, changed, unused⟩ := unused.searchLineChanged pattern
  refine ⟨{ second with countSpinEdit := count }, ?_, rfl, { unused with }⟩
  rw [opened, created, Option.bind_some, changed]
  rfl

theorem shows_opened_iff (keysCount : UInt64) :
    View.Shows database pattern count (opened pattern count keysCount) ↔ 0 ≤ toInt keysCount.toNat := by
  obtain ⟨dialog, here, _, unused⟩ := opened_unused pattern count keysCount
  have start : (opened pattern count keysCount).position = 0 := rfl
  rw [View.Shows, here, start]
  simp only [Option.some.injEq, exists_eq_left', unused.value, total]
  omega

theorem regular_opened (keysCount : UInt64) (fits : 0 ≤ toInt keysCount.toNat) :
    Regular database pattern count (opened pattern count keysCount) := by
  obtain ⟨dialog, here, sized, unused⟩ := opened_unused pattern count keysCount
  have low : min 0 (toInt keysCount.toNat) = 0 := by omega
  have started : dialog.started.cursorStack = [0] := by simp [Dialog.started, unused.stack]
  refine ⟨Nat.le_refl 0, dialog, 0, here, unused.searchBox, sized, ?_, ?_, Nat.le_refl 0, started,
    fun _ => rfl, ?_, ?_, ?_, ?_⟩
  · rw [unused.curPos]
    rfl
  · rw [unused.left]
    exact fun impossible => absurd impossible Bool.false_ne_true
  · rw [unused.value, low]
    rfl
  · rw [unused.minimum, low]
  · rw [unused.maximum]
    exact fits
  · rw [unused.maximum]
    exact Int32.toInt_lt _

/-- The dialog shows the page and the count for the clicks that were made exactly when the number of keys fits an
`int`, only empty pages are gone forward to again, the count stays within that number, and back is gone only to the
start or between equal pages; all within 32 bits of pages. -/
theorem paging_inverse_iff (database : Database) (pattern : Text) (count : UInt32) (nonempty : pattern ≠ [])
    (keysCount : UInt64) (clicks : List Click) :
    View.Shows database pattern count (opened pattern count keysCount) ∧
        Runs.Along (View.click database) (ShowsAfter database pattern count) (opened pattern count keysCount) clicks ↔
      0 ≤ toInt keysCount.toNat ∧
        Runs.Along (View.click database) (Reversible database pattern count) (opened pattern count keysCount)
          clicks := by
  rw [shows_opened_iff]
  exact and_congr_right fun fits => Runs.along_iff (Regular database pattern count) (regular_click nonempty)
    (showsAfter_iff nonempty) (regular_opened keysCount fits) clicks

end Views

def keyNamed (name : String) : LoadedKey := ⟨{ key := ascii name }, .string⟩

-- Three pages of one key each.
def threePages : Database := fun request =>
  if request.cursorIn = 0 then ([keyNamed "a"], 1)
  else if request.cursorIn = 1 then ([keyNamed "b"], 2)
  else ([keyNamed "c"], 0)

theorem threePages_forward :
    Runs.Along (View.click threePages) (ShowsAfter threePages (ascii "*") 1) (opened (ascii "*") 1 3)
      [.next, .next, .next] := by
  refine ((paging_inverse_iff threePages (ascii "*") 1 (by decide) 3 _).mpr ⟨by decide, ?_⟩).2
  simp only [Runs.along_cons, Runs.along_nil, and_true]
  refine ⟨fun _ => ⟨by decide, ?_⟩, fun _ => ⟨by decide, ?_⟩, fun _ => ⟨by decide, ?_⟩⟩ <;>
    exact fun dialog here => by cases here; decide

/-- After two steps forward and one back the second page is still there, and the next step forward counts down. -/
theorem threePages_back :
    (∃ dialog, (Runs.run (View.click threePages) (opened (ascii "*") 1 3) [.next, .next, .previous]).dialog =
        some dialog ∧ dialog.rows = [keyNamed "b"] ∧ page threePages (ascii "*") 1 1 = [keyNamed "a"]) ∧
      (∃ dialog, (Runs.run (View.click threePages) (opened (ascii "*") 1 3) [.next, .next, .previous, .next]).dialog =
        some dialog ∧ dialog.currentKey.value = 0 ∧ total threePages (ascii "*") 1 2 = 2) ∧
      ¬ Runs.Along (View.click threePages) (ShowsAfter threePages (ascii "*") 1) (opened (ascii "*") 1 3)
        [.next, .next, .previous] := by
  refine ⟨⟨_, rfl, by decide, by decide⟩, ⟨_, rfl, by decide, by decide⟩, ?_⟩
  intro along
  obtain ⟨⟨dialog, here, rows, _⟩, _⟩ := along [.next, .next] .previous [] rfl (by decide)
  cases here
  exact absurd (rows (by decide)) (by decide)

end FastoNoSQL.ViewKeys
