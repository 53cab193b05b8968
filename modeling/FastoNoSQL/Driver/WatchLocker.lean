import FastoNoSQL.Driver.Rendering

set_option autoImplicit false

/-!
# The observer of watched commands

`FirstChildUpdateRootLocker` of `core/driver/first_child_update_root_locker.cpp`:
it forwards the command objects of the first round and gives their first children
the values of later results.
-/

namespace FastoNoSQL.OutputTree

open Bytes

def FastoObject.inputCommand : FastoObject → Text
  | .command _ _ inputCommand => inputCommand
  | _ => []

/-- The observer with the objects it observes; `given` are the values that it gave by `SetValue`, each one
shared with the object it came with. -/
structure WatchLocker where
  commands : Nat
  objects : Objects := {}
  childrens : FastoObject → List FastoObject := fun _ => []
  given : FastoObject → Option ValueRef := fun _ => none
  watchedCmds : List FastoObject := []
  notifications : List Notification := []
  notReached : Bool := false

namespace WatchLocker

variable (locker : WatchLocker)

def value (object : FastoObject) : ValueRef := (locker.given object).getD (locker.objects.value object)

def notify (notifications : List Notification) : WatchLocker :=
  { locker with notifications := locker.notifications ++ notifications }

def setValue (object : FastoObject) (ref : ValueRef) : WatchLocker :=
  { locker with given := Function.update locker.given object (some ref) }.notify
    (if object ∈ locker.objects.observed then [.itemUpdated object ref] else [])

def withContent (content : ValueRef → ObjectValue) : WatchLocker :=
  { locker with objects := { locker.objects with content } }

def findWatchedCmd (cmd : FastoObject) : Option FastoObject :=
  locker.watchedCmds.find? fun watched => watched.inputCommand = cmd.inputCommand

-- None after `NOTREACHED`.
def findCmdChildNode (child : FastoObject) : Option FastoObject :=
  child.parent.bind fun parent =>
    if parent.isCommand then (locker.findWatchedCmd parent).bind fun watched => (locker.childrens watched).head?
    else none

/-- `ChildrenAdded`. -/
def childrenAdded (child : FastoObject) : WatchLocker :=
  if child.isCommand then
    if locker.watchedCmds.length = locker.commands then locker
    else { locker with watchedCmds := locker.watchedCmds ++ [child] }.notify [.childAdded child]
  else
    match locker.findCmdChildNode child with
    | none => { locker with notReached := true }
    | some watchedChild =>
      if watchedChild = child then locker.notify [.childAdded child]
      else locker.setValue watchedChild (locker.value child)

/-- A new object and `AddChildren` of its parent, whose observer is told. -/
def addChildren (child : FastoObject) (value : ObjectValue) : WatchLocker :=
  match child.parent with
  | none => { locker with objects := locker.objects.make child value }
  | some parent =>
    let added :=
      { locker with
        objects := (locker.objects.addChildren child value).1
        childrens := Function.update locker.childrens parent (locker.childrens parent ++ [child]) }
    if parent ∈ locker.objects.observed then added.childrenAdded child else added

def perform : Op → WatchLocker
  | .createRoot root text =>
    let (objects, notifications) := locker.objects.createRoot root text
    { locker with objects }.notify notifications
  | .addChildren child value => locker.addChildren child value
  | .append array value =>
    let ref := locker.value array
    locker.withContent (Function.update locker.objects.content ref ((locker.objects.content ref).append value))
  | .keyAdded key value =>
    let (objects, notifications) := locker.objects.keyAdded key value
    { locker with objects }.notify notifications

def performs (ops : List Op) : WatchLocker := ops.foldl perform locker

def forwardedCommand? : Notification → Option FastoObject
  | .childAdded child => if child.isCommand then some child else none
  | _ => none

-- The command objects that were forwarded.
def forwarded : List FastoObject := locker.notifications.filterMap forwardedCommand?

-- The value that an object shows.
def shows (object : FastoObject) : ObjectValue := locker.objects.get (locker.value object)

end WatchLocker

/-! ## Direct results -/

def Execution.inputCommand (execution : Execution) : Text := (createCommand execution.line).getD []

/-- The value of the direct result of an output, once it is complete. -/
def Output.value? : Output → Option ObjectValue
  | .value result => some (.value result)
  | .reply (.array elements) => some (.array (elements.filterMap scalar?))
  | .reply (.error _) => none
  | .reply read => scalar? read
  | .keyAdded _ _ => none

-- No array stands in an array.
def Output.flat : Output → Bool
  | .reply (.array elements) => elements.all fun element => (scalar? element).isSome
  | _ => true

def values (outputs : List Output) : List ObjectValue := outputs.filterMap Output.value?

def Execution.first (execution : Execution) : Option ObjectValue := (values execution.outputs).head?

def Execution.last (execution : Execution) : Option ObjectValue := (values execution.outputs).getLast?

/-- The command object gets a result of its own, which is no object of `SlaveMode`. -/
def Execution.Direct (execution : Execution) : Prop :=
  execution.inputCommand ≠ [] ∧ handler execution.inputCommand ≠ some .sync ∧ values execution.outputs ≠ []

theorem Execution.ops_of_direct (root : FastoObject) (number : Nat) (execution : Execution)
    (direct : execution.Direct) :
    execution.ops root number =
      .addChildren (.command root number execution.inputCommand) (.command execution.inputCommand) ::
        inTurn (Output.ops (.command root number execution.inputCommand)) (number + 1) execution.outputs := by
  obtain ⟨text, plain, -⟩ := direct
  rw [Execution.inputCommand] at text plain ⊢
  rw [Execution.ops]
  cases created : createCommand execution.line with
  | none => simp [created] at text
  | some input =>
      rw [created, Option.getD_some] at plain
      simp only [Option.getD_some, if_neg plain]

theorem formatElements_flat (ar : FastoObject) (number : Nat) (elements : List Redis.Reply)
    (flat : ∀ element ∈ elements, (scalar? element).isSome = true) :
    formatElements ar number elements = (elements.filterMap scalar?).map (.append ar) := by
  induction elements generalizing number with
  | nil => rfl
  | cons element elements ih =>
      rw [List.forall_mem_cons] at flat
      cases element with
      | array inner => simp [scalar?] at flat
      | _ =>
          simp only [formatElements, cliFormatReplyRawArray, scalar?, List.filterMap_cons, List.map_cons]
          rw [ih _ flat.2]
          rfl

theorem foldl_append_array (elements before : List ObjectValue) :
    elements.foldl ObjectValue.append (.array before) = .array (before ++ elements) := by
  induction elements generalizing before with
  | nil => simp
  | cons element elements ih => rw [List.foldl_cons, ObjectValue.append, ih, List.append_assoc, List.singleton_append]

/-- What a flat output makes: nothing below the command, or one object that is filled at once. -/
theorem output_ops (cmd : FastoObject) (number : Nat) (output : Output) (flat : output.flat = true) :
    (output.value? = none ∧ (output.ops cmd number = [] ∨ ∃ key value, output.ops cmd number = [.keyAdded key value])) ∨
    ∃ (child : FastoObject) (initial : ObjectValue) (elements : List ObjectValue),
      child.parent = some cmd ∧ child.isCommand = false ∧ child.number = number ∧
      output.ops cmd number = .addChildren child initial :: elements.map (.append child) ∧
      output.value? = some (elements.foldl ObjectValue.append initial) := by
  cases output with
  | value result => exact Or.inr ⟨.plain cmd number, .value result, [], rfl, rfl, rfl, rfl, rfl⟩
  | keyAdded key result => exact Or.inl ⟨rfl, Or.inr ⟨key.key, .value result, rfl⟩⟩
  | reply reply =>
      cases reply with
      | error text => exact Or.inl ⟨rfl, Or.inl rfl⟩
      | array elements =>
          refine Or.inr ⟨.array cmd number, .array [], elements.filterMap scalar?, rfl, rfl, rfl, ?_, ?_⟩
          · rw [← formatElements_flat _ (number + 1) elements (List.all_eq_true.mp flat)]
            rfl
          · rw [foldl_append_array, List.nil_append]
            rfl
      | _ => exact Or.inr ⟨.plain cmd number, _, [], rfl, rfl, rfl, rfl, rfl⟩

/-! ## What the watched commands show -/

-- What each watched command shows in its first child, if it has one.
abbrev Panel := FastoObject → Option ObjectValue

namespace WatchLocker

/-- An object shows the complete value of an object that was made before. -/
structure Tracks (locker : WatchLocker) (next : Nat) (object : FastoObject) (value : ObjectValue) : Prop where
  before : object.number < next
  source : ∃ source, source.number < next ∧ locker.value object = .own source ∧ locker.objects.Holds source value

def First (locker : WatchLocker) (next : Nat) (watched : FastoObject) : Option ObjectValue → Prop
  | none => locker.childrens watched = []
  | some value => ∃ first, (locker.childrens watched).head? = some first ∧ first.parent = some watched ∧
      locker.Tracks next first value

structure Follows (locker : WatchLocker) (next : Nat) (panel : Panel) : Prop where
  fresh : ∀ object, next ≤ object.number → locker.childrens object = [] ∧ locker.given object = none
  below : ∀ watched ∈ locker.watchedCmds, watched.isCommand = true ∧ watched.number < next
  first : ∀ watched ∈ locker.watchedCmds, locker.First next watched (panel watched)
  reached : locker.notReached = false

-- A direct result of a command is shown by the watched command of its text, and by the command itself when it is its
-- first.
def showResult (cmd watched : FastoObject) (panel : Panel) (value : ObjectValue) : Panel :=
  Function.update (if panel cmd = none then Function.update panel cmd (some value) else panel) watched (some value)

section ShowResult

variable (cmd watched : FastoObject) (panel : Panel) (value : ObjectValue)

theorem showResult_watched : showResult cmd watched panel value watched = some value := Function.update_self _ _ _

theorem showResult_cmd (other : cmd ≠ watched) :
    showResult cmd watched panel value cmd = some ((panel cmd).getD value) := by
  rw [showResult, Function.update_of_ne other]
  cases before : panel cmd <;> simp [before]

theorem showResult_other {object : FastoObject} (notCmd : object ≠ cmd) (notWatched : object ≠ watched) :
    showResult cmd watched panel value object = panel object := by
  rw [showResult, Function.update_of_ne notWatched]
  split
  · exact Function.update_of_ne notCmd _ _
  · rfl

end ShowResult

variable {locker : WatchLocker} {next : Nat} {panel : Panel}

theorem Tracks.shows {object : FastoObject} {value : ObjectValue} (tracks : locker.Tracks next object value) :
    locker.shows object = value := by
  obtain ⟨source, -, same, held⟩ := tracks.source
  rw [WatchLocker.shows, same]
  exact held.2

theorem First.kept {after : WatchLocker} {later : Nat} {watched : FastoObject} {value : Option ObjectValue}
    (shown : locker.First next watched value) (childrens : after.childrens watched = locker.childrens watched)
    (tracks : ∀ first result, first.parent = some watched → locker.Tracks next first result →
      after.Tracks later first result) : after.First later watched value := by
  cases value with
  | none => exact childrens.trans shown
  | some result =>
      obtain ⟨first, head, parent, old⟩ := shown
      exact ⟨first, by rw [childrens, head], parent, tracks first result parent old⟩

@[simp] theorem performs_nil (locker : WatchLocker) : locker.performs [] = locker := rfl

theorem performs_cons (locker : WatchLocker) (op : Op) (ops : List Op) :
    locker.performs (op :: ops) = (locker.perform op).performs ops := rfl

theorem performs_append (locker : WatchLocker) (first last : List Op) :
    locker.performs (first ++ last) = (locker.performs first).performs last := List.foldl_append

-- An object that shows its own value is filled.
theorem performs_fill (locker : WatchLocker) (child : FastoObject) (elements : List ObjectValue)
    (own : locker.value child = .own child) :
    ∃ content, locker.performs (elements.map (.append child)) = locker.withContent content ∧
      content (.own child) = elements.foldl ObjectValue.append (locker.objects.content (.own child)) ∧
      ∀ ref, ref ≠ .own child → content ref = locker.objects.content ref := by
  induction elements generalizing locker with
  | nil => exact ⟨locker.objects.content, rfl, rfl, fun _ _ => rfl⟩
  | cons element elements ih =>
      rw [List.map_cons, performs_cons, perform, own]
      obtain ⟨content, same, filled, others⟩ := ih
        (locker.withContent (Function.update locker.objects.content (.own child)
          ((locker.objects.content (.own child)).append element))) own
      refine ⟨content, same, ?_, ?_⟩
      · rw [filled]
        simp [withContent]
      · intro ref other
        rw [others ref other]
        exact Function.update_of_ne other _ _

-- The new object stands behind the others of its parent before the observer hears of it.
def attached (locker : WatchLocker) (cmd child : FastoObject) (initial : ObjectValue) : WatchLocker :=
  { locker with
    objects := (locker.objects.addChildren child initial).1
    childrens := Function.update locker.childrens cmd (locker.childrens cmd ++ [child]) }

-- The first child of the watched command is the new object, or shares its value.
theorem addChildren_result {cmd child watched first : FastoObject} (initial : ObjectValue)
    (made : child.parent = some cmd) (isCommand : cmd.isCommand = true) (plain : child.isCommand = false)
    (observed : cmd ∈ locker.objects.observed) (found : locker.findWatchedCmd cmd = some watched)
    (head : ((locker.attached cmd child initial).childrens watched).head? = some first)
    (own : (locker.attached cmd child initial).value child = .own child) :
    ∃ notifications, notifications.filterMap forwardedCommand? = [] ∧
      locker.addChildren child initial =
        ({ locker.attached cmd child initial with
          given := if first = child then locker.given else Function.update locker.given first (some (.own child)) } :
          WatchLocker).notify notifications := by
  have same : (locker.attached cmd child initial).findWatchedCmd cmd = some watched := found
  have told : locker.addChildren child initial = (locker.attached cmd child initial).childrenAdded child := by
    simp only [addChildren, made, observed, if_true]
    rfl
  rw [told, childrenAdded, if_neg (by simp [plain])]
  simp only [findCmdChildNode, made, Option.bind_some, isCommand, if_true, same, head]
  by_cases here : first = child
  · exact ⟨[.childAdded child], by simp [forwardedCommand?, plain], by simp [here]; rfl⟩
  · simp only [here, if_false, own, setValue]
    refine ⟨_, ?_, rfl⟩
    split <;> simp [forwardedCommand?]

/-- What a direct result changes: a new child with a value, which the first child of the watched command shares. -/
structure Placed (locker after : WatchLocker) (cmd child first : FastoObject) (value : ObjectValue) : Prop where
  childrens : after.childrens = Function.update locker.childrens cmd (locker.childrens cmd ++ [child])
  given : after.given = if first = child then locker.given else Function.update locker.given first (some (.own child))
  replaced : after.objects.replaced = Function.update locker.objects.replaced child none
  complete : after.objects.content (.own child) = value
  others : ∀ ref, ref ≠ .own child → after.objects.content ref = locker.objects.content ref

/-- What stays as it is while a command is executed. -/
structure Keeps (locker after : WatchLocker) : Prop where
  commands : after.commands = locker.commands
  watchedCmds : after.watchedCmds = locker.watchedCmds
  observed : locker.objects.observed ⊆ after.objects.observed
  forwarded : after.forwarded = locker.forwarded

theorem Keeps.refl (locker : WatchLocker) : locker.Keeps locker := ⟨rfl, rfl, List.Subset.refl _, rfl⟩

theorem Keeps.trans {first second third : WatchLocker} (keeps : first.Keeps second) (next : second.Keeps third) :
    first.Keeps third :=
  ⟨next.commands.trans keeps.commands, next.watchedCmds.trans keeps.watchedCmds,
    List.Subset.trans keeps.observed next.observed, next.forwarded.trans keeps.forwarded⟩

section Placed

variable {after : WatchLocker} {cmd child first object : FastoObject} {value result : ObjectValue}

theorem Placed.holds (placed : Placed locker after cmd child first value) : after.objects.Holds child value :=
  ⟨by simp [placed.replaced], placed.complete⟩

theorem Placed.tracks_child (placed : Placed locker after cmd child first value)
    (fresh : locker.given child = none) (place : child.number = next) : after.Tracks (next + 1) child value := by
  refine ⟨by omega, child, by omega, ?_, placed.holds⟩
  have nothing : after.given child = none := by
    rw [placed.given]
    split
    · exact fresh
    next other => rw [Function.update_of_ne (Ne.symm other), fresh]
  simp [WatchLocker.value, nothing, Objects.value, placed.replaced]

theorem Placed.tracks_first (placed : Placed locker after cmd child first value) (fresh : locker.given child = none)
    (place : child.number = next) (age : first = child ∨ first.number < next) :
    after.Tracks (next + 1) first value := by
  rcases age with rfl | older
  · exact placed.tracks_child fresh place
  · have other : first ≠ child := by
      rintro rfl
      omega
    refine ⟨by omega, child, by omega, ?_, placed.holds⟩
    simp [WatchLocker.value, placed.given, other]

theorem Placed.tracks (placed : Placed locker after cmd child first value) (place : child.number = next)
    (tracks : locker.Tracks next object result) (other : object ≠ first) : after.Tracks (next + 1) object result := by
  obtain ⟨before, source, older, shown, held⟩ := tracks
  have new (object : FastoObject) (old : object.number < next) : object ≠ child := by
    rintro rfl
    omega
  have given : after.given object = locker.given object := by
    rw [placed.given]
    split
    · rfl
    · exact Function.update_of_ne other _ _
  have same : after.objects.value object = locker.objects.value object := by
    rw [Objects.value, Objects.value, placed.replaced, Function.update_of_ne (new object before)]
  refine ⟨by omega, source, by omega, ?_, ?_, ?_⟩
  · rw [WatchLocker.value, given, same]
    exact shown
  · rw [placed.replaced, Function.update_of_ne (new source older)]
    exact held.1
  · rw [placed.others _ (by simpa using new source older)]
    exact held.2

end Placed

section Result

variable (follows : locker.Follows next panel) {cmd child watched : FastoObject} (isCommand : cmd.isCommand = true)
  (observed : cmd ∈ locker.objects.observed) (found : locker.findWatchedCmd cmd = some watched)
  (ready : panel watched ≠ none ∨ watched = cmd) (made : child.parent = some cmd) (plain : child.isCommand = false)
  (place : child.number = next) (initial : ObjectValue) (elements : List ObjectValue)

include follows found ready made

theorem exists_head :
    ∃ first, ((locker.attached cmd child initial).childrens watched).head? = some first ∧
      first.parent = some watched ∧ (first = child ∨ first.number < next) := by
  have shown := follows.first watched (List.mem_of_find?_eq_some found)
  by_cases own : watched = cmd
  · subst own
    cases value : panel watched with
    | none =>
        rw [value] at shown
        have empty : locker.childrens watched = [] := shown
        exact ⟨child, by simp [attached, empty], made, Or.inl rfl⟩
    | some result =>
        rw [value] at shown
        obtain ⟨first, head, parent, tracks⟩ := shown
        exact ⟨first, by simp [attached, List.head?_append, head], parent, Or.inr tracks.before⟩
  · obtain ⟨result, value⟩ := Option.ne_none_iff_exists'.mp (ready.resolve_right own)
    rw [value] at shown
    obtain ⟨first, head, parent, tracks⟩ := shown
    exact ⟨first, by simp [attached, own, head], parent, Or.inr tracks.before⟩

include isCommand observed plain place

theorem placed :
    let after := locker.performs (.addChildren child initial :: elements.map (.append child))
    ∃ first, (after.childrens watched).head? = some first ∧ first.parent = some watched ∧
      (first = child ∨ first.number < next) ∧
      Placed locker after cmd child first (elements.foldl ObjectValue.append initial) ∧ locker.Keeps after ∧
      after.notReached = false := by
  obtain ⟨first, head, parent, age⟩ := exists_head follows found ready made initial
  have fresh := (follows.fresh child place.ge).2
  have own : (locker.attached cmd child initial).value child = .own child := by
    simp [value, attached, fresh, Objects.value, Objects.addChildren_replaced]
  obtain ⟨notes, silent, added⟩ := addChildren_result initial made isCommand plain observed found head own
  have ownAdded : (locker.addChildren child initial).value child = .own child := by
    have nothing : (locker.addChildren child initial).given child = none := by
      rw [added, notify]
      dsimp only
      split
      · exact fresh
      next other => rw [Function.update_of_ne (Ne.symm other), fresh]
    rw [value, nothing, Objects.value, added]
    simp [notify, attached, Objects.addChildren_replaced]
  obtain ⟨content, all, filled, others⟩ := performs_fill (locker.addChildren child initial) child elements ownAdded
  rw [performs_cons, perform, all, added]
  rw [added] at filled others
  refine ⟨first, head, parent, age, ⟨rfl, rfl, ?_, ?_, ?_⟩, ⟨rfl, rfl, ?_, ?_⟩, follows.reached⟩
  · exact Objects.addChildren_replaced locker.objects child initial
  · refine filled.trans ?_
    have start : (locker.objects.addChildren child initial).1.content (.own child) = initial := by
      simp [Objects.addChildren_content]
    exact congrArg (elements.foldl ObjectValue.append) start
  · intro ref other
    refine (others ref other).trans ?_
    show (locker.objects.addChildren child initial).1.content ref = _
    rw [Objects.addChildren_content, Function.update_of_ne other]
  · exact Objects.observed_addChildren locker.objects child initial
  · show (locker.notifications ++ notes).filterMap forwardedCommand? = locker.notifications.filterMap forwardedCommand?
    rw [List.filterMap_append, silent, List.append_nil]

/-- A direct result is shown in the right places. -/
theorem Follows.result (old : cmd.number < next) :
    let after := locker.performs (.addChildren child initial :: elements.map (.append child))
    after.Follows (next + 1) (showResult cmd watched panel (elements.foldl ObjectValue.append initial)) ∧
      locker.Keeps after := by
  obtain ⟨first, head, parent, age, placed, keeps, reached⟩ :=
    placed follows isCommand observed found ready made plain place initial elements
  have fresh := (follows.fresh child place.ge).2
  refine ⟨⟨?_, ?_, ?_, reached⟩, keeps⟩
  · intro object new
    have later := follows.fresh object (by omega)
    rw [placed.childrens, placed.given]
    constructor
    · rw [Function.update_of_ne (by rintro rfl; omega)]
      exact later.1
    · split
      · exact later.2
      · rw [Function.update_of_ne (by rintro rfl; rcases age with rfl | older <;> omega)]
        exact later.2
  · intro object member
    rw [keeps.watchedCmds] at member
    exact ⟨(follows.below object member).1, Nat.lt_succ_of_lt (follows.below object member).2⟩
  · intro object member
    rw [keeps.watchedCmds] at member
    have shown := follows.first object member
    by_cases here : object = watched
    · subst here
      rw [showResult_watched]
      exact ⟨first, head, parent, placed.tracks_first fresh place age⟩
    · -- The first children of two commands are different objects.
      have apart (other : FastoObject) (of : other.parent = some object) : other ≠ first := by
        rintro rfl
        exact here (Option.some.inj (of.symm.trans parent))
      by_cases mine : object = cmd
      · subst mine
        rw [showResult_cmd _ _ _ _ here]
        cases value : panel object with
        | none =>
            rw [value] at shown
            have empty : locker.childrens object = [] := shown
            exact ⟨child, by simp [placed.childrens, empty], made, placed.tracks_child fresh place⟩
        | some result =>
            rw [value] at shown
            obtain ⟨other, before, of, tracks⟩ := shown
            exact ⟨other, by simp [placed.childrens, List.head?_append, before], of,
              placed.tracks place tracks (apart other of)⟩
      · rw [showResult_other _ _ _ _ mine here]
        refine shown.kept ?_ fun other result of tracks => placed.tracks place tracks (apart other of)
        rw [placed.childrens, Function.update_of_ne mine]

end Result

theorem Follows.keyAdded (follows : locker.Follows next panel) (key : Text) (result : ObjectValue) :
    (locker.perform (.keyAdded key result)).Follows next panel ∧
      locker.Keeps (locker.perform (.keyAdded key result)) := by
  refine ⟨⟨follows.fresh, follows.below, ?_, follows.reached⟩, ⟨rfl, rfl, List.Subset.refl _, ?_⟩⟩
  · intro watched member
    refine (follows.first watched member).kept rfl ?_
    rintro first shown - ⟨before, source, older, same, held⟩
    have other : ValueRef.own source ≠ .later locker.objects.values := by simp
    exact ⟨before, source, older, same, held.1, (Function.update_of_ne other result _).trans held.2⟩
  · show (locker.notifications ++ [Notification.keyAdded key _]).filterMap forwardedCommand? = _
    simp [forwarded, forwardedCommand?]

section Outputs

variable {cmd watched : FastoObject} (isCommand : cmd.isCommand = true)

include isCommand

theorem Follows.output (follows : locker.Follows next panel) (old : cmd.number < next)
    (observed : cmd ∈ locker.objects.observed) (found : locker.findWatchedCmd cmd = some watched)
    (ready : panel watched ≠ none ∨ watched = cmd) (output : Output) (flat : output.flat = true) :
    let after := locker.performs (output.ops cmd next)
    after.Follows (next + (added (output.ops cmd next)).length)
        (output.value?.toList.foldl (showResult cmd watched) panel) ∧
      locker.Keeps after := by
  rcases output_ops cmd next output flat with
    ⟨nothing, none | ⟨key, result, stored⟩⟩ | ⟨child, initial, elements, made, plain, place, ops, value⟩
  · rw [none, nothing]
    exact ⟨follows, Keeps.refl locker⟩
  · rw [stored, nothing]
    exact follows.keyAdded key result
  · have alone : added (elements.map (Op.append child)) = [] := by simp [added, Op.child?]
    have one : (added (output.ops cmd next)).length = 1 := by
      rw [ops]
      show (child :: added (elements.map (Op.append child))).length = 1
      rw [alone]
      rfl
    rw [one, value, ops]
    exact follows.result isCommand observed found ready made plain place initial elements old

theorem Follows.outputs (follows : locker.Follows next panel) (old : cmd.number < next)
    (observed : cmd ∈ locker.objects.observed) (found : locker.findWatchedCmd cmd = some watched)
    (ready : panel watched ≠ none ∨ watched = cmd) (outputs : List Output)
    (flat : ∀ output ∈ outputs, output.flat = true) :
    let ops := inTurn (Output.ops cmd) next outputs
    (locker.performs ops).Follows (next + (added ops).length)
        ((values outputs).foldl (showResult cmd watched) panel) ∧
      locker.Keeps (locker.performs ops) := by
  induction outputs generalizing locker next panel with
  | nil => exact ⟨follows, Keeps.refl locker⟩
  | cons output outputs ih =>
      rw [List.forall_mem_cons] at flat
      obtain ⟨shown, keeps⟩ := follows.output isCommand old observed found ready output flat.1
      have same : (locker.performs (output.ops cmd next)).findWatchedCmd cmd = some watched := by
        rw [findWatchedCmd, keeps.watchedCmds]
        exact found
      have still : output.value?.toList.foldl (showResult cmd watched) panel watched ≠ none ∨ watched = cmd := by
        refine ready.imp_left fun value => ?_
        cases output.value? with
        | none => exact value
        | some result => simp [showResult_watched]
      obtain ⟨all, rest⟩ := ih shown (Nat.lt_add_right _ old) (keeps.observed observed) same still flat.2
      have joined : values (output :: outputs) = output.value?.toList ++ values outputs := by
        rw [values, List.filterMap_cons]
        cases output.value? <;> rfl
      dsimp only
      rw [inTurn, performs_append, added_append, List.length_append, ← Nat.add_assoc, joined, List.foldl_append]
      exact ⟨all, keeps.trans rest⟩

end Outputs

section Panels

variable (cmd watched : FastoObject) (panel : Panel) (results : List ObjectValue)

theorem panel_watched (more : results ≠ []) :
    results.foldl (showResult cmd watched) panel watched = results.getLast? := by
  obtain ⟨front, last, rfl⟩ := (List.eq_nil_or_concat' results).resolve_left more
  rw [List.foldl_append, List.foldl_cons, List.foldl_nil, showResult_watched, List.getLast?_concat]

theorem panel_cmd (other : cmd ≠ watched) :
    results.foldl (showResult cmd watched) panel cmd = (panel cmd).or results.head? := by
  induction results generalizing panel with
  | nil => exact Option.or_none.symm
  | cons result results ih =>
      rw [List.foldl_cons, ih, showResult_cmd _ _ _ _ other]
      cases panel cmd <;> rfl

theorem panel_other {object : FastoObject} (notCmd : object ≠ cmd) (notWatched : object ≠ watched) :
    results.foldl (showResult cmd watched) panel object = panel object := by
  induction results generalizing panel with
  | nil => rfl
  | cons result results ih => rw [List.foldl_cons, ih, showResult_other _ _ _ _ notCmd notWatched]

end Panels

/-! ## A command is executed -/

-- A command object is watched unless enough are.
def new (locker : WatchLocker) (cmd : FastoObject) : List FastoObject :=
  if locker.watchedCmds.length = locker.commands then [] else [cmd]

theorem eq_of_mem_new {watched cmd : FastoObject} (member : watched ∈ locker.new cmd) : watched = cmd := by
  rw [new] at member
  split at member
  · simp at member
  · exact List.mem_singleton.mp member

section Command

variable {cmd : FastoObject} {n : Nat} (isCommand : cmd.isCommand = true) (made : cmd.parent = some (.root n))
  (observed : FastoObject.root n ∈ locker.objects.observed) (initial : ObjectValue)

include isCommand made observed

theorem addChildren_command :
    locker.addChildren cmd initial =
      { locker.attached (.root n) cmd initial with
        watchedCmds := locker.watchedCmds ++ locker.new cmd
        notifications := locker.notifications ++ (locker.new cmd).map .childAdded } := by
  have told : locker.addChildren cmd initial = (locker.attached (.root n) cmd initial).childrenAdded cmd := by
    simp only [addChildren, made, observed, if_true]
    rfl
  rw [told, childrenAdded, if_pos isCommand]
  by_cases full : locker.watchedCmds.length = locker.commands
  · simp [new, full, attached]
  · simp [new, full, attached, notify]

-- The command object is forwarded when it is watched.
theorem addChildren_command_keeps :
    let after := locker.addChildren cmd initial
    after.commands = locker.commands ∧ after.watchedCmds = locker.watchedCmds ++ locker.new cmd ∧
      after.forwarded = locker.forwarded ++ locker.new cmd ∧ cmd ∈ after.objects.observed ∧
      locker.objects.observed ⊆ after.objects.observed := by
  dsimp only
  rw [addChildren_command isCommand made observed]
  refine ⟨rfl, rfl, ?_, ?_, Objects.observed_addChildren locker.objects cmd initial⟩
  · rw [forwarded, List.filterMap_append, List.filterMap_map, forwarded, new]
    split <;> simp [forwardedCommand?, isCommand]
  · simp [attached, Objects.addChildren, made, Objects.make, observed]

theorem Follows.command (follows : locker.Follows next panel) (place : cmd.number = next) :
    (locker.addChildren cmd initial).Follows (next + 1) (Function.update panel cmd none) := by
  have fresh := follows.fresh cmd place.ge
  have notRoot : cmd ≠ .root n := by
    rintro rfl
    cases made
  rw [addChildren_command isCommand made observed]
  refine ⟨?_, ?_, ?_, follows.reached⟩
  · intro object later
    have other : object ≠ .root n := by
      rintro rfl
      exact absurd later (Nat.not_le.mpr (Nat.succ_pos next))
    refine ⟨?_, (follows.fresh object (by omega)).2⟩
    exact (Function.update_of_ne other _ _).trans (follows.fresh object (by omega)).1
  · intro watched member
    rcases List.mem_append.mp member with old | added
    · exact ⟨(follows.below watched old).1, Nat.lt_succ_of_lt (follows.below watched old).2⟩
    · rw [eq_of_mem_new added]
      exact ⟨isCommand, by omega⟩
  · intro watched member
    by_cases own : watched = cmd
    · subst own
      rw [Function.update_self]
      exact (Function.update_of_ne notRoot _ _).trans fresh.1
    · have old := (List.mem_append.mp member).resolve_right fun added => own (eq_of_mem_new added)
      have apart : watched ≠ .root n := by
        rintro rfl
        cases (follows.below _ old).1
      rw [Function.update_of_ne own]
      refine (follows.first watched old).kept (Function.update_of_ne apart _ _) ?_
      rintro first result - ⟨before, source, older, same, held⟩
      have others (object : FastoObject) (below : object.number < next) : object ≠ cmd := by
        rintro rfl
        omega
      refine ⟨by omega, source, by omega, ?_, held.addChildren (others source older) initial⟩
      rw [← same]
      show (locker.given first).getD ((locker.objects.addChildren cmd initial).1.value first) = _
      rw [Objects.value, Objects.addChildren_replaced, Function.update_of_ne (others first before)]
      rfl

end Command

theorem Follows.execution (follows : locker.Follows next panel) {n : Nat}
    (observed : FastoObject.root n ∈ locker.objects.observed) (execution : Execution) (direct : execution.Direct)
    (flat : ∀ output ∈ execution.outputs, output.flat = true) {watched : FastoObject} :
    let cmd := FastoObject.command (.root n) next execution.inputCommand
    let ops := execution.ops (.root n) next
    let after := locker.performs ops
    ((locker.watchedCmds ++ locker.new cmd).find? fun object => object.inputCommand = cmd.inputCommand) = some watched →
      panel watched ≠ none ∧ watched ≠ cmd ∨ watched = cmd →
      after.Follows (next + (added ops).length)
          ((values execution.outputs).foldl (showResult cmd watched) (Function.update panel cmd none)) ∧
        after.commands = locker.commands ∧ after.watchedCmds = locker.watchedCmds ++ locker.new cmd ∧
        after.forwarded = locker.forwarded ++ locker.new cmd ∧ FastoObject.root n ∈ after.objects.observed := by
  intro cmd ops after found ready
  have isCommand : cmd.isCommand = true := rfl
  have made : cmd.parent = some (.root n) := rfl
  have ops_eq : ops = .addChildren cmd (.command execution.inputCommand) ::
      inTurn (Output.ops cmd) (next + 1) execution.outputs := Execution.ops_of_direct _ _ _ direct
  obtain ⟨sameCommands, sameWatched, sameForwarded, attached, grown⟩ :=
    addChildren_command_keeps isCommand made observed (.command execution.inputCommand)
  have start := follows.command isCommand made observed (.command execution.inputCommand) rfl
  have here : (locker.addChildren cmd (.command execution.inputCommand)).findWatchedCmd cmd = some watched := by
    rw [findWatchedCmd, sameWatched]
    exact found
  have first : Function.update panel cmd none watched ≠ none ∨ watched = cmd := by
    refine ready.imp_left fun both => ?_
    rw [Function.update_of_ne both.2]
    exact both.1
  have old : cmd.number < next + 1 := Nat.lt_succ_self next
  obtain ⟨shown, keeps⟩ := start.outputs isCommand old attached here first execution.outputs flat
  have all : after = (locker.addChildren cmd (.command execution.inputCommand)).performs
      (inTurn (Output.ops cmd) (next + 1) execution.outputs) := by
    show locker.performs ops = _
    rw [ops_eq]
    rfl
  have count : next + (added ops).length =
      next + 1 + (added (inTurn (Output.ops cmd) (next + 1) execution.outputs)).length := by
    rw [ops_eq, Nat.add_assoc, Nat.add_comm 1]
    rfl
  rw [all, count]
  exact ⟨shown, keeps.commands.trans sameCommands, keeps.watchedCmds.trans sameWatched,
    keeps.forwarded.trans sameForwarded, keeps.observed (grown observed)⟩

end WatchLocker

end FastoNoSQL.OutputTree
