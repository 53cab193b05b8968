import FastoNoSQL.Gui.Output

set_option autoImplicit false

/-!
# The output tree and the results

The widget shows an object with the value that it has when the notification is
delivered, and later values when theirs are. What the driver did since the root
of the last request and what is queued of it tell what the items will be.
-/

namespace FastoNoSQL.OutputTree

open Bytes

variable {Address Name : Type} (lib : Library Address Name)

/-- Below the root of the request there is one item for each direct result and one for each nested
array, and each item has the value of its object unless the request added a key. -/
structure Mirrors (system : System Address) (n : Nat) (request : Request) : Prop where
  items : system.model.map Row.pointer = (Rose.node (.root n) (request.results n) .nil).map lib.address
  values : (∀ key value, .keyAdded key value ∉ request.ops n) →
    ∀ object ∈ (request.results n).values, ∀ row ∈ system.model.values, row.pointer = lib.address object →
      system.objects.get row.value = system.objects.get (system.objects.value object)

/-! ## Rows and objects -/

section Rows

variable {objects : Objects} (text : Text)

-- The key of the item of an object, and whether it is read only.
def face (object : FastoObject) : Text × Bool :=
  match object.parent with
  | some (.command _ _ inputCommand) =>
    (getFirstWordFromLine (inputArgs lib inputCommand), isReadOnly inputCommand)
  | _ => ([], true)

-- The row of an object, with the value that the object has now; a root has a copy of its text.
def itemOf (objects : Objects) (object : FastoObject) : Row Address where
  pointer := lib.address object
  key := (face lib object).1
  readOnly := (face lib object).2
  value := if object.parent = none then .copy text else objects.value object

theorem itemOf_congr (other : Objects) (object : FastoObject) (same : other.value object = objects.value object) :
    itemOf lib text other object = itemOf lib text objects object := by
  simp only [itemOf, same]

theorem itemOf_replaced (objects other : Objects) (object : FastoObject) (item : ∀ n, object ≠ .root n) :
    itemOf lib text other object = { itemOf lib text objects object with value := other.value object } := by
  cases object with
  | root n => exact absurd rfl (item n)
  | _ => rfl

-- The rows of a model are those of a tree of objects, at least their pointers.
theorem insertBelow_map (lawful : lib.Lawful) {B : Type} (f : Row Address → B) (g : FastoObject → B)
    {model : Model Address} {tree : Rose FastoObject} (parent child : FastoObject) (key : Text) (readOnly : Bool)
    (nodup : tree.values.Nodup)
    (request : ∀ object ∈ tree.values, object.request = parent.request)
    (pointers : model.map Row.pointer = tree.map lib.address) (rows : model.map f = tree.map g)
    (item : f (createItem lib objects key readOnly child) = g child) :
    (insertBelow lib objects model parent key readOnly child).map f = (tree.graft parent (.leaf child)).map g := by
  rw [insertBelow, pointers]
  split
  next missing =>
    have absent := lawful.missed _ _ missing
    rw [Rose.values_map] at absent
    rw [Rose.graft_of_not_mem fun member => absent (List.mem_map_of_mem member), rows]
  next n found =>
    have place := lawful.found _ _ _ found
    rw [Rose.values_map, List.getElem?_map, Option.map_eq_some_iff] at place
    obtain ⟨object, place, same⟩ := place
    obtain rfl := lawful.address_inj _ _ (request object (List.mem_of_getElem? place)) same
    have leaf : (Rose.leaf (createItem lib objects key readOnly child)).map f = (Rose.leaf child).map g :=
      congrArg Rose.leaf item
    rw [← Rose.insertAt_eq_graft nodup place, Rose.map_insertAt, Rose.map_insertAt, rows, leaf]

theorem addChild_map (lawful : lib.Lawful) {B : Type} (f : Row Address → B) (g : FastoObject → B)
    {model next : Model Address} {tree : Rose FastoObject} (child : FastoObject) (nodup : tree.values.Nodup)
    (request : ∀ object ∈ tree.values, object.request = child.request)
    (pointers : model.map Row.pointer = tree.map lib.address) (rows : model.map f = tree.map g)
    (item : f (itemOf lib text objects child) = g child) (shown : addChild lib objects model child = some next) :
    next.map f = (Rose.grow anchor tree child).map g := by
  cases child with
  | root n => cases shown
  | command parent number inputCommand =>
      obtain rfl : model = next := Option.some.inj shown
      exact rows
  | array parent number | plain parent number =>
      cases parent with
      | root n => cases shown
      | plain owner n => cases shown
      | command owner n inputCommand =>
          obtain rfl := Option.some.inj shown
          exact insertBelow_map lib lawful f g owner _ _ _ nodup request pointers rows item
      | array owner n =>
          obtain rfl := Option.some.inj shown
          exact insertBelow_map lib lawful f g _ _ _ _ nodup request pointers rows item

section KeyAdded

variable [DecidableEq Name] (key : Text) (value : ValueRef)

theorem changeFirst_pointers (items : Model Address) :
    (changeFirst lib key value items).map Row.pointer = items.map Row.pointer := by
  induction items with
  | nil => rfl
  | node row children rest _ ih =>
      rw [changeFirst]
      split
      · rfl
      · rw [Rose.map, Rose.map, ih]

theorem changeValue_pointers (model : Model Address) :
    (changeValue lib key value model).map Row.pointer = model.map Row.pointer := by
  cases model with
  | nil => rfl
  | node root items rest => rw [changeValue, Rose.map, Rose.map, changeFirst_pointers]

end KeyAdded

/-! ### Updates -/

variable [DecidableEq Address]

def Notification.update (row : Row Address) : Notification → Row Address
  | itemUpdated item newValue => if row.pointer = lib.address item then { row with value := newValue } else row
  | _ => row

-- The row after everything that is queued.
def settle (row : Row Address) (notes : List Notification) : Row Address := notes.foldl (Notification.update lib) row

theorem settle_concat_eq (row : Row Address) (notes : List Notification) (note : Notification) :
    settle lib row (notes ++ [note]) = note.update lib (settle lib row notes) := by
  rw [settle, List.foldl_append]
  rfl

theorem settle_fields (row : Row Address) (notes : List Notification) :
    ∃ value, settle lib row notes = { row with value := value } := by
  induction notes generalizing row with
  | nil => exact ⟨row.value, rfl⟩
  | cons note notes ih =>
      obtain ⟨value, after⟩ := ih (note.update lib row)
      refine ⟨value, after.trans ?_⟩
      cases note with
      | itemUpdated item newValue =>
          rw [Notification.update]
          split <;> rfl
      | _ => rfl

-- What ends in a value before a notification ends in the value after it.
theorem settle_update {row : Row Address} {notes : List Notification} (note : Notification)
    (settled : settle lib row notes = row) :
    settle lib (note.update lib row) (notes ++ [note]) = note.update lib row := by
  rw [settle_concat_eq]
  cases note with
  | itemUpdated item newValue =>
      by_cases same : row.pointer = lib.address item
      · have updated : (Notification.itemUpdated item newValue).update lib row = { row with value := newValue } :=
          if_pos same
        obtain ⟨value, after⟩ := settle_fields lib { row with value := newValue } notes
        rw [updated, after]
        exact if_pos same
      · have kept : (Notification.itemUpdated item newValue).update lib row = row := if_neg same
        rw [kept, settled, kept]
  | _ => exact settled

theorem settle_of_apart {row : Row Address} {notes : List Notification}
    (apart : ∀ item newValue, .itemUpdated item newValue ∈ notes → row.pointer ≠ lib.address item) :
    settle lib row notes = row := by
  induction notes with
  | nil => rfl
  | cons note notes ih =>
      have kept : note.update lib row = row := by
        cases note with
        | itemUpdated item newValue => exact if_neg (apart item newValue (by simp))
        | _ => rfl
      rw [settle, List.foldl_cons, kept]
      exact ih fun item newValue member => apart item newValue (List.mem_cons_of_mem note member)

-- The item of an object gets the value; the root is not one.
theorem updateItem_map (lawful : lib.Lawful) {B : Type} (f : Row Address → B) {model : Model Address}
    (item : FastoObject) (newValue : ValueRef) (nodup : (model.map Row.pointer).values.Nodup)
    (root : (model.map Row.pointer).values[0]? ≠ some (lib.address item)) :
    (updateItem lib model item newValue).map f =
      model.map fun row => f ((Notification.itemUpdated item newValue).update lib row) := by
  rw [updateItem]
  split
  next missing =>
    have absent := lawful.missed _ _ missing
    rw [Rose.values_map] at absent
    apply Rose.map_congr
    intro row member
    have other : row.pointer ≠ lib.address item := fun same => absent (same ▸ List.mem_map_of_mem member)
    rw [Notification.update, if_neg other]
  next found => exact absurd (lawful.found _ _ _ found) root
  next n found =>
    have place := lawful.found _ _ _ found
    apply Rose.map_modifyAt
    · intro row member
      have here : row.pointer = lib.address item := by
        rw [Rose.values_map, List.getElem?_map, member] at place
        exact Option.some.inj place
      simp only [Notification.update, if_pos here]
    · intro m row apart held
      have other : row.pointer ≠ lib.address item := by
        intro same
        have second : (model.map Row.pointer).values[m]? = some (lib.address item) := by
          rw [Rose.values_map, List.getElem?_map, held, ← same]
          rfl
        exact apart ((List.getElem?_inj (List.getElem?_eq_some_iff.mp second).1 nodup).mp (second.trans place.symm))
      rw [Notification.update, if_neg other]

end Rows

/-! ## The last request -/

section Phase

variable [DecidableEq Address] (n : Nat) (text : Text) (quiet : Prop)

def Notification.child? : Notification → Option FastoObject
  | childAdded child => some child
  | _ => none

-- Whether a notification can come after the root of the request, given what is attached.
def Notification.After (objects : List FastoObject) : Notification → Prop
  | rootCreated _ => False
  | childAdded child => child ∈ objects
  | itemUpdated item _ => item ∈ objects
  | keyAdded _ _ => ¬ quiet

def grown (delivered : List FastoObject) : Rose FastoObject :=
  delivered.foldl (Rose.grow anchor) (.leaf (.root n))

def Waiting (pending : List Notification) (system : System Address) : Prop :=
  system.objects.content (.own (.root n)) = .value (.string text) ∧
    ∃ old, system.queue = old ++ .rootCreated (.root n) :: pending

/-- Once the root is delivered: in the end, every item has the value of its object. -/
structure Live (delivered : List FastoObject) (pending : List Notification) (system : System Address) : Prop where
  queue : system.queue = pending
  pointers : system.model.map Row.pointer = (grown n delivered).map lib.address
  rows : quiet → system.model.map (settle lib · pending) = (grown n delivered).map (itemOf lib text system.objects)

/-- The driver has performed `done` after the root, and of what it emitted since then the objects
`delivered` were shown and `pending` is queued. -/
structure Phase (done : List Op) (delivered : List FastoObject) (pending : List Notification)
    (system : System Address) : Prop where
  observed : ∀ object, object ∈ system.objects.observed ↔ object ∈ .root n :: added done
  fresh : (FastoObject.root n :: added done).Nodup
  request : ∀ object ∈ added done, object.request = n
  split : delivered ++ pending.filterMap Notification.child? = added done
  after : ∀ note ∈ pending, note.After quiet (added done)
  settled : ∀ notes, notes <:+ pending → ∀ object ∈ added done,
    settle lib (itemOf lib text system.objects object) notes = itemOf lib text system.objects object
  shown : delivered = [] ∧ Waiting n text pending system ∨ Live lib n text quiet delivered pending system

variable {n text quiet}

theorem grown_subset {delivered : List FastoObject} {object : FastoObject}
    (member : object ∈ (grown n delivered).values) : object ∈ .root n :: delivered := by
  rcases Rose.mem_foldl_grow member with first | later
  · rw [List.mem_singleton.mp first]
    exact List.mem_cons_self
  · exact List.mem_cons_of_mem _ later

variable {lib} {done : List Op} {delivered : List FastoObject} {pending : List Notification} {system : System Address}

theorem Phase.mem_added (phase : Phase lib n text quiet done delivered pending system) {object : FastoObject}
    (member : object ∈ (grown n delivered).values) : object ∈ .root n :: added done := by
  rcases List.mem_cons.mp (grown_subset member) with rfl | shown
  · exact List.mem_cons_self
  · rw [← phase.split]
    exact List.mem_cons_of_mem _ (List.mem_append_left _ shown)

theorem Phase.emit (phase : Phase lib n text quiet done delivered pending system) (new : List Op)
    (result : Objects × List Notification) (few : result.2.length ≤ 1)
    (observed : ∀ object, object ∈ result.1.observed ↔ object ∈ .root n :: added (done ++ new))
    (fresh : (FastoObject.root n :: added (done ++ new)).Nodup)
    (request : ∀ object ∈ added new, object.request = n)
    (children : result.2.filterMap Notification.child? = added new)
    (after : ∀ note ∈ result.2, note.After quiet (added (done ++ new)))
    (items : ∀ object ∈ .root n :: added done,
      settle lib (itemOf lib text system.objects object) result.2 = itemOf lib text result.1 object)
    (born : ∀ object ∈ added new, ∀ notes, notes <:+ pending →
      settle lib (itemOf lib text result.1 object) (notes ++ result.2) = itemOf lib text result.1 object)
    (content : result.1.content (.own (.root n)) = system.objects.content (.own (.root n))) :
    Phase lib n text quiet (done ++ new) delivered (pending ++ result.2) (system.emit result) where
  observed := observed
  fresh := fresh
  request object member := by
    rcases List.mem_append.mp (added_append done new ▸ member) with old | new
    · exact phase.request object old
    · exact request object new
  split := by rw [List.filterMap_append, ← List.append_assoc, phase.split, children, added_append]
  after note member := by
    rcases List.mem_append.mp member with old | new
    · have held := phase.after note old
      cases note with
      | childAdded | itemUpdated =>
          rw [added_append]
          exact List.mem_append_left _ held
      | _ => exact held
    · exact after note new
  settled notes suffix object member := by
    rw [added_append, List.mem_append] at member
    obtain ⟨objects, emitted⟩ := result
    match emitted, few with
    | [], _ =>
        rw [List.append_nil] at suffix
        rcases member with old | new
        · have same : itemOf lib text system.objects object = itemOf lib text objects object :=
            items object (List.mem_cons_of_mem _ old)
          rw [System.emit, ← same]
          exact phase.settled notes suffix object old
        · simpa [System.emit] using born object new notes suffix
    | [note], _ =>
        rcases List.suffix_concat_iff.mp suffix with rfl | ⟨before, rfl, earlier⟩
        · rfl
        rcases member with old | new
        · have same : note.update lib (itemOf lib text system.objects object) = itemOf lib text objects object :=
            items object (List.mem_cons_of_mem _ old)
          rw [System.emit, ← same]
          exact settle_update lib note (phase.settled before earlier object old)
        · exact born object new before earlier
  shown := by
    rcases phase.shown with ⟨none, text, old, queued⟩ | live
    · refine Or.inl ⟨none, content.trans text, old, ?_⟩
      simp [System.emit, queued]
    · refine Or.inr ⟨by rw [System.emit, live.queue], live.pointers, ?_⟩
      intro quiet
      have joined : (settle lib · (pending ++ result.2)) =
          fun row => settle lib (settle lib row pending) result.2 := by
        funext row
        exact List.foldl_append
      rw [joined]
      show system.model.map _ = _
      rw [← Rose.map_map (settle lib · pending) system.model (settle lib · result.2), live.rows quiet,
        Rose.map_map]
      apply Rose.map_congr
      intro object member
      exact items object (phase.mem_added member)

theorem Phase.request_eq (phase : Phase lib n text quiet done delivered pending system) {object : FastoObject}
    (member : object ∈ .root n :: added done) : object.request = n := by
  rcases List.mem_cons.mp member with rfl | old
  · rfl
  · exact phase.request object old

-- Nothing that is queued concerns an object that was not attached.
theorem Phase.settle_new (phase : Phase lib n text quiet done delivered pending system) (lawful : lib.Lawful)
    {object : FastoObject} (request : object.request = n) (fresh : object ∉ added done) (row : Row Address)
    (pointer : row.pointer = lib.address object) (notes : List Notification) (suffix : notes <:+ pending) :
    settle lib row notes = row := by
  apply settle_of_apart
  intro item newValue member same
  have old : item ∈ added done := phase.after _ (suffix.mem member)
  have equal := lawful.address_inj object item (request.trans (phase.request item old).symm) (pointer ▸ same)
  exact fresh (equal ▸ old)

theorem Phase.addChildren (phase : Phase lib n text quiet done delivered pending system) (lawful : lib.Lawful)
    (child : FastoObject) (value : ObjectValue)
    (attached : ∃ parent ∈ .root n :: added done, child.parent = some parent)
    (fresh : child ∉ .root n :: added done) :
    Phase lib n text quiet (done ++ [.addChildren child value]) delivered (pending ++ [.childAdded child])
      (system.emit (system.objects.addChildren child value)) := by
  obtain ⟨parent, member, made⟩ := attached
  have seen : parent ∈ (system.objects.make child value).observed := (phase.observed parent).mpr member
  have emitted : system.objects.addChildren child value =
      ({ system.objects.make child value with observed := child :: system.objects.observed },
        [.childAdded child]) := by
    simp only [Objects.addChildren, made, if_pos seen]
    rfl
  have joined : added (done ++ [.addChildren child value]) = added done ++ [child] := added_append done _
  have request : child.request = n := (FastoObject.request_eq_of_parent made).trans (phase.request_eq member)
  rw [emitted]
  refine phase.emit [.addChildren child value]
    ({ system.objects.make child value with observed := child :: system.objects.observed }, [.childAdded child])
    (Nat.le_refl 1) ?_ ?_ ?_ rfl ?_ ?_ ?_ ?_
  · intro object
    have observed := phase.observed object
    simp only [joined, List.mem_cons, List.mem_append, List.not_mem_nil, or_false] at observed ⊢
    rw [observed, or_comm, or_assoc]
  · rw [joined, ← List.cons_append, List.nodup_append']
    exact ⟨phase.fresh, List.nodup_singleton child, by simpa using fresh⟩
  · simpa [added, Op.child?] using request
  · intro note new
    rw [List.mem_singleton.mp new, joined]
    exact List.mem_append_right _ (List.mem_singleton_self child)
  · intro object old
    have other : object ≠ child := fun same => fresh (same ▸ old)
    apply (itemOf_congr lib text _ object _).symm
    simp only [Objects.value, Objects.make, Function.update_of_ne other]
  · intro object new notes suffix
    obtain rfl : object = child := by simpa [added, Op.child?] using new
    rw [settle_concat_eq]
    exact phase.settle_new lawful request (fun old => fresh (List.mem_cons_of_mem _ old)) _ rfl notes suffix
  · have other : ValueRef.own (.root n) ≠ .own child := fun same => fresh (by simp [← ValueRef.own.inj same])
    exact Function.update_of_ne other _ _

theorem Phase.perform (phase : Phase lib n text quiet done delivered pending system) (lawful : lib.Lawful) (op : Op)
    (rest : List Op) (attaches : Attaches (.root n :: added done) (op :: rest))
    (silent : quiet → ∀ key value, op ≠ .keyAdded key value) :
    ∃ pending', Phase lib n text quiet (done ++ [op]) delivered pending'
      (system.emit (op.perform system.objects)) := by
  cases op with
  | createRoot root text => exact attaches.elim
  | addChildren child value => exact ⟨_, phase.addChildren lawful child value attaches.1 attaches.2.1⟩
  | append array value =>
      obtain ⟨⟨parent, number, rfl⟩, -⟩ := attaches
      have same : added (done ++ [.append (.array parent number) value]) = added done := by simp [added, Op.child?]
      refine ⟨_, phase.emit [.append (.array parent number) value] _ (Nat.zero_le 1) ?_ ?_
        (by simp [added, Op.child?]) rfl (by simp [Op.perform, Objects.append]) (fun _ _ => rfl)
        (by simp [added, Op.child?]) ?_⟩
      · rw [same]
        exact phase.observed
      · rw [same]
        exact phase.fresh
      · exact Function.update_of_ne (system.objects.own_ne_value (by simp)) _ _
  | keyAdded key value =>
      have same : added (done ++ [.keyAdded key value]) = added done := by simp [added, Op.child?]
      refine ⟨_, phase.emit [.keyAdded key value] _ (Nat.le_refl 1) ?_ ?_ (by simp [added, Op.child?]) rfl ?_
        (fun _ _ => rfl) (by simp [added, Op.child?]) (allocate_own value _)⟩
      · rw [same]
        exact phase.observed
      · rw [same]
        exact phase.fresh
      · intro note member
        obtain rfl : note = .keyAdded key (.later system.objects.values) := by
          simpa [Op.perform, Objects.keyAdded] using member
        exact fun held => silent held key value rfl

theorem Phase.setValue (phase : Phase lib n text quiet done delivered pending system) (lawful : lib.Lawful)
    (object : FastoObject) (value : ObjectValue) (item : ∀ n, object ≠ .root n) :
    ∃ pending', Phase lib n text quiet done delivered pending'
      (system.emit (system.objects.setValue object value)) := by
  have updated : (system.objects.setValue object value).1.value object = .later system.objects.values := by
    simp [Objects.setValue, Objects.value]
  have kept (other : FastoObject) (apart : other ≠ object) :
      (system.objects.setValue object value).1.value other = system.objects.value other := by
    simp only [Objects.setValue, Objects.value, Function.update_of_ne apart]
  have none : added (done ++ []) = added done := by rw [List.append_nil]
  have next := phase.emit [] (system.objects.setValue object value)
  rw [none, List.append_nil] at next
  refine ⟨_, next ?_ phase.observed phase.fresh (by simp) ?_ ?_ ?_ (by simp) (allocate_own value _)⟩
  · simp only [Objects.setValue]
    split <;> simp
  · simp only [Objects.setValue]
    split <;> rfl
  · intro note member
    simp only [Objects.setValue] at member
    split at member
    next observed =>
      rw [List.mem_singleton.mp member]
      exact ((List.mem_cons.mp ((phase.observed object).mp observed)).resolve_left (item n))
    next => simp at member
  · intro other old
    by_cases same : other = object
    · subst same
      have emitted : (system.objects.setValue other value).2 = [.itemUpdated other (.later system.objects.values)] :=
        if_pos ((phase.observed other).mpr old)
      rw [emitted, itemOf_replaced lib text system.objects (system.objects.setValue other value).1 other item, updated]
      exact if_pos rfl
    · rw [itemOf_congr lib text _ other (kept other same)]
      apply settle_of_apart
      intro replaced newValue member pointer
      simp only [Objects.setValue] at member
      split at member
      next observed =>
        obtain rfl := (Notification.itemUpdated.inj (List.mem_singleton.mp member)).1
        have request := phase.request_eq ((phase.observed replaced).mp observed)
        exact same (lawful.address_inj other replaced ((phase.request_eq old).trans request.symm) pointer)
      next => simp at member

theorem Phase.nodup_grown (phase : Phase lib n text quiet done delivered pending system) :
    (grown n delivered).values.Nodup := by
  apply Rose.nodup_foldl_grow
  have fresh := phase.fresh
  rw [← phase.split, ← List.cons_append] at fresh
  exact (List.nodup_append'.mp fresh).1

section Deliver

variable [DecidableEq Name] {note : Notification} {rest : List Notification} {model : Model Address}

theorem Phase.deliver_live (phase : Phase lib n text quiet done delivered (note :: rest) system) (lawful : lib.Lawful)
    (live : Live lib n text quiet delivered (note :: rest) system)
    (handled : handle lib system.objects system.model note = some model) :
    ∃ delivered', Phase lib n text quiet done delivered' rest { system with queue := rest, model := model } := by
  have later (other : Notification) (member : other ∈ rest) := phase.after other (List.mem_cons_of_mem note member)
  have settled (notes : List Notification) (suffix : notes <:+ rest) :=
    phase.settled notes (suffix.trans (List.suffix_cons note rest))
  have held := phase.after note List.mem_cons_self
  have nodup := phase.nodup_grown
  cases note with
  | rootCreated root => exact held.elim
  | childAdded child =>
      have request (object : FastoObject) (member : object ∈ (grown n delivered).values) :
          object.request = child.request :=
        (phase.request_eq (phase.mem_added member)).trans (phase.request child held).symm
      have next : grown n (delivered ++ [child]) = Rose.grow anchor (grown n delivered) child := by
        rw [grown, List.foldl_append]
        rfl
      refine ⟨delivered ++ [child], phase.observed, phase.fresh, phase.request, ?_, later, settled,
        Or.inr ⟨rfl, ?_, ?_⟩⟩
      · rw [List.append_assoc]
        exact phase.split
      · rw [next]
        exact addChild_map lib text lawful _ _ child nodup request live.pointers live.pointers rfl handled
      · intro quiet
        rw [next]
        exact addChild_map lib text lawful _ _ child nodup request live.pointers (live.rows quiet)
          (settled rest List.suffix_rfl child held) handled
  | itemUpdated item newValue =>
      obtain rfl := Option.some.inj handled
      have unique : (system.model.map Row.pointer).values.Nodup := by
        rw [live.pointers, Rose.values_map]
        apply List.Nodup.map_on _ nodup
        intro first inFirst second inSecond same
        exact lawful.address_inj first second
          ((phase.request_eq (phase.mem_added inFirst)).trans (phase.request_eq (phase.mem_added inSecond)).symm) same
      have root : (system.model.map Row.pointer).values[0]? ≠ some (lib.address item) := by
        rw [live.pointers, Rose.values_map, List.getElem?_map, grown, Rose.head_foldl_grow]
        intro same
        have equal := lawful.address_inj (.root n) item (phase.request item held).symm (Option.some.inj same)
        exact (List.nodup_cons.mp phase.fresh).1 (equal ▸ held)
      have updated {B : Type} (f : Row Address → B) := updateItem_map lib lawful f item newValue unique root
      refine ⟨delivered, phase.observed, phase.fresh, phase.request, phase.split, later, settled,
        Or.inr ⟨rfl, ?_, ?_⟩⟩
      · refine (updated Row.pointer).trans (Eq.trans ?_ live.pointers)
        apply Rose.map_congr
        intro row _
        rw [Notification.update]
        split <;> rfl
      · exact fun quiet => (updated (settle lib · rest)).trans (live.rows quiet)
  | keyAdded key value =>
      obtain rfl := Option.some.inj handled
      refine ⟨delivered, phase.observed, phase.fresh, phase.request, phase.split, later, settled,
        Or.inr ⟨rfl, ?_, ?_⟩⟩
      · exact (changeValue_pointers lib key value system.model).trans live.pointers
      · exact fun quiet => absurd quiet held

theorem Phase.deliver (phase : Phase lib n text quiet done delivered pending system) (lawful : lib.Lawful)
    (replaced : system.objects.replaced (.root n) = none) {next : System Address}
    (stepped : system.step lib .deliver = some next) :
    ∃ delivered' pending', Phase lib n text quiet done delivered' pending' next := by
  rw [System.step] at stepped
  cases queued : system.queue with
  | nil =>
      obtain rfl : system = next := by simpa [queued] using stepped
      exact ⟨delivered, pending, phase⟩
  | cons note rest =>
      simp only [queued, Option.map_eq_some_iff] at stepped
      obtain ⟨model, handled, rfl⟩ := stepped
      rcases phase.shown with ⟨none, content, old, split⟩ | live
      · rw [queued] at split
        refine ⟨delivered, pending, phase.observed, phase.fresh, phase.request, phase.split, phase.after,
          phase.settled, ?_⟩
        cases old with
        | nil =>
            -- The root of the request is delivered.
            obtain ⟨rfl, rfl⟩ := List.cons.inj split
            subst none
            have shown : model = .leaf (itemOf lib text system.objects (.root n)) := by
              simpa [handle, rootCreate, Objects.value, replaced, Objects.get, content, itemOf, face,
                FastoObject.parent] using handled.symm
            have new := (List.nodup_cons.mp phase.fresh).1
            have kept := phase.settle_new lawful rfl new (itemOf lib text system.objects (.root n)) rfl rest
              List.suffix_rfl
            refine Or.inr ⟨rfl, ?_, ?_⟩
            · rw [shown]
              rfl
            · intro _
              rw [shown]
              exact congrArg Rose.leaf kept
        | cons first old =>
            obtain ⟨-, rfl⟩ := List.cons.inj split
            exact Or.inl ⟨none, content, old, rfl⟩
      · obtain rfl := live.queue.symm.trans queued
        obtain ⟨delivered', next⟩ := phase.deliver_live lawful live handled
        exact ⟨delivered', rest, next⟩

-- One step of the driver, of whoever replaces values, or of the widget.
theorem Phase.step (phase : Phase lib n text quiet done delivered pending system) (lawful : lib.Lawful)
    (sound : system.Sound) (event : Event) (allowed : event.Sound) (rest : List Op)
    (attaches : Attaches (.root n :: added done) (event.op?.toList ++ rest))
    (silent : quiet → ∀ op ∈ event.op?, ∀ key value, op ≠ .keyAdded key value) {next : System Address}
    (stepped : system.step lib event = some next) :
    ∃ delivered' pending', Phase lib n text quiet (done ++ event.op?.toList) delivered' pending' next := by
  cases event with
  | perform op =>
      obtain rfl := Option.some.inj stepped
      exact ⟨delivered, phase.perform lawful op rest attaches fun held => silent held op rfl⟩
  | setValue object value =>
      obtain rfl := Option.some.inj stepped
      rw [show Event.op? (.setValue object value) = none from rfl, Option.toList_none, List.append_nil]
      exact ⟨delivered, phase.setValue lawful object value allowed⟩
  | deliver =>
      rw [show Event.op? .deliver = none from rfl, Option.toList_none, List.append_nil]
      exact phase.deliver lawful (sound.roots n) stepped

theorem Phase.run (phase : Phase lib n text quiet done delivered pending system) (lawful : lib.Lawful)
    (sound : system.Sound) (events : List Event) (allowed : ∀ event ∈ events, event.Sound)
    (attaches : Attaches (.root n :: added done) (events.filterMap Event.op?))
    (silent : quiet → ∀ op ∈ events.filterMap Event.op?, ∀ key value, op ≠ .keyAdded key value)
    {last : System Address} (ran : system.run lib events = some last) :
    ∃ delivered' pending', Phase lib n text quiet (done ++ events.filterMap Event.op?) delivered' pending' last := by
  induction events generalizing system done delivered pending with
  | nil =>
      obtain rfl := Option.some.inj ran
      rw [List.filterMap_nil, List.append_nil]
      exact ⟨delivered, pending, phase⟩
  | cons event events ih =>
      have split : (event :: events).filterMap Event.op? = event.op?.toList ++ events.filterMap Event.op? := by
        rw [List.filterMap_cons]
        cases event.op? <;> rfl
      rw [List.forall_mem_cons] at allowed
      rw [split] at attaches silent ⊢
      obtain ⟨middle, stepped, kept⟩ := step_sound lib event allowed.1 sound
      obtain ⟨delivered', pending', next⟩ := phase.step lawful sound event allowed.1 _ attaches
        (fun held op member => silent held op (List.mem_append_left _ (Option.mem_toList.mpr member))) stepped
      rw [System.run, List.foldlM_cons, stepped] at ran
      rw [attaches_append, List.cons_append, ← added_append] at attaches
      rw [← List.append_assoc]
      exact ih next kept allowed.2 attaches.2
        (fun held op member => silent held op (List.mem_append_right _ member)) ran

end Deliver

/-! ### All requests -/

theorem session_append (earlier : List Request) (last : Request) :
    session (earlier ++ [last]) = session earlier ++ last.ops earlier.length := by
  simp [session, List.zipIdx_append]

theorem attaches_request (n : Nat) (request : Request) :
    Attaches [.root n] (inTurn (Execution.ops (.root n)) 1 request.commands) := by
  apply (orderly_inTurn (orderly_execution n) 1 request.commands).attaches _ (by simp)
  intro object member
  rw [List.mem_singleton.mp member]
  exact Nat.one_pos

theorem session_sound (requests : List Request) : ∀ op ∈ session requests, op.Sound := by
  intro op member
  obtain ⟨⟨request, n⟩, -, made⟩ := List.mem_flatMap.mp member
  rcases List.mem_cons.mp made with rfl | made
  · exact ⟨n, rfl⟩
  · exact (attaches_request n request).sound op made

theorem grown_request (n : Nat) (request : Request) :
    grown n (added (inTurn (Execution.ops (.root n)) 1 request.commands)) =
      .node (.root n) (request.shown n) .nil := by
  have rooted : FastoObject.root n ∈ (Rose.leaf (.root n)).values := List.mem_singleton_self _
  rw [grown, foldl_grow_executions n 1 request.commands _ rooted]
  · rw [Rose.leaf, Rose.graft, if_pos rfl]
    rfl
  · intro object member
    rw [List.mem_singleton.mp member]
    exact ⟨rfl, Nat.one_pos⟩

theorem phase_created (system : System Address) (n : Nat) (text : Text) (quiet : Prop) :
    Phase lib n text quiet [] [] [] (system.emit (system.objects.createRoot (.root n) text)) where
  observed object := Iff.rfl
  fresh := List.nodup_singleton _
  request object member := by simp at member
  split := rfl
  after note member := by simp at member
  settled notes suffix object member := by simp at member
  shown := Or.inl ⟨rfl, Function.update_self .., system.queue, rfl⟩

-- When everything is delivered, the items are those of all objects that are shown.
theorem Phase.drained {request : Request}
    (phase : Phase lib n text quiet (inTurn (Execution.ops (.root n)) 1 request.commands) delivered pending system)
    (empty : system.queue = []) :
    ∃ tree, tree = Rose.node (.root n) (request.shown n) .nil ∧ tree.values.Nodup ∧
      (∀ object ∈ tree.values, object.request = n) ∧ system.model.map Row.pointer = tree.map lib.address ∧
      (quiet → system.model = tree.map (itemOf lib text system.objects)) := by
  refine ⟨grown n delivered, ?_, phase.nodup_grown,
    fun object member => phase.request_eq (phase.mem_added member), ?_⟩
  · rcases phase.shown with ⟨-, -, old, queued⟩ | live
    · simp [empty] at queued
    · have split := phase.split
      rw [← live.queue, empty, List.filterMap_nil, List.append_nil] at split
      rw [split, grown_request]
  · rcases phase.shown with ⟨-, -, old, queued⟩ | live
    · simp [empty] at queued
    · have none : pending = [] := live.queue.symm.trans empty
      refine ⟨live.pointers, fun held => ?_⟩
      rw [← live.rows held, none]
      exact (Rose.map_id system.model).symm

theorem Phase.mirrors_iff_kept (lawful : lib.Lawful) {request : Request}
    (silent : quiet ↔ ∀ key value, .keyAdded key value ∉ request.ops n)
    (phase : Phase lib n text quiet (inTurn (Execution.ops (.root n)) 1 request.commands) delivered pending system)
    (empty : system.queue = []) : Mirrors lib system n request ↔ request.Kept := by
  obtain ⟨tree, shown, nodup, same, pointers, rows⟩ := phase.drained empty
  rcases shown_or_fewer n 1 request.commands with ⟨kept, all⟩ | ⟨lost, fewer⟩
  · have whole : tree = Rose.node (.root n) (request.results n) .nil := by
      rw [shown]
      exact congrArg (Rose.node (.root n) · .nil) all
    refine iff_of_true ⟨whole ▸ pointers, ?_⟩ kept
    intro noKey object member row inModel pointer
    have inTree : object ∈ tree.values := by simp [whole, Rose.values, member]
    rw [rows (silent.mpr noKey), Rose.values_map] at inModel
    obtain ⟨other, held, rfl⟩ := List.mem_map.mp inModel
    obtain rfl := lawful.address_inj other object ((same other held).trans (same object inTree).symm) pointer
    have item : other.parent ≠ none := by
      intro orphan
      rw [whole, Rose.values, List.nodup_cons, List.mem_append, not_or] at nodup
      cases other with
      | root m =>
          obtain rfl : m = n := same _ held
          exact nodup.1.1 member
      | _ => cases orphan
    rw [itemOf, if_neg item]
  · refine iff_of_false (fun mirrors => ?_) lost
    have lengths := congrArg (fun tree => tree.values.length) (pointers.symm.trans mirrors.items)
    simp only [shown, Rose.values_map, List.length_map, Rose.values, List.length_cons, List.append_nil,
      Nat.add_right_cancel_iff] at lengths
    exact absurd lengths (Nat.ne_of_lt fewer)

end Phase

/-! ## The tree and the results -/

section Mirrors

variable [DecidableEq Address] [DecidableEq Name]

/-- No check fails, and when everything is delivered the items of the last request are its results
exactly when none of them was read in slave mode. -/
theorem mirrors_iff (lawful : lib.Lawful) (earlier : List Request) (last : Request) (events : List Event)
    (program : events.filterMap Event.op? = session (earlier ++ [last]))
    (roots : ∀ n value, .setValue (.root n) value ∉ events) :
    ∃ system, System.run lib {} events = some system ∧
      (system.queue = [] → (Mirrors lib system earlier.length last ↔ last.Kept)) := by
  have allowed : ∀ event ∈ events, event.Sound := by
    intro event member
    cases event with
    | perform op =>
        apply session_sound (earlier ++ [last])
        rw [← program]
        exact List.mem_filterMap.mpr ⟨_, member, rfl⟩
    | setValue object value =>
        rintro n rfl
        exact roots n value member
    | deliver => trivial
  have start : System.Sound ({} : System Address) := ⟨fun _ => rfl, by simp⟩
  -- The run up to the root of the last request, and from there.
  rw [session_append] at program
  obtain ⟨before, rest, rfl, -, program⟩ := List.filterMap_eq_append_iff.mp program
  obtain ⟨others, event, after, rfl, -, created, program⟩ := List.filterMap_eq_cons_iff.mp program
  have root : event = .perform (.createRoot (.root earlier.length) last.text) := by
    cases event with
    | perform op => exact congrArg Event.perform (Option.some.inj created)
    | _ => cases created
  rw [← List.append_assoc] at allowed ⊢
  obtain ⟨first, early⟩ := List.forall_mem_append.mp allowed
  rw [List.forall_mem_cons] at early
  obtain ⟨middle, ran, sound⟩ := run_sound lib (before ++ others) first start
  obtain ⟨next, stepped, sound⟩ := step_sound lib event early.1 sound
  obtain ⟨system, rest, -⟩ := run_sound lib after early.2 sound
  refine ⟨system, ?_, fun empty => ?_⟩
  · have start : List.foldlM (System.step lib) {} (before ++ others) = some middle := ran
    rw [System.run, List.foldlM_append, start]
    show List.foldlM (System.step lib) middle (event :: after) = some system
    rw [List.foldlM_cons, stepped]
    exact rest
  · rw [root] at stepped
    obtain rfl := Option.some.inj stepped
    have phase : Phase lib _ _ (∀ key value, .keyAdded key value ∉ last.ops earlier.length) _ _ _ _ :=
      phase_created middle earlier.length last.text _
    have attaches := attaches_request earlier.length last
    rw [← program] at attaches
    have silent (quiet : ∀ key value, .keyAdded key value ∉ last.ops earlier.length) (op : Op)
        (member : op ∈ after.filterMap Event.op?) (key : Text) (value : ObjectValue) :
        op ≠ .keyAdded key value := by
      rintro rfl
      rw [program] at member
      exact quiet key value (List.mem_cons_of_mem _ member)
    obtain ⟨delivered, pending, done⟩ := phase.run lawful sound after early.2 attaches silent rest
    rw [List.nil_append, program] at done
    exact done.mirrors_iff_kept lawful Iff.rfl empty

/-! ### Two sessions -/

-- The widget shows every step at once.
def inStep (ops : List Op) : List Event := ops.flatMap fun op => [.perform op, .deliver]

theorem inStep_ops (ops : List Op) : (inStep ops).filterMap Event.op? = ops := by
  induction ops with
  | nil => rfl
  | cons op ops ih => exact congrArg (op :: ·) ih

theorem setValue_not_mem_inStep (ops : List Op) (object : FastoObject) (value : ObjectValue) :
    .setValue object value ∉ inStep ops := by
  simp [inStep]

def appendRequest : Request := ⟨ascii "APPEND a b", [⟨ascii "APPEND a b", false, [.reply (.integer 1)]⟩]⟩

def slotsRequest : Request :=
  ⟨ascii "CLUSTER SLOTS",
    [⟨ascii "CLUSTER SLOTS", false, [.reply (.array [.array [.integer 0], .string (ascii "x")])]⟩]⟩

theorem slots_mirrored :
    ∃ system, System.run Library.std {} (inStep (session [appendRequest, slotsRequest])) = some system ∧
      system.queue = [] ∧ Mirrors Library.std system 1 slotsRequest := by
  have created : createCommand (ascii "CLUSTER SLOTS") = some (ascii "CLUSTER SLOTS") := by decide
  have other : handler (ascii "CLUSTER SLOTS") ≠ some .sync := by decide +kernel
  have ops : slotsRequest.ops 1 =
      .createRoot (.root 1) (ascii "CLUSTER SLOTS") ::
        .addChildren (.command (.root 1) 1 (ascii "CLUSTER SLOTS")) (.command (ascii "CLUSTER SLOTS")) ::
          (inTurn (Output.ops (.command (.root 1) 1 (ascii "CLUSTER SLOTS"))) 2
            [.reply (.array [.array [.integer 0], .string (ascii "x")])] ++ []) := by
    simp only [Request.ops, slotsRequest, inTurn, Execution.ops, created, if_neg other, List.cons_append]
  have drained : (System.run Library.std {} (inStep (session [appendRequest, slotsRequest]))).map System.queue =
      some [] := by
    have both : session [appendRequest, slotsRequest] = appendRequest.ops 0 ++ slotsRequest.ops 1 := by simp [session]
    rw [both, ops]
    decide +kernel
  have kept : slotsRequest.Kept := by
    intro execution member slave
    obtain rfl := List.mem_singleton.mp member
    simp [Execution.inSlaveMode, created, other] at slave
  obtain ⟨system, ran, mirrors⟩ := mirrors_iff Library.std Library.std_lawful [appendRequest] slotsRequest _
    (inStep_ops (session [appendRequest, slotsRequest])) (fun n => setValue_not_mem_inStep _ (.root n))
  have empty : system.queue = [] := by
    rw [ran] at drained
    exact Option.some.inj drained
  exact ⟨system, ran, empty, (mirrors empty).mpr kept⟩

def replicaRequest : Request :=
  ⟨ascii "SYNC", [⟨ascii "SYNC", true, [.reply (.array [.string (ascii "PING")])]⟩]⟩

theorem replica_lost :
    ∃ system, System.run Library.std {} (inStep (session [replicaRequest])) = some system ∧
      system.queue = [] ∧ ¬ Mirrors Library.std system 0 replicaRequest := by
  have created : createCommand (ascii "SYNC") = some (ascii "SYNC") := by decide
  have sync : handler (ascii "SYNC") = some .sync := by decide +kernel
  have ops : session [replicaRequest] =
      .createRoot (.root 0) (ascii "SYNC") ::
        .addChildren (.command (.root 0) 1 (ascii "SYNC")) (.command (ascii "SYNC")) ::
          (slaveMode (.command (.root 0) 1 (ascii "SYNC")) 2
            ⟨ascii "SYNC", true, [.reply (.array [.string (ascii "PING")])]⟩ ++ []) := by
    simp [session, Request.ops, replicaRequest, inTurn, Execution.ops, created, sync]
  have results : replicaRequest.results 0 =
      .leaf (.array (.command (.command (.root 0) 1 (ascii "SYNC")) 2 syncRequest) 3) := by
    simp only [Request.results, replicaRequest, resultsInTurn, Execution.results, created, sync]
    rfl
  have ends : (System.run Library.std {} (inStep (session [replicaRequest]))).map
      (fun system => (system.queue, system.model.map Row.pointer)) = some ([], .leaf (.root 0)) := by
    rw [ops]
    decide +kernel
  obtain ⟨system, ran, shown⟩ := Option.map_eq_some_iff.mp ends
  obtain ⟨empty, pointers⟩ := Prod.mk.inj shown
  refine ⟨system, ran, empty, fun mirrors => ?_⟩
  have items := mirrors.items
  rw [pointers, results] at items
  simp [Rose.leaf, Rose.map] at items

end Mirrors

end FastoNoSQL.OutputTree
