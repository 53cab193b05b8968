import FastoNoSQL.Common
import FastoNoSQL.Forest
import FastoNoSQL.Runs
import FastoNoSQL.Types
import Mathlib.Data.List.Nodup

set_option autoImplicit false

/-!
# The explorer tree of a database

`gui/explorer/explorer_tree_model.cpp` with `KeyInfo` of `core/db_key.cpp`. The
keys of a database are shown below items for their namespaces, which are the
pieces of a key between separators.
-/

namespace FastoNoSQL.Explorer

open Bytes

variable {Name : Type}

abbrev Tree (Name : Type) := Forest NDbKValue Name

abbrev Item (Name : Type) := Forest.Item NDbKValue Name

/-- What the model uses of the `common` library besides `Tokenize`; names are `QString`s. The search
gives the number of an item of the sub-tree. -/
structure Toolkit (Name : Type) where
  joinString : List Text → Text → Text
  fromString : Text → Name
  findItemRecursive : (Item Name → Bool) → List (Item Name) → Option Nat

structure Toolkit.Lawful (kit : Toolkit Name) : Prop where
  joinString_ne_nil : ∀ parts separator, parts ≠ [] → (∀ part ∈ parts, part ≠ []) → kit.joinString parts separator ≠ []
  fromString_ne : ∀ text, text ≠ [] → kit.fromString text ≠ kit.fromString []
  found : ∀ wanted items n, kit.findItemRecursive wanted items = some n → ∃ item, items[n]? = some item ∧ wanted item = true
  missed : ∀ wanted items, kit.findItemRecursive wanted items = none → ∀ item ∈ items, wanted item = false

/-! ## Namespaces of a key -/

structure KeyInfo where
  splitedNamespacesAndKey : List Text
  nsSeparator : Text

namespace KeyInfo

variable (kit : Toolkit Name) (info : KeyInfo)

def nspaceSize : Nat := info.splitedNamespacesAndKey.length - 1

def hasNamespace : Bool := info.nspaceSize > 0

def joinNamespace (pos : Nat) : Text :=
  if info.nspaceSize > pos then kit.joinString (info.splitedNamespacesAndKey.take (pos + 1)) info.nsSeparator
  else []

-- The position is one past the last namespace, so this is always empty.
def nspace : Text := info.joinNamespace kit (info.splitedNamespacesAndKey.length - 1)

-- The names that the loop of `findOrCreateNSItem` goes through.
def names : List Name := (List.range info.nspaceSize).map fun i => kit.fromString (info.joinNamespace kit i)

end KeyInfo

def keyInfo (lib : Common) (nsSeparator : Text) (key : NKey) : KeyInfo := ⟨lib.tokenize key.key nsSeparator, nsSeparator⟩

section Model

variable (lib : Common) (kit : Toolkit Name) (separator : UInt8) (tree : Tree Name)

-- The namespace items that a key belongs under.
def namespaces (key : NKey) : List Name := (keyInfo lib [separator] key).names kit

def isKey (key : NKey) : Item Name → Bool
  | .leaf dbv => dbv.key.key = key.key
  | .node _ => false

def findKeyItem (key : NKey) : Option Nat := kit.findItemRecursive (isKey key) tree.items

def removeKey (key : NKey) : Tree Name :=
  match findKeyItem kit tree key with
  | some n => tree.alterAt (fun _ => none) n
  | none => tree

-- The item is given its new key where it is.
def updateKey (oldKey newKey : NKey) : Tree Name :=
  match findKeyItem kit tree oldKey with
  | some n => tree.alterAt (fun dbv => some { dbv with key := newKey }) n
  | none => tree

def updateValue (dbv : NDbKValue) : Tree Name :=
  match findKeyItem kit tree dbv.key with
  | some n => tree.alterAt (fun _ => some dbv) n
  | none => tree

variable [DecidableEq Name]

def isNS (name : Name) : Item Name → Bool
  | .leaf _ => false
  | .node other => other = name

def findNSItem (name : Name) : Option Nat := kit.findItemRecursive (isNS name) tree.items

-- `findOrCreateNSItem` and the item inserted below what it returns.
def addBelow (info : KeyInfo) (dbv : NDbKValue) : Tree Name :=
  match findNSItem kit tree (kit.fromString (info.nspace kit)) with
  | some n => tree.addAt dbv n
  | none => tree.addUnder (info.names kit) dbv

def addKey (dbv : NDbKValue) : Tree Name :=
  match findKeyItem kit tree dbv.key with
  | some _ => tree
  | none =>
    let info := keyInfo lib [separator] dbv.key
    if info.hasNamespace then addBelow kit tree info dbv else tree.append (.leaf dbv .nil)

end Model

inductive Operation where
  | addKey (dbv : NDbKValue)
  | removeKey (key : NKey)
  | updateKey (oldKey newKey : NKey)
  | updateValue (dbv : NDbKValue)
  | removeAllKeys
deriving DecidableEq

def step [DecidableEq Name] (lib : Common) (kit : Toolkit Name) (separator : UInt8) (tree : Tree Name) :
    Operation → Tree Name
  | .addKey dbv => addKey lib kit separator tree dbv
  | .removeKey key => removeKey kit tree key
  | .updateKey oldKey newKey => updateKey kit tree oldKey newKey
  | .updateValue dbv => updateValue kit tree dbv
  | .removeAllKeys => .nil

def keyNames (tree : Tree Name) : List Text := tree.leaves.map (·.key.key)

section Arrangement

variable (lib : Common) (kit : Toolkit Name) (separator : UInt8) (tree : Tree Name)

/-- Every key is shown once and below its own namespaces, and these are not doubled. -/
structure Arranged : Prop where
  single : (keyNames tree).Nodup
  placed : tree.Placed (fun dbv => namespaces lib kit separator dbv.key) []
  distinct : tree.Distinct

-- A key that is shown is renamed within its namespaces, and not to another key that is shown.
def Fits (tree : Tree Name) : Operation → Prop
  | .updateKey oldKey newKey => oldKey.key ∈ keyNames tree → newKey.key = oldKey.key ∨
      newKey.key ∉ keyNames tree ∧ namespaces lib kit separator newKey = namespaces lib kit separator oldKey
  | _ => True

-- No namespace item has the empty name that `findOrCreateNSItem` looks for first.
def Titled : Prop := .node (kit.fromString []) ∉ tree.items

end Arrangement

/-! ## What the searches find -/

section Search

variable {lib : Common} {kit : Toolkit Name} {separator : UInt8} {tree : Tree Name} (lawful : kit.Lawful)

theorem namespaces_congr (lib : Common) (kit : Toolkit Name) (separator : UInt8) (first second : NKey)
    (same : first.key = second.key) : namespaces lib kit separator first = namespaces lib kit separator second := by
  simp only [namespaces, keyInfo, same]

include lawful

theorem findKeyItem_some (key : NKey) (n : Nat) (found : findKeyItem kit tree key = some n) :
    ∃ dbv, tree.items[n]? = some (.leaf dbv) ∧ dbv.key.key = key.key := by
  obtain ⟨item, place, wanted⟩ := lawful.found _ _ n found
  cases item with
  | leaf dbv => exact ⟨dbv, place, by simpa [isKey] using wanted⟩
  | node name => cases wanted

theorem findKeyItem_none (key : NKey) (missed : findKeyItem kit tree key = none) : key.key ∉ keyNames tree := by
  intro member
  obtain ⟨dbv, among, same⟩ := List.mem_map.mp member
  obtain ⟨item, inside, value⟩ := List.mem_filterMap.mp among
  have unwanted := lawful.missed _ _ missed item inside
  cases item with
  | leaf other =>
      obtain rfl := Option.some.inj value
      simp [isKey, same] at unwanted
  | node name => cases value

theorem mem_keyNames_of_found (key : NKey) (n : Nat) (found : findKeyItem kit tree key = some n) :
    key.key ∈ keyNames tree := by
  obtain ⟨dbv, place, same⟩ := findKeyItem_some lawful key n found
  obtain ⟨front, back, split, _⟩ := Forest.leaves_alterAt some place
  rw [keyNames, split, ← same]
  simp

-- The names of namespaces are not empty, so the first search of `findOrCreateNSItem` misses.
theorem names_ne (lawfulLib : lib.Lawful) (key : NKey) (name : Name) (member : name ∈ namespaces lib kit separator key) :
    name ≠ kit.fromString [] := by
  obtain ⟨i, bound, rfl⟩ := List.mem_map.mp member
  rw [List.mem_range] at bound
  apply lawful.fromString_ne
  rw [KeyInfo.joinNamespace, if_pos bound]
  apply lawful.joinString_ne_nil
  · intro empty
    rw [KeyInfo.nspaceSize] at bound
    have size := congrArg List.length empty
    rw [List.length_take] at size
    simp at size
    simp [size] at bound
  · intro part among
    have token := List.mem_of_mem_take among
    rw [keyInfo, lawfulLib.tokenize_eq] at token
    simpa using (List.mem_filter.mp token).2

omit lawful in
theorem nspace_eq_nil (info : KeyInfo) : info.nspace kit = [] := by
  rw [KeyInfo.nspace, KeyInfo.joinNamespace, KeyInfo.nspaceSize, if_neg (by omega)]

variable [DecidableEq Name]

theorem addKey_eq (titled : Titled kit tree) (dbv : NDbKValue) :
    addKey lib kit separator tree dbv =
      if (findKeyItem kit tree dbv.key).isSome then tree
      else tree.addUnder (namespaces lib kit separator dbv.key) dbv := by
  unfold addKey
  cases findKeyItem kit tree dbv.key with
  | some n => rfl
  | none =>
      dsimp only
      split
      next =>
        have missed : findNSItem kit tree (kit.fromString []) = none := by
          rw [Option.eq_none_iff_forall_ne_some]
          intro n found
          obtain ⟨item, place, wanted⟩ := lawful.found _ _ n found
          cases item with
          | leaf other => cases wanted
          | node name =>
              obtain rfl : name = kit.fromString [] := by simpa [isNS] using wanted
              exact titled (List.mem_of_getElem? place)
        rw [addBelow, nspace_eq_nil, missed]
        rfl
      next none =>
        have nothing : namespaces lib kit separator dbv.key = [] := by
          have size : (keyInfo lib [separator] dbv.key).nspaceSize = 0 := by
            simpa [KeyInfo.hasNamespace] using none
          simp [namespaces, KeyInfo.names, size]
        rw [nothing]
        rfl

end Search

/-! ## One operation -/

section Steps

variable {lib : Common} {kit : Toolkit Name} {separator : UInt8} {tree : Tree Name}

theorem nodup_replaced {front back : List Text} {old : Text} (single : (front ++ old :: back).Nodup) (new : Text) :
    (front ++ new :: back).Nodup ↔ new = old ∨ new ∉ front ++ old :: back := by
  rw [List.nodup_middle, List.nodup_cons] at single ⊢
  constructor
  · intro ⟨fresh, _⟩
    by_cases same : new = old
    · exact Or.inl same
    · right
      simp only [List.mem_append, List.mem_cons, not_or] at fresh ⊢
      exact ⟨fresh.1, same, fresh.2⟩
  · intro cases
    rcases cases with rfl | fresh
    · exact single
    · simp only [List.mem_append, List.mem_cons, not_or] at fresh
      exact ⟨by simp [fresh.1, fresh.2.2], single.2⟩

variable (arranged : Arranged lib kit separator tree) {n : Nat} {value : NDbKValue}
variable (place : tree.items[n]? = some (.leaf value))

include arranged place

theorem Arranged.removed : Arranged lib kit separator (tree.alterAt (fun _ => none) n) := by
  obtain ⟨front, back, before, after⟩ := Forest.leaves_alterAt (fun _ => none) place
  refine ⟨?_, ?_, Forest.distinct_alterAt _ n tree arranged.distinct⟩
  · have single := arranged.single
    rw [keyNames, before, List.map_append, List.map_cons, List.nodup_middle] at single
    rw [keyNames, after]
    simpa using (List.nodup_cons.mp single).2
  · rw [Forest.placed_alterAt _ _ _ arranged.placed place]
    simp

theorem Arranged.changed_iff (change : NDbKValue → NDbKValue) :
    Arranged lib kit separator (tree.alterAt (fun dbv => some (change dbv)) n) ↔
      ((change value).key.key = value.key.key ∨ (change value).key.key ∉ keyNames tree) ∧
        namespaces lib kit separator (change value).key = namespaces lib kit separator value.key := by
  obtain ⟨front, back, before, after⟩ := Forest.leaves_alterAt (fun dbv => some (change dbv)) place
  have single := arranged.single
  have names : keyNames tree = front.map (·.key.key) ++ value.key.key :: back.map (·.key.key) := by
    simp [keyNames, before]
  have changed : keyNames (tree.alterAt (fun dbv => some (change dbv)) n) =
      front.map (·.key.key) ++ (change value).key.key :: back.map (·.key.key) := by
    simp [keyNames, after]
  have placed := Forest.placed_alterAt (fun dbv => some (change dbv)) _ [] arranged.placed place
  simp only [Option.mem_some_iff, forall_eq'] at placed
  rw [names] at single ⊢
  rw [← nodup_replaced single, ← changed, ← placed]
  constructor
  · intro after
    exact ⟨after.single, after.placed⟩
  · intro ⟨once, there⟩
    exact ⟨once, there, Forest.distinct_alterAt _ n tree arranged.distinct⟩

end Steps

section Runs

variable [DecidableEq Name] {lib : Common} {kit : Toolkit Name} {separator : UInt8} {tree : Tree Name}
variable (lawful : kit.Lawful)

include lawful

theorem arranged_addKey (titled : Titled kit tree) (arranged : Arranged lib kit separator tree) (dbv : NDbKValue) :
    Arranged lib kit separator (addKey lib kit separator tree dbv) := by
  rw [addKey_eq lawful titled]
  split
  next => exact arranged
  next missed =>
    have fresh := findKeyItem_none lawful dbv.key (by simpa using missed)
    refine ⟨?_, ?_, Forest.distinct_addUnder dbv _ tree arranged.distinct⟩
    · have names := (Forest.leaves_addUnder dbv (namespaces lib kit separator dbv.key) tree).map (·.key.key)
      rw [keyNames, names.nodup_iff, List.map_cons, List.nodup_cons]
      exact ⟨fresh, arranged.single⟩
    · exact Forest.placed_addUnder dbv _ [] _ (by simp) tree arranged.placed

-- An operation keeps the arrangement exactly when it fits.
theorem arranged_step_iff (titled : Titled kit tree) (arranged : Arranged lib kit separator tree)
    (operation : Operation) :
    Arranged lib kit separator (step lib kit separator tree operation) ↔ Fits lib kit separator tree operation := by
  cases operation with
  | addKey dbv => simpa [Fits, step] using arranged_addKey lawful titled arranged dbv
  | removeKey key =>
      simp only [Fits, step, removeKey, iff_true]
      split
      next n found =>
        obtain ⟨dbv, place, _⟩ := findKeyItem_some lawful key n found
        exact arranged.removed place
      next => exact arranged
  | updateKey oldKey newKey =>
      simp only [Fits, step, updateKey]
      split
      next n found =>
        obtain ⟨dbv, place, same⟩ := findKeyItem_some lawful oldKey n found
        have shown := mem_keyNames_of_found lawful oldKey n found
        rw [arranged.changed_iff place, same, namespaces_congr lib kit separator dbv.key oldKey same]
        simp only [shown, forall_const]
        constructor
        · intro ⟨cases, there⟩
          exact cases.imp_right fun fresh => ⟨fresh, there⟩
        · intro cases
          rcases cases with kept | ⟨fresh, there⟩
          · exact ⟨Or.inl kept, namespaces_congr lib kit separator _ _ kept⟩
          · exact ⟨Or.inr fresh, there⟩
      next missed => simp [findKeyItem_none lawful oldKey missed, arranged]
  | updateValue dbv =>
      simp only [Fits, step, updateValue, iff_true]
      split
      next n found =>
        obtain ⟨old, place, same⟩ := findKeyItem_some lawful dbv.key n found
        rw [arranged.changed_iff place fun _ => dbv]
        exact ⟨Or.inl same.symm, namespaces_congr lib kit separator _ _ same.symm⟩
      next => exact arranged
  | removeAllKeys => simpa [Fits, step] using ⟨List.nodup_nil, trivial, trivial⟩

theorem titled_step (lawfulLib : lib.Lawful) (titled : Titled kit tree) (operation : Operation) :
    Titled kit (step lib kit separator tree operation) := by
  intro member
  cases operation with
  | addKey dbv =>
      rw [step, addKey_eq lawful titled] at member
      split at member
      · exact titled member
      · rcases Forest.node_mem_addUnder dbv _ tree _ member with old | new
        · exact titled old
        · exact names_ne lawful lawfulLib dbv.key _ new rfl
  | removeKey key =>
      simp only [step, removeKey] at member
      split at member
      · exact titled (Forest.node_mem_alterAt _ _ tree _ member)
      · exact titled member
  | updateKey oldKey newKey =>
      simp only [step, updateKey] at member
      split at member
      · exact titled (Forest.node_mem_alterAt _ _ tree _ member)
      · exact titled member
  | updateValue dbv =>
      simp only [step, updateValue] at member
      split at member
      · exact titled (Forest.node_mem_alterAt _ _ tree _ member)
      · exact titled member
  | removeAllKeys => cases member

/-- From an empty database, the tree is arranged in every state of a run if and only if every
rename in it stays within its namespaces and goes to a key that is not shown. -/
theorem arranged_along_iff (lawfulLib : lib.Lawful) (operations : List Operation) :
    Runs.Along (step lib kit separator) (fun tree operation => Arranged lib kit separator (step lib kit separator tree operation))
        .nil operations ↔
      Runs.Along (step lib kit separator) (Fits lib kit separator) .nil operations := by
  have start : Arranged lib kit separator (.nil : Tree Name) ∧ Titled kit (.nil : Tree Name) :=
    ⟨⟨List.nodup_nil, trivial, trivial⟩, List.not_mem_nil⟩
  apply Runs.along_iff (fun tree => Arranged lib kit separator tree ∧ Titled kit tree) _ _ start
  · intro tree operation ⟨arranged, titled⟩ fits
    exact ⟨(arranged_step_iff lawful titled arranged operation).mpr fits, titled_step lawful lawfulLib titled operation⟩
  · intro tree operation ⟨arranged, titled⟩
    exact arranged_step_iff lawful titled arranged operation

end Runs

section Concrete

-- Names in UTF-8, and a search from the top.
def Toolkit.std : Toolkit Text where
  joinString parts separator := separator.intercalate parts
  fromString := id
  findItemRecursive wanted items := items.findIdx? wanted

theorem Toolkit.std_lawful : Toolkit.std.Lawful where
  joinString_ne_nil parts separator some nonempty := by
    cases parts with
    | nil => exact absurd rfl some
    | cons part parts =>
        have first := nonempty part List.mem_cons_self
        cases parts with
        | nil => simpa [std] using first
        | cons second parts => simp [std, List.intercalate, first]
  fromString_ne text nonempty := nonempty
  found wanted items n found := by
    obtain ⟨bound, holds, _⟩ := List.findIdx?_eq_some_iff_getElem.mp found
    exact ⟨items[n], List.getElem?_eq_getElem bound, holds⟩
  missed wanted items missed := List.findIdx?_eq_none_iff.mp missed

-- A key with an empty string for its value.
def plain (key : String) : NDbKValue := ⟨⟨ascii key, -1⟩, .string, []⟩

def renames : List Operation :=
  [.addKey (plain "ns:a"), .addKey (plain "ns:b"), .updateKey (plain "ns:a").key (plain "ns:c").key,
    .removeKey (plain "ns:b").key]

/-- Keys that are renamed within their namespace. -/
theorem renames_arranged :
    Runs.Along (step .std .std (byte ':'))
      (fun tree operation => Arranged .std .std (byte ':') (step .std .std (byte ':') tree operation)) .nil renames := by
  rw [arranged_along_iff Toolkit.std_lawful Common.std_lawful]
  simp only [renames, Runs.along_cons, Runs.along_nil, and_true]
  refine ⟨trivial, trivial, fun _ => Or.inr ⟨?_, ?_⟩, trivial⟩
  · decide
  · decide

/-- A key that is moved to another namespace stays where it was, and a key that is renamed to another
is shown beside it. -/
theorem renamed_in_place :
    ¬ Arranged .std .std (byte ':') (Runs.run (step .std .std (byte ':')) .nil
        [.addKey (plain "ns:a"), .updateKey (plain "ns:a").key (plain "other:a").key]) ∧
      ¬ Arranged .std .std (byte ':') (Runs.run (step .std .std (byte ':')) .nil
        [.addKey (plain "a"), .addKey (plain "b"), .updateKey (plain "a").key (plain "b").key]) := by
  constructor
  · intro arranged
    have moved : Runs.run (step .std .std (byte ':')) .nil
        [.addKey (plain "ns:a"), .updateKey (plain "ns:a").key (plain "other:a").key] =
          Forest.node (ascii "ns") (.leaf (plain "other:a") .nil) .nil := by decide
    rw [moved] at arranged
    exact absurd arranged.placed.1.1 (by decide)
  · intro arranged
    exact absurd arranged.single (by decide)

end Concrete

end FastoNoSQL.Explorer
