import FastoNoSQL.Command.Translator
import FastoNoSQL.Gui.Explorer

set_option autoImplicit false

/-!
# Removing a branch

`removeBranch` of `gui/explorer/explorer_tree_view.cpp` and of the namespace
items in `gui/explorer/explorer_tree_item.cpp`.
-/

namespace FastoNoSQL.Explorer

open Bytes

variable {Name : Type}

namespace Branch

-- `forEachRecursive` of the `common` library goes through all items, in an order of its own.
abbrev Walk (Name : Type) := List (Item Name) → List (Item Name)

section Model

variable (walk : Walk Name) (translator : CommandTranslator) (tree : Tree Name) (n : Nat)

/-- `ExplorerDatabaseItem::removeKey`: the text of the request that it posts. -/
def removeKey (key : NKey) : Option Text := (translator.deleteKeyCommand key).toOption

-- The keys at any depth below the item with a number.
def below : List NDbKValue := (tree.childrenAt n).leaves

/-- `ExplorerNSItem::removeBranch` of the item with a number. -/
def nsRemoveBranch : List Text :=
  ((walk (tree.childrenAt n).items).filterMap Forest.Item.leaf?).filterMap fun dbv => removeKey translator dbv.key

-- The selected item, if it is a namespace.
def selectedNS : Option Nat :=
  match tree.items[n]? with
  | some (.node _) => some n
  | _ => none

/-- `ExplorerTreeView::removeBranch` when the question is answered with yes: what is posted. Without a namespace the
name of a null item is read. -/
def viewRemoveBranch : Option (List Text) :=
  match selectedNS tree n with
  | some _ => some []
  | none => none

end Model

/-- One request for each key below a namespace, no other, and the namespace is one of the key's. -/
structure Exact (lib : Common) (kit : Toolkit Name) (separator : UInt8) (translator : CommandTranslator)
    (tree : Tree Name) (n : Nat) (name : Name) (posted : List Text) : Prop where
  each : ∀ dbv ∈ below tree n, ∃ text, removeKey translator dbv.key = some text ∧ posted.count text = 1
  only : ∀ text ∈ posted, ∃ dbv ∈ below tree n,
    removeKey translator dbv.key = some text ∧ name ∈ namespaces lib kit separator dbv.key

section Posted

variable {lib : Common} {kit : Toolkit Name} {separator : UInt8} {tree : Tree Name} {n : Nat} {name : Name}
theorem viewRemoveBranch_eq (place : tree.items[n]? = some (.node name)) : viewRemoveBranch tree n = some [] := by
  rw [viewRemoveBranch, selectedNS, place]

-- With nothing posted, there may be no key.
theorem exact_nil_iff (translator : CommandTranslator) :
    Exact lib kit separator translator tree n name [] ↔ below tree n = [] := by
  constructor
  · intro exact_
    rw [List.eq_nil_iff_forall_not_mem]
    intro dbv member
    obtain ⟨text, -, once⟩ := exact_.each dbv member
    simp at once
  · intro none
    exact ⟨by simp [none], by simp⟩

variable (lawful : lib.Lawful) (type : ConnectionType)

include lawful

theorem removeKey_eq (key : NKey) : removeKey (.ofType lib type) key = some (ascii "DEL " ++ key.key) := by
  have translated : (CommandTranslator.ofType lib type).deleteKeyCommand key =
      CommandTranslator.print lib "DEL %s" [.s key.key] := by cases type <;> rfl
  rw [removeKey, translated, CommandTranslator.print, lawful.memSPrintf_eq]
  simp [format, ascii, byte, Except.toOption]

/-- The item itself would remove the branch and no more, in every arranged tree. -/
theorem nsRemoveBranch_exact (arranged : Arranged lib kit separator tree) (place : tree.items[n]? = some (.node name))
    (walk : Walk Name) (visits : ∀ items, (walk items).Perm items) :
    Exact lib kit separator (.ofType lib type) tree n name (nsRemoveBranch walk (.ofType lib type) tree n) := by
  have posted : (nsRemoveBranch walk (.ofType lib type) tree n).Perm
      ((below tree n).map fun dbv => ascii "DEL " ++ dbv.key.key) := by
    have visited : (nsRemoveBranch walk (.ofType lib type) tree n).Perm
        ((below tree n).filterMap fun dbv => removeKey (.ofType lib type) dbv.key) :=
      ((visits (tree.childrenAt n).items).filterMap Forest.Item.leaf?).filterMap _
    simpa only [removeKey_eq lawful type, List.filterMap_eq_map'] using visited
  have once : ((below tree n).map fun dbv => ascii "DEL " ++ dbv.key.key).Nodup := by
    have single : ((below tree n).map (·.key.key)).Nodup :=
      ((Forest.leaves_childrenAt n tree).map _).nodup arranged.single
    have injective : Function.Injective fun key : Text => ascii "DEL " ++ key := fun _ _ => List.append_cancel_left
    have texts := single.map injective
    rwa [List.map_map] at texts
  refine ⟨fun dbv member => ⟨_, removeKey_eq lawful type dbv.key, ?_⟩, fun text member => ?_⟩
  · rw [posted.count_eq]
    exact List.count_eq_one_of_mem once (List.mem_map_of_mem member)
  · obtain ⟨dbv, shown, rfl⟩ := List.mem_map.mp (posted.mem_iff.mp member)
    exact ⟨dbv, shown, removeKey_eq lawful type dbv.key,
      Forest.name_mem_of_placed _ [] tree arranged.placed n name place dbv shown⟩

end Posted

/-- In every tree that a run reaches, confirming to remove a namespace posts what it should exactly when no key is
shown below the namespace. -/
theorem removeBranch_exact_iff [DecidableEq Name] (lib : Common) (kit : Toolkit Name) (separator : UInt8)
    (type : ConnectionType) (operations : List Operation) (n : Nat) (name : Name)
    (place : (Runs.run (step lib kit separator) .nil operations).items[n]? = some (.node name)) :
    (∃ posted, viewRemoveBranch (Runs.run (step lib kit separator) .nil operations) n = some posted ∧
      Exact lib kit separator (.ofType lib type) (Runs.run (step lib kit separator) .nil operations) n name posted) ↔
      below (Runs.run (step lib kit separator) .nil operations) n = [] := by
  constructor
  · rintro ⟨posted, view, exact_⟩
    rw [viewRemoveBranch_eq place] at view
    obtain rfl := Option.some.inj view
    exact (exact_nil_iff _).mp exact_
  · intro none
    exact ⟨[], viewRemoveBranch_eq place, (exact_nil_iff _).mpr none⟩

-- The item of a namespace stays when its last key is removed.
theorem removeBranch_exact_emptied :
    (∃ posted, viewRemoveBranch (Runs.run (step .std .std (byte ':')) .nil
        [.addKey (plain "ns:a"), .removeKey (plain "ns:a").key]) 0 = some posted ∧
      Exact .std Toolkit.std (byte ':') (.ofType .std .redis) (Runs.run (step .std .std (byte ':')) .nil
        [.addKey (plain "ns:a"), .removeKey (plain "ns:a").key]) 0 (ascii "ns") posted) ↔
      below (Runs.run (step .std .std (byte ':')) .nil
        [.addKey (plain "ns:a"), .removeKey (plain "ns:a").key]) 0 = [] :=
  removeBranch_exact_iff .std .std (byte ':') .redis [.addKey (plain "ns:a"), .removeKey (plain "ns:a").key] 0
    (ascii "ns") (by decide)

theorem removeBranch_posts_nothing :
    ¬∀ (lib : Common) (kit : Toolkit Text) (separator : UInt8) (type : ConnectionType) (operations : List Operation)
      (n : Nat) (name : Text), lib.Lawful → kit.Lawful →
      (Runs.run (step lib kit separator) .nil operations).items[n]? = some (.node name) →
      ∃ posted, viewRemoveBranch (Runs.run (step lib kit separator) .nil operations) n = some posted ∧
        Exact lib kit separator (.ofType lib type) (Runs.run (step lib kit separator) .nil operations) n name
          posted := by
  intro all
  obtain ⟨posted, view, exact_⟩ := all .std .std (byte ':') .redis [.addKey (plain "ns:a")] 0 (ascii "ns")
    Common.std_lawful Toolkit.std_lawful (by decide)
  obtain rfl : posted = [] := (Option.some.inj view).symm
  obtain ⟨text, -, once⟩ := exact_.each (plain "ns:a") (by decide)
  simp at once

end Branch

end FastoNoSQL.Explorer
