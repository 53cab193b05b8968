import Mathlib.Data.List.Basic
import Mathlib.Data.List.Perm.Basic
import Mathlib.Tactic.Common

set_option autoImplicit false

/-!
# Forests of named nodes

A row of items, each a leaf or a named node with a row of its own below it.
Items are numbered from the top, a node before what is below it.
-/

inductive Forest (Leaf Name : Type) where
  | nil
  | leaf (value : Leaf) (rest : Forest Leaf Name)
  | node (name : Name) (children rest : Forest Leaf Name)
deriving DecidableEq

namespace Forest

variable {Leaf Name : Type}

inductive Item (Leaf Name : Type) where
  | leaf (value : Leaf)
  | node (name : Name)
deriving DecidableEq

def Item.leaf? : Item Leaf Name → Option Leaf
  | leaf value => some value
  | node _ => none

def items : Forest Leaf Name → List (Item Leaf Name)
  | nil => []
  | leaf value rest => .leaf value :: items rest
  | node name children rest => .node name :: (items children ++ items rest)

def leaves (forest : Forest Leaf Name) : List Leaf := forest.items.filterMap Item.leaf?

-- The names of the nodes of the row itself.
def names : Forest Leaf Name → List Name
  | nil => []
  | leaf _ rest => names rest
  | node name _ rest => name :: names rest

def append : Forest Leaf Name → Forest Leaf Name → Forest Leaf Name
  | nil, last => last
  | leaf value rest, last => leaf value (append rest last)
  | node name children rest, last => node name children (append rest last)

/-- Changes or removes the leaf with the given number. -/
def alterAt (change : Leaf → Option Leaf) : Nat → Forest Leaf Name → Forest Leaf Name
  | _, nil => nil
  | 0, leaf value rest =>
    match change value with
    | some value => leaf value rest
    | none => rest
  | n + 1, leaf value rest => leaf value (alterAt change n rest)
  | 0, node name children rest => node name children rest
  | n + 1, node name children rest =>
    if n < children.items.length then node name (alterAt change n children) rest
    else node name children (alterAt change (n - children.items.length) rest)

/-- Adds a leaf below the node with the given number, after what is there. -/
def addAt (value : Leaf) : Nat → Forest Leaf Name → Forest Leaf Name
  | _, nil => nil
  | 0, leaf other rest => leaf other rest
  | n + 1, leaf other rest => leaf other (addAt value n rest)
  | 0, node name children rest => node name (children.append (leaf value nil)) rest
  | n + 1, node name children rest =>
    if n < children.items.length then node name (addAt value n children) rest
    else node name children (addAt value (n - children.items.length) rest)

section Path

variable [DecidableEq Name]

-- Changes what is below the last node of the row with the given name.
def inLast (name : Name) (change : Forest Leaf Name → Forest Leaf Name) : Forest Leaf Name → Forest Leaf Name
  | nil => nil
  | leaf value rest => leaf value (inLast name change rest)
  | node other children rest =>
    if other = name ∧ name ∉ rest.names then node other (change children) rest
    else node other children (inLast name change rest)

-- Adds a leaf at the end of a path of nodes, of which the missing ones are made.
def addUnder : List Name → Leaf → Forest Leaf Name → Forest Leaf Name
  | [], value, forest => forest.append (leaf value nil)
  | name :: path, value, forest =>
    if name ∈ forest.names then inLast name (addUnder path value) forest
    else forest.append (node name (addUnder path value nil) nil)

end Path

-- Every leaf is at the end of its own path.
def Placed (pathOf : Leaf → List Name) : List Name → Forest Leaf Name → Prop
  | _, nil => True
  | path, leaf value rest => pathOf value = path ∧ Placed pathOf path rest
  | path, node name children rest => Placed pathOf (path ++ [name]) children ∧ Placed pathOf path rest

-- No row has two nodes of one name.
def Distinct : Forest Leaf Name → Prop
  | nil => True
  | leaf _ rest => Distinct rest
  | node name children rest => name ∉ rest.names ∧ Distinct children ∧ Distinct rest

/-! ## Appending -/

section Append

variable (first last : Forest Leaf Name)

@[simp] theorem items_append : (first.append last).items = first.items ++ last.items := by
  induction first with
  | nil => rfl
  | leaf value rest ih => simp [append, items, ih]
  | node name children rest _ ih => simp [append, items, ih]

@[simp] theorem names_append : (first.append last).names = first.names ++ last.names := by
  induction first with
  | nil => rfl
  | leaf value rest ih => simp [append, names, ih]
  | node name children rest _ ih => simp [append, names, ih]

@[simp] theorem leaves_append : (first.append last).leaves = first.leaves ++ last.leaves := by
  simp [leaves]

theorem placed_append (pathOf : Leaf → List Name) (path : List Name) :
    Placed pathOf path (first.append last) ↔ Placed pathOf path first ∧ Placed pathOf path last := by
  induction first with
  | nil => simp [append, Placed]
  | leaf value rest ih => simp [append, Placed, ih, and_assoc]
  | node name children rest _ ih => simp [append, Placed, ih, and_assoc]

theorem distinct_append (apart : ∀ name ∈ first.names, name ∉ last.names) :
    Distinct (first.append last) ↔ Distinct first ∧ Distinct last := by
  induction first with
  | nil => simp [append, Distinct]
  | leaf value rest ih => exact ih apart
  | node name children rest _ ih =>
      have head := apart name (by simp [names])
      have tail := ih fun other member => apart other (by simp [names, member])
      simp [append, Distinct, tail, head, and_assoc]

end Append

@[simp] theorem leaves_nil : (nil : Forest Leaf Name).leaves = [] := rfl

@[simp] theorem leaves_leaf (value : Leaf) (rest : Forest Leaf Name) :
    (leaf value rest).leaves = value :: rest.leaves := rfl

@[simp] theorem leaves_node (name : Name) (children rest : Forest Leaf Name) :
    (node name children rest).leaves = children.leaves ++ rest.leaves := List.filterMap_append

/-! ## Changing one leaf -/

section Alter

variable (change : Leaf → Option Leaf) (n : Nat) (forest : Forest Leaf Name)

@[simp] theorem names_alterAt : (forest.alterAt change n).names = forest.names := by
  induction forest generalizing n with
  | nil => cases n <;> rfl
  | leaf value rest ih =>
      cases n with
      | zero =>
          simp only [alterAt]
          split <;> rfl
      | succ n => exact ih n
  | node name children rest _ ih =>
      cases n with
      | zero => rfl
      | succ n =>
          simp only [alterAt]
          split
          · rfl
          · simp [names, ih]

theorem distinct_alterAt (distinct : forest.Distinct) : (forest.alterAt change n).Distinct := by
  induction forest generalizing n with
  | nil => cases n <;> trivial
  | leaf value rest ih =>
      cases n with
      | zero =>
          simp only [alterAt]
          split <;> exact distinct
      | succ n => exact ih n distinct
  | node name children rest below ih =>
      obtain ⟨fresh, inside, outside⟩ := distinct
      cases n with
      | zero => exact ⟨fresh, inside, outside⟩
      | succ n =>
          simp only [alterAt]
          split
          · exact ⟨fresh, below n inside, outside⟩
          · exact ⟨by simpa using fresh, inside, ih _ outside⟩

variable {n forest} {value : Leaf}

theorem leaves_alterAt (found : forest.items[n]? = some (.leaf value)) :
    ∃ front back, forest.leaves = front ++ value :: back ∧
      (forest.alterAt change n).leaves = front ++ (change value).toList ++ back := by
  induction forest generalizing n with
  | nil => cases found
  | leaf other rest ih =>
      cases n with
      | zero =>
          obtain rfl := Item.leaf.inj (Option.some.inj found)
          refine ⟨[], rest.leaves, rfl, ?_⟩
          simp only [alterAt]
          cases change other <;> rfl
      | succ n =>
          obtain ⟨front, back, split, after⟩ := ih found
          exact ⟨other :: front, back, by simp [split], by simp [alterAt, after]⟩
  | node name children rest below ih =>
      cases n with
      | zero => cases found
      | succ n =>
          simp only [items, List.getElem?_cons_succ] at found
          simp only [alterAt]
          split
          next inside =>
            rw [List.getElem?_append_left inside] at found
            obtain ⟨front, back, split, after⟩ := below found
            exact ⟨front, back ++ rest.leaves, by simp [split], by simp [after]⟩
          next outside =>
            rw [List.getElem?_append_right (by omega)] at found
            obtain ⟨front, back, split, after⟩ := ih found
            exact ⟨children.leaves ++ front, back, by simp [split], by simp [after]⟩

theorem placed_alterAt (pathOf : Leaf → List Name) (path : List Name) (placed : Placed pathOf path forest)
    (found : forest.items[n]? = some (.leaf value)) :
    Placed pathOf path (forest.alterAt change n) ↔ ∀ new ∈ change value, pathOf new = pathOf value := by
  induction forest generalizing n path with
  | nil => cases found
  | leaf other rest ih =>
      cases n with
      | zero =>
          obtain rfl := Item.leaf.inj (Option.some.inj found)
          obtain ⟨rfl, others⟩ := placed
          simp only [alterAt]
          cases change other with
          | none => simpa using others
          | some new => simp [Placed, others]
      | succ n => simpa [alterAt, Placed, placed.1] using ih path placed.2 found
  | node name children rest below ih =>
      cases n with
      | zero => cases found
      | succ n =>
          simp only [items, List.getElem?_cons_succ] at found
          simp only [alterAt]
          split
          next inside =>
            rw [List.getElem?_append_left inside] at found
            simpa [Placed, placed.2] using below _ placed.1 found
          next outside =>
            rw [List.getElem?_append_right (by omega)] at found
            simpa [Placed, placed.1] using ih path placed.2 found

variable (n forest)

theorem node_mem_alterAt (name : Name) (member : .node name ∈ (forest.alterAt change n).items) :
    .node name ∈ forest.items := by
  induction forest generalizing n with
  | nil => cases n <;> exact member
  | leaf value rest ih =>
      cases n with
      | zero =>
          simp only [alterAt] at member
          split at member
          · simpa [items] using member
          · simp [items, member]
      | succ n =>
          have later : .node name ∈ (rest.alterAt change n).items := by simpa [alterAt, items] using member
          simp [items, ih n later]
  | node other children rest below ih =>
      cases n with
      | zero => exact member
      | succ n =>
          simp only [alterAt] at member
          split at member
          all_goals
            simp only [items, List.mem_cons, List.mem_append] at member ⊢
            rcases member with same | inside | outside
          · exact Or.inl same
          · exact Or.inr (Or.inl (below _ inside))
          · exact Or.inr (Or.inr outside)
          · exact Or.inl same
          · exact Or.inr (Or.inl inside)
          · exact Or.inr (Or.inr (ih _ outside))

end Alter

/-! ## Adding a leaf at the end of a path -/

section Add

variable [DecidableEq Name] (name : Name) (change : Forest Leaf Name → Forest Leaf Name) (value : Leaf)

@[simp] theorem names_inLast (forest : Forest Leaf Name) : (forest.inLast name change).names = forest.names := by
  induction forest with
  | nil => rfl
  | leaf other rest ih => exact ih
  | node other children rest _ ih =>
      simp only [inLast]
      split
      · rfl
      · simp [names, ih]

theorem leaves_inLast (forest : Forest Leaf Name) (present : name ∈ forest.names)
    (adds : ∀ children : Forest Leaf Name, (change children).leaves.Perm (value :: children.leaves)) :
    (forest.inLast name change).leaves.Perm (value :: forest.leaves) := by
  induction forest with
  | nil => cases present
  | leaf other rest ih =>
      exact ((ih present).cons other).trans (List.Perm.swap value other rest.leaves)
  | node other children rest _ ih =>
      simp only [inLast]
      split
      · simpa using (adds children).append_right rest.leaves
      next elsewhere =>
        have later : name ∈ rest.names := by
          rcases List.mem_cons.mp present with same | later
          · by_contra absent
            exact elsewhere ⟨same.symm, absent⟩
          · exact later
        have moved := (ih later).append_left children.leaves
        simpa using moved.trans List.perm_middle

theorem placed_inLast (pathOf : Leaf → List Name) (path : List Name)
    (adds : ∀ children, Placed pathOf (path ++ [name]) children → Placed pathOf (path ++ [name]) (change children))
    (forest : Forest Leaf Name) (placed : Placed pathOf path forest) :
    Placed pathOf path (forest.inLast name change) := by
  induction forest with
  | nil => exact placed
  | leaf other rest ih => exact ⟨placed.1, ih placed.2⟩
  | node other children rest _ ih =>
      simp only [inLast]
      split
      next here => exact ⟨here.1 ▸ adds children (here.1 ▸ placed.1), placed.2⟩
      next => exact ⟨placed.1, ih placed.2⟩

theorem distinct_inLast (adds : ∀ children : Forest Leaf Name, children.Distinct → (change children).Distinct)
    (forest : Forest Leaf Name) (distinct : forest.Distinct) : (forest.inLast name change).Distinct := by
  induction forest with
  | nil => exact distinct
  | leaf other rest ih => exact ih distinct
  | node other children rest _ ih =>
      obtain ⟨fresh, inside, outside⟩ := distinct
      simp only [inLast]
      split
      · exact ⟨fresh, adds children inside, outside⟩
      · exact ⟨by simpa using fresh, inside, ih outside⟩

theorem node_mem_inLast (made : List Name)
    (adds : ∀ (children : Forest Leaf Name) (other : Name), .node other ∈ (change children).items →
      .node other ∈ children.items ∨ other ∈ made)
    (forest : Forest Leaf Name) (other : Name) (member : .node other ∈ (forest.inLast name change).items) :
    .node other ∈ forest.items ∨ other ∈ made := by
  induction forest with
  | nil => exact Or.inl member
  | leaf value rest ih =>
      have later : .node other ∈ (rest.inLast name change).items := by simpa [inLast, items] using member
      rcases ih later with old | new
      · exact Or.inl (by simp [items, old])
      · exact Or.inr new
  | node first children rest _ ih =>
      simp only [inLast] at member
      split at member
      all_goals
        simp only [items, List.mem_cons, List.mem_append] at member ⊢
        rcases member with same | inside | outside
      · exact Or.inl (Or.inl same)
      · exact (adds children other inside).imp_left fun old => Or.inr (Or.inl old)
      · exact Or.inl (Or.inr (Or.inr outside))
      · exact Or.inl (Or.inl same)
      · exact Or.inl (Or.inr (Or.inl inside))
      · exact (ih outside).imp_left fun old => Or.inr (Or.inr old)

theorem leaves_addUnder (path : List Name) (forest : Forest Leaf Name) :
    (forest.addUnder path value).leaves.Perm (value :: forest.leaves) := by
  induction path generalizing forest with
  | nil => simp [addUnder]
  | cons name path ih =>
      simp only [addUnder]
      split
      next present => exact leaves_inLast name _ value forest present ih
      next =>
        have made := (ih nil).append_left forest.leaves
        simpa using made.trans List.perm_append_comm

theorem placed_addUnder (pathOf : Leaf → List Name) (path rest : List Name) (reached : pathOf value = path ++ rest)
    (forest : Forest Leaf Name) (placed : Placed pathOf path forest) :
    Placed pathOf path (forest.addUnder rest value) := by
  induction rest generalizing path forest with
  | nil =>
      rw [addUnder, placed_append]
      exact ⟨placed, by simpa using reached, trivial⟩
  | cons name rest ih =>
      have onward : pathOf value = (path ++ [name]) ++ rest := by simpa using reached
      simp only [addUnder]
      split
      · exact placed_inLast name _ pathOf path (ih _ onward) forest placed
      · rw [placed_append]
        exact ⟨placed, ih _ onward nil trivial, trivial⟩

theorem distinct_addUnder (path : List Name) (forest : Forest Leaf Name) (distinct : forest.Distinct) :
    (forest.addUnder path value).Distinct := by
  induction path generalizing forest with
  | nil =>
      rw [addUnder, distinct_append _ _ (by simp [names])]
      exact ⟨distinct, trivial⟩
  | cons name path ih =>
      simp only [addUnder]
      split
      · exact distinct_inLast name _ ih forest distinct
      next absent =>
        rw [distinct_append _ _ (by
          intro other member same
          obtain rfl : other = name := by simpa [names] using same
          exact absent member)]
        exact ⟨distinct, by simp [names], ih nil trivial, trivial⟩

theorem node_mem_addUnder (path : List Name) (forest : Forest Leaf Name) (other : Name)
    (member : .node other ∈ (forest.addUnder path value).items) : .node other ∈ forest.items ∨ other ∈ path := by
  induction path generalizing forest other with
  | nil =>
      left
      simpa [addUnder, items] using member
  | cons name path ih =>
      simp only [addUnder] at member
      split at member
      · have found := node_mem_inLast name (addUnder path value) path (fun children other => ih children other)
          forest other member
        exact found.imp_right (List.mem_cons_of_mem name)
      · simp only [items_append, items, List.mem_append, List.mem_cons, List.not_mem_nil, or_false] at member
        rcases member with old | same | inside
        · exact Or.inl old
        · exact Or.inr (by simp [Item.node.inj same])
        · rcases ih nil other inside with none | later
          · cases none
          · exact Or.inr (List.mem_cons_of_mem name later)

end Add

/-! ## What is below a node -/

section Below

-- The row below the node with the given number.
def childrenAt : Nat → Forest Leaf Name → Forest Leaf Name
  | _, nil => nil
  | 0, leaf _ _ => nil
  | n + 1, leaf _ rest => childrenAt n rest
  | 0, node _ children _ => children
  | n + 1, node _ children rest =>
    if n < children.items.length then childrenAt n children else childrenAt (n - children.items.length) rest

theorem leaves_childrenAt (n : Nat) (forest : Forest Leaf Name) :
    List.Sublist (forest.childrenAt n).leaves forest.leaves := by
  induction forest generalizing n with
  | nil =>
      rw [childrenAt]
  | leaf value rest ih =>
      rw [leaves_leaf]
      cases n with
      | zero => exact List.nil_sublist _
      | succ n => exact (ih n).cons value
  | node name children rest below ih =>
      rw [leaves_node]
      cases n with
      | zero => exact List.sublist_append_left _ _
      | succ n =>
          rw [childrenAt]
          split
          · exact (below n).trans (List.sublist_append_left _ _)
          · exact (ih _).trans (List.sublist_append_right _ _)

variable (pathOf : Leaf → List Name)

theorem prefix_of_placed (path : List Name) (forest : Forest Leaf Name) (placed : Placed pathOf path forest) :
    ∀ value ∈ forest.leaves, path <+: pathOf value := by
  induction forest generalizing path with
  | nil => simp
  | leaf value rest ih =>
      rw [leaves_leaf, List.forall_mem_cons]
      exact ⟨placed.1 ▸ List.prefix_rfl, ih path placed.2⟩
  | node name children rest below ih =>
      rw [leaves_node, List.forall_mem_append]
      refine ⟨fun value member => ?_, ih path placed.2⟩
      exact (List.prefix_append path [name]).trans (below _ placed.1 value member)

-- The leaves below a node have its name in their paths.
theorem name_mem_of_placed (path : List Name) (forest : Forest Leaf Name) (placed : Placed pathOf path forest) (n : Nat)
    (name : Name) (place : forest.items[n]? = some (.node name)) :
    ∀ value ∈ (forest.childrenAt n).leaves, name ∈ pathOf value := by
  induction forest generalizing path n with
  | nil => cases place
  | leaf value rest ih =>
      cases n with
      | zero => cases place
      | succ n => exact ih path placed.2 n (by simpa [items] using place)
  | node other children rest below ih =>
      cases n with
      | zero =>
          intro value member
          obtain rfl : other = name := by simpa [items] using place
          exact (prefix_of_placed pathOf _ children placed.1 value member).subset (by simp)
      | succ n =>
          rw [items, List.getElem?_cons_succ] at place
          rw [childrenAt]
          split
          next inside =>
            rw [List.getElem?_append_left inside] at place
            exact below _ placed.1 n place
          next outside =>
            rw [List.getElem?_append_right (by omega)] at place
            exact ih path placed.2 _ place

end Below

end Forest
