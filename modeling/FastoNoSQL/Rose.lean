import Mathlib.Data.List.Nodup
import Mathlib.Tactic.Common

set_option autoImplicit false

/-!
# Rows of trees

A row of nodes, each with a value and a row of its own below it. Nodes are
numbered from the top, a node before what is below it. A row can be grown node
by node, when each value tells which one it belongs below.
-/

inductive Rose (A : Type) where
  | nil
  | node (value : A) (children rest : Rose A)
deriving DecidableEq

namespace Rose

variable {A B : Type}

def leaf (value : A) : Rose A := node value nil nil

def values : Rose A → List A
  | nil => []
  | node value children rest => value :: (values children ++ values rest)

def append : Rose A → Rose A → Rose A
  | nil, last => last
  | node value children rest, last => node value children (append rest last)

def map (f : A → B) : Rose A → Rose B
  | nil => nil
  | node value children rest => node (f value) (map f children) (map f rest)

-- Adds a row below the node with the given number, after what is there.
def insertAt : Rose A → Nat → Rose A → Rose A
  | nil, _, _ => nil
  | node value children rest, 0, tree => node value (children.append tree) rest
  | node value children rest, n + 1, tree =>
    if n < children.values.length then node value (insertAt children n tree) rest
    else node value children (insertAt rest (n - children.values.length) tree)

def modifyAt (change : A → A) : Rose A → Nat → Rose A
  | nil, _ => nil
  | node value children rest, 0 => node (change value) children rest
  | node value children rest, n + 1 =>
    if n < children.values.length then node value (modifyAt change children n) rest
    else node value children (modifyAt change rest (n - children.values.length))

-- Adds a row below every node with the given value.
def graft [DecidableEq A] : Rose A → A → Rose A → Rose A
  | nil, _, _ => nil
  | node value children rest, parent, tree =>
    if value = parent then node value ((graft children parent tree).append tree) (graft rest parent tree)
    else node value (graft children parent tree) (graft rest parent tree)

-- Adds a value below the one it belongs below; without one it is not added.
def grow [DecidableEq A] (anchor : A → Option A) (whole : Rose A) (value : A) : Rose A :=
  match anchor value with
  | none => whole
  | some parent => whole.graft parent (leaf value)

-- Every value belongs where it is, the row itself below `parent`.
def Anchored (anchor : A → Option A) : A → Rose A → Prop
  | _, nil => True
  | parent, node value children rest =>
    anchor value = some parent ∧ Anchored anchor value children ∧ Anchored anchor parent rest

/-! ## Values -/

section Values

variable (f : A → B) (change : A → A) (first last tree whole : Rose A) (n : Nat)

@[simp] theorem values_leaf (value : A) : (leaf value).values = [value] := rfl

@[simp] theorem values_append : (first.append last).values = first.values ++ last.values := by
  induction first with
  | nil => rfl
  | node value children rest _ ih => simp [append, values, ih]

@[simp] theorem append_nil : tree.append nil = tree := by
  induction tree with
  | nil => rfl
  | node value children rest _ ih => rw [append, ih]

theorem append_assoc (middle : Rose A) :
    (first.append middle).append last = first.append (middle.append last) := by
  induction first with
  | nil => rfl
  | node value children rest _ ih => rw [append, append, append, ih]

@[simp] theorem values_map : (tree.map f).values = tree.values.map f := by
  induction tree with
  | nil => rfl
  | node value children rest below ih => simp [map, values, below, ih]

theorem map_append : (first.append last).map f = (first.map f).append (last.map f) := by
  induction first with
  | nil => rfl
  | node value children rest _ ih => simp only [append, map, ih]

theorem map_map {C : Type} (g : B → C) : (tree.map f).map g = tree.map fun value => g (f value) := by
  induction tree with
  | nil => rfl
  | node value children rest below ih => rw [map, map, map, below, ih]

theorem map_id : tree.map id = tree := by
  induction tree with
  | nil => rfl
  | node value children rest below ih => rw [map, below, ih, id]

theorem map_congr (g : A → B) (same : ∀ value ∈ tree.values, f value = g value) : tree.map f = tree.map g := by
  induction tree with
  | nil => rfl
  | node value children rest below ih =>
      simp only [values, List.mem_cons, List.mem_append] at same
      rw [map, map, same value (Or.inl rfl), below fun other member => same other (Or.inr (Or.inl member)),
        ih fun other member => same other (Or.inr (Or.inr member))]

theorem map_insertAt : (whole.insertAt n tree).map f = (whole.map f).insertAt n (tree.map f) := by
  induction whole generalizing n with
  | nil => rfl
  | node value children rest below ih =>
      cases n with
      | zero => simp only [insertAt, map, map_append]
      | succ n =>
          simp only [insertAt, map, values_map, List.length_map]
          split
          · rw [map, below]
          · rw [map, ih]

-- After a change the values are as before, but for the one with that number.
theorem map_modifyAt (g : A → B) (changed : ∀ value ∈ whole.values[n]?, f (change value) = g value)
    (same : ∀ m value, m ≠ n → whole.values[m]? = some value → f value = g value) :
    (whole.modifyAt change n).map f = whole.map g := by
  induction whole generalizing n with
  | nil => rfl
  | node value children rest below ih =>
      have inChildren (m : Nat) (other : A) (found : children.values[m]? = some other) :
          (node value children rest).values[m + 1]? = some other := by
        rw [values, List.getElem?_cons_succ, List.getElem?_append_left, found]
        exact (List.getElem?_eq_some_iff.mp found).1
      have inRest (m : Nat) (other : A) (found : rest.values[m]? = some other) :
          (node value children rest).values[m + children.values.length + 1]? = some other := by
        rw [values, List.getElem?_cons_succ, List.getElem?_append_right (by omega), Nat.add_sub_cancel, found]
      cases n with
      | zero =>
          have head : f (change value) = g value := changed value rfl
          rw [modifyAt, map, map, head, map_congr f children g, map_congr f rest g]
          · intro other member
            obtain ⟨m, found⟩ := List.getElem?_of_mem member
            exact same _ other (by omega) (inRest m other found)
          · intro other member
            obtain ⟨m, found⟩ := List.getElem?_of_mem member
            exact same _ other (by omega) (inChildren m other found)
      | succ n =>
          have head : f value = g value := same 0 value (by omega) rfl
          rw [modifyAt]
          split
          next inside =>
            rw [map, map, head, below n, map_congr f rest g]
            · intro other member
              obtain ⟨m, found⟩ := List.getElem?_of_mem member
              exact same _ other (by omega) (inRest m other found)
            · intro other found
              exact changed other (inChildren n other found)
            · intro m other apart found
              exact same _ other (by omega) (inChildren m other found)
          next outside =>
            rw [map, map, head, map_congr f children g, ih (n - children.values.length)]
            · intro other found
              have place : n - children.values.length + children.values.length + 1 = n + 1 := by omega
              exact changed other (place ▸ inRest _ other found)
            · intro m other apart found
              exact same _ other (by omega) (inRest m other found)
            · intro other member
              obtain ⟨m, found⟩ := List.getElem?_of_mem member
              have place := (List.getElem?_eq_some_iff.mp found).1
              exact same _ other (by omega) (inChildren m other found)

end Values

/-! ## Grafting -/

section Graft

variable [DecidableEq A] {parent : A} {first last tree whole : Rose A}

theorem graft_of_not_mem (absent : parent ∉ whole.values) : whole.graft parent tree = whole := by
  induction whole with
  | nil => rfl
  | node value children rest below ih =>
      simp only [values, List.mem_cons, List.mem_append, not_or] at absent
      rw [graft, if_neg (Ne.symm absent.1), below absent.2.1, ih absent.2.2]

theorem graft_append (parent : A) (tree : Rose A) :
    (first.append last).graft parent tree = (first.graft parent tree).append (last.graft parent tree) := by
  induction first with
  | nil => rfl
  | node value children rest _ ih =>
      simp only [append, graft, ih]
      split <;> rfl

theorem graft_nil (parent : A) : whole.graft parent nil = whole := by
  induction whole with
  | nil => rfl
  | node value children rest below ih => simp [graft, below, ih]

-- Two rows are added one after the other.
theorem graft_graft (apart : parent ∉ first.values) :
    (whole.graft parent first).graft parent last = whole.graft parent (first.append last) := by
  induction whole with
  | nil => rfl
  | node value children rest below ih =>
      by_cases same : value = parent
      · simp only [graft, if_pos same, below, ih, graft_append, graft_of_not_mem apart, append_assoc]
      · simp only [graft, if_neg same, below, ih]

-- A node that was just added is grown where it is.
theorem graft_node {value : A} {children : Rose A} (fresh : value ∉ whole.values) :
    (whole.graft parent (leaf value)).graft value children = whole.graft parent (node value children nil) := by
  induction whole with
  | nil => rfl
  | node head row rest below ih =>
      simp only [values, List.mem_cons, List.mem_append, not_or] at fresh
      obtain ⟨head', row', rest'⟩ := fresh
      by_cases same : head = parent
      · simp only [graft, if_pos same, if_neg (Ne.symm head'), below row', ih rest', graft_append]
        simp [leaf, graft, append]
      · simp only [graft, if_neg same, if_neg (Ne.symm head'), below row', ih rest']

theorem head_graft : (whole.graft parent tree).values[0]? = whole.values[0]? := by
  cases whole with
  | nil => rfl
  | node value children rest =>
      rw [graft]
      split <;> rfl

theorem mem_values_graft {value : A} (member : value ∈ (whole.graft parent tree).values) :
    value ∈ whole.values ∨ value ∈ tree.values := by
  induction whole with
  | nil => simp [graft, values] at member
  | node head row rest below ih =>
      rw [graft] at member
      split at member <;> simp only [values, values_append, List.mem_cons, List.mem_append] at member ⊢ <;> tauto

theorem mem_values_graft_of_mem {value : A} (member : value ∈ whole.values) :
    value ∈ (whole.graft parent tree).values := by
  induction whole with
  | nil => simp [values] at member
  | node head row rest below ih =>
      rw [graft]
      split <;> simp only [values, values_append, List.mem_cons, List.mem_append] at member ⊢ <;> tauto

-- The only node with a value is grown at its number.
theorem insertAt_eq_graft {n : Nat} (nodup : whole.values.Nodup) (found : whole.values[n]? = some parent) :
    whole.insertAt n tree = whole.graft parent tree := by
  induction whole generalizing n with
  | nil => rfl
  | node value children rest below ih =>
      rw [values, List.nodup_cons, List.nodup_append', List.mem_append, not_or] at nodup
      obtain ⟨⟨above, before⟩, inChildren, inRest, apart⟩ := nodup
      cases n with
      | zero =>
          obtain rfl : value = parent := by simpa [values] using found
          rw [insertAt, graft, if_pos rfl, graft_of_not_mem above, graft_of_not_mem before]
      | succ n =>
          rw [values, List.getElem?_cons_succ] at found
          rw [insertAt]
          split
          next inside =>
            rw [List.getElem?_append_left inside] at found
            have member := List.mem_of_getElem? found
            have other : value ≠ parent := fun same => above (same ▸ member)
            rw [graft, if_neg other, below inChildren found, graft_of_not_mem (apart member)]
          next outside =>
            rw [List.getElem?_append_right (by omega)] at found
            have member := List.mem_of_getElem? found
            have other : value ≠ parent := fun same => before (same ▸ member)
            rw [graft, if_neg other, ih inRest found, graft_of_not_mem fun inside => apart inside member]

theorem perm_values_graft (nodup : whole.values.Nodup) (member : parent ∈ whole.values) :
    (whole.graft parent tree).values.Perm (tree.values ++ whole.values) := by
  induction whole with
  | nil => simp [values] at member
  | node value children rest below ih =>
      rw [values, List.nodup_cons, List.nodup_append', List.mem_append, not_or] at nodup
      obtain ⟨⟨above, before⟩, inChildren, inRest, apart⟩ := nodup
      by_cases same : value = parent
      · subst same
        rw [graft, if_pos rfl, graft_of_not_mem above, graft_of_not_mem before, values, values, values_append]
        grind
      rw [graft, if_neg same, values, values]
      rcases List.mem_append.mp ((List.mem_cons.mp member).resolve_left (Ne.symm same)) with inside | outside
      · rw [graft_of_not_mem (apart inside)]
        have grown := below inChildren inside
        grind
      · rw [graft_of_not_mem fun inside => apart inside outside]
        have grown := ih inRest outside
        grind

theorem nodup_values_graft (nodup : whole.values.Nodup) (tree_nodup : tree.values.Nodup)
    (apart : ∀ value ∈ tree.values, value ∉ whole.values) : (whole.graft parent tree).values.Nodup := by
  by_cases member : parent ∈ whole.values
  · rw [(perm_values_graft nodup member).nodup_iff, List.nodup_append']
    exact ⟨tree_nodup, nodup, apart⟩
  · rwa [graft_of_not_mem member]

end Graft

/-! ## Growing -/

section Grow

variable (anchor : A → Option A)

theorem anchored_append (parent : A) (first last : Rose A) :
    (first.append last).Anchored anchor parent ↔ first.Anchored anchor parent ∧ last.Anchored anchor parent := by
  induction first with
  | nil => simp [append, Anchored]
  | node value children rest _ ih => simp [append, Anchored, ih, and_assoc]

variable {anchor} [DecidableEq A] {parent : A} {tree whole : Rose A}

-- Adding the values of a row one by one adds the row.
theorem foldl_grow (anchored : tree.Anchored anchor parent) (nodup : tree.values.Nodup)
    (apart : ∀ value ∈ tree.values, value ∉ whole.values) (outside : parent ∉ tree.values) :
    tree.values.foldl (grow anchor) whole = whole.graft parent tree := by
  induction tree generalizing whole parent with
  | nil => rw [graft_nil]; rfl
  | node value children rest below ih =>
      obtain ⟨here, anchoredChildren, anchoredRest⟩ := anchored
      rw [values, List.nodup_cons, List.nodup_append', List.mem_append, not_or] at nodup
      obtain ⟨⟨above, before⟩, inChildren, inRest, disjoint⟩ := nodup
      simp only [values, List.mem_cons, List.mem_append, not_or] at outside apart
      have fresh : value ∉ whole.values := apart value (Or.inl rfl)
      have first : grow anchor whole value = whole.graft parent (leaf value) := by rw [grow, here]
      -- The children are added below the new node, the rest below the same parent.
      have grown : children.values.foldl (grow anchor) (whole.graft parent (leaf value)) =
          whole.graft parent (node value children nil) := by
        rw [below anchoredChildren inChildren _ above, graft_node fresh]
        intro other member old
        rcases mem_values_graft old with old | new
        · exact apart other (Or.inr (Or.inl member)) old
        · exact above (List.mem_singleton.mp new ▸ member)
      rw [values, List.foldl_cons, List.foldl_append, first, grown, ih anchoredRest inRest _ outside.2.2, graft_graft]
      · rfl
      · simpa [values] using ⟨outside.1, outside.2.1⟩
      · intro other member old
        rcases mem_values_graft old with old | new
        · exact apart other (Or.inr (Or.inr member)) old
        · simp only [values, List.append_nil, List.mem_cons] at new
          rcases new with rfl | inside
          · exact before member
          · exact disjoint inside member

variable {added : List A}

theorem mem_foldl_grow {value : A} (member : value ∈ (added.foldl (grow anchor) whole).values) :
    value ∈ whole.values ∨ value ∈ added := by
  induction added generalizing whole with
  | nil => exact Or.inl member
  | cons first added ih =>
      rcases ih member with old | later
      · rw [grow] at old
        split at old
        · exact Or.inl old
        · rcases mem_values_graft old with old | new
          · exact Or.inl old
          · exact Or.inr (List.mem_cons.mpr (Or.inl (List.mem_singleton.mp new)))
      · exact Or.inr (List.mem_cons_of_mem first later)

theorem head_foldl_grow : (added.foldl (grow anchor) whole).values[0]? = whole.values[0]? := by
  induction added generalizing whole with
  | nil => rfl
  | cons first added ih =>
      rw [List.foldl_cons, ih, grow]
      split
      · rfl
      · exact head_graft

theorem nodup_foldl_grow (nodup : (whole.values ++ added).Nodup) :
    (added.foldl (grow anchor) whole).values.Nodup := by
  induction added generalizing whole with
  | nil => simpa using nodup
  | cons first added ih =>
      rw [List.nodup_append', List.nodup_cons] at nodup
      obtain ⟨old, ⟨fresh, later⟩, apart⟩ := nodup
      have new : first ∉ whole.values := fun member => apart member (List.mem_cons_self)
      apply ih
      rw [List.nodup_append']
      refine ⟨?_, later, ?_⟩
      · rw [grow]
        split
        · exact old
        · exact nodup_values_graft old (List.nodup_singleton first) (by simpa using new)
      · intro value member inAdded
        have place : value ∈ whole.values ∨ value ∈ [first] := mem_foldl_grow member
        rcases place with inWhole | same
        · exact apart inWhole (List.mem_cons_of_mem first inAdded)
        · exact fresh (List.mem_singleton.mp same ▸ inAdded)

end Grow

end Rose
