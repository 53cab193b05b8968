import Mathlib.Data.List.Nodup
import Mathlib.Tactic.Common

set_option autoImplicit false

/-!
# Lists as ordered sets

Lists whose elements are told apart by a key, and what it means to add an
element to such a list or to take one out.
-/

namespace Keyed

variable {A K : Type} (key : A → K)

def Distinct (list : List A) : Prop := (list.map key).Nodup

def Has (list : List A) (x : A) : Prop := key x ∈ list.map key

instance [DecidableEq K] (list : List A) : Decidable (Distinct key list) :=
  inferInstanceAs (Decidable (list.map key).Nodup)

instance [DecidableEq K] (list : List A) (x : A) : Decidable (Has key list x) :=
  inferInstanceAs (Decidable (key x ∈ list.map key))

structure Appends (x : A) (list next : List A) : Prop where
  present : Has key list x → next = list
  absent : ¬ Has key list x → next = list ++ [x]

structure Prepends (x : A) (list next : List A) : Prop where
  present : Has key list x → next = list
  absent : ¬ Has key list x → next = x :: list

/-- The element with the key of `x` is taken out and the order of the others is kept. -/
structure Removes (x : A) (list next : List A) : Prop where
  absent : ¬ Has key list x → next = list
  present : ∀ before y after, list = before ++ y :: after → key y = key x → next = before ++ after

section Distinct

variable {key} {list next : List A} {x : A}

theorem distinct_append_iff (first second : List A) :
    Distinct key (first ++ second) ↔
      Distinct key first ∧ Distinct key second ∧ ∀ x ∈ second, ¬ Has key first x := by
  rw [Distinct, List.map_append, List.nodup_append']
  simp only [Distinct, Has, List.disjoint_right, List.mem_map, forall_exists_index, and_imp, forall_apply_eq_imp_iff₂]

theorem Distinct.sublist (distinct : Distinct key list) (part : next.Sublist list) : Distinct key next :=
  (part.map key).nodup distinct

theorem Appends.distinct (appends : Appends key x list next) (distinct : Distinct key list) : Distinct key next := by
  by_cases present : Has key list x
  · rwa [appends.present present]
  · rw [appends.absent present, distinct_append_iff]
    exact ⟨distinct, List.nodup_singleton _, by simpa using present⟩

theorem Prepends.distinct (prepends : Prepends key x list next) (distinct : Distinct key list) :
    Distinct key next := by
  by_cases present : Has key list x
  · rwa [prepends.present present]
  · rw [prepends.absent present]
    exact List.nodup_cons.mpr ⟨present, distinct⟩

theorem Removes.distinct (removes : Removes key x list next) (distinct : Distinct key list) : Distinct key next := by
  by_cases present : Has key list x
  · obtain ⟨y, member, same⟩ := List.mem_map.mp present
    obtain ⟨before, after, split⟩ := List.append_of_mem member
    rw [removes.present before y after split same]
    rw [split] at distinct
    exact distinct.sublist ((List.sublist_cons_self y after).append_left before)
  · rwa [removes.absent present]

variable [DecidableEq K]

-- In a list with distinct keys it does not matter whether all or the first of equal elements are taken out.
theorem removes_filter (distinct : Distinct key list) (x : A) :
    Removes key x list (list.filter (key · ≠ key x)) := by
  constructor
  · intro absent
    rw [List.filter_eq_self]
    intro y member
    have other : key y ≠ key x := fun same => absent (List.mem_map.mpr ⟨y, member, same⟩)
    simpa using other
  · rintro before y after rfl same
    rw [distinct_append_iff] at distinct
    obtain ⟨_, tail, apart⟩ := distinct
    obtain ⟨fresh, _⟩ := List.nodup_cons.mp tail
    rw [List.filter_append, List.filter_cons_of_neg (by simp [same])]
    congr 1
    · rw [List.filter_eq_self]
      intro z member
      have other : key z ≠ key x := fun again =>
        apart y List.mem_cons_self (List.mem_map.mpr ⟨z, member, again.trans same.symm⟩)
      simpa using other
    · rw [List.filter_eq_self]
      intro z member
      have other : key z ≠ key x := fun again => fresh (List.mem_map.mpr ⟨z, member, again.trans same.symm⟩)
      simpa using other

theorem countP_eq_one_iff (distinct : Distinct key list) (x : A) :
    list.countP (key · = key x) = 1 ↔ Has key list x := by
  have counted : list.countP (key · = key x) = (list.map key).count (key x) := by
    rw [List.count, List.countP_map]
    exact List.countP_congr fun y _ => by simp
  rw [counted, Has, ← List.count_pos_iff]
  have most := List.nodup_iff_count_le_one.mp distinct (key x)
  omega

end Distinct

theorem removes_erase [BEq A] [LawfulBEq A] (list : List A) (distinct : list.Nodup) (x : A) :
    Removes id x list (list.erase x) := by
  classical
  have keys : Distinct id list := by simpa [Distinct] using distinct
  have same : list.erase x = list.filter (id · ≠ id x) := by
    rw [distinct.erase_eq_filter]
    exact List.filter_congr fun y _ => by rw [Bool.eq_iff_iff]; simp
  rw [same]
  exact removes_filter keys x

end Keyed
