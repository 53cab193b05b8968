import Mathlib.Algebra.GroupWithZero.Nat
import Mathlib.Data.List.Dedup
import Mathlib.Algebra.Order.BigOperators.Group.List
import Mathlib.Tactic.Common

set_option autoImplicit false

/-!
# Ledgers

Each line of a ledger has an entry and the list of what was really taken for
it. A report that names the entry of every line with one thing taken is right
as a whole only if it is right line by line, provided that what is taken for an
entry is the entry itself or something lighter.
-/

namespace Ledger

variable {A : Type} (weight : A → Nat)

abbrev Lines (A : Type) := List (A × List A)

def entries : Lines A → List A
  | [] => []
  | (entry, taken) :: lines => if taken.length = 1 then entry :: entries lines else entries lines

def takenOf (lines : Lines A) : List A := lines.flatMap (·.2)

def Right (lines : Lines A) : Prop := ∀ line ∈ lines, line.2 = [] ∨ line.2 = [line.1]

def Lighter (lines : Lines A) : Prop :=
  ∀ line ∈ lines, ∀ thing ∈ line.2, thing = line.1 ∨ weight thing < weight line.1

def sum (things : List A) : Nat := (things.map weight).sum

theorem entries_eq_takenOf (lines : Lines A) (right : Right lines) : entries lines = takenOf lines := by
  induction lines with
  | nil => rfl
  | cons line lines ih =>
      obtain ⟨entry, taken⟩ := line
      have rest := ih fun line member => right line (List.mem_cons_of_mem _ member)
      rcases right (entry, taken) (by simp) with nothing | own
      · simp only at nothing
        simp [entries, takenOf, nothing, rest]
      · simp only at own
        simp [entries, takenOf, own, rest]

theorem length_entries_le (lines : Lines A) :
    (entries lines).length ≤ (takenOf lines).length ∧
      ((entries lines).length = (takenOf lines).length → ∀ line ∈ lines, line.2.length ≤ 1) := by
  induction lines with
  | nil => simp [entries, takenOf]
  | cons line lines ih =>
      obtain ⟨entry, taken⟩ := line
      obtain ⟨bound, exact⟩ := ih
      have shape : (takenOf ((entry, taken) :: lines)).length = taken.length + (takenOf lines).length := by
        simp [takenOf]
      rw [shape, entries]
      by_cases one : taken.length = 1
      · simp only [one, if_true, List.length_cons, List.forall_mem_cons]
        exact ⟨by omega, fun same => ⟨le_refl 1, exact (by omega)⟩⟩
      · simp only [one, if_false, List.forall_mem_cons]
        exact ⟨by omega, fun same => ⟨by omega, exact (by omega)⟩⟩

theorem sum_takenOf_le (lines : Lines A) (lighter : Lighter weight lines)
    (few : ∀ line ∈ lines, line.2.length ≤ 1) :
    sum weight (takenOf lines) ≤ sum weight (entries lines) ∧
      (sum weight (takenOf lines) = sum weight (entries lines) → Right lines) := by
  induction lines with
  | nil => simp [entries, takenOf, Right]
  | cons line lines ih =>
      obtain ⟨entry, taken⟩ := line
      obtain ⟨bound, exact⟩ := ih (fun line member => lighter line (List.mem_cons_of_mem _ member))
        fun line member => few line (List.mem_cons_of_mem _ member)
      have count := few (entry, taken) (by simp)
      have own := lighter (entry, taken) (by simp)
      match taken, count with
      | [], _ =>
          refine ⟨by simpa [entries, takenOf] using bound, fun same => ?_⟩
          have rest := exact (by simpa [entries, takenOf] using same)
          exact List.forall_mem_cons.mpr ⟨Or.inl rfl, rest⟩
      | [thing], _ =>
          have light := own thing (by simp)
          have left : sum weight (takenOf ((entry, [thing]) :: lines)) =
              weight thing + sum weight (takenOf lines) := by simp [takenOf, sum]
          have right : sum weight (entries ((entry, [thing]) :: lines)) =
              weight entry + sum weight (entries lines) := by simp [entries, sum]
          have heavy : weight thing ≤ weight entry := by
            rcases light with rfl | less
            · exact le_refl _
            · exact le_of_lt less
          rw [left, right]
          refine ⟨by omega, fun same => ?_⟩
          rcases light with rfl | less
          · exact List.forall_mem_cons.mpr ⟨Or.inr rfl, exact (by omega)⟩
          · simp only at less
            omega

-- The report is right as a whole exactly when every line is.
theorem perm_iff_right (lines : Lines A) (lighter : Lighter weight lines) :
    (entries lines).Perm (takenOf lines) ↔ Right lines := by
  constructor
  · intro perm
    have few := (length_entries_le lines).2 perm.length_eq
    have same : sum weight (takenOf lines) = sum weight (entries lines) := ((perm.map weight).sum_eq).symm
    exact (sum_takenOf_le weight lines lighter few).2 same
  · intro right
    rw [entries_eq_takenOf lines right]

end Ledger
