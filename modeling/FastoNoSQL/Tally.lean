import Mathlib.Algebra.GroupWithZero.Nat
import Mathlib.Tactic.Common

set_option autoImplicit false

/-!
# Tallies

A count, a total and a running maximum with its label, in 64-bit arithmetic.
-/

structure Tally (Label : Type) where
  count : UInt64
  total : UInt64
  biggest : UInt64
  label : Label

namespace Tally

variable {Label : Type} (tally : Tally Label)

def add (label : Label) (size : UInt64) : Tally Label where
  count := tally.count + 1
  total := tally.total + size
  biggest := if tally.biggest < size then size else tally.biggest
  label := if tally.biggest < size then label else tally.label

def adds (entries : List (Label × UInt64)) : Tally Label :=
  entries.foldl (fun tally entry => tally.add entry.1 entry.2) tally

theorem adds_cons (entry : Label × UInt64) (entries : List (Label × UInt64)) :
    tally.adds (entry :: entries) = (tally.add entry.1 entry.2).adds entries := rfl

-- The greatest of the sizes, zero without any.
def greatest (sizes : List Nat) : Nat := sizes.foldr max 0

def sizes (entries : List (Label × UInt64)) : List Nat := entries.map fun entry => entry.2.toNat

theorem count_adds (entries : List (Label × UInt64)) :
    (tally.adds entries).count.toNat = (tally.count.toNat + entries.length) % 2 ^ 64 := by
  induction entries generalizing tally with
  | nil => exact (Nat.mod_eq_of_lt tally.count.toNat_lt).symm
  | cons entry entries ih =>
      have one : (1 : UInt64).toNat = 1 := rfl
      rw [adds_cons, ih, add, UInt64.toNat_add, List.length_cons, one]
      omega

theorem total_adds (entries : List (Label × UInt64)) :
    (tally.adds entries).total.toNat = (tally.total.toNat + (sizes entries).sum) % 2 ^ 64 := by
  induction entries generalizing tally with
  | nil => exact (Nat.mod_eq_of_lt tally.total.toNat_lt).symm
  | cons entry entries ih =>
      have cons : (sizes (entry :: entries)).sum = entry.2.toNat + (sizes entries).sum := List.sum_cons
      rw [adds_cons, ih, add, UInt64.toNat_add, cons]
      omega

theorem biggest_add (label : Label) (size : UInt64) :
    (tally.add label size).biggest.toNat = max tally.biggest.toNat size.toNat := by
  rw [add]
  split
  next less => exact (Nat.max_eq_right (Nat.le_of_lt (UInt64.lt_iff_toNat_lt.mp less))).symm
  next least => exact (Nat.max_eq_left (Nat.le_of_not_lt (mt UInt64.lt_iff_toNat_lt.mpr least))).symm

theorem biggest_adds (entries : List (Label × UInt64)) :
    (tally.adds entries).biggest.toNat = max tally.biggest.toNat (greatest (sizes entries)) := by
  induction entries generalizing tally with
  | nil => exact (Nat.max_eq_left (Nat.zero_le _)).symm
  | cons entry entries ih =>
      have cons : greatest (sizes (entry :: entries)) = max entry.2.toNat (greatest (sizes entries)) := rfl
      rw [adds_cons, ih, biggest_add, cons, Nat.max_assoc]

-- The first entry of the greatest size.
def firstGreatest (entries : List (Label × UInt64)) : Option (Label × UInt64) :=
  entries.find? fun entry => entry.2.toNat = greatest (sizes entries)

-- The label is that of the first entry of the greatest size, once that is more than before.
theorem label_adds (entries : List (Label × UInt64)) (more : tally.biggest.toNat < greatest (sizes entries)) :
    (firstGreatest entries).map Prod.fst = some (tally.adds entries).label := by
  have kept (entries : List (Label × UInt64)) (tally : Tally Label)
      (least : greatest (sizes entries) ≤ tally.biggest.toNat) : (tally.adds entries).label = tally.label := by
    induction entries generalizing tally with
    | nil => rfl
    | cons entry entries ih =>
        have cons : greatest (sizes (entry :: entries)) = max entry.2.toNat (greatest (sizes entries)) := rfl
        have small : ¬ tally.biggest < entry.2 := by
          rw [UInt64.lt_iff_toNat_lt]
          omega
        rw [adds_cons, ih _ (by rw [biggest_add]; omega)]
        exact if_neg small
  induction entries generalizing tally with
  | nil => exact absurd more (Nat.not_lt_zero _)
  | cons entry entries ih =>
      have cons : greatest (sizes (entry :: entries)) = max entry.2.toNat (greatest (sizes entries)) := rfl
      rw [adds_cons, firstGreatest, List.find?_cons, cons]
      by_cases later : (tally.add entry.1 entry.2).biggest.toNat < greatest (sizes entries)
      · have rest := ih _ later
        rw [biggest_add] at later
        have other : entry.2.toNat ≠ max entry.2.toNat (greatest (sizes entries)) := by omega
        have same : max entry.2.toNat (greatest (sizes entries)) = greatest (sizes entries) := by omega
        simp only [other, decide_false]
        rw [same]
        exact rest
      · rw [kept entries _ (Nat.le_of_not_lt later)]
        rw [biggest_add] at later
        have here : entry.2.toNat = max entry.2.toNat (greatest (sizes entries)) := by omega
        have less : tally.biggest < entry.2 := by
          rw [UInt64.lt_iff_toNat_lt]
          omega
        simp only [← here, decide_true, Option.map_some, add, if_pos less]

end Tally
