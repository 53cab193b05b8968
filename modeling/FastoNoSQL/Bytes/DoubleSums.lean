import Mathlib.Tactic.Ring
import FastoNoSQL.Bytes.Double

set_option autoImplicit false

/-!
# Sums of doubles

Sums and quotients of doubles and their conversion to `int`. A sum with
something that is not negative does not decrease, although it is rounded.
-/

namespace Bytes

def signed (negative : Bool) (magnitude : Nat) : Int := if negative then -magnitude else magnitude

def Double.ofNat (n : Nat) : Double := .ofUnits false (roundUnits (n * one) 1)

def Double.add : Double → Double → Double
  | .finite negative magnitude, .finite negative' magnitude' =>
    let sum := signed negative magnitude + signed negative' magnitude'
    .ofUnits (sum < 0) (roundUnits sum.natAbs 1)
  | _, _ => .special

def Double.div : Double → Double → Double
  | .finite negative magnitude, .finite negative' divisor =>
    if divisor = 0 then .special else .ofUnits (negative != negative') (roundUnits (magnitude * one) divisor)
  | _, _ => .special

-- Truncation towards zero; out of range there is no value.
def Double.toInt32? : Double → Option Int
  | .finite negative magnitude =>
    let value := signed negative (magnitude / one)
    if -2 ^ 31 ≤ value ∧ value < 2 ^ 31 then some value else none
  | .special => none

/-! ## Rounding -/

theorem held_zero : heldExactly 0 := Nat.dvd_zero _

theorem ulp_pos (magnitude : Nat) : 0 < ulp magnitude := Nat.two_pow_pos _

theorem roundUnits_one (units : Nat) : roundUnits units 1 = nearest units (ulp units) * ulp units := by
  simp [roundUnits]

theorem div_le_nearest (units divisor : Nat) : units / divisor ≤ nearest units divisor := by
  simp only [nearest]
  split <;> omega

theorem nearest_le (units divisor : Nat) : nearest units divisor ≤ units / divisor + 1 := by
  simp only [nearest]
  split <;> omega

-- A magnitude of 53 bits or of any step: it is below `2^53` steps.
theorem units_lt (units : Nat) : units < 2 ^ 53 * ulp units := by
  by_cases zero : units = 0
  · rw [zero]
    exact Nat.mul_pos (by decide) (ulp_pos 0)
  · have below : units < 2 ^ (units.log2 + 1) := (Nat.log2_lt zero).mp (by omega)
    calc units < 2 ^ (units.log2 + 1) := below
      _ ≤ 2 ^ (53 + (units.log2 - 52)) := Nat.pow_le_pow_right (by decide) (by omega)
      _ = 2 ^ 53 * ulp units := by rw [Nat.pow_add, ulp]

theorem nearest_steps_le (units : Nat) : nearest units (ulp units) ≤ 2 ^ 53 := by
  have below : units / ulp units < 2 ^ 53 := (Nat.div_lt_iff_lt_mul (ulp_pos units)).mpr (units_lt units)
  have := nearest_le units (ulp units)
  omega

theorem held_roundUnits (units : Nat) : heldExactly (roundUnits units 1) := by
  have few := nearest_steps_le units
  rw [roundUnits_one]
  generalize nearest units (ulp units) = steps at few
  by_cases zero : steps = 0
  · rw [zero, Nat.zero_mul]
    exact held_zero
  have step : ulp (steps * ulp units) = 2 ^ (steps.log2 + (units.log2 - 52) - 52) := ulp_mul_two_pow steps _ zero
  rw [heldExactly, step]
  by_cases small : steps.log2 ≤ 52
  · exact Nat.dvd_mul_left_of_dvd (Nat.pow_dvd_pow 2 (by omega)) steps
  · -- Rounding went up to the next power of two.
    have large : 2 ^ 53 ≤ steps := (Nat.le_log2 zero).mp (by omega)
    obtain rfl : steps = 2 ^ 53 := by omega
    rw [Nat.log2_two_pow, ulp, ← Nat.pow_add]
    exact Nat.pow_dvd_pow 2 (by omega)

theorem le_roundUnits (held units : Nat) (isHeld : heldExactly held) (le : held ≤ units) :
    held ≤ roundUnits units 1 := by
  have multiple (between : Nat) (divides : ulp units ∣ between) (within : between ≤ units) :
      between ≤ roundUnits units 1 := by
    calc between = between / ulp units * ulp units := (Nat.div_mul_cancel divides).symm
      _ ≤ units / ulp units * ulp units := Nat.mul_le_mul_right _ (Nat.div_le_div_right within)
      _ ≤ nearest units (ulp units) * ulp units := Nat.mul_le_mul_right _ (div_le_nearest units _)
      _ = roundUnits units 1 := (roundUnits_one units).symm
  by_cases zero : units = 0
  · omega
  by_cases sameLog : held.log2 = units.log2
  · apply multiple held _ le
    rwa [ulp, ← sameLog]
  · have logs : held.log2 ≤ units.log2 := by
      by_cases none : held = 0
      · simp [none]
      · exact (Nat.le_log2 zero).mpr ((Nat.log2_self_le none).trans le)
    have power : held ≤ 2 ^ units.log2 :=
      Nat.lt_log2_self.le.trans (Nat.pow_le_pow_right (by decide) (by omega))
    exact power.trans (multiple _ (Nat.pow_dvd_pow 2 (by omega)) (Nat.log2_self_le zero))

/-! ## Adding up steps -/

theorem add_nonneg (magnitude step : Nat) :
    (Double.finite false magnitude).add (.finite false step) = .ofUnits false (roundUnits (magnitude + step) 1) := by
  have nonneg : ¬ ((magnitude : Int) + step < 0) := by omega
  have units : ((magnitude : Int) + step).natAbs = magnitude + step := by omega
  simp [Double.add, signed, nonneg, units]

def sumOf (step : Double) : Nat → Double
  | 0 => .finite false 0
  | count + 1 => (sumOf step count).add step

theorem toInt32_sumOf_zero (step : Double) : (sumOf step 0).toInt32? = some 0 := by
  simp [sumOf, Double.toInt32?, signed]

-- What a sum of steps can be.
def IsSum : Double → Prop
  | .finite negative magnitude => negative = false ∧ heldExactly magnitude
  | .special => True

def isNegative : Double → Bool
  | .finite negative _ => negative
  | .special => false

theorem isNegative_ofUnits (magnitude : Nat) : isNegative (.ofUnits false magnitude) = false := by
  unfold Double.ofUnits
  split <;> rfl

theorem isNegative_div (dividend divisor : Double) (first : isNegative dividend = false)
    (second : isNegative divisor = false) : isNegative (dividend.div divisor) = false := by
  cases dividend with
  | special => rfl
  | finite negative magnitude =>
      cases divisor with
      | special => rfl
      | finite negative' magnitude' =>
          obtain rfl : negative = false := first
          obtain rfl : negative' = false := second
          rw [Double.div]
          split
          · rfl
          · exact isNegative_ofUnits _

section Steps

variable (step : Double) (nonneg : isNegative step = false)
include nonneg

theorem isSum_sumOf (count : Nat) : IsSum (sumOf step count) := by
  induction count with
  | zero => exact ⟨rfl, held_zero⟩
  | succ count ih =>
      rw [sumOf]
      cases sum : sumOf step count with
      | special => trivial
      | finite negative magnitude =>
          rw [sum] at ih
          obtain ⟨rfl, _⟩ := ih
          cases step with
          | special => trivial
          | finite negative step =>
              obtain rfl : negative = false := nonneg
              rw [add_nonneg, Double.ofUnits]
              split
              · exact ⟨rfl, held_roundUnits _⟩
              · trivial

theorem toInt32_sumOf_succ (count : Nat) (value : Int) (shown : (sumOf step (count + 1)).toInt32? = some value) :
    ∃ before, (sumOf step count).toInt32? = some before ∧ before ≤ value := by
  have isSum := isSum_sumOf step nonneg count
  rw [sumOf] at shown
  cases sum : sumOf step count with
  | special =>
      rw [sum] at shown
      cases shown
  | finite negative magnitude =>
      rw [sum] at isSum shown
      obtain ⟨rfl, held⟩ := isSum
      cases step with
      | special => cases shown
      | finite negative step =>
          obtain rfl : negative = false := nonneg
          rw [add_nonneg, Double.ofUnits] at shown
          split at shown
          · have grown :=
              Nat.div_le_div_right (c := one) (le_roundUnits magnitude _ held (Nat.le_add_right magnitude step))
            simp only [Double.toInt32?, signed, Bool.false_eq_true, if_false, Option.ite_none_right_eq_some,
              Option.some.injEq] at shown ⊢
            obtain ⟨range, rfl⟩ := shown
            generalize magnitude / one = before at grown
            generalize roundUnits (magnitude + step) 1 / one = after at grown range
            exact ⟨before, ⟨by omega, rfl⟩, by omega⟩
          · cases shown

-- The sums that are shown grow with the count.
theorem toInt32_sumOf_le (first last : Nat) (le : first ≤ last) (value : Int)
    (shown : (sumOf step last).toInt32? = some value) :
    ∃ before, (sumOf step first).toInt32? = some before ∧ before ≤ value := by
  induction le generalizing value with
  | refl => exact ⟨value, shown, Int.le_refl _⟩
  | step _ ih =>
      obtain ⟨middle, shown, le⟩ := toInt32_sumOf_succ step nonneg _ value shown
      obtain ⟨before, shown, le'⟩ := ih middle shown
      exact ⟨before, shown, Int.le_trans le' le⟩

end Steps

/-! ## Small sums -/

theorem roundUnits_mul_le (numerator divisor : Nat) :
    roundUnits numerator divisor * divisor ≤ numerator + divisor * ulp (numerator / divisor) := by
  rw [roundUnits]
  generalize ulp (numerator / divisor) = step
  have whole := Nat.div_mul_le_self numerator (divisor * step)
  calc nearest numerator (divisor * step) * step * divisor
      = nearest numerator (divisor * step) * (divisor * step) := by rw [Nat.mul_assoc, Nat.mul_comm step]
    _ ≤ (numerator / (divisor * step) + 1) * (divisor * step) := Nat.mul_le_mul_right _ (nearest_le _ _)
    _ ≤ numerator + divisor * step := by rw [Nat.add_mul, Nat.one_mul]; omega

theorem ulp_le (small large : Nat) (le : small ≤ large) : ulp small ≤ ulp large := by
  by_cases zero : small = 0
  · rw [zero, ulp, Nat.log2_zero]
    exact ulp_pos large
  · have logs : small.log2 ≤ large.log2 := (Nat.le_log2 (by omega)).mpr ((Nat.log2_self_le zero).trans le)
    exact Nat.pow_le_pow_right (by decide) (by omega)

-- Doubles below 128 are at most `2^-45` apart.
theorem ulp_below (magnitude : Nat) (below : magnitude ≤ 128 * one) : ulp magnitude * 2 ^ 45 ≤ one :=
  (Nat.mul_le_mul_right _ (ulp_le _ _ below)).trans (by decide +kernel)

theorem roundUnits_below (magnitude : Nat) (below : magnitude ≤ 128 * one) :
    roundUnits magnitude 1 * 2 ^ 45 ≤ magnitude * 2 ^ 45 + one := by
  have close := roundUnits_mul_le magnitude 1
  rw [Nat.div_one, Nat.mul_one, Nat.one_mul] at close
  calc roundUnits magnitude 1 * 2 ^ 45 ≤ (magnitude + ulp magnitude) * 2 ^ 45 := Nat.mul_le_mul_right _ close
    _ = magnitude * 2 ^ 45 + ulp magnitude * 2 ^ 45 := Nat.add_mul _ _ _
    _ ≤ magnitude * 2 ^ 45 + one := Nat.add_le_add_left (ulp_below magnitude below) _

theorem lt_overflow_of_le (magnitude : Nat) (le : magnitude ≤ 128 * one) : magnitude < overflow :=
  le.trans_lt (by decide +kernel)

theorem ofNat_of_few (n : Nat) (few : n ≤ 2 ^ 40) : Double.ofNat n = .finite false (n * one) := by
  have small : n.log2 ≤ 52 := by
    by_cases zero : n = 0
    · simp [zero]
    · exact Nat.le_of_lt_succ ((Nat.log2_lt zero).mpr (by omega))
  rw [Double.ofNat, roundUnits_of_heldExactly n (heldExactly_of_small n small), Double.ofUnits,
    if_pos (mul_one_lt_overflow n (by omega))]

section Parts

variable (parts : Nat) (positive : 0 < parts) (few : parts ≤ 2 ^ 40)
include positive few

theorem part_of_few : ∃ part, (Double.ofNat 99).div (Double.ofNat parts) = .finite false part ∧
    part * parts * 2 ^ 45 ≤ 99 * one * 2 ^ 45 + parts * one := by
  have nonzero : parts * one ≠ 0 := (Nat.mul_pos positive one_pos).ne'
  rw [ofNat_of_few 99 (by decide), ofNat_of_few parts few, Double.div, if_neg nonzero]
  have close := roundUnits_mul_le (99 * one * one) (parts * one)
  have quotient : 99 * one * one / (parts * one) ≤ 128 * one := by
    rw [Nat.mul_div_mul_right _ _ one_pos]
    exact (Nat.div_le_self _ _).trans (Nat.mul_le_mul_right one (by decide))
  have fine := ulp_below _ quotient
  have positive' := one_pos
  generalize ulp (99 * one * one / (parts * one)) = step at close fine
  generalize roundUnits (99 * one * one) (parts * one) = part at close
  have bound : part * parts ≤ 99 * one + parts * step := by
    apply Nat.le_of_mul_le_mul_right _ positive'
    calc part * parts * one = part * (parts * one) := Nat.mul_assoc _ _ _
      _ ≤ 99 * one * one + parts * one * step := close
      _ = (99 * one + parts * step) * one := by ring
  have scaled : part * parts * 2 ^ 45 ≤ 99 * one * 2 ^ 45 + parts * one := by
    calc part * parts * 2 ^ 45 ≤ (99 * one + parts * step) * 2 ^ 45 := Nat.mul_le_mul_right _ bound
      _ = 99 * one * 2 ^ 45 + parts * (step * 2 ^ 45) := by ring
      _ ≤ 99 * one * 2 ^ 45 + parts * one := Nat.add_le_add_left (Nat.mul_le_mul_left _ fine) _
  refine ⟨part, ?_, scaled⟩
  have small : part ≤ 128 * one := by
    have least : part ≤ part * parts := Nat.le_mul_of_pos_right part positive
    have most : parts * one ≤ 2 ^ 40 * one := Nat.mul_le_mul_right one few
    generalize one = unit at scaled most
    omega
  rw [Double.ofUnits, if_pos (lt_overflow_of_le part small)]
  rfl

-- Parts of 99, as many as `2^40` at most, do not add up to 100.
theorem sumOf_parts (count : Nat) (le : count ≤ parts) :
    ∃ magnitude, sumOf ((Double.ofNat 99).div (Double.ofNat parts)) count = .finite false magnitude ∧
      magnitude < 100 * one := by
  obtain ⟨part, quotient, partLe⟩ := part_of_few parts positive few
  rw [quotient]
  have ones := one_pos
  have fine (magnitude : Nat) (le : magnitude ≤ 128 * one) :
      roundUnits magnitude 1 * 2 ^ 45 ≤ magnitude * 2 ^ 45 + one := roundUnits_below magnitude le
  have finite (magnitude : Nat) (le : magnitude ≤ 128 * one) : magnitude < overflow := lt_overflow_of_le magnitude le
  generalize one = unit at partLe ones fine finite ⊢
  have most (count : Nat) (le : count ≤ parts) : count * (part * 2 ^ 45 + unit) < 100 * unit * 2 ^ 45 := by
    have units := Nat.mul_le_mul_right unit few
    calc count * (part * 2 ^ 45 + unit) ≤ parts * (part * 2 ^ 45 + unit) := Nat.mul_le_mul_right _ le
      _ = part * parts * 2 ^ 45 + parts * unit := by ring
      _ < 100 * unit * 2 ^ 45 := by omega
  -- Each addition rounds by less than the distance of doubles below 128.
  have sums (count : Nat) (le : count ≤ parts) :
      ∃ magnitude, sumOf (.finite false part) count = .finite false magnitude ∧
        magnitude * 2 ^ 45 ≤ count * (part * 2 ^ 45 + unit) := by
    induction count with
    | zero => exact ⟨0, rfl, Nat.le_of_eq (by simp)⟩
    | succ count ih =>
        obtain ⟨magnitude, sum, bound⟩ := ih (by omega)
        have next := most (count + 1) le
        rw [Nat.succ_mul] at next ⊢
        have close := fine (magnitude + part) (by omega)
        rw [sumOf, sum, add_nonneg, Double.ofUnits]
        generalize roundUnits (magnitude + part) 1 = rounded at close
        have grown : rounded * 2 ^ 45 ≤ count * (part * 2 ^ 45 + unit) + (part * 2 ^ 45 + unit) := by
          calc rounded * 2 ^ 45 ≤ (magnitude + part) * 2 ^ 45 + unit := close
            _ = magnitude * 2 ^ 45 + (part * 2 ^ 45 + unit) := by ring
            _ ≤ count * (part * 2 ^ 45 + unit) + (part * 2 ^ 45 + unit) := Nat.add_le_add_right bound _
        exact ⟨rounded, if_pos (finite rounded (by omega)), grown⟩
  obtain ⟨magnitude, sum, bound⟩ := sums count le
  have := most count le
  exact ⟨magnitude, sum, by omega⟩

theorem toInt32_sumOf_parts (count : Nat) (le : count ≤ parts) :
    ∃ value, (sumOf ((Double.ofNat 99).div (Double.ofNat parts)) count).toInt32? = some value ∧ value ≤ 100 := by
  obtain ⟨magnitude, sum, small⟩ := sumOf_parts parts positive few count le
  have quotient : magnitude / one < 100 := (Nat.div_lt_iff_lt_mul one_pos).mpr small
  simp only [sum, Double.toInt32?, signed, Bool.false_eq_true, if_false]
  generalize magnitude / one = value at quotient
  exact ⟨value, if_pos (by omega), by omega⟩

end Parts

end Bytes
