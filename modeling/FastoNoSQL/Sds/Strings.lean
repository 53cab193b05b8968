import FastoNoSQL.Bytes.Decimal
import Mathlib.Algebra.Group.Int.Defs
import Mathlib.Tactic.Common

set_option autoImplicit false

/-!
# Ranges and numbers of `sds` strings

`sdsrange` with its bounds of type `int`, and the numbers that `sdscatfmt`
prints.
-/

namespace FastoNoSQL.Sds

open Bytes

-- A conversion to `int`.
def toInt (n : Int) : Int := (Int32.ofInt n).toInt

theorem toInt_eq (n : Int) (low : -2 ^ 31 ≤ n) (high : n < 2 ^ 31) : toInt n = n := Int32.toInt_ofInt_of_le low high

theorem toInt_lt (n : Int) : toInt n < 2 ^ 31 := Int32.toInt_lt _

def sdsrange (s : Text) (start stop : Int) : Text :=
  if s = [] then s
  else
    let start := if start < 0 then max (toInt (s.length + start)) 0 else start
    let stop := if stop < 0 then max (toInt (s.length + stop)) 0 else stop
    if start > stop then []
    else if start ≥ toInt s.length then []
    else
      let stop := if stop ≥ toInt s.length then toInt (s.length - 1) else stop
      if start > stop then [] else (s.drop start.toNat).take (stop - start + 1).toNat

-- The range from a position of a string of a size that is an `int` to its end.
theorem sdsrange_drop (s : Text) (start : Nat) (small : s.length < 2 ^ 31) (within : start ≤ s.length) :
    sdsrange s start (-1) = s.drop start := by
  by_cases empty : s = []
  · simp [sdsrange, empty]
  have size : 0 < s.length := List.length_pos_iff.mpr empty
  have last : toInt (s.length + -1) = s.length - 1 := toInt_eq _ (by omega) (by omega)
  have length : toInt s.length = s.length := toInt_eq _ (by omega) (by omega)
  have stop : max ((s.length : Int) - 1) 0 = s.length - 1 := by omega
  have forward : ¬(start : Int) < 0 := by omega
  simp only [sdsrange, if_neg empty, if_neg forward, if_pos (by decide : (-1 : Int) < 0), last, length, stop]
  by_cases all : start = s.length
  · rw [if_pos (by omega), all, List.drop_length]
  · rw [if_neg (by omega), if_neg (by omega), if_neg (by omega), if_neg (by omega), Int.toNat_natCast,
      List.take_of_length_le (by rw [List.length_drop]; omega)]

theorem length_sdsrange (s : Text) (start stop : Int) : (sdsrange s start stop).length ≤ s.length := by
  have part (first count : Nat) : ((s.drop first).take count).length ≤ s.length :=
    ((List.take_sublist count _).trans (List.drop_sublist first s)).length_le
  unfold sdsrange
  dsimp only
  split_ifs <;> first | exact part _ _ | simp

/-! ## Numbers -/

-- The digits from the last one on, as the loop of `sdsull2str` puts them down.
def reversedDigits (v : Nat) : Text :=
  UInt8.ofNat (48 + v % 10) :: if v / 10 = 0 then [] else reversedDigits (v / 10)
termination_by v
decreasing_by omega

def sdsull2str (v : Nat) : Text := (reversedDigits v).reverse

def sdsll2str (value : Int) : Text :=
  (reversedDigits value.natAbs ++ if value < 0 then [byte '-'] else []).reverse

theorem byte_digitChar (n : Nat) (digit : n < 10) : byte (Nat.digitChar n) = UInt8.ofNat (48 + n) := by
  have all : ∀ n < 10, byte (Nat.digitChar n) = UInt8.ofNat (48 + n) := by decide
  exact all n digit

theorem sdsull2str_eq (v : Nat) : sdsull2str v = natText v := by
  induction v using Nat.strongRecOn with
  | ind v ih =>
      rw [sdsull2str, reversedDigits, natText, Nat.toDigits_eq_if (by omega)]
      by_cases last : v < 10
      · rw [if_pos (Nat.div_eq_of_lt last), if_pos last, List.map_singleton, byte_digitChar v last, Nat.mod_eq_of_lt last]
        rfl
      · have more : v / 10 ≠ 0 := by omega
        have earlier := ih (v / 10) (by omega)
        rw [sdsull2str, natText] at earlier
        rw [if_neg more, if_neg last, List.reverse_cons, earlier, List.map_append, List.map_singleton,
          byte_digitChar _ (Nat.mod_lt v (by omega))]

theorem sdsll2str_eq (value : Int) : sdsll2str value = intText value := by
  have digits := sdsull2str_eq value.natAbs
  rw [sdsull2str] at digits
  rw [sdsll2str, intText, List.reverse_append, digits]
  split <;> rfl

end FastoNoSQL.Sds
