import Mathlib.Data.List.TakeWhile
import FastoNoSQL.Bytes.Text

set_option autoImplicit false

/-!
# Decimal numbers

The texts `%d`, `%u` and `%hu` print, and a reader that undoes the printing.
-/

namespace Bytes

def natText (n : Nat) : Text := (Nat.toDigits 10 n).map byte

def intText (i : Int) : Text :=
  if i < 0 then byte '-' :: natText i.natAbs else natText i.natAbs

def readNat (t : Text) : Nat := Nat.ofDigitChars 10 (t.map fun b => Char.ofNat b.toNat) 0

def readInt : Text → Int
  | [] => 0
  | c :: rest => if c = byte '-' then -(readNat rest : Int) else (readNat (c :: rest) : Int)

def isDigit (c : UInt8) : Bool := byte '0' ≤ c && c ≤ byte '9'

theorem toNat_byte_of_digit (c : Char) (digit : c.isDigit = true) :
    (byte c).toNat = c.toNat ∧ 48 ≤ c.toNat ∧ c.toNat ≤ 57 := by
  simp only [Char.isDigit, Bool.and_eq_true, decide_eq_true_eq] at digit
  have low : 48 ≤ c.toNat := UInt32.le_iff_toNat_le.mp digit.1
  have high : c.toNat ≤ 57 := UInt32.le_iff_toNat_le.mp digit.2
  refine ⟨?_, low, high⟩
  simp only [byte, Nat.toUInt8, UInt8.toNat_ofNat']
  omega

theorem isDigit_byte (c : Char) (digit : c.isDigit = true) :
    isDigit (byte c) = true ∧ Char.ofNat (byte c).toNat = c := by
  obtain ⟨same, low, high⟩ := toNat_byte_of_digit c digit
  constructor
  · simp only [isDigit, Bool.and_eq_true, decide_eq_true_eq, UInt8.le_iff_toNat_le, same]
    exact ⟨low, high⟩
  · rw [same, Char.ofNat_toNat]

theorem isDigit_of_mem_natText (n : Nat) (c : UInt8) (member : c ∈ natText n) :
    isDigit c = true := by
  obtain ⟨char, digit, rfl⟩ := List.mem_map.mp member
  exact (isDigit_byte char (Nat.isDigit_of_mem_toDigits (by omega) (by omega) digit)).1

theorem natText_ne_nil (n : Nat) : natText n ≠ [] := by
  simp [natText, Nat.toDigits_ne_nil]

@[simp] theorem readNat_natText (n : Nat) : readNat (natText n) = n := by
  have chars : (natText n).map (fun b => Char.ofNat b.toNat) = Nat.toDigits 10 n := by
    rw [natText, List.map_map]
    refine Eq.trans (List.map_congr_left ?_) (List.map_id _)
    intro char digit
    exact (isDigit_byte char (Nat.isDigit_of_mem_toDigits (by omega) (by omega) digit)).2
  rw [readNat, chars, Nat.ofDigitChars_ten_toDigits]

-- A `uint32_t` that is printed with `%d`.
theorem toInt_of_small (n : UInt32) (small : n.toNat < 2 ^ 31) : n.toInt32.toInt = n.toNat := by
  have range : 2 * n.toBitVec.toNat < 2 ^ 32 := by
    rw [UInt32.toNat_toBitVec]
    omega
  exact BitVec.toInt_eq_toNat_of_lt range

theorem mem_intText (i : Int) (c : UInt8) (member : c ∈ intText i) :
    isDigit c = true ∨ c = byte '-' := by
  unfold intText at member
  split at member
  · rcases List.mem_cons.mp member with minus | digit
    · exact Or.inr minus
    · exact Or.inl (isDigit_of_mem_natText _ c digit)
  · exact Or.inl (isDigit_of_mem_natText _ c member)

theorem intText_ne_nil (i : Int) : intText i ≠ [] := by
  unfold intText
  split
  · simp
  · exact natText_ne_nil _

@[simp] theorem readInt_intText (i : Int) : readInt (intText i) = i := by
  unfold intText
  split
  next negative =>
    simp only [readInt, if_true, readNat_natText]
    omega
  next nonnegative =>
    cases text : natText i.natAbs with
    | nil => exact absurd text (natText_ne_nil _)
    | cons c rest =>
        have digit : isDigit c = true := isDigit_of_mem_natText i.natAbs c (by simp [text])
        have notMinus : c ≠ byte '-' := by
          rintro rfl
          revert digit
          decide
        simp only [readInt, if_neg notMinus, ← text, readNat_natText]
        omega

theorem intText_injective : Function.Injective intText :=
  Function.LeftInverse.injective readInt_intText

/-! ## Digits -/

def Decimal (digits : Text) : Prop := digits ≠ [] ∧ ∀ c ∈ digits, isDigit c = true

theorem Decimal.not_mem {digits : Text} (decimal : Decimal digits) {c : UInt8} (other : isDigit c = false) :
    c ∉ digits := by
  intro member
  simp [decimal.2 c member] at other

end Bytes
