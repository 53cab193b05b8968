import Mathlib.Algebra.Group.Nat.Defs
import Mathlib.Tactic.Common
import FastoNoSQL.Bytes.Text
import FastoNoSQL.Bytes.Decimal

set_option autoImplicit false

/-!
# Doubles

As much of IEEE 754 binary64 as `atof`, a product with an integer and the
conversion to a 64-bit integer need. Rounding is to nearest, ties to even.
-/

namespace Bytes

-- The number one in units of `2^-1074`, the smallest positive double.
def one : Nat := (2 ^ 179) ^ 6

-- From here on a magnitude rounds to an infinity.
def overflow : Nat := (2 ^ 128) ^ 8 * one

/-- A magnitude in units of `2^-1074`, or an infinity or a NaN. -/
inductive Double where
  | finite (negative : Bool) (magnitude : Nat)
  | special
deriving DecidableEq

-- Doubles have 53 significant bits.
def ulp (magnitude : Nat) : Nat := 2 ^ (magnitude.log2 - 52)

def nearest (numerator divisor : Nat) : Nat :=
  let quotient := numerator / divisor
  let remainder := numerator % divisor
  if divisor < 2 * remainder ∨ (2 * remainder = divisor ∧ quotient % 2 = 1) then quotient + 1
  else quotient

def roundUnits (numerator divisor : Nat) : Nat :=
  let step := ulp (numerator / divisor)
  nearest numerator (divisor * step) * step

def Double.ofUnits (negative : Bool) (magnitude : Nat) : Double :=
  if magnitude < overflow then .finite negative magnitude else .special

def Double.mulNat : Double → Nat → Double
  | .finite negative magnitude, n => .ofUnits negative (roundUnits (magnitude * n) 1)
  | .special, _ => .special

-- Truncation towards zero; out of range there is no value.
def Double.toUInt64? : Double → Option UInt64
  | .finite negative magnitude =>
    let value := magnitude / one
    if (negative = false ∧ value < 2 ^ 64) ∨ value = 0 then some (UInt64.ofNat value) else none
  | .special => none

def digitValue (base : Nat) (c : UInt8) : Option Nat :=
  let value :=
    if isDigit c then c.toNat - 48
    else if byte 'a' ≤ lowerByte c ∧ lowerByte c ≤ byte 'f' then (lowerByte c).toNat - 87
    else base
  if value < base then some value else none

def takeDigits (base value count : Nat) : Text → Nat × Nat × Text
  | [] => (value, count, [])
  | c :: rest =>
    match digitValue base c with
    | some digit => takeDigits base (value * base + digit) (count + 1) rest
    | none => (value, count, c :: rest)

/-- A run of digits with at most one point: its value without the point, how many digits stand
after the point, how many there are, and what follows. -/
def mantissa (base : Nat) (text : Text) : Nat × Nat × Nat × Text :=
  match takeDigits base 0 0 text with
  | (whole, count, c :: rest) =>
    if c = byte '.' then
      match takeDigits base whole count rest with
      | (value, total, rest) => (value, total - count, total, rest)
    else (whole, 0, count, c :: rest)
  | (whole, count, []) => (whole, 0, count, [])

def exponent (marker : Char) : Text → Int
  | c :: rest =>
    if lowerByte c = byte marker then
      if rest.head? = some (byte '-') then -((takeDigits 10 0 0 rest.tail).1 : Int)
      else if rest.head? = some (byte '+') then ((takeDigits 10 0 0 rest.tail).1 : Int)
      else ((takeDigits 10 0 0 rest).1 : Int)
    else 0
  | [] => 0

def Double.scaled (negative : Bool) (value base : Nat) (power : Int) : Double :=
  if 0 ≤ power then .ofUnits negative (roundUnits (value * base ^ power.toNat * one) 1)
  else .ofUnits negative (roundUnits (value * one) (base ^ power.natAbs))

def unsignedDouble (negative : Bool) (body : Text) : Double :=
  if (lower body).take 3 = ascii "inf" ∨ (lower body).take 3 = ascii "nan" then .special
  else
    match mantissa 16 (body.drop 2) with
    | (value, fraction, count, rest) =>
      if (lower body).take 2 = ascii "0x" ∧ 0 < count then
        .scaled negative value 2 (exponent 'p' rest - 4 * fraction)
      else
        match mantissa 10 body with
        | (value, fraction, count, rest) =>
          if 0 < count then .scaled negative value 10 (exponent 'e' rest - fraction)
          else .finite false 0

def atof (text : Text) : Double :=
  let body := text.dropWhile isspace
  if body.head? = some (byte '-') then unsignedDouble true body.tail
  else if body.head? = some (byte '+') then unsignedDouble false body.tail
  else unsignedDouble false body

example : (atof (ascii " 0.5")).mulNat 1000000 = .finite false (500000 * one) := by decide +kernel
example : (atof (ascii "-1e2 s")).toUInt64? = none := by decide +kernel

/-! ## Whole numbers -/

theorem nearest_of_dvd (numerator divisor : Nat) (divides : divisor ∣ numerator) :
    nearest numerator divisor = numerator / divisor := by
  have exact : numerator % divisor = 0 := Nat.mod_eq_zero_of_dvd divides
  unfold nearest
  simp only [exact, Nat.mul_zero, Nat.not_lt_zero, false_or]
  split
  next tie =>
    obtain ⟨zero, odd⟩ := tie
    simp [← zero] at odd
  next => rfl

theorem roundUnits_of_dvd (units : Nat) (divides : ulp units ∣ units) : roundUnits units 1 = units := by
  simp only [roundUnits, Nat.div_one, Nat.one_mul, nearest_of_dvd units _ divides]
  exact Nat.div_mul_cancel divides

-- The whole numbers that a double holds without rounding.
def heldExactly (n : Nat) : Prop := ulp n ∣ n

instance (n : Nat) : Decidable (heldExactly n) := inferInstanceAs (Decidable (ulp n ∣ n))

theorem log2_mul_two_pow (n k : Nat) (positive : n ≠ 0) : (n * 2 ^ k).log2 = n.log2 + k := by
  induction k with
  | zero => simp
  | succ k ih =>
      have nonzero : n * 2 ^ k ≠ 0 := Nat.mul_ne_zero positive (Nat.two_pow_pos k).ne'
      rw [Nat.pow_succ, ← Nat.mul_assoc, Nat.mul_comm, Nat.log2_two_mul nonzero, ih, Nat.add_assoc]

theorem exists_one_eq : ∃ k, one = 2 ^ k := by
  have power (n m : Nat) : ∃ k, (2 ^ n) ^ m = 2 ^ k := ⟨n * m, (Nat.pow_mul 2 n m).symm⟩
  exact power 179 6

theorem one_pos : 0 < one := by
  obtain ⟨k, eq⟩ := exists_one_eq
  rw [eq]
  exact Nat.two_pow_pos k

theorem ulp_mul_two_pow (n k : Nat) (nonzero : n ≠ 0) : ulp (n * 2 ^ k) = 2 ^ (n.log2 + k - 52) := by
  rw [ulp, log2_mul_two_pow n k nonzero]

-- From `2^53` on the step of the doubles is a whole number.
theorem ulp_units_of_large (n : Nat) (large : 52 < n.log2) : ulp (n * one) = ulp n * one := by
  have nonzero : n ≠ 0 := by
    rintro rfl
    simp at large
  obtain ⟨k, eq⟩ := exists_one_eq
  have exponents : n.log2 + k - 52 = n.log2 - 52 + k := by omega
  rw [eq, ulp_mul_two_pow n k nonzero, exponents, Nat.pow_add, ulp]

theorem ulp_dvd_one_of_small (n : Nat) (nonzero : n ≠ 0) (small : n.log2 ≤ 52) : ulp (n * one) ∣ one := by
  obtain ⟨k, eq⟩ := exists_one_eq
  rw [eq, ulp_mul_two_pow n k nonzero]
  exact Nat.pow_dvd_pow 2 (by omega)

theorem heldExactly_of_small (n : Nat) (small : n.log2 ≤ 52) : heldExactly n := by
  have unit : ulp n = 1 := by simp [ulp, Nat.sub_eq_zero_of_le small]
  rw [heldExactly, unit]
  exact Nat.one_dvd n

theorem roundUnits_of_heldExactly (n : Nat) (held : heldExactly n) :
    roundUnits (n * one) 1 = n * one := by
  apply roundUnits_of_dvd
  by_cases nonzero : n = 0
  · simp [nonzero]
  by_cases small : n.log2 ≤ 52
  · exact Nat.dvd_mul_left_of_dvd (ulp_dvd_one_of_small n nonzero small) n
  · rw [ulp_units_of_large n (by omega)]
    exact Nat.mul_dvd_mul_right held one

-- The whole number that `n` becomes as a double.
def nearestDouble (n : Nat) : Nat := roundUnits (n * one) 1 / one

theorem nearestDouble_of_heldExactly (n : Nat) (held : heldExactly n) : nearestDouble n = n := by
  rw [nearestDouble, roundUnits_of_heldExactly n held, Nat.mul_div_cancel _ one_pos]

theorem digitValue_byte (c : Char) (digit : c.isDigit = true) :
    digitValue 10 (byte c) = some (c.toNat - 48) := by
  obtain ⟨value, low, high⟩ := toNat_byte_of_digit c digit
  have below : c.toNat - 48 < 10 := by omega
  simp [digitValue, (isDigit_byte c digit).1, value, below]

theorem takeDigits_digits (chars : List Char) (digits : ∀ c ∈ chars, c.isDigit = true) (value count : Nat) :
    takeDigits 10 value count (chars.map byte) =
      (Nat.ofDigitChars 10 chars value, count + chars.length, []) := by
  induction chars generalizing value count with
  | nil => rfl
  | cons c chars ih =>
      have rest := ih fun d member => digits d (List.mem_cons_of_mem c member)
      have digit : digitValue 10 (byte c) = some (c.toNat - 48) := digitValue_byte c (digits c (by simp))
      simp only [List.map_cons, takeDigits, digit, rest, Nat.ofDigitChars_cons, List.length_cons]
      refine Prod.ext ?_ (Prod.ext ?_ rfl)
      · simp [Nat.mul_comm]
      · simp only
        omega

theorem mantissa_natText (n : Nat) : ∃ count, 0 < count ∧ mantissa 10 (natText n) = (n, 0, count, []) := by
  have digits : ∀ c ∈ Nat.toDigits 10 n, c.isDigit = true := fun c member =>
    Nat.isDigit_of_mem_toDigits (by omega) (by omega) member
  have nonempty : 0 < (Nat.toDigits 10 n).length := List.length_pos_iff.mpr Nat.toDigits_ne_nil
  refine ⟨(Nat.toDigits 10 n).length, nonempty, ?_⟩
  simp [mantissa, natText, takeDigits_digits _ digits]

theorem lowerByte_of_digit (c : UInt8) (digit : isDigit c = true) : lowerByte c = c := by
  simp only [isDigit, Bool.and_eq_true, decide_eq_true_eq] at digit
  have notUpper : ¬ byte 'A' ≤ c := fun upper =>
    absurd (UInt8.le_trans upper digit.2) (by decide)
  simp [lowerByte, notUpper]

theorem take_lower_natText_ne (n length : Nat) (word : Text) (c : UInt8) (member : c ∈ word)
    (letter : isDigit c = false) : (lower (natText n)).take length ≠ word := by
  rintro rfl
  obtain ⟨d, digit, rfl⟩ := List.mem_map.mp (List.mem_of_mem_take member)
  rw [lowerByte_of_digit d (isDigit_of_mem_natText n d digit)] at letter
  simp [isDigit_of_mem_natText n d digit] at letter

theorem mul_one_lt_overflow (n : Nat) (bound : n < 2 ^ 64) : n * one < overflow := by
  have powers : 2 ^ 64 ≤ (2 ^ 128) ^ 8 := by decide
  exact Nat.mul_lt_mul_of_pos_right (Nat.lt_of_lt_of_le bound powers) one_pos

theorem unsignedDouble_natText (n : Nat) (bound : n < 2 ^ 53) :
    unsignedDouble false (natText n) = .finite false (n * one) := by
  have notInf := take_lower_natText_ne n 3 (ascii "inf") (byte 'i') (by decide) (by decide)
  have notNan := take_lower_natText_ne n 3 (ascii "nan") (byte 'n') (by decide) (by decide)
  have notHex := take_lower_natText_ne n 2 (ascii "0x") (byte 'x') (by decide) (by decide)
  obtain ⟨count, positive, value⟩ := mantissa_natText n
  have finite : n * one < overflow := mul_one_lt_overflow n (by omega)
  have units := roundUnits_of_heldExactly n (heldExactly_of_small n ?_)
  · simp [unsignedDouble, notInf, notNan, notHex, value, positive, exponent, Double.scaled, units,
      Double.ofUnits, finite]
  · by_cases zero : n = 0
    · simp [zero]
    · exact Nat.lt_succ_iff.mp ((Nat.log2_lt zero).mpr bound)

-- `atof` reads a whole number that fits 53 bits without rounding.
theorem atof_natText (n : Nat) (bound : n < 2 ^ 53) : atof (natText n) = .finite false (n * one) := by
  cases text : natText n with
  | nil => exact absurd text (natText_ne_nil n)
  | cons c rest =>
      have digit : isDigit c = true := isDigit_of_mem_natText n c (by simp [text])
      have ne (d : UInt8) (other : isDigit d = false) : c ≠ d := by
        rintro rfl
        simp [digit] at other
      have notSpace : isspace c = false := by
        simp only [isDigit, Bool.and_eq_true, decide_eq_true_eq] at digit
        have notTab : ¬ c ≤ 13 := fun low => absurd (UInt8.le_trans digit.1 low) (by decide)
        simp [isspace, ne (byte ' ') (by decide), notTab]
      have body : (c :: rest).dropWhile isspace = c :: rest := by simp [notSpace]
      simp only [atof, body, List.head?_cons, Option.some.injEq, ne (byte '-') (by decide),
        ne (byte '+') (by decide), if_false]
      rw [← text, unsignedDouble_natText n bound]

theorem roundUnits_le (units : Nat) : roundUnits units 1 ≤ units + ulp units := by
  have down : units / ulp units * ulp units ≤ units := Nat.div_mul_le_self units (ulp units)
  have up : nearest units (ulp units) ≤ units / ulp units + 1 := by
    simp only [nearest]
    split <;> omega
  calc roundUnits units 1 = nearest units (ulp units) * ulp units := by simp [roundUnits]
    _ ≤ (units / ulp units + 1) * ulp units := Nat.mul_le_mul_right _ up
    _ ≤ units + ulp units := by rw [Nat.succ_mul]; omega

theorem ulp_units_le (n : Nat) (bound : n < 2 ^ 64) : ulp (n * one) ≤ 2048 * one := by
  by_cases zero : n = 0
  · rw [zero, Nat.zero_mul]
    exact Nat.le_trans one_pos (Nat.le_mul_of_pos_left one (by omega))
  by_cases small : n.log2 ≤ 52
  · have divides := ulp_dvd_one_of_small n zero small
    exact Nat.le_trans (Nat.le_of_dvd one_pos divides) (Nat.le_mul_of_pos_left one (by omega))
  · have log : n.log2 < 64 := (Nat.log2_lt zero).mpr bound
    have step : ulp n ≤ 2 ^ 11 := Nat.pow_le_pow_right (by omega) (by omega)
    rw [ulp_units_of_large n (by omega)]
    exact Nat.mul_le_mul_right one step

theorem toUInt64?_of_range (magnitude : Nat) (range : magnitude / one < 2 ^ 64) :
    (Double.finite false magnitude).toUInt64? = some (UInt64.ofNat (magnitude / one)) := by
  simp only [Double.toUInt64?]
  exact if_pos (Or.inl ⟨trivial, range⟩)

-- Whole seconds, printed, read back as a double and scaled to microseconds.
theorem microseconds_of_natText (n : Nat) (bound : n * 1000000 < 2 ^ 64) :
    ((atof (natText n)).mulNat 1000000).toUInt64? = some (UInt64.ofNat (nearestDouble (n * 1000000))) ∧
      nearestDouble (n * 1000000) < 2 ^ 64 := by
  -- The largest whole number of seconds leaves room for one rounding step below `2^64`.
  have seconds : n ≤ 18446744073709 :=
    Nat.le_of_lt_succ (Nat.lt_of_mul_lt_mul_right (a := 1000000) (by omega))
  have small : n * 1000000 + 2048 < 2 ^ 64 :=
    Nat.lt_of_le_of_lt (Nat.add_le_add_right (Nat.mul_le_mul_right 1000000 seconds) 2048) (by decide)
  have rounded : roundUnits (n * 1000000 * one) 1 ≤ (n * 1000000 + 2048) * one := by
    rw [Nat.add_mul]
    exact Nat.le_trans (roundUnits_le _) (Nat.add_le_add_left (ulp_units_le _ bound) _)
  have range : nearestDouble (n * 1000000) < 2 ^ 64 := by
    have quotient := Nat.div_le_div_right (c := one) rounded
    rw [Nat.mul_div_cancel _ one_pos] at quotient
    exact Nat.lt_of_le_of_lt quotient small
  have finite : roundUnits (n * 1000000 * one) 1 < overflow :=
    Nat.lt_of_le_of_lt rounded (mul_one_lt_overflow _ small)
  refine ⟨?_, range⟩
  rw [atof_natText n (Nat.lt_of_le_of_lt seconds (by decide)), Double.mulNat,
    Nat.mul_right_comm n one 1000000, Double.ofUnits, if_pos finite]
  exact toUInt64?_of_range _ range

end Bytes
