import Mathlib.Algebra.GroupWithZero.Nat
import Mathlib.Data.List.TakeWhile

set_option autoImplicit false

/-!
# Byte strings

The texts of a C or C++ program: sequences of bytes, with the view a
`const char*` gives of them and the ASCII case folding of `strcasecmp`.
-/

namespace Bytes

abbrev Text := List UInt8

-- One proof behind every test of membership in a list of texts.
instance : LawfulBEq Text := inferInstance

def byte (c : Char) : UInt8 := c.toNat.toUInt8

-- The bytes of an ASCII literal.
def ascii (s : String) : Text := s.toList.map byte

def isspace (c : UInt8) : Bool := c = byte ' ' || (9 ≤ c && c ≤ 13)

-- What a `const char*` shows of a buffer: the bytes before the first NUL.
def cString (t : Text) : Text := t.takeWhile (· ≠ 0)

theorem cString_eq_self (t : Text) (clean : (0 : UInt8) ∉ t) : cString t = t := by
  apply List.takeWhile_eq_self_iff.mpr
  intro c member
  simpa using fun zero : c = 0 => clean (zero ▸ member)

theorem nul_not_mem_cString (t : Text) : (0 : UInt8) ∉ cString t := by
  intro member
  have := List.mem_takeWhile_imp member
  simp at this

theorem cString_eq_iff (t : Text) : cString t = t ↔ (0 : UInt8) ∉ t := by
  constructor
  · intro same
    rw [← same]
    exact nul_not_mem_cString t
  · exact cString_eq_self t

theorem cString_append_of_clean (s t : Text) (clean : (0 : UInt8) ∉ s) :
    cString (s ++ t) = s ++ cString t := by
  induction s with
  | nil => rfl
  | cons c s ih =>
      have head : c ≠ 0 := fun zero => clean (by simp [zero])
      have tail : (0 : UInt8) ∉ s := fun member => clean (by simp [member])
      simp only [cString, List.cons_append] at ih ⊢
      rw [List.takeWhile_cons_of_pos (by simpa using head), ih tail]

theorem cString_append_of_nul (text tail : Text) (nul : (0 : UInt8) ∈ text) :
    cString (text ++ tail) = cString text := by
  induction text with
  | nil => simp at nul
  | cons c text ih =>
      by_cases zero : c = 0
      · simp [cString, zero]
      · have later : (0 : UInt8) ∈ text := by simpa [Ne.symm zero] using nul
        have same := ih later
        simp only [cString, List.cons_append, List.takeWhile_cons] at same ⊢
        rw [same]

def lowerByte (c : UInt8) : UInt8 := if byte 'A' ≤ c ∧ c ≤ byte 'Z' then c + 32 else c

-- ASCII case folding, as `strcasecmp` and `FullEqualsASCII(.., false)` compare.
def lower (t : Text) : Text := t.map lowerByte

theorem lower_append (s t : Text) : lower (s ++ t) = lower s ++ lower t := List.map_append

-- The words of a list with one space between them.
def unwords (words : List Text) : Text := [byte ' '].intercalate words

@[simp] theorem unwords_nil : unwords [] = [] := rfl

@[simp] theorem unwords_singleton (word : Text) : unwords [word] = word :=
  List.intercalate_singleton

theorem unwords_cons_cons (first second : Text) (rest : List Text) :
    unwords (first :: second :: rest) = first ++ byte ' ' :: unwords (second :: rest) := by
  simp [unwords, List.intercalate_cons_cons]

theorem unwords_cons (first : Text) (rest : List Text) (more : rest ≠ []) :
    unwords (first :: rest) = first ++ byte ' ' :: unwords rest := by
  cases rest with
  | nil => exact absurd rfl more
  | cons second rest => exact unwords_cons_cons first second rest

def total (words : List Text) : Nat := (words.map List.length).sum

@[simp] theorem total_nil : total [] = 0 := rfl

@[simp] theorem total_cons (word : Text) (words : List Text) :
    total (word :: words) = word.length + total words := by
  simp [total]

theorem length_unwords (first : Text) (rest : List Text) :
    (unwords (first :: rest)).length = total (first :: rest) + rest.length := by
  induction rest generalizing first with
  | nil => simp
  | cons second rest ih =>
      rw [unwords_cons_cons, List.length_append, List.length_cons, ih second]
      simp only [total_cons, List.length_cons]
      omega

theorem count_blank_unwords (first : Text) (rest : List Text) :
    (unwords (first :: rest)).count (byte ' ') =
      ((first :: rest).map (List.count (byte ' '))).sum + rest.length := by
  induction rest generalizing first with
  | nil => simp
  | cons second rest ih =>
      rw [unwords_cons_cons, List.count_append, List.count_cons_self, ih second]
      simp only [List.map_cons, List.sum_cons, List.length_cons]
      omega

theorem count_unwords_iff (first : Text) (rest : List Text) :
    (unwords (first :: rest)).count (byte ' ') = rest.length ↔ ∀ word ∈ first :: rest, byte ' ' ∉ word := by
  rw [count_blank_unwords, Nat.add_eq_right, List.sum_eq_zero_iff_forall_eq_nat, List.forall_mem_map]
  simp only [List.count_eq_zero]

-- Words that are joined to the same line as as many words without blanks are those words.
theorem eq_of_unwords_eq (words others : List Text) (each : words.length = others.length)
    (clean : ∀ other ∈ others, byte ' ' ∉ other) (same : unwords words = unwords others) : words = others := by
  cases others with
  | nil => exact List.length_eq_zero_iff.mp each
  | cons other others =>
      obtain ⟨word, words, rfl⟩ := List.exists_cons_of_length_eq_add_one each
      have cleanWords : ∀ word' ∈ word :: words, byte ' ' ∉ word' := by
        rw [← count_unwords_iff, same, (count_unwords_iff other others).mpr clean]
        exact (Nat.succ.inj each).symm
      have read := congrArg (List.splitOn (byte ' ')) same
      rwa [unwords, unwords, List.splitOn_intercalate _ cleanWords (by simp), List.splitOn_intercalate _ clean (by simp)]
        at read

theorem unwords_concat (words : List Text) (last : Text) (more : words ≠ []) :
    unwords (words ++ [last]) = unwords words ++ byte ' ' :: last := by
  induction words with
  | nil => exact absurd rfl more
  | cons first rest ih =>
      cases rest with
      | nil => simp [unwords_cons_cons]
      | cons second rest =>
          rw [List.cons_append, unwords_cons first _ (by simp), ih (by simp), unwords_cons_cons]
          simp

theorem mem_unwords (words : List Text) (c : UInt8) (other : c ≠ byte ' ') :
    c ∈ unwords words ↔ ∃ word ∈ words, c ∈ word := by
  induction words with
  | nil => simp
  | cons first rest ih =>
      cases rest with
      | nil => simp
      | cons second rest =>
          rw [unwords_cons_cons, List.mem_append, List.mem_cons, ih]
          simp [other]

theorem nul_not_mem_unwords (words : List Text) :
    (0 : UInt8) ∉ unwords words ↔ ∀ word ∈ words, (0 : UInt8) ∉ word := by
  rw [mem_unwords words 0 (by decide)]
  simp

end Bytes
