import FastoNoSQL.Bytes.Decimal
import Mathlib.Tactic.Common

set_option autoImplicit false

/-!
# The buffers of the ssdb client

`Buffer` of the vendored ssdb client. A buffer carries the proof that its data
lies in its memory, so that nothing can be written behind the end of it.
-/

namespace FastoNoSQL.Ssdb

open Bytes

/-- The memory has `total_` bytes; the data begins `data_ - buf` bytes behind its start. -/
structure Buffer where
  total : Nat
  offset : Nat := 0
  data : Text := []
  within : offset + data.length ≤ total

-- `"%d\n"` of the size, the bytes and a newline.
def recordText (s : Text) : Text := natText s.length ++ 10 :: (s ++ [10])

theorem length_natText_le (n k : Nat) (small : n < 10 ^ (k + 1)) : (natText n).length ≤ k + 1 := by
  induction k generalizing n with
  | zero =>
      rw [natText, Nat.toDigits_of_lt_base (by simpa using small)]
      exact Nat.le_refl 1
  | succ k ih =>
      by_cases single : n < 10
      · rw [natText, Nat.toDigits_of_lt_base single]
        simp
      · rw [natText, Nat.toDigits_of_base_le (by omega) (by omega), List.map_append, List.length_append]
        have front := ih (n / 10) (by rw [Nat.pow_succ] at small; omega)
        rw [natText] at front
        simpa using front

theorem length_recordText (s : Text) (small : s.length < 2 ^ 31) : (recordText s).length ≤ 16 + s.length + 1 := by
  have digits := length_natText_le s.length 9 (Nat.lt_trans small (by decide))
  simp only [recordText, List.length_append, List.length_cons, List.length_nil]
  omega

-- The next size of the memory.
def grownTotal (total : Nat) : Nat :=
  if total < 8 * 1024 then 8 * 1024 else if total < 512 * 1024 then 8 * total else 2 * total

theorem lt_grownTotal (total : Nat) : total < grownTotal total := by
  unfold grownTotal
  split_ifs <;> omega

namespace Buffer

variable (b : Buffer)

def create (total : Nat) : Buffer := { total := total, within := Nat.zero_le total }

def space : Nat := b.total - b.offset - b.data.length

-- The data is copied to the start of the memory when it begins in the second half.
def nice : Buffer :=
  if b.total / 2 < b.offset then
    { total := b.total, data := b.data, within := by have inside := b.within; omega }
  else b

-- None when the size is more than an `int` holds.
def grow : Option Buffer :=
  if grownTotal b.total < 2 ^ 31 then
    some { b with
      total := grownTotal b.total
      within := Nat.le_trans b.within (Nat.le_of_lt (lt_grownTotal b.total)) }
  else none

theorem grow_total {larger : Buffer} (grown : b.grow = some larger) :
    b.total < larger.total ∧ larger.total < 2 ^ 31 ∧ larger.offset = b.offset ∧ larger.data = b.data := by
  unfold grow at grown
  split at grown
  · next small =>
      obtain rfl := Option.some.inj grown
      exact ⟨lt_grownTotal b.total, small, rfl, rfl⟩
  · cases grown

theorem grow_eq (small : grownTotal b.total < 2 ^ 31) :
    ∃ larger, b.grow = some larger ∧ b.total < larger.total ∧ larger.offset = b.offset ∧ larger.data = b.data := by
  rw [grow, if_pos small]
  exact ⟨_, rfl, lt_grownTotal b.total, rfl, rfl⟩

-- The loop that grows the memory until there is space.
def reserve (size : Nat) (b : Buffer) : Option { b : Buffer // size ≤ b.space } :=
  if room : size ≤ b.space then some ⟨b, room⟩
  else
    match _grown : b.grow with
    | none => none
    | some larger => reserve size larger
termination_by 2 ^ 31 - b.total
decreasing_by
  have bounds := b.grow_total _grown
  omega

-- Writes to `slot()` and increases `size_`.
def put (p : Text) (room : p.length ≤ b.space) : Buffer :=
  { b with
    data := b.data ++ p
    within := by
      have inside := b.within
      rw [space] at room
      rw [List.length_append]
      omega }

def decr (num : Nat) (fits : num ≤ b.data.length) : Buffer :=
  { b with
    offset := b.offset + num
    data := b.data.drop num
    within := by
      have inside := b.within
      rw [List.length_drop]
      omega }

def append (c : UInt8) : Option Buffer :=
  (b.reserve 1).map fun larger => larger.val.put [c] larger.property

-- Room is made for a size of 16 digits.
def appendRecord (s : Text) : Option Buffer :=
  if small : 16 + s.length + 1 < 2 ^ 31 then
    (b.reserve (16 + s.length + 1)).map fun larger =>
      larger.val.put (recordText s) (Nat.le_trans (length_recordText s (by omega)) larger.property)
  else none

theorem reserve_room {size : Nat} (room : size ≤ b.space) : b.reserve size = some ⟨b, room⟩ := by
  rw [reserve, dif_pos room]

theorem reserve_grow {size : Nat} {larger : Buffer} (full : ¬size ≤ b.space) (grown : b.grow = some larger) :
    b.reserve size = larger.reserve size := by
  rw [reserve, dif_neg full]
  split
  · next none' => rw [grown] at none'; cases none'
  · next other same =>
      obtain rfl := Option.some.inj (grown.symm.trans same)
      rfl

/-! ## What the functions keep -/

-- The two areas of the copy do not overlap.
theorem nice_disjoint (moves : b.total / 2 < b.offset) : b.data.length ≤ b.offset := by
  have inside := b.within
  omega

@[simp] theorem data_nice : b.nice.data = b.data := by
  unfold nice
  split <;> rfl

@[simp] theorem total_nice : b.nice.total = b.total := by
  unfold nice
  split <;> rfl

theorem offset_nice : b.nice.offset ≤ b.total / 2 := by
  unfold nice
  split
  · exact Nat.zero_le _
  · next front => exact Nat.le_of_not_lt front

theorem space_add : b.space + b.offset + b.data.length = b.total := by
  have inside := b.within
  rw [space]
  omega

/-- The buffer with more data. Only memory that is too small for what is needed is made larger. -/
structure Extends (b : Buffer) (p : Text) (most : Nat) (larger : Buffer) : Prop where
  offset : larger.offset = b.offset
  data : larger.data = b.data ++ p
  total : larger.total = b.total ∨ b.total < most ∧ larger.total ≤ max (2 ^ 22) (2 * most)

theorem extends_refl (most : Nat) : b.Extends [] most b := ⟨rfl, (List.append_nil _).symm, Or.inl rfl⟩

theorem Extends.trans {b larger last : Buffer} {p q : Text} {most : Nat} (first : b.Extends p most larger)
    (second : larger.Extends q most last) : b.Extends (p ++ q) most last where
  offset := second.offset.trans first.offset
  data := by rw [second.data, first.data, List.append_assoc]
  total := by
    rcases first.total with same | ⟨less, bound⟩
    · rw [← same]
      exact second.total
    · rcases second.total with same | ⟨-, bound'⟩
      · exact Or.inr ⟨less, same ▸ bound⟩
      · exact Or.inr ⟨less, bound'⟩

theorem reserve_eq {size most : Nat} (fits : b.offset + b.data.length + size ≤ most) (small : most ≤ 2 ^ 29) :
    ∃ larger, b.reserve size = some larger ∧ b.Extends [] most larger := by
  induction b using reserve.induct size with
  | case1 b room =>
      exact ⟨⟨b, room⟩, b.reserve_room room, b.extends_refl most⟩
  | case2 b room grown =>
      have sum := b.space_add
      unfold grow at grown
      rw [if_pos (by unfold grownTotal; split_ifs <;> omega)] at grown
      cases grown
  | case3 b room larger grown ih =>
      have sum := b.space_add
      obtain ⟨more, -, offset, data⟩ := b.grow_total grown
      have total : larger.total ≤ max (2 ^ 22) (2 * most) := by
        unfold grow at grown
        split at grown
        · obtain rfl := Option.some.inj grown
          simp only [grownTotal]
          split_ifs <;> omega
        · cases grown
      obtain ⟨last, reserved, later⟩ := ih (by rw [offset, data]; exact fits)
      have once : b.Extends [] most larger :=
        ⟨offset, data.trans (List.append_nil _).symm, Or.inr ⟨by omega, total⟩⟩
      exact ⟨last, by rw [b.reserve_grow room grown, reserved], once.trans later⟩

theorem extends_put {larger : Buffer} {most : Nat} (more : b.Extends [] most larger) (p : Text)
    (room : p.length ≤ larger.space) : b.Extends p most (larger.put p room) :=
  more.trans ⟨rfl, rfl, Or.inl rfl⟩

theorem append_eq (c : UInt8) (most : Nat) (fits : b.offset + b.data.length + 1 ≤ most) (small : most ≤ 2 ^ 29) :
    ∃ larger, b.append c = some larger ∧ b.Extends [c] most larger := by
  obtain ⟨larger, reserved, more⟩ := b.reserve_eq fits small
  exact ⟨larger.val.put [c] larger.property, by rw [append, reserved]; rfl, b.extends_put more [c] larger.property⟩

theorem appendRecord_eq (s : Text) (most : Nat) (fits : b.offset + b.data.length + (16 + s.length + 1) ≤ most)
    (small : most ≤ 2 ^ 29) : ∃ larger, b.appendRecord s = some larger ∧ b.Extends (recordText s) most larger := by
  obtain ⟨larger, reserved, more⟩ := b.reserve_eq fits small
  have room := Nat.le_trans (length_recordText s (by omega)) larger.property
  exact ⟨larger.val.put (recordText s) room, by rw [appendRecord, dif_pos (by omega), reserved]; rfl,
    b.extends_put more (recordText s) room⟩

end Buffer

end FastoNoSQL.Ssdb
