import Mathlib.Tactic.Common

set_option autoImplicit false

/-!
# Cursors

Cursors over a list that loses entries while it is walked: a cursor whose entry
is deleted moves next to the entry that followed it.
-/

namespace Walk

variable {A : Type}

/-- At an entry, or in the gap that its entry left; a new cursor is in the gap before the first. -/
structure Cursor where
  index : Nat
  gap : Bool

def fresh : Cursor := ⟨0, true⟩

def first : Cursor := ⟨0, false⟩

def Cursor.next (cursor : Cursor) : Cursor :=
  ⟨if cursor.gap then cursor.index else cursor.index + 1, false⟩

def Cursor.entry (cursor : Cursor) (entries : List A) : Option A :=
  if cursor.gap then none else entries[cursor.index]?

-- The cursor when its entry is deleted.
def Cursor.bereft (cursor : Cursor) : Cursor := { cursor with gap := true }

theorem mem_of_entry {cursor : Cursor} {entries : List A} {entry : A} (found : cursor.entry entries = some entry) :
    entry ∈ entries := by
  unfold Cursor.entry at found
  split at found
  · cases found
  · exact List.mem_of_getElem? found

theorem next_fresh : fresh.next = first := rfl

@[simp] theorem bereft_first : first.bereft = fresh := rfl

@[simp] theorem entry_first_nil : first.entry ([] : List A) = none := rfl

@[simp] theorem entry_first_cons (entry : A) (entries : List A) : first.entry (entry :: entries) = some entry := rfl

end Walk
