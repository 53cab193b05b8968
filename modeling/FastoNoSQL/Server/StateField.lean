import FastoNoSQL.Bytes.Sections
import FastoNoSQL.Common

set_option autoImplicit false

/-!
# State fields

`IStateField` of `core/types.h`: a section of a server info, which an `operator<<`
writes as labelled lines and a constructor reads back line by line.
-/

namespace FastoNoSQL

open Bytes

/-- The library with what a `float`, taken by its bits, prints as and is read from. -/
structure Library extends Common where
  printFloat : UInt32 → Text
  readFloat : Text → UInt32

def Quiet (text : Text) : Prop := OneLine text ∧ byte '#' ∉ text

/-- A `float` prints as digits, signs, a point, an exponent, `inf` or `nan`. -/
structure Library.Lawful (lib : Library) : Prop where
  common : lib.toCommon.Lawful
  quiet_printFloat : ∀ f, Quiet (lib.printFloat f)

theorem quiet_intText (i : Int) : Quiet (intText i) := by
  have other : ∀ c : UInt8, isDigit c = false → c ≠ byte '-' → c ∉ intText i := by
    intro c noDigit noMinus member
    rcases mem_intText i c member with digit | minus
    · simp [noDigit] at digit
    · exact noMinus minus
  exact ⟨⟨other 13 (by decide) (by decide), other 10 (by decide) (by decide)⟩, other _ (by decide) (by decide)⟩

theorem quiet_natText (n : Nat) : Quiet (natText n) := by
  have positive : ¬ (n : Int) < 0 := by omega
  have same : intText n = natText n := by simp [intText, positive]
  rw [← same]
  exact quiet_intText n

-- A lawful library that prints the numbers zero and one as the real one does.
def Library.std : Library where
  toCommon := Common.std
  printFloat f := if f = 0 then ascii "0" else if f = 0x3F800000 then ascii "1" else ascii "nan"
  readFloat text := if text = ascii "1" then 0x3F800000 else 0

theorem Library.std_lawful : Library.std.Lawful where
  common := Common.std_lawful
  quiet_printFloat f := by
    simp only [std]
    split
    · exact ⟨by decide, by decide⟩
    · split
      · exact ⟨by decide, by decide⟩
      · exact ⟨by decide, by decide⟩

/-! ## Setters -/

section Setters

variable {σ : Type} (label : String) (lib : Library) (value : Text)

def textField (set : Text → σ → σ) : Setter Library σ := ⟨ascii label, fun _ => set⟩

def uint32Field (set : UInt32 → σ → σ) : Setter Library σ :=
  ⟨ascii label, fun lib value => set (lib.toUInt32 value)⟩

def intField (set : Int32 → σ → σ) : Setter Library σ :=
  ⟨ascii label, fun lib value => set (lib.toInt value)⟩

def floatField (set : UInt32 → σ → σ) : Setter Library σ :=
  ⟨ascii label, fun lib value => set (lib.readFloat value)⟩

@[simp] theorem textField_set (set : Text → σ → σ) : (textField label set).set lib value = set value := rfl

@[simp] theorem uint32Field_set (set : UInt32 → σ → σ) :
    (uint32Field label set).set lib value = set (lib.toUInt32 value) := rfl

@[simp] theorem intField_set (set : Int32 → σ → σ) :
    (intField label set).set lib value = set (lib.toInt value) := rfl

@[simp] theorem floatField_set (set : UInt32 → σ → σ) :
    (floatField label set).set lib value = set (lib.readFloat value) := rfl

end Setters

/-- How a section is written (`fields`) and read (`table`). -/
structure StateField (σ : Type) where
  fields : Library → σ → List (Text × Text)
  table : Table Library σ
  strings : List (σ → Text)
  names : ∀ lib state, (fields lib state).map Prod.fst = table.setters.map Setter.label
  written : ∀ lib : Library, lib.Lawful → ∀ state, ∀ field ∈ fields lib state,
    (∃ string ∈ strings, field.2 = string state) ∨ Quiet field.2
  sets : ∀ string ∈ strings, ∀ setter ∈ table.setters, ∀ lib value state,
    string (setter.set lib value state) = string state ∨ string (setter.set lib value state) = value

namespace StateField

variable {σ : Type} (format : StateField σ) (lib : Library)

def text (state : σ) : Text := fieldLines (format.fields lib state)

def ofText (start : σ) (text : Text) : σ := readFields format.table lib start text

-- A section that was found is read, from what its constructor starts with; any other keeps its initial value.
def readSection (initial fresh : σ) (part : Option Text) : σ :=
  match part with
  | some part => format.ofText lib fresh part
  | none => initial

theorem ofText_text (lawful : lib.Lawful) (start state : σ)
    (clean : ∀ string ∈ format.strings, OneLine (string state)) :
    format.ofText lib start (crlf ++ format.text lib state) =
      setAll lib format.table.setters ((format.fields lib state).map Prod.snd) start := by
  apply readFields_fieldLines format.table lib start _ (format.names lib state)
  intro field member
  rcases format.written lib lawful state field member with ⟨string, isString, same⟩ | quiet
  · rw [same]
    exact clean string isString
  · exact quiet.1

theorem endsAt_text (lawful : lib.Lawful) (state : σ) (header next : Text) (nonempty : header ≠ [])
    (isHeader : Header next) (apart : ¬ next <:+: header)
    (absent : ∀ string ∈ format.strings, ¬ next <:+: string state) :
    EndsAt (header, crlf ++ format.text lib state) next := by
  apply endsAt_fieldLines header next _ nonempty isHeader apart
  · intro field member
    exact format.table.plain field.1 (format.names lib state ▸ List.mem_map_of_mem member)
  · intro field member
    rcases format.written lib lawful state field member with ⟨string, isString, same⟩ | quiet
    · rw [same]
      exact absent string isString
    · exact fun inside => quiet.2 (inside.mem isHeader.2.2)

-- A string that is read is a part of the text it is read from.
theorem not_infix_ofText (start : σ) (text : Text) (next : Text) (absent : ¬ next <:+: text)
    (string : σ → Text) (member : string ∈ format.strings) (initial : ¬ next <:+: string start) :
    ¬ next <:+: string (format.ofText lib start text) := by
  rcases readFields_infix format.table lib string start text
      (fun setter inTable => format.sets string member setter inTable lib) with same | inside
  · rwa [ofText, same]
  · exact fun occurs => absent (occurs.trans inside)

end StateField

end FastoNoSQL
