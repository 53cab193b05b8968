import FastoNoSQL.Bytes.Text

set_option autoImplicit false

/-!
# JSON texts

The grammar of JSON over bytes. What a string literal holds besides escapes is a
parameter, so that a restriction of the strings is again a grammar. Bytes past
ASCII are plain: the encoding of the text is not part of its syntax.
-/

namespace Bytes.Json

def isBlank (c : UInt8) : Bool := c = byte ' ' || c = byte '\t' || c = byte '\n' || c = byte '\r'

def isDigit (c : UInt8) : Bool := byte '0' ≤ c && c ≤ byte '9'

def isHex (c : UInt8) : Bool :=
  isDigit c || (byte 'a' ≤ c && c ≤ byte 'f') || (byte 'A' ≤ c && c ≤ byte 'F')

-- What follows a backslash, besides `u` and four digits.
def escapes : Text := ascii "\"\\/bfnrt"

def Blanks (text : Text) : Prop := ∀ c ∈ text, isBlank c = true

def Digits (text : Text) : Prop := text ≠ [] ∧ ∀ c ∈ text, isDigit c = true

inductive Characters (allowed : UInt8 → Prop) : Text → Prop where
  | nil : Characters allowed []
  | plain (c : UInt8) (rest : Text) (printable : byte ' ' ≤ c) (quote : c ≠ byte '"') (slash : c ≠ byte '\\')
      (allows : allowed c) (more : Characters allowed rest) : Characters allowed (c :: rest)
  | escape (c : UInt8) (rest : Text) (known : c ∈ escapes) (more : Characters allowed rest) :
      Characters allowed (byte '\\' :: c :: rest)
  | unicode (digits rest : Text) (four : digits.length = 4) (hex : ∀ c ∈ digits, isHex c = true)
      (more : Characters allowed rest) : Characters allowed (byte '\\' :: byte 'u' :: digits ++ rest)

def literal (characters : Text) : Text := byte '"' :: characters ++ [byte '"']

structure IsNumber (text : Text) : Prop where
  parts : ∃ sign whole fraction exponent : Text, text = sign ++ whole ++ fraction ++ exponent ∧
    (sign = [] ∨ sign = ascii "-") ∧
    (whole = ascii "0" ∨ Digits whole ∧ whole.head? ≠ some (byte '0')) ∧
    (fraction = [] ∨ ∃ digits, Digits digits ∧ fraction = byte '.' :: digits) ∧
    (exponent = [] ∨ ∃ mark sign digits, (mark = byte 'e' ∨ mark = byte 'E') ∧
      (sign = [] ∨ sign = ascii "+" ∨ sign = ascii "-") ∧ Digits digits ∧ exponent = mark :: sign ++ digits)

inductive Kind where
  | value | object | element | elements | member | members

inductive Derives (allowed : UInt8 → Prop) : Kind → Text → Prop where
  | name (text : Text) (known : text ∈ [ascii "true", ascii "false", ascii "null"]) : Derives allowed .value text
  | number (text : Text) (number : IsNumber text) : Derives allowed .value text
  | string (characters : Text) (inside : Characters allowed characters) : Derives allowed .value (literal characters)
  | emptyArray (blanks : Text) (blank : Blanks blanks) : Derives allowed .value (byte '[' :: blanks ++ [byte ']'])
  | array (elements : Text) (inside : Derives allowed .elements elements) :
      Derives allowed .value (byte '[' :: elements ++ [byte ']'])
  | nested (object : Text) (inside : Derives allowed .object object) : Derives allowed .value object
  | emptyObject (blanks : Text) (blank : Blanks blanks) : Derives allowed .object (byte '{' :: blanks ++ [byte '}'])
  | object (members : Text) (inside : Derives allowed .members members) :
      Derives allowed .object (byte '{' :: members ++ [byte '}'])
  | element (before value after : Text) (blankBefore : Blanks before) (inside : Derives allowed .value value)
      (blankAfter : Blanks after) : Derives allowed .element (before ++ value ++ after)
  | lastElement (element : Text) (inside : Derives allowed .element element) : Derives allowed .elements element
  | elements (element elements : Text) (first : Derives allowed .element element)
      (more : Derives allowed .elements elements) : Derives allowed .elements (element ++ byte ',' :: elements)
  | member (before name after value : Text) (blankBefore : Blanks before) (inside : Characters allowed name)
      (blankAfter : Blanks after) (held : Derives allowed .element value) :
      Derives allowed .member (before ++ literal name ++ after ++ byte ':' :: value)
  | lastMember (member : Text) (inside : Derives allowed .member member) : Derives allowed .members member
  | members (member members : Text) (first : Derives allowed .member member)
      (more : Derives allowed .members members) : Derives allowed .members (member ++ byte ',' :: members)

-- The texts of JSON objects, from brace to brace.
def IsObject (text : Text) : Prop := Derives (fun _ => True) .object text

-- A byte that neither opens nor closes an object nor escapes another byte.
def isQuiet (c : UInt8) : Bool := c ≠ byte '{' && c ≠ byte '}' && c ≠ byte '\\'

theorem isQuiet_of_isBlank (c : UInt8) (blank : isBlank c = true) : isQuiet c = true := by
  simp only [isBlank, Bool.or_eq_true, decide_eq_true_eq] at blank
  rcases blank with ((rfl | rfl) | rfl) | rfl <;> decide

theorem isQuiet_of_isHex (c : UInt8) (hex : isHex c = true) : isQuiet c = true := by
  have not (d : UInt8) (other : isHex d = false) : c ≠ d := by
    rintro rfl
    rw [hex] at other
    cases other
  simp [isQuiet, not (byte '{') (by decide), not (byte '}') (by decide), not (byte '\\') (by decide)]

theorem isQuiet_of_isDigit (c : UInt8) (digit : isDigit c = true) : isQuiet c = true :=
  isQuiet_of_isHex c (by simp [isHex, digit])

theorem IsNumber.quiet {text : Text} (number : IsNumber text) : ∀ c ∈ text, isQuiet c = true := by
  obtain ⟨sign, whole, fraction, exponent, rfl, isSign, isWhole, isFraction, isExponent⟩ := number.parts
  have digits (digits : Text) (all : Digits digits) : ∀ c ∈ digits, isQuiet c = true := fun c member =>
    isQuiet_of_isDigit c (all.2 c member)
  simp only [List.forall_mem_append]
  refine ⟨⟨⟨?_, ?_⟩, ?_⟩, ?_⟩
  · rcases isSign with rfl | rfl
    · simp
    · exact List.all_eq_true.mp (by decide)
  · rcases isWhole with rfl | ⟨all, _⟩
    · exact List.all_eq_true.mp (by decide)
    · exact digits whole all
  · rcases isFraction with rfl | ⟨behind, all, rfl⟩
    · simp
    · exact List.forall_mem_cons.mpr ⟨by decide, digits behind all⟩
  · rcases isExponent with rfl | ⟨mark, sign, behind, isMark, isSign, all, rfl⟩
    · simp
    · rw [List.cons_append, List.forall_mem_cons, List.forall_mem_append]
      refine ⟨?_, ?_, digits behind all⟩
      · rcases isMark with rfl | rfl <;> decide
      · rcases isSign with rfl | rfl | rfl
        · simp
        · exact List.all_eq_true.mp (by decide)
        · exact List.all_eq_true.mp (by decide)

theorem name_quiet (text : Text) (known : text ∈ [ascii "true", ascii "false", ascii "null"]) :
    ∀ c ∈ text, isQuiet c = true := by
  simp only [List.mem_cons, List.not_mem_nil, or_false] at known
  rcases known with rfl | rfl | rfl <;> exact List.all_eq_true.mp (by decide)

end Bytes.Json
