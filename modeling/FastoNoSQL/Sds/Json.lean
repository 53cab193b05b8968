import FastoNoSQL.Bytes.Json
import FastoNoSQL.Sds.Tail

set_option autoImplicit false

/-!
# JSON arguments

The splitter knows JSON by its braces alone. An object passes through it unless
the braces inside its strings disturb the count, or a backslash stands in front
of one that closes.
-/

namespace FastoNoSQL.Sds

open Bytes

/-- Counted over the whole text, string contents included, the braces open before they close, all are
closed at the end and not before, and none that closes follows a backslash. -/
structure Balanced (text : Text) : Prop where
  unescaped : ¬ [byte '\\', byte '}'] <:+: text
  inside : ∀ start rest, text = start ++ rest → start ≠ [] → rest ≠ [] →
    start.count (byte '}') < start.count (byte '{')
  closed : text.count (byte '}') = text.count (byte '{')

theorem escaped_iff (c : UInt8) (text : Text) : escaped c '}' text = true ↔ [byte '\\', byte '}'] <+: c :: text := by
  rw [List.cons_prefix_cons]
  cases text with
  | nil => simp [escaped]
  | cons d text =>
      simp only [escaped, List.head?_cons, Bool.and_eq_true, decide_eq_true_eq, Option.some.injEq,
        List.cons_prefix_cons, List.nil_prefix, and_true]
      exact and_congr eq_comm eq_comm

theorem forall_start_cons (holds : Text → Prop) (c : UInt8) (text : Text) :
    (∀ start rest, c :: text = start ++ rest → rest ≠ [] → holds start) ↔
      holds [] ∧ ∀ start rest, text = start ++ rest → rest ≠ [] → holds (c :: start) := by
  constructor
  · intro all
    refine ⟨all [] (c :: text) rfl (by simp), ?_⟩
    intro start rest shape more
    exact all (c :: start) rest (by rw [shape, List.cons_append]) more
  · intro ⟨first, later⟩ start rest shape more
    cases start with
    | nil => exact first
    | cons d start =>
        obtain ⟨rfl, behind⟩ := List.cons.inj shape
        exact later start rest behind more

theorem bareFrom_succ_iff (text : Text) (depth : Nat) :
    bareFrom (depth + 1) text = true ↔
      ¬ [byte '\\', byte '}'] <:+: text ∧
        (∀ start rest, text = start ++ rest → rest ≠ [] →
          start.count (byte '}') < start.count (byte '{') + (depth + 1)) ∧
        text.count (byte '}') = text.count (byte '{') + (depth + 1) := by
  have braces : byte '{' ≠ byte '}' := by decide
  induction text generalizing depth with
  | nil => simp [bareFrom]
  | cons c text ih =>
      rw [forall_start_cons fun start => start.count (byte '}') < start.count (byte '{') + (depth + 1),
        List.infix_cons_iff, ← escaped_iff]
      simp only [bareFrom, List.count_nil, Nat.zero_add, Nat.zero_lt_succ, true_and]
      by_cases isEscaped : escaped c '}' text = true
      · simp [isEscaped]
      simp only [isEscaped, Bool.false_eq_true, if_false, false_or]
      by_cases opening : c = byte '{'
      · simp only [opening, if_true, ih, List.count_cons_self, List.count_cons_of_ne braces]
        grind
      simp only [opening, if_false, List.count_cons_of_ne opening]
      by_cases closing : c = byte '}'
      · simp only [closing, if_true, List.count_cons_self]
        cases depth with
        | zero =>
            simp only [if_true, List.isEmpty_iff]
            constructor
            · rintro rfl
              simp
            · rintro ⟨_, inside, _⟩
              by_contra more
              exact absurd (inside [] text rfl more) (by simp)
        | succ depth =>
            simp only [Nat.add_one_ne_zero, if_false, ih]
            grind
      · simp only [closing, if_false, List.count_cons_of_ne closing, ih]

theorem isBare_braces (text : Text) : isBare (byte '{' :: text) = true ↔ Balanced (byte '{' :: text) := by
  have braces : byte '{' ≠ byte '}' := by decide
  have first : isBare (byte '{' :: text) = bareFrom 1 text := by
    have other : byte '{' ≠ byte ' ' ∧ byte '{' ≠ byte '"' ∧ byte '{' ≠ byte '\'' := by decide
    simp [isBare, bareFrom, other]
  have slash : ¬ [byte '\\', byte '}'] <+: byte '{' :: text := by
    rw [List.cons_prefix_cons]
    exact fun both => absurd both.1 (by decide)
  rw [first, bareFrom_succ_iff]
  constructor
  · rintro ⟨unescaped, inside, closed⟩
    refine ⟨?_, ?_, ?_⟩
    · rw [List.infix_cons_iff]
      exact fun found => found.elim slash unescaped
    · intro start rest shape nonempty more
      cases start with
      | nil => exact absurd rfl nonempty
      | cons c start =>
          obtain ⟨rfl, behind⟩ := List.cons.inj shape
          simpa [braces] using inside start rest behind more
    · simpa [braces] using closed
  · intro balanced
    refine ⟨fun found => balanced.unescaped (List.infix_cons found), ?_, ?_⟩
    · intro start rest shape more
      have bound := balanced.inside (byte '{' :: start) rest (by rw [shape, List.cons_append]) (by simp) more
      simpa [braces] using bound
    · simpa [braces] using balanced.closed

/-! ## Objects -/

theorem exists_of_isObject (text : Text) (object : Json.IsObject text) : ∃ rest, text = byte '{' :: rest := by
  cases object with
  | emptyObject | object => exact ⟨_, rfl⟩

theorem isBare_of_isObject (text : Text) (object : Json.IsObject text) : isBare text = true ↔ Balanced text := by
  obtain ⟨rest, rfl⟩ := exists_of_isObject text object
  exact isBare_braces rest

-- A stretch of a text that the count passes by.
def Passed (text : Text) : Prop := ∀ depth rest, bareFrom (depth + 1) (text ++ rest) = bareFrom (depth + 1) rest

theorem passed_append (first second : Text) (passed : Passed first) (passed' : Passed second) :
    Passed (first ++ second) := by
  intro depth rest
  rw [List.append_assoc, passed, passed']

def noBrace (c : UInt8) : Prop := c ≠ byte '{' ∧ c ≠ byte '}'

theorem escaped_of_head (c : UInt8) (rest : Text) (other : rest.head? ≠ some (byte '}')) :
    escaped c '}' rest = false := by
  simp only [escaped, other, decide_false, Bool.and_false]

theorem bareFrom_pass (c : UInt8) (rest : Text) (depth : Nat) (plain : escaped c '}' rest = false) (other : noBrace c) :
    bareFrom (depth + 1) (c :: rest) = bareFrom (depth + 1) rest := by
  rw [bareFrom]
  simp [plain, other.1, other.2]

theorem passed_of_quiet (text : Text) (quiet : ∀ c ∈ text, Json.isQuiet c = true) : Passed text := by
  intro depth rest
  induction text with
  | nil => rfl
  | cons c text ih =>
      have ⟨own, others⟩ := List.forall_mem_cons.mp quiet
      simp only [Json.isQuiet, Bool.and_eq_true, decide_eq_true_eq] at own
      obtain ⟨other, slash⟩ := own
      rw [List.cons_append, bareFrom_pass c _ depth (by simp [escaped, slash]) other, ih others]

theorem passed_braces (text : Text) (passed : Passed text) : Passed (byte '{' :: text ++ [byte '}']) := by
  intro depth rest
  have other : byte '{' ≠ byte '\\' ∧ byte '}' ≠ byte '\\' ∧ byte '}' ≠ byte '{' := by decide
  rw [List.cons_append, List.cons_append, List.append_assoc, bareFrom]
  simp only [escaped, other, decide_false, Bool.false_and, Bool.false_eq_true, if_false, if_true]
  rw [passed (depth + 1)]
  simp [bareFrom, escaped, other]

theorem escapes_noBrace (c : UInt8) (known : c ∈ Json.escapes) : noBrace c := by
  constructor
  · rintro rfl
    exact absurd known (by decide)
  · rintro rfl
    exact absurd known (by decide)

theorem passed_characters (text : Text) (inside : Json.Characters noBrace text) (depth : Nat) (rest : Text) :
    (text ++ byte '"' :: rest).head? ≠ some (byte '}') ∧
      bareFrom (depth + 1) (text ++ byte '"' :: rest) = bareFrom (depth + 1) rest := by
  have marks : byte '"' ≠ byte '}' ∧ byte '\\' ≠ byte '}' ∧ byte 'u' ≠ byte '}' := by decide
  have slash : noBrace (byte '\\') := by constructor <;> decide
  induction inside with
  | nil => exact ⟨by simp [marks], bareFrom_pass _ rest depth rfl (by constructor <;> decide)⟩
  | plain c text printable quote notSlash allows more ih =>
      refine ⟨by simpa using allows.2, ?_⟩
      rw [List.cons_append, bareFrom_pass c _ depth (by simp [escaped, notSlash]) allows, ih.2]
  | escape c text known more ih =>
      -- The escaped byte may be a backslash itself: what follows it is no closing brace.
      have other := escapes_noBrace c known
      refine ⟨by simp [marks], ?_⟩
      rw [List.cons_append, List.cons_append, bareFrom_pass _ _ depth (by simp [escaped, other.2]) slash,
        bareFrom_pass c _ depth (escaped_of_head c _ ih.1) other, ih.2]
  | unicode digits text four hex more ih =>
      have passed : Passed (byte 'u' :: digits) :=
        passed_of_quiet _ (List.forall_mem_cons.mpr ⟨by decide, fun c member => Json.isQuiet_of_isHex c (hex c member)⟩)
      have shape : byte '\\' :: byte 'u' :: digits ++ text ++ byte '"' :: rest =
          byte '\\' :: (byte 'u' :: digits ++ (text ++ byte '"' :: rest)) := by simp
      refine ⟨by simp [marks], ?_⟩
      rw [shape, bareFrom_pass _ _ depth (by simp [escaped, marks]) slash, passed depth, ih.2]

theorem passed_literal (characters : Text) (inside : Json.Characters noBrace characters) :
    Passed (Json.literal characters) := by
  intro depth rest
  have quote : noBrace (byte '"') := by constructor <;> decide
  rw [Json.literal, List.cons_append, List.cons_append, List.append_assoc, List.singleton_append,
    bareFrom_pass _ _ depth rfl quote, (passed_characters characters inside depth rest).2]

-- What is derived with no brace in a string closes the braces that it opens.
theorem passed_of_derives (kind : Json.Kind) (text : Text) (derives : Json.Derives noBrace kind text) :
    Passed text := by
  have blanks (text : Text) (blank : Json.Blanks text) : Passed text :=
    passed_of_quiet text fun c member => Json.isQuiet_of_isBlank c (blank c member)
  have single (c : UInt8) (quiet : Json.isQuiet c = true) : Passed [c] := passed_of_quiet [c] (by simpa using quiet)
  have joined (c : UInt8) (quiet : Json.isQuiet c = true) (first second : Text) (passed : Passed first)
      (passed' : Passed second) : Passed (first ++ c :: second) :=
    passed_append first (c :: second) passed (passed_append [c] second (single c quiet) passed')
  induction derives with
  | name text known => exact passed_of_quiet text (Json.name_quiet text known)
  | number text number => exact passed_of_quiet text number.quiet
  | string characters inside => exact passed_literal characters inside
  | emptyArray text blank =>
      exact passed_append _ _ (joined (byte '[') (by decide) [] text (fun _ _ => rfl) (blanks text blank))
        (single (byte ']') (by decide))
  | array elements inside ih =>
      exact passed_append _ _ (joined (byte '[') (by decide) [] elements (fun _ _ => rfl) ih)
        (single (byte ']') (by decide))
  | nested object inside ih => exact ih
  | emptyObject text blank => exact passed_braces text (blanks text blank)
  | object members inside ih => exact passed_braces members ih
  | element before value after blankBefore inside blankAfter ih =>
      exact passed_append _ _ (passed_append _ _ (blanks before blankBefore) ih) (blanks after blankAfter)
  | lastElement element inside ih => exact ih
  | elements element elements first more ih ih' => exact joined (byte ',') (by decide) _ _ ih ih'
  | member before name after value blankBefore inside blankAfter held ih =>
      have front := passed_append _ _ (passed_append _ _ (blanks before blankBefore) (passed_literal name inside))
        (blanks after blankAfter)
      exact joined (byte ':') (by decide) _ _ front ih
  | lastMember member inside ih => exact ih
  | members member members first more ih ih' => exact joined (byte ',') (by decide) _ _ ih ih'

-- Objects without braces in their strings are one argument each.
theorem isBare_of_noBrace (text : Text) (object : Json.Derives noBrace .object text) : isBare text = true := by
  have braces (inner : Text) (passed : Passed inner) : isBare (byte '{' :: inner ++ [byte '}']) = true := by
    have other : byte '{' ≠ byte ' ' ∧ byte '{' ≠ byte '"' ∧ byte '{' ≠ byte '\'' := by decide
    have whole : isBare (byte '{' :: inner ++ [byte '}']) = bareFrom 1 (inner ++ [byte '}']) := by
      simp [isBare, bareFrom, other]
    rw [whole, passed 0 [byte '}']]
    decide
  cases object with
  | emptyObject blanks blank =>
      exact braces blanks (passed_of_quiet blanks fun c member => Json.isQuiet_of_isBlank c (blank c member))
  | object members inside => exact braces members (passed_of_derives .members members inside)

/-! ## Lines of words and objects -/

-- A word without spaces, quotes, braces and backslashes.
def IsQuietWord (text : Text) : Prop := text ≠ [] ∧ ∀ c ∈ text, c ≠ byte ' ' ∧ isQuiet c = true

def IsArgument (text : Text) : Prop := IsQuietWord text ∨ Json.IsObject text

theorem isBare_of_isQuietWord (text : Text) (word : IsQuietWord text) : isBare text = true := by
  apply isBare_of_plain text word.1
  intro c member
  obtain ⟨blank, quiet⟩ := word.2 c member
  simp only [isQuiet, Bool.and_eq_true, decide_eq_true_eq] at quiet
  obtain ⟨⟨⟨⟨double, single⟩, opening⟩, _⟩, _⟩ := quiet
  simp [isPlain, blank, double, single, opening]

theorem head_of_isArgument (text : Text) (argument : IsArgument text) : text ≠ [] ∧ text.head? ≠ some (byte ' ') := by
  rcases argument with ⟨nonempty, bytes⟩ | object
  · obtain ⟨c, rest, rfl⟩ := List.exists_cons_of_ne_nil nonempty
    exact ⟨nonempty, by simpa using (bytes c List.mem_cons_self).1⟩
  · obtain ⟨rest, rfl⟩ := exists_of_isObject text object
    have other : byte '{' ≠ byte ' ' := by decide
    exact ⟨by simp, by simpa using other⟩

-- A line that is split into the arguments it was joined from has only bare ones, when none starts with a blank.
theorem bare_of_sdssplitargslong (args : List Text)
    (starts : ∀ arg ∈ args, arg ≠ [] ∧ arg.head? ≠ some (byte ' '))
    (split : sdssplitargslong (unwords args) = some args) : ∀ arg ∈ args, isBare arg = true ∧ (0 : UInt8) ∉ arg := by
  induction args with
  | nil => simp
  | cons first rest ih =>
      have ⟨own, others⟩ := List.forall_mem_cons.mp starts
      cases rest with
      | nil =>
          rw [unwords_singleton] at split
          have clean := clean_of_split_first first [] [] (by rwa [List.append_nil])
          rw [sdssplitargslong, cString_eq_self first clean] at split
          have bare := (first_bare first [] [] own.1 own.2 trivial (by rwa [List.append_nil])).1
          simp [bare, clean]
      | cons second rest =>
          rw [unwords_cons_cons] at split
          have clean := clean_of_split_first first _ _ split
          have space : byte ' ' ≠ 0 := by decide
          have cut : cString (byte ' ' :: unwords (second :: rest)) =
              byte ' ' :: cString (unwords (second :: rest)) := by
            simp [cString, space]
          rw [sdssplitargslong, cString_append_of_clean first _ clean, cut] at split
          obtain ⟨bare, tail⟩ := first_bare first (byte ' ' :: _) _ own.1 own.2 rfl split
          rw [splitFrom_blank_space] at tail
          exact List.forall_mem_cons.mpr ⟨⟨bare, clean⟩, ih others tail⟩

/-- Words and objects come back as they were joined exactly when no word is cut at a NUL and the braces of
every object are balanced, the ones in its strings included. -/
theorem passes_iff (args : List Text) (all : ∀ arg ∈ args, IsArgument arg) :
    sdssplitargslong (unwords args) = some args ↔
      ∀ arg ∈ args, (0 : UInt8) ∉ arg ∧ (Json.IsObject arg → Balanced arg) := by
  constructor
  · intro split arg member
    have starts : ∀ arg ∈ args, arg ≠ [] ∧ arg.head? ≠ some (byte ' ') := fun arg member =>
      head_of_isArgument arg (all arg member)
    obtain ⟨bare, clean⟩ := bare_of_sdssplitargslong args starts split arg member
    exact ⟨clean, fun object => (isBare_of_isObject arg object).mp bare⟩
  · intro balanced
    apply sdssplitargslong_unwords
    · intro arg member
      rcases all arg member with word | object
      · exact isBare_of_isQuietWord arg word
      · exact (isBare_of_isObject arg object).mpr ((balanced arg member).2 object)
    · exact fun arg member => (balanced arg member).1

-- `{"a":"…"}`
def objectOf (inside : String) : Text := ascii "\x7b\"a\":\"" ++ ascii inside ++ ascii "\"\x7d"

theorem isObject_objectOf (inside : String) (plain : Json.Characters (fun _ => True) (ascii inside)) :
    Json.IsObject (objectOf inside) := by
  have name : Json.Characters (fun _ => True) (ascii "a") :=
    .plain (byte 'a') [] (by decide) (by decide) (by decide) trivial .nil
  have value : Json.Derives (fun _ => True) .element ([] ++ Json.literal (ascii inside) ++ []) :=
    .element [] _ [] (by simp [Json.Blanks]) (.string _ plain) (by simp [Json.Blanks])
  have member := Json.Derives.member [] (ascii "a") [] _ (by simp [Json.Blanks]) name (by simp [Json.Blanks]) value
  have whole := Json.Derives.object _ (.lastMember _ member)
  have shape : objectOf inside = byte '{' :: ([] ++ Json.literal (ascii "a") ++ [] ++
      byte ':' :: ([] ++ Json.literal (ascii inside) ++ [])) ++ [byte '}'] := by
    simp [objectOf, Json.literal, ascii]
  rw [shape]
  exact whole

theorem pair_of_braces_passes :
    sdssplitargslong (unwords [ascii "SET", objectOf "\x7b\x7d"]) = some [ascii "SET", objectOf "\x7b\x7d"] := by
  have word : IsQuietWord (ascii "SET") := by
    refine ⟨by decide, fun c member => ?_⟩
    have letters : (ascii "SET").all (fun c => c ≠ byte ' ' && isQuiet c) = true := by decide
    simpa using List.all_eq_true.mp letters c member
  have object : Json.IsObject (objectOf "\x7b\x7d") :=
    isObject_objectOf _ (.plain _ _ (by decide) (by decide) (by decide) trivial
      (.plain _ _ (by decide) (by decide) (by decide) trivial .nil))
  have all : ∀ arg ∈ [ascii "SET", objectOf "\x7b\x7d"], IsArgument arg := by
    simp only [List.forall_mem_cons, List.not_mem_nil, false_implies, implies_true, and_true]
    exact ⟨Or.inl word, Or.inr object⟩
  refine (passes_iff _ all).mpr ?_
  have balanced := (isBare_of_isObject _ object).mp (by decide)
  have notObject : ¬ Json.IsObject (ascii "SET") := by
    intro isObject
    obtain ⟨rest, shape⟩ := exists_of_isObject _ isObject
    exact absurd (List.cons.inj shape).1 (by decide)
  simp only [List.forall_mem_cons, List.not_mem_nil, false_implies, implies_true, and_true]
  exact ⟨⟨by decide, fun isObject => absurd isObject notObject⟩, by decide, fun _ => balanced⟩

theorem closing_brace_cuts :
    IsArgument (objectOf "\x7d") ∧ sdssplitargslong (unwords [objectOf "\x7d"]) ≠ some [objectOf "\x7d"] := by
  refine ⟨Or.inr (isObject_objectOf _ ?_), by decide⟩
  exact .plain _ _ (by decide) (by decide) (by decide) trivial .nil

end FastoNoSQL.Sds
