import Mathlib.Logic.Relation
import FastoNoSQL.Sds.Tail

set_option autoImplicit false

/-!
# The grammar of a command line

Command lines as they are meant to be written: tokens between runs of blanks,
made of plain bytes, quoted parts and a group of braces, each read from the text
in front of it. The splitter is compared with it byte for byte. It parts a token
in two where a closing quote is followed by white space that is not a blank.
-/

namespace FastoNoSQL.Sds

open Bytes Relation

def quoteByte : Bool → UInt8
  | true => byte '"'
  | false => byte '\''

-- The byte that `c` and the text behind it stand for, and what is left of the text.
def readEscape : Bool → UInt8 → Text → Option (UInt8 × Text)
  | true, c, text => (hexEscape c text).map fun b => (b, text.drop 3)
  | false, c, text => if escaped c '\'' text then some (byte '\'', text.drop 1) else none

-- What is quoted in front of a text whose opening quote was read, and the text behind the closing quote.
inductive Quoted (double : Bool) : Text → Text → Text → Prop where
  | close (rest : Text) : Quoted double (quoteByte double :: rest) [] rest
  | escape (c b : UInt8) (text behind contents rest : Text) (read : readEscape double c text = some (b, behind))
      (more : Quoted double behind contents rest) : Quoted double (c :: text) (b :: contents) rest
  | char (c : UInt8) (text contents rest : Text) (other : c ≠ quoteByte double)
      (plain : readEscape double c text = none) (more : Quoted double text contents rest) :
      Quoted double (c :: text) (c :: contents) rest

-- The same for an opening brace; the matching brace is part of the contents.
inductive Braced : Text → Text → Text → Prop where
  | close (rest : Text) : Braced (byte '}' :: rest) [byte '}'] rest
  | escape (text contents rest : Text) (more : Braced text contents rest) :
      Braced (byte '\\' :: byte '}' :: text) (byte '}' :: contents) rest
  | nested (text inner middle outer rest : Text) (group : Braced text inner middle)
      (more : Braced middle outer rest) : Braced (byte '{' :: text) (byte '{' :: inner ++ outer) rest
  | char (c : UInt8) (text contents rest : Text) (opening : c ≠ byte '{') (closing : c ≠ byte '}')
      (plain : escaped c '}' text = false) (more : Braced text contents rest) :
      Braced (c :: text) (c :: contents) rest

def Follows (rest : Text) : Prop := ∀ c ∈ rest.head?, isspace c = true

-- The token in front of a text, and the text behind it: a token goes on up to a blank, or to the brace
-- that closes its group.
inductive Token : Text → Text → Text → Prop where
  | stop (rest : Text) (ends : Ends rest) : Token rest [] rest
  | plain (c : UInt8) (text token rest : Text) (plain : isPlain c = true) (more : Token text token rest) :
      Token (c :: text) (c :: token) rest
  | quoted (double : Bool) (text contents middle token rest : Text)
      (part : Quoted double text contents middle) (follows : Follows middle) (more : Token middle token rest) :
      Token (quoteByte double :: text) (contents ++ token) rest
  | braced (text contents rest : Text) (group : Braced text contents rest) :
      Token (byte '{' :: text) (byte '{' :: contents) rest

inductive Tokens : Text → List Text → Prop where
  | nil : Tokens [] []
  | blank (text : Text) (tokens : List Text) (more : Tokens text tokens) : Tokens (byte ' ' :: text) tokens
  | token (c : UInt8) (text token rest : Text) (tokens : List Text) (start : c ≠ byte ' ')
      (first : Token (c :: text) token rest) (more : Tokens rest tokens) : Tokens (c :: text) (token :: tokens)

inductive Part : Text → Text → Prop where
  | byte (c : UInt8) (rest : Text) (bare : isPlain c = true ∨ c = byte ' ') : Part (c :: rest) rest
  | quoted (double : Bool) (text contents rest : Text) (part : Quoted double text contents rest)
      (follows : Follows rest) : Part (quoteByte double :: text) rest
  | braced (text contents rest : Text) (group : Braced text contents rest) : Part (byte '{' :: text) rest

inductive Broken : Text → Prop where
  | quote (double : Bool) (text : Text) (unclosed : ∀ contents rest, ¬ Quoted double text contents rest) :
      Broken (quoteByte double :: text)
  | brace (text : Text) (unclosed : ∀ contents rest, ¬ Braced text contents rest) : Broken (byte '{' :: text)
  | follow (double : Bool) (text contents rest : Text) (part : Quoted double text contents rest)
      (other : ¬ Follows rest) : Broken (quoteByte double :: text)

-- Reading the line part by part meets something broken.
def Fails (line : Text) : Prop := ∃ text, ReflTransGen Part line text ∧ Broken text

-- Reading the line part by part meets a closing quote with white space behind it that is no blank.
def WhiteAfterQuote (line : Text) : Prop :=
  ∃ double text contents c rest, ReflTransGen Part line (quoteByte double :: text) ∧
    Quoted double text contents (c :: rest) ∧ isspace c = true ∧ c ≠ byte ' '

-- The splitter returns the tokens of the line, and fails on the lines that are broken.
def SplitsByGrammar (line : Text) : Prop :=
  (sdssplitargslong line = none ↔ Fails (cString line)) ∧
    ∀ tokens, sdssplitargslong line = some tokens ↔ Tokens (cString line) tokens

/-! ## Quoted parts -/

section Quotes

variable (double : Bool)

theorem readEscape_spec (c b : UInt8) (text behind : Text) (read : readEscape double c text = some (b, behind)) :
    c ≠ quoteByte double ∧ ∃ skip, skip ≤ text.length ∧ behind = text.drop skip ∧
      ∀ current, step (.quoted double current) c text = .next (.quoted double (current ++ [b])) skip := by
  cases double with
  | true =>
      simp only [readEscape, Option.map_eq_some_iff, Prod.mk.injEq] at read
      obtain ⟨b, escape, rfl, rfl⟩ := read
      obtain ⟨rfl, x, high, low, rest, rfl, _⟩ := hexEscape_span c b text escape
      refine ⟨by decide, 3, by simp, rfl, ?_⟩
      intro current
      simp [Scan.quoted, step, escape]
  | false =>
      simp only [readEscape] at read
      split at read
      next found =>
        obtain ⟨rfl, rfl⟩ := Prod.mk.inj (Option.some.inj read)
        have slash : c = byte '\\' := by
          simp only [escaped, Bool.and_eq_true, decide_eq_true_eq] at found
          exact found.1
        have more : 1 ≤ text.length := by
          cases text with
          | nil => simp [escaped] at found
          | cons => simp
        refine ⟨by rw [slash]; decide, 1, more, rfl, ?_⟩
        intro current
        simp [Scan.quoted, step, found]
      next => cases read

theorem step_char (c : UInt8) (text : Text) (other : c ≠ quoteByte double) (plain : readEscape double c text = none)
    (current : Text) : step (.quoted double current) c text = .next (.quoted double (current ++ [c])) 0 := by
  cases double with
  | true =>
      have none : hexEscape c text = none := by simpa [readEscape] using plain
      simp [Scan.quoted, step, none, show c ≠ byte '"' from other]
  | false =>
      have none : escaped c '\'' text = false := by simpa [readEscape] using plain
      simp [Scan.quoted, step, none, show c ≠ byte '\'' from other]

theorem step_close (text current : Text) :
    step (.quoted double current) (quoteByte double) text = closes current text := by
  cases double with
  | true =>
      have other : byte '"' ≠ byte '\\' := by decide
      have none : hexEscape (byte '"') text = none := by
        unfold hexEscape
        split <;> simp [other]
      simp [Scan.quoted, step, quoteByte, none]
  | false =>
      have other : byte '\'' ≠ byte '\\' := by decide
      simp [Scan.quoted, step, quoteByte, escaped, other]

theorem splitFrom_drop (scan : Scan) (skip : Nat) (text : Text) (inside : skip ≤ text.length) :
    splitFrom scan skip text = splitFrom scan 0 (text.drop skip) := by
  induction skip generalizing text with
  | zero => rfl
  | succ skip ih =>
      cases text with
      | nil => simp at inside
      | cons c text => exact ih text (by simpa using inside)

theorem Quoted.inversion {line contents rest : Text} (part : Quoted double line contents rest) (c : UInt8) (text : Text)
    (shape : line = c :: text) :
    (c = quoteByte double ∧ contents = [] ∧ rest = text) ∨
      (∃ b behind more, readEscape double c text = some (b, behind) ∧ contents = b :: more ∧
        Quoted double behind more rest) ∨
      (c ≠ quoteByte double ∧ readEscape double c text = none ∧
        ∃ more, contents = c :: more ∧ Quoted double text more rest) := by
  cases part with
  | close =>
      obtain ⟨rfl, rfl⟩ := List.cons.inj shape
      exact Or.inl ⟨rfl, rfl, rfl⟩
  | escape c b text behind contents rest read more =>
      obtain ⟨rfl, rfl⟩ := List.cons.inj shape
      exact Or.inr (Or.inl ⟨b, behind, contents, read, rfl, more⟩)
  | char c text contents rest other plain more =>
      obtain ⟨rfl, rfl⟩ := List.cons.inj shape
      exact Or.inr (Or.inr ⟨other, plain, contents, rfl, more⟩)

theorem Quoted.shorter {text contents rest : Text} (part : Quoted double text contents rest) :
    rest.length < text.length := by
  induction part with
  | close => simp
  | escape c b text behind contents rest read more ih =>
      obtain ⟨_, skip, _, rfl, _⟩ := readEscape_spec double c b text behind read
      simp only [List.length_drop, List.length_cons] at ih ⊢
      omega
  | char c text contents rest other plain more ih =>
      rw [List.length_cons]
      omega

theorem Quoted.unique {text contents rest : Text} (part : Quoted double text contents rest) (contents' rest' : Text)
    (part' : Quoted double text contents' rest') : contents = contents' ∧ rest = rest' := by
  induction part generalizing contents' with
  | close rest =>
      rcases part'.inversion double _ _ rfl with ⟨_, rfl, rfl⟩ | ⟨b, behind, more, read, _⟩ | ⟨other, _⟩
      · exact ⟨rfl, rfl⟩
      · exact absurd rfl (readEscape_spec double _ b rest behind read).1
      · exact absurd rfl other
  | escape c b text behind contents rest read more ih =>
      rcases part'.inversion double _ _ rfl with ⟨quote, _⟩ | ⟨b', behind', more', read', rfl, inner⟩ | ⟨_, plain, _⟩
      · exact absurd quote (readEscape_spec double c b text behind read).1
      · obtain ⟨rfl, rfl⟩ := Prod.mk.inj (Option.some.inj (read.symm.trans read'))
        obtain ⟨rfl, rfl⟩ := ih more' inner
        exact ⟨rfl, rfl⟩
      · rw [read] at plain
        cases plain
  | char c text contents rest other plain more ih =>
      rcases part'.inversion double _ _ rfl with ⟨quote, _⟩ | ⟨b, behind, more', read, _⟩ | ⟨_, _, more', rfl, inner⟩
      · exact absurd quote other
      · rw [read] at plain
        cases plain
      · obtain ⟨rfl, rfl⟩ := ih more' inner
        exact ⟨rfl, rfl⟩

theorem splitFrom_quoted {text contents rest : Text} (part : Quoted double text contents rest) (current : Text) :
    splitFrom (.quoted double current) 0 text =
      match closes (current ++ contents) rest with
      | .token token => (splitFrom .blank 0 rest).map (token :: ·)
      | _ => none := by
  induction part generalizing current with
  | close rest =>
      rw [splitFrom_cons, step_close, List.append_nil]
      cases rest with
      | nil => rfl
      | cons c rest => by_cases space : isspace c = true <;> simp [closes, space]
  | escape c b text behind contents rest read more ih =>
      obtain ⟨_, skip, inside, rfl, action⟩ := readEscape_spec double c b text behind read
      rw [splitFrom_cons, action]
      simp only
      rw [splitFrom_drop _ skip text inside, ih, List.append_assoc, List.singleton_append]
  | char c text contents rest other plain more ih =>
      rw [splitFrom_cons, step_char double c text other plain]
      simp only
      rw [ih, List.append_assoc, List.singleton_append]

theorem splitFrom_follows {text contents rest : Text} (part : Quoted double text contents rest)
    (follows : Follows rest) (current : Text) :
    splitFrom (.quoted double current) 0 text = (splitFrom .blank 0 rest).map ((current ++ contents) :: ·) := by
  rw [splitFrom_quoted double part]
  cases rest with
  | nil => rfl
  | cons c rest => simp [closes, show isspace c = true from follows c rfl]

theorem splitFrom_not_follows {text contents rest : Text} (part : Quoted double text contents rest)
    (other : ¬ Follows rest) (current : Text) : splitFrom (.quoted double current) 0 text = none := by
  rw [splitFrom_quoted double part]
  cases rest with
  | nil => exact absurd (by simp [Follows]) other
  | cons c rest =>
      have bad : isspace c ≠ true := fun space => other (by simpa [Follows] using space)
      simp [closes, bad]

-- A text that can be read inside quotes has a closing quote.
theorem exists_quoted (text current : Text) (split : splitFrom (.quoted double current) 0 text ≠ none) :
    ∃ contents rest, Quoted double text contents rest := by
  induction size : text.length using Nat.strong_induction_on generalizing text current with
  | _ size ih =>
      cases text with
      | nil =>
          exfalso
          apply split
          cases double <;> rfl
      | cons c text =>
          by_cases closing : c = quoteByte double
          · rw [closing]
            exact ⟨[], text, .close text⟩
          rw [splitFrom_cons] at split
          cases read : readEscape double c text with
          | none =>
              rw [step_char double c text closing read] at split
              obtain ⟨contents, rest, part⟩ := ih text.length (by simp [← size]) text _ split rfl
              exact ⟨c :: contents, rest, .char c text contents rest closing read part⟩
          | some found =>
              obtain ⟨b, behind⟩ := found
              obtain ⟨_, skip, inside, rfl, action⟩ := readEscape_spec double c b text behind read
              simp only [action, splitFrom_drop _ skip text inside] at split
              have shorter : (text.drop skip).length < (c :: text).length := by
                simp only [List.length_drop, List.length_cons]
                omega
              obtain ⟨contents, rest, part⟩ := ih _ (size ▸ shorter) _ _ split rfl
              exact ⟨b :: contents, rest, .escape c b text _ contents rest read part⟩

end Quotes

/-! ## Groups of braces -/

theorem Braced.inversion {line contents rest : Text} (group : Braced line contents rest) (c : UInt8) (text : Text)
    (shape : line = c :: text) :
    (c = byte '}' ∧ contents = [byte '}'] ∧ rest = text) ∨
      (c = byte '\\' ∧ ∃ behind more, text = byte '}' :: behind ∧ contents = byte '}' :: more ∧
        Braced behind more rest) ∨
      (c = byte '{' ∧ ∃ inner middle outer, contents = byte '{' :: inner ++ outer ∧ Braced text inner middle ∧
        Braced middle outer rest) ∨
      (c ≠ byte '{' ∧ c ≠ byte '}' ∧ escaped c '}' text = false ∧
        ∃ more, contents = c :: more ∧ Braced text more rest) := by
  cases group with
  | close =>
      obtain ⟨rfl, rfl⟩ := List.cons.inj shape
      exact Or.inl ⟨rfl, rfl, rfl⟩
  | escape behind contents rest more =>
      obtain ⟨rfl, rfl⟩ := List.cons.inj shape
      exact Or.inr (Or.inl ⟨rfl, behind, contents, rfl, rfl, more⟩)
  | nested text inner middle outer rest group more =>
      obtain ⟨rfl, rfl⟩ := List.cons.inj shape
      exact Or.inr (Or.inr (Or.inl ⟨rfl, inner, middle, outer, rfl, group, more⟩))
  | char c text contents rest opening closing plain more =>
      obtain ⟨rfl, rfl⟩ := List.cons.inj shape
      exact Or.inr (Or.inr (Or.inr ⟨opening, closing, plain, contents, rfl, more⟩))

theorem Braced.shorter {text contents rest : Text} (group : Braced text contents rest) : rest.length < text.length := by
  induction group with
  | close => simp
  | escape text contents rest more ih =>
      simp only [List.length_cons]
      omega
  | nested text inner middle outer rest group more inside outside =>
      rw [List.length_cons]
      omega
  | char c text contents rest opening closing plain more ih =>
      rw [List.length_cons]
      omega

theorem Braced.unique {text contents rest : Text} (group : Braced text contents rest) (contents' rest' : Text)
    (group' : Braced text contents' rest') : contents = contents' ∧ rest = rest' := by
  have slash : byte '\\' ≠ byte '}' ∧ byte '\\' ≠ byte '{' ∧ byte '{' ≠ byte '}' := by decide
  induction group generalizing contents' rest' with
  | close rest =>
      rcases group'.inversion _ _ rfl with ⟨_, rfl, rfl⟩ | ⟨other, _⟩ | ⟨other, _⟩ | ⟨_, other, _⟩
      · exact ⟨rfl, rfl⟩
      · exact absurd other.symm slash.1
      · exact absurd other.symm slash.2.2
      · exact absurd rfl other
  | escape text contents rest more ih =>
      rcases group'.inversion _ _ rfl with
        ⟨other, _⟩ | ⟨_, behind, more', same, rfl, inner⟩ | ⟨other, _⟩ | ⟨_, _, plain, _⟩
      · exact absurd other slash.1
      · obtain rfl := (List.cons.inj same).2
        obtain ⟨rfl, rfl⟩ := ih more' _ inner
        exact ⟨rfl, rfl⟩
      · exact absurd other slash.2.1
      · simp [escaped] at plain
  | nested text inner middle outer rest group more inside outside =>
      rcases group'.inversion _ _ rfl with
        ⟨other, _⟩ | ⟨other, _⟩ | ⟨_, inner', middle', outer', rfl, first, second⟩ | ⟨other, _⟩
      · exact absurd other slash.2.2
      · exact absurd other.symm slash.2.1
      · obtain ⟨rfl, rfl⟩ := inside inner' middle' first
        obtain ⟨rfl, rfl⟩ := outside outer' _ second
        exact ⟨rfl, rfl⟩
      · exact absurd rfl other
  | char c text contents rest opening closing plain more ih =>
      rcases group'.inversion _ _ rfl with
        ⟨other, _⟩ | ⟨isSlash, behind, more', rfl, _⟩ | ⟨other, _⟩ | ⟨_, _, _, more', rfl, inner⟩
      · exact absurd other closing
      · simp [escaped, isSlash] at plain
      · exact absurd other opening
      · obtain ⟨rfl, rfl⟩ := ih more' _ inner
        exact ⟨rfl, rfl⟩

-- Reading a group to its matching brace closes one brace of those that are open.
theorem splitFrom_braced {text contents rest : Text} (group : Braced text contents rest) (depth : Nat)
    (current : Text) :
    splitFrom (.inj (depth + 1) current) 0 text =
      if depth = 0 then (splitFrom .blank 0 rest).map ((current ++ contents) :: ·)
      else splitFrom (.inj depth (current ++ contents)) 0 rest := by
  have slash : byte '}' ≠ byte '\\' ∧ byte '{' ≠ byte '\\' ∧ byte '}' ≠ byte '{' := by decide
  induction group generalizing depth current with
  | close rest =>
      rw [splitFrom_cons]
      by_cases last : depth = 0
      · simp [step, escaped, slash, last]
      · simp [step, escaped, slash, last]
  | escape text contents rest more ih =>
      rw [splitFrom_cons]
      have next : step (.inj (depth + 1) current) (byte '\\') (byte '}' :: text) =
          .next (.inj (depth + 1) (current ++ [byte '}'])) 1 := by
        simp [step, escaped]
      simp only [next, splitFrom_skip, ih, List.append_assoc, List.singleton_append]
  | nested text inner middle outer rest group more inside outside =>
      rw [splitFrom_cons]
      have next : step (.inj (depth + 1) current) (byte '{') text =
          .next (.inj (depth + 1 + 1) (current ++ [byte '{'])) 0 := by
        simp [step, escaped, slash]
      simp only [next, inside, Nat.add_one_ne_zero, if_false, outside]
      simp
  | char c text contents rest opening closing plain more ih =>
      rw [splitFrom_cons]
      have next : step (.inj (depth + 1) current) c text = .next (.inj (depth + 1) (current ++ [c])) 0 := by
        simp [step, plain, opening, closing]
      simp only [next, ih, List.append_assoc, List.singleton_append]

theorem exists_braced (text : Text) (depth : Nat) (current : Text)
    (split : splitFrom (.inj (depth + 1) current) 0 text ≠ none) : ∃ contents rest, Braced text contents rest := by
  induction size : text.length using Nat.strong_induction_on generalizing text depth current with
  | _ size ih =>
      cases text with
      | nil => exact absurd rfl split
      | cons c text =>
          rw [splitFrom_cons] at split
          by_cases isEscaped : escaped c '}' text = true
          · have action :
                step (.inj (depth + 1) current) c text = .next (.inj (depth + 1) (current ++ [byte '}'])) 1 := by
              simp [step, isEscaped]
            cases text with
            | nil => simp [escaped] at isEscaped
            | cons d text =>
                simp only [escaped, Bool.and_eq_true, decide_eq_true_eq, List.head?_cons,
                  Option.some.injEq] at isEscaped
                obtain ⟨rfl, rfl⟩ := isEscaped
                simp only [action, splitFrom_skip] at split
                have shorter : text.length < (byte '\\' :: byte '}' :: text).length := by
                  simp only [List.length_cons]
                  omega
                obtain ⟨contents, rest, group⟩ := ih _ (size ▸ shorter) text depth _ split rfl
                exact ⟨_, rest, .escape text contents rest group⟩
          have plain : escaped c '}' text = false := by simpa using isEscaped
          by_cases closing : c = byte '}'
          · rw [closing]
            exact ⟨_, text, .close text⟩
          by_cases opening : c = byte '{'
          · subst opening
            have action : step (.inj (depth + 1) current) (byte '{') text =
                .next (.inj (depth + 1 + 1) (current ++ [byte '{'])) 0 := by
              simp [step, plain]
            simp only [action] at split
            obtain ⟨inner, middle, group⟩ := ih text.length (by simp [← size]) text (depth + 1) _ split rfl
            have shorter := group.shorter
            rw [splitFrom_braced group, if_neg (Nat.add_one_ne_zero depth)] at split
            obtain ⟨outer, rest, more⟩ := ih middle.length (by simp [← size]; omega) middle depth _ split rfl
            exact ⟨_, rest, .nested text inner middle outer rest group more⟩
          · have action : step (.inj (depth + 1) current) c text = .next (.inj (depth + 1) (current ++ [c])) 0 := by
              simp [step, plain, opening, closing]
            simp only [action] at split
            obtain ⟨contents, rest, group⟩ := ih text.length (by simp [← size]) text depth _ split rfl
            exact ⟨c :: contents, rest, .char c text contents rest opening closing plain group⟩

/-! ## Lines that fail -/

theorem exists_part (c : UInt8) (text : Text) :
    (∃ rest, Part (c :: text) rest ∧ rest.length ≤ text.length) ∨ Broken (c :: text) := by
  by_cases bare : isPlain c = true ∨ c = byte ' '
  · exact Or.inl ⟨text, .byte c text bare, Nat.le_refl _⟩
  by_cases opening : c = byte '{'
  · subst opening
    by_cases closed : ∃ contents rest, Braced text contents rest
    · obtain ⟨contents, rest, group⟩ := closed
      exact Or.inl ⟨rest, .braced text contents rest group, group.shorter.le⟩
    · exact Or.inr (.brace text fun contents rest group => closed ⟨contents, rest, group⟩)
  have quote : ∃ double, c = quoteByte double := by
    simp only [isPlain, Bool.and_eq_true, decide_eq_true_eq, not_or] at bare
    by_cases isDouble : c = byte '"'
    · exact ⟨true, isDouble⟩
    · exact ⟨false, by_contra fun other => bare.1 ⟨⟨⟨bare.2, isDouble⟩, other⟩, opening⟩⟩
  obtain ⟨double, rfl⟩ := quote
  by_cases closed : ∃ contents rest, Quoted double text contents rest
  · obtain ⟨contents, rest, part⟩ := closed
    by_cases follows : Follows rest
    · exact Or.inl ⟨rest, .quoted double text contents rest part follows, (part.shorter double).le⟩
    · exact Or.inr (.follow double text contents rest part follows)
  · exact Or.inr (.quote double text fun contents rest part => closed ⟨contents, rest, part⟩)

theorem enter_quote (current : Text) (double : Bool) : enter current (quoteByte double) = .quoted double current := by
  cases double
  · have other : byte '\'' ≠ byte '"' := by decide
    simp [enter, quoteByte, Scan.quoted, other]
  · simp [enter, quoteByte, Scan.quoted]

theorem enter_brace (current : Text) : enter current (byte '{') = .inj 1 (current ++ [byte '{']) := by
  have other : byte '{' ≠ byte '"' ∧ byte '{' ≠ byte '\'' := by decide
  simp [enter, other]

theorem enter_plain (current : Text) (c : UInt8) (plain : isPlain c = true) :
    enter current c = .plain (current ++ [c]) := by
  simp only [isPlain, Bool.and_eq_true, decide_eq_true_eq] at plain
  obtain ⟨⟨⟨_, double⟩, single⟩, opening⟩ := plain
  simp [enter, double, single, opening]

theorem splitFrom_unquoted (scan : Scan) (unquoted : scan.isOpen = false) (c : UInt8) (text : Text)
    (other : c ≠ byte ' ') : splitFrom scan 0 (c :: text) = splitFrom (enter scan.pending c) 0 text := by
  cases scan with
  | blank => simp [splitFrom_cons, step, other, Scan.pending]
  | plain current => simp [splitFrom_cons, step, other, Scan.pending]
  | inq | insq | inj => cases unquoted

theorem quote_ne_blank (double : Bool) : quoteByte double ≠ byte ' ' := by
  cases double <;> decide

theorem brace_ne_blank : byte '{' ≠ byte ' ' := by decide

theorem splitFrom_part {text rest : Text} (part : Part text rest) (scan : Scan) (unquoted : scan.isOpen = false) :
    ∃ next : Scan, next.isOpen = false ∧ (splitFrom scan 0 text = none ↔ splitFrom next 0 rest = none) := by
  cases part with
  | byte c rest bare =>
      by_cases blank : c = byte ' '
      · subst blank
        refine ⟨.blank, rfl, ?_⟩
        cases scan with
        | blank => rw [splitFrom_blank_space]
        | plain current => rw [splitFrom_plain_space, Option.map_eq_none_iff]
        | inq | insq | inj => cases unquoted
      · refine ⟨.plain (scan.pending ++ [c]), rfl, ?_⟩
        rw [splitFrom_unquoted scan unquoted c rest blank, enter_plain _ _ (bare.resolve_right blank)]
  | quoted double text contents rest part follows =>
      refine ⟨.blank, rfl, ?_⟩
      rw [splitFrom_unquoted scan unquoted _ text (quote_ne_blank double), enter_quote,
        splitFrom_follows double part follows, Option.map_eq_none_iff]
  | braced text contents rest group =>
      refine ⟨.blank, rfl, ?_⟩
      rw [splitFrom_unquoted scan unquoted _ text brace_ne_blank, enter_brace, splitFrom_braced group, if_pos rfl,
        Option.map_eq_none_iff]

theorem splitFrom_broken {text : Text} (broken : Broken text) (scan : Scan) (unquoted : scan.isOpen = false) :
    splitFrom scan 0 text = none := by
  cases broken with
  | quote double text unclosed =>
      rw [splitFrom_unquoted scan unquoted _ text (quote_ne_blank double), enter_quote]
      by_contra split
      obtain ⟨contents, rest, part⟩ := exists_quoted double text _ split
      exact unclosed contents rest part
  | brace text unclosed =>
      rw [splitFrom_unquoted scan unquoted _ text brace_ne_blank, enter_brace]
      by_contra split
      obtain ⟨contents, rest, group⟩ := exists_braced text 0 _ split
      exact unclosed contents rest group
  | follow double text contents rest part other =>
      rw [splitFrom_unquoted scan unquoted _ text (quote_ne_blank double), enter_quote,
        splitFrom_not_follows double part other]

theorem splitFrom_eq_none_iff (text : Text) (scan : Scan) (unquoted : scan.isOpen = false) :
    splitFrom scan 0 text = none ↔ Fails text := by
  constructor
  · intro failed
    induction size : text.length using Nat.strong_induction_on generalizing text scan with
    | _ size ih =>
        cases text with
        | nil =>
            cases scan with
            | blank | plain => simp [atEnd] at failed
            | inq | insq | inj => cases unquoted
        | cons c text =>
            rcases exists_part c text with ⟨rest, part, shorter⟩ | broken
            · obtain ⟨next, unquoted', same⟩ := splitFrom_part part scan unquoted
              obtain ⟨found, reached, broken⟩ :=
                ih rest.length (by simp [← size]; omega) rest next unquoted' (same.mp failed) rfl
              exact ⟨found, .head part reached, broken⟩
            · exact ⟨c :: text, .refl, broken⟩
  · rintro ⟨found, reached, broken⟩
    induction reached using ReflTransGen.head_induction_on generalizing scan with
    | refl => exact splitFrom_broken broken scan unquoted
    | head part _ ih =>
        obtain ⟨next, unquoted', same⟩ := splitFrom_part part scan unquoted
        exact same.mpr (ih next unquoted')

/-! ## Lines that are split -/

theorem part_unique {text rest rest' : Text} (part : Part text rest) (part' : Part text rest') : rest = rest' := by
  have apart (c : UInt8) (bare : isPlain c = true ∨ c = byte ' ') :
      (∀ double, c ≠ quoteByte double) ∧ c ≠ byte '{' := by
    rcases bare with plain | rfl
    · simp only [isPlain, Bool.and_eq_true, decide_eq_true_eq] at plain
      obtain ⟨⟨⟨_, double⟩, single⟩, opening⟩ := plain
      refine ⟨?_, opening⟩
      intro quote
      cases quote
      · exact single
      · exact double
    · exact ⟨fun double => (quote_ne_blank double).symm, by decide⟩
  have braces (double : Bool) : quoteByte double ≠ byte '{' := by cases double <;> decide
  generalize same : text = text' at part'
  cases part with
  | byte c rest bare =>
      obtain ⟨quotes, opening⟩ := apart c bare
      cases part' with
      | byte c' rest' => exact (List.cons.inj same).2
      | quoted double => exact absurd (List.cons.inj same).1 (quotes double)
      | braced => exact absurd (List.cons.inj same).1 opening
  | quoted double text contents rest part follows =>
      cases part' with
      | byte c' rest' bare => exact absurd (List.cons.inj same).1.symm ((apart c' bare).1 double)
      | quoted double' text' contents' rest' part' follows' =>
          obtain ⟨quote, rfl⟩ := List.cons.inj same
          obtain rfl : double = double' := by
            revert quote
            cases double <;> cases double' <;> decide
          exact (part.unique double contents' rest' part').2
      | braced => exact absurd (List.cons.inj same).1 (braces double)
  | braced text contents rest group =>
      cases part' with
      | byte c' rest' bare => exact absurd (List.cons.inj same).1.symm (apart c' bare).2
      | quoted double => exact absurd (List.cons.inj same).1.symm (braces double)
      | braced text' contents' rest' group' =>
          obtain rfl := (List.cons.inj same).2
          exact (group.unique contents' rest' group').2

theorem whiteAfterQuote_of_part {text rest : Text} (part : Part text rest)
    (own : ∀ double inner contents, text = quoteByte double :: inner → Quoted double inner contents rest → Ends rest) :
    WhiteAfterQuote text ↔ WhiteAfterQuote rest := by
  constructor
  · intro ⟨double, inner, contents, c, behind, reached, quoted, space, other⟩
    rcases reached.cases_head with rfl | ⟨middle, first, reached⟩
    · obtain rfl :=
        part_unique part (.quoted double inner contents (c :: behind) quoted (by simpa [Follows] using space))
      exact absurd (own double inner contents rfl quoted) other
    · obtain rfl := part_unique part first
      exact ⟨double, inner, contents, c, behind, reached, quoted, space, other⟩
  · intro ⟨double, inner, contents, c, behind, reached, quoted, space, other⟩
    exact ⟨double, inner, contents, c, behind, .head part reached, quoted, space, other⟩

theorem fails_of_part {text rest : Text} (part : Part text rest) : Fails text ↔ Fails rest := by
  obtain ⟨next, unquoted, same⟩ := splitFrom_part part .blank rfl
  rw [← splitFrom_eq_none_iff text .blank rfl, same, splitFrom_eq_none_iff rest next unquoted]

theorem not_fails_nil : ¬ Fails [] := by
  rw [← splitFrom_eq_none_iff [] .blank rfl]
  simp [atEnd]

theorem Token.fails_iff {text token rest : Text} (first : Token text token rest) : Fails text ↔ Fails rest := by
  induction first with
  | stop => rfl
  | plain c text token rest plain more ih => exact (fails_of_part (.byte c text (Or.inl plain))).trans ih
  | quoted double text contents middle token rest part follows more ih =>
      exact (fails_of_part (.quoted double text contents middle part follows)).trans ih
  | braced text contents rest group => exact fails_of_part (.braced text contents rest group)

theorem Tokens.not_fails {text : Text} {tokens : List Text} (line : Tokens text tokens) : ¬ Fails text := by
  induction line with
  | nil => exact not_fails_nil
  | blank text tokens more ih => rwa [fails_of_part (.byte _ text (Or.inr rfl))]
  | token c text token rest tokens start first more ih => rwa [first.fails_iff]

-- The splitter takes the token in front of it, or parts it at a closing quote.
theorem Token.split {text token rest : Text} (first : Token text token rest) (current : Text) (tokens : List Text)
    (split : splitFrom (.plain current) 0 text = some tokens) :
    ∃ others, splitFrom .blank 0 rest = some others ∧
      (tokens = (current ++ token) :: others ∧ (WhiteAfterQuote text ↔ WhiteAfterQuote rest) ∨
        WhiteAfterQuote text ∧ others.length + 1 < tokens.length) := by
  induction first generalizing current tokens with
  | stop rest ends =>
      rw [splitFrom_blank_of_ends rest ends, Option.map_eq_some_iff] at split
      obtain ⟨others, split, rfl⟩ := split
      exact ⟨others, split, Or.inl ⟨by rw [List.append_nil], Iff.rfl⟩⟩
  | plain c text token rest plain more ih =>
      have notBlank : c ≠ byte ' ' := by
        rintro rfl
        cases plain
      rw [splitFrom_unquoted _ rfl c text notBlank, enter_plain _ c plain] at split
      have white : WhiteAfterQuote (c :: text) ↔ WhiteAfterQuote text := by
        apply whiteAfterQuote_of_part (.byte c text (Or.inl plain))
        intro double inner contents same part
        obtain ⟨_, rfl⟩ := List.cons.inj same
        exact absurd (part.shorter double) (Nat.lt_irrefl _)
      rw [white]
      simpa [Scan.pending] using ih _ tokens split
  | quoted double text contents middle token rest part follows more ih =>
      rw [splitFrom_unquoted _ rfl _ text (quote_ne_blank double), enter_quote, splitFrom_follows double part follows,
        Option.map_eq_some_iff] at split
      obtain ⟨later, split, rfl⟩ := split
      by_cases ends : Ends middle
      · have white : WhiteAfterQuote (quoteByte double :: text) ↔ WhiteAfterQuote middle := by
          apply whiteAfterQuote_of_part (.quoted double text contents middle part follows)
          intro _ _ _ _ _
          exact ends
        have whole : splitFrom (.plain (current ++ contents)) 0 middle = some ((current ++ contents) :: later) := by
          rw [splitFrom_blank_of_ends middle ends, split]
          rfl
        rw [white]
        simpa [Scan.pending] using ih _ _ whole
      · -- The token goes on, but the splitter begins another one.
        obtain ⟨c, behind, rfl⟩ : ∃ c behind, middle = c :: behind := by
          cases middle with
          | nil => exact absurd trivial ends
          | cons c behind => exact ⟨c, behind, rfl⟩
        have white : WhiteAfterQuote (quoteByte double :: text) :=
          ⟨double, text, contents, c, behind, .refl, part, follows c rfl, ends⟩
        rw [splitFrom_unquoted .blank rfl c behind ends] at split
        have whole : splitFrom (.plain []) 0 (c :: behind) = some later := by
          rw [splitFrom_unquoted (.plain []) rfl c behind ends]
          exact split
        obtain ⟨others, rest', found⟩ := ih [] later whole
        refine ⟨others, rest', Or.inr ⟨white, ?_⟩⟩
        rcases found with ⟨rfl, _⟩ | ⟨_, more⟩
        · simp
        · rw [List.length_cons]
          omega
  | braced text contents rest group =>
      rw [splitFrom_unquoted _ rfl _ text brace_ne_blank, enter_brace, splitFrom_braced group, if_pos rfl,
        Option.map_eq_some_iff] at split
      obtain ⟨others, split, rfl⟩ := split
      have white : WhiteAfterQuote (byte '{' :: text) ↔ WhiteAfterQuote rest := by
        apply whiteAfterQuote_of_part (.braced text contents rest group)
        intro double _ _ same _
        have quote := (List.cons.inj same).1
        cases double <;> exact absurd quote (by decide)
      exact ⟨others, split, Or.inl ⟨by simp [Scan.pending], white⟩⟩

theorem Tokens.split {text : Text} {tokens : List Text} (line : Tokens text tokens) (found : List Text)
    (split : splitFrom .blank 0 text = some found) :
    found = tokens ∧ ¬ WhiteAfterQuote text ∨ WhiteAfterQuote text ∧ tokens.length < found.length := by
  induction line generalizing found with
  | nil =>
      refine Or.inl ⟨by simpa [atEnd] using split.symm, ?_⟩
      rintro ⟨double, inner, contents, c, rest, reached, _⟩
      rcases reached.cases_head with same | ⟨middle, part, _⟩
      · cases same
      · cases part
  | blank text tokens more ih =>
      have white : WhiteAfterQuote (byte ' ' :: text) ↔ WhiteAfterQuote text := by
        apply whiteAfterQuote_of_part (.byte _ text (Or.inr rfl))
        intro double _ _ same _
        exact absurd (List.cons.inj same).1.symm (quote_ne_blank double)
      rw [splitFrom_blank_space] at split
      rw [white]
      exact ih found split
  | token c text token rest tokens start first more ih =>
      have whole : splitFrom (.plain []) 0 (c :: text) = some found := by
        rw [splitFrom_unquoted (.plain []) rfl c text start]
        rw [splitFrom_unquoted .blank rfl c text start] at split
        exact split
      obtain ⟨others, later, found'⟩ := first.split [] found whole
      rcases found' with ⟨rfl, white⟩ | ⟨white, longer⟩
      · rw [white]
        rcases ih others later with ⟨rfl, clean⟩ | ⟨white, longer⟩
        · exact Or.inl ⟨rfl, clean⟩
        · exact Or.inr ⟨white, by simpa using longer⟩
      · refine Or.inr ⟨white, ?_⟩
        rcases ih others later with ⟨rfl, _⟩ | ⟨_, more⟩
        · simpa using longer
        · rw [List.length_cons]
          omega

theorem Token.shorter {text token rest : Text} (first : Token text token rest) : rest.length ≤ text.length := by
  induction first with
  | stop => exact Nat.le_refl _
  | plain c text token rest plain more ih =>
      rw [List.length_cons]
      omega
  | quoted double text contents middle token rest part follows more ih =>
      have := part.shorter double
      rw [List.length_cons]
      omega
  | braced text contents rest group =>
      have := group.shorter
      rw [List.length_cons]
      omega

theorem exists_token (text : Text) (whole : ¬ Fails text) : ∃ token rest, Token text token rest := by
  induction size : text.length using Nat.strong_induction_on generalizing text with
  | _ size ih =>
      cases text with
      | nil => exact ⟨[], [], .stop [] trivial⟩
      | cons c text =>
          by_cases blank : c = byte ' '
          · exact ⟨[], c :: text, .stop _ blank⟩
          rcases exists_part c text with ⟨rest, part, shorter⟩ | broken
          · rw [fails_of_part part] at whole
            obtain ⟨token, behind, more⟩ := ih rest.length (by simp [← size]; omega) rest whole rfl
            cases part with
            | byte _ _ bare => exact ⟨_, behind, .plain _ _ token behind (bare.resolve_right blank) more⟩
            | quoted double text contents _ part follows =>
                exact ⟨_, behind, .quoted double text contents _ token behind part follows more⟩
            | braced _ _ _ group => exact ⟨_, _, .braced _ _ _ group⟩
          · exact absurd ⟨c :: text, .refl, broken⟩ whole

theorem exists_tokens (text : Text) (whole : ¬ Fails text) : ∃ tokens, Tokens text tokens := by
  induction size : text.length using Nat.strong_induction_on generalizing text with
  | _ size ih =>
      cases text with
      | nil => exact ⟨[], .nil⟩
      | cons c text =>
          by_cases blank : c = byte ' '
          · subst blank
            rw [fails_of_part (.byte _ text (Or.inr rfl))] at whole
            obtain ⟨tokens, more⟩ := ih text.length (by simp [← size]) text whole rfl
            exact ⟨tokens, .blank text tokens more⟩
          obtain ⟨token, rest, first⟩ := exists_token (c :: text) whole
          have shorter : rest.length ≤ text.length := by
            cases first with
            | stop _ ends => exact absurd ends blank
            | plain _ _ _ _ _ more => exact more.shorter
            | quoted double _ _ middle _ _ part _ more => exact more.shorter.trans (part.shorter double).le
            | braced _ _ _ group => exact group.shorter.le
          rw [first.fails_iff] at whole
          obtain ⟨tokens, more⟩ := ih rest.length (by simp [← size]; omega) rest whole rfl
          exact ⟨token :: tokens, .token c text token rest tokens blank first more⟩

/-- The splitter follows the grammar exactly on the lines that are broken and on those where a closing
quote has no white space behind it but a blank. -/
theorem splitsByGrammar_iff (line : Text) :
    SplitsByGrammar line ↔ Fails (cString line) ∨ ¬ WhiteAfterQuote (cString line) := by
  have failing : sdssplitargslong line = none ↔ Fails (cString line) := splitFrom_eq_none_iff _ .blank rfl
  constructor
  · intro ⟨_, same⟩
    by_cases fails : Fails (cString line)
    · exact Or.inl fails
    obtain ⟨found, split⟩ := Option.ne_none_iff_exists'.mp (mt failing.mp fails)
    rcases ((same found).mp split).split found split with ⟨_, clean⟩ | ⟨_, longer⟩
    · exact Or.inr clean
    · exact absurd longer (Nat.lt_irrefl _)
  · intro kind
    refine ⟨failing, ?_⟩
    intro tokens
    by_cases fails : Fails (cString line)
    · rw [failing.mpr fails]
      exact ⟨nofun, fun tokensOf => absurd fails tokensOf.not_fails⟩
    have clean := kind.resolve_left fails
    obtain ⟨found, split⟩ := Option.ne_none_iff_exists'.mp (mt failing.mp fails)
    constructor
    · intro split
      obtain ⟨read, tokensOf⟩ := exists_tokens _ fails
      rcases tokensOf.split tokens split with ⟨rfl, _⟩ | ⟨white, _⟩
      · exact tokensOf
      · exact absurd white clean
    · intro tokensOf
      rcases tokensOf.split found split with ⟨rfl, _⟩ | ⟨white, _⟩
      · exact split
      · exact absurd white clean

/-- A quoted word, a tab and a letter: one token, which is returned as two. -/
theorem tab_parts_token : ¬ SplitsByGrammar (ascii "\"a\"\tb") := by
  intro ⟨_, same⟩
  have split : splitFrom .blank 0 (ascii "\"a\"\tb") = some [ascii "a", ascii "\tb"] := by decide
  have part : Quoted true (ascii "a\"\tb") (ascii "a") (ascii "\tb") :=
    .char _ _ _ _ (by decide) (by decide) (.close _)
  have white : WhiteAfterQuote (ascii "\"a\"\tb") := ⟨true, _, _, _, _, .refl, part, by decide, by decide⟩
  rcases ((same _).mp split).split _ split with ⟨_, clean⟩ | ⟨_, longer⟩
  · exact clean white
  · exact absurd longer (Nat.lt_irrefl _)

end FastoNoSQL.Sds
