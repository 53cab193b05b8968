import FastoNoSQL.Sds.Inversion

set_option autoImplicit false

/-!
# Words behind any text

A line of a text and some words: unless the text leaves a quote or a brace open,
it is split as it would be alone, and the words follow it.
-/

namespace FastoNoSQL.Sds

open Bytes

def isQuiet (c : UInt8) : Bool :=
  c ≠ byte '"' && c ≠ byte '\'' && c ≠ byte '{' && c ≠ byte '}' && c ≠ byte '\\'

-- A word without braces and backslashes.
def isSimpleWord (text : Text) : Bool := isWord text && text.all isQuiet

theorem hexEscape_append_of_ends (c : UInt8) (text tail : Text) (ends : Ends tail) :
    hexEscape c (text ++ tail) = hexEscape c text := by
  have notHex : isHexDigit (byte ' ') = false := by decide
  have notX : byte ' ' ≠ byte 'x' := by decide
  cases tail with
  | nil => rw [List.append_nil]
  | cons d tail =>
      obtain rfl : d = byte ' ' := ends
      match text with
      | [] => cases tail with
        | nil => rfl
        | cons e tail => cases tail <;> simp [hexEscape, notX]
      | [x] => cases tail <;> simp [hexEscape, notHex]
      | [x, high] => simp [hexEscape, notHex]
      | x :: high :: low :: rest => rfl

theorem closes_append_of_ends (current text tail : Text) (ends : Ends tail) :
    closes current (text ++ tail) = closes current text := by
  cases text with
  | cons => rfl
  | nil =>
      cases tail with
      | nil => rfl
      | cons d tail =>
          obtain rfl : d = byte ' ' := ends
          have space : isspace (byte ' ') = true := by decide
          simp [closes, space]

theorem step_append_of_ends (scan : Scan) (c : UInt8) (text tail : Text) (ends : Ends tail) :
    step scan c (text ++ tail) = step scan c text := by
  cases scan with
  | blank | plain => rfl
  | inq current => simp only [step, hexEscape_append_of_ends c text tail ends, closes_append_of_ends _ text tail ends]
  | insq current =>
      simp only [step, escaped_append_of_ends c '\'' text tail ends (by decide),
        closes_append_of_ends _ text tail ends]
  | inj depth current => simp only [step, escaped_append_of_ends c '}' text tail ends (by decide)]

def Scan.isOpen : Scan → Bool
  | .inq _ | .insq _ | .inj _ _ => true
  | _ => false

theorem splitFrom_open (tail : Text) (scan : Scan) (isOpen : scan.isOpen = true)
    (quiet : ∀ c ∈ tail, isQuiet c = true) : splitFrom scan 0 tail = none := by
  induction tail generalizing scan with
  | nil => cases scan <;> first | rfl | cases isOpen
  | cons c tail ih =>
      rw [List.forall_mem_cons] at quiet
      have kept : ∃ next, step scan c tail = .next next 0 ∧ next.isOpen = true := by
        have bytes := quiet.1
        simp only [isQuiet, Bool.and_eq_true, decide_eq_true_eq] at bytes
        obtain ⟨⟨⟨⟨double, single⟩, opening⟩, closing⟩, slash⟩ := bytes
        have plain : hexEscape c tail = none ∧ ∀ quote, escaped c quote tail = false := by
          constructor
          · unfold hexEscape
            split <;> simp [slash]
          · intro quote
            simp [escaped, slash]
        cases scan with
        | blank | plain => cases isOpen
        | inq current => exact ⟨.inq (current ++ [c]), by simp [step, plain.1, double], rfl⟩
        | insq current => exact ⟨.insq (current ++ [c]), by simp [step, plain.2, single], rfl⟩
        | inj depth current =>
            exact ⟨.inj depth (current ++ [c]), by simp [step, plain.2, opening, closing], rfl⟩
      obtain ⟨next, action, isOpen⟩ := kept
      rw [splitFrom_cons, action]
      exact ih next isOpen quiet.2

theorem splitFrom_append (text tail : Text) (scan : Scan) (skip : Nat) (inside : skip ≤ text.length) (ends : Ends tail)
    (quiet : ∀ c ∈ tail, isQuiet c = true) :
    splitFrom scan skip (text ++ tail) =
      (splitFrom scan skip text).bind fun words => (splitFrom .blank 0 tail).map (words ++ ·) := by
  induction text generalizing scan skip with
  | nil =>
      obtain rfl : skip = 0 := Nat.le_zero.mp inside
      rw [List.nil_append, splitFrom_nil]
      cases scan with
      | blank => simp [atEnd]
      | plain current =>
          rw [splitFrom_blank_of_ends tail ends]
          rfl
      | inq | insq | inj =>
          rw [splitFrom_open tail _ rfl quiet]
          rfl
  | cons c text ih =>
      cases skip with
      | succ skip => exact ih scan skip (Nat.le_of_succ_le_succ inside)
      | zero =>
          have fits := step_fits scan c text
          rw [List.cons_append, splitFrom_cons, splitFrom_cons, step_append_of_ends scan c text tail ends]
          cases action : step scan c text with
          | err => rfl
          | token token =>
              simp only [ih .blank 0 (Nat.zero_le _)]
              cases splitFrom .blank 0 text with
              | none => rfl
              | some words => cases splitFrom .blank 0 tail <;> rfl
          | next next skip =>
              rw [action] at fits
              exact ih next skip fits.2.2.1

theorem sdssplitargslong_word (word line : Text) (isWord' : isWord word = true) :
    sdssplitargslong (word ++ byte ' ' :: line) = (sdssplitargslong line).map (word :: ·) := by
  obtain ⟨bare, clean⟩ := isBare_of_isWord word isWord'
  have space : byte ' ' ≠ 0 := by decide
  have cut : cString (word ++ byte ' ' :: line) = word ++ byte ' ' :: cString line := by
    rw [cString_append_of_clean word _ clean]
    simp [cString, space]
  have ends : Ends (byte ' ' :: cString line) := rfl
  rw [sdssplitargslong, cut, splitFrom_bare word _ ends bare, splitFrom_blank_space]
  rfl

theorem clean_of_split_first (text tail : Text) (tokens : List Text)
    (split : sdssplitargslong (text ++ tail) = some (text :: tokens)) : (0 : UInt8) ∉ text := by
  intro nul
  rw [sdssplitargslong, cString_append_of_nul text _ nul] at split
  have read := total_le _ .blank 0 _ (Nat.zero_le _) split
  have cut : (cString text).length < text.length := by
    refine lt_of_le_of_ne (List.takeWhile_prefix _).length_le fun same => ?_
    exact (cString_eq_iff text).mp ((List.takeWhile_prefix _).eq_of_length same) nul
  simp only [Scan.debt, Scan.pending, List.length_nil, total_cons] at read
  omega

-- A text in front of some words that becomes the first argument of the line is bare.
theorem bare_of_split_words (text : Text) (words tokens : List Text) (more : words ≠ [])
    (all : ∀ word ∈ words, isSimpleWord word = true)
    (split : sdssplitargslong (text ++ byte ' ' :: unwords words) = some (text :: tokens)) :
    isBare text = true ∧ (0 : UInt8) ∉ text := by
  have clean := clean_of_split_first text _ tokens split
  have isWords : ∀ word ∈ words, isWord word = true := by
    intro word member
    exact (Bool.and_eq_true _ _ ▸ all word member).1
  have cleanWords : (0 : UInt8) ∉ byte ' ' :: unwords words := by
    have space : (0 : UInt8) ≠ byte ' ' := by decide
    simp only [List.mem_cons, space, false_or, nul_not_mem_unwords]
    exact fun word member => (isBare_of_isWord word (isWords word member)).2
  have quiet : ∀ c ∈ byte ' ' :: unwords words, isQuiet c = true := by
    intro c member
    by_cases space : c = byte ' '
    · rw [space]
      decide
    · have inWord := (List.mem_cons.mp member).resolve_left space
      obtain ⟨word, listed, found⟩ := (mem_unwords words c space).mp inWord
      exact List.all_eq_true.mp (Bool.and_eq_true _ _ ▸ all word listed).2 c found
  have bareWords : ∀ word ∈ words, isBare word = true :=
    fun word member => (isBare_of_isWord word (isWords word member)).1
  have ends : Ends (byte ' ' :: unwords words) := rfl
  rw [sdssplitargslong, cString_append_of_clean text _ clean, cString_eq_self _ cleanWords,
    splitFrom_append text _ .blank 0 (Nat.zero_le _) ends quiet, splitFrom_blank_space,
    splitFrom_unwords words bareWords] at split
  simp only [Option.map_some] at split
  obtain ⟨own, alone, joined⟩ := Option.bind_eq_some_iff.mp split
  refine ⟨?_, clean⟩
  cases own with
  | nil =>
      -- The first argument is then one of the words.
      obtain ⟨first, rest, rfl⟩ := List.exists_cons_of_ne_nil more
      have same : first = text := (List.cons.inj (Option.some.inj joined)).1
      exact same ▸ bareWords first List.mem_cons_self
  | cons first own =>
      have same : first = text := (List.cons.inj (Option.some.inj joined)).1
      rw [same] at alone
      exact bare_of_split_first text own alone

/-! ## White space at the end of a line -/

theorem isQuiet_of_isspace (c : UInt8) (white : isspace c = true) : isQuiet c = true := by
  have other (d : Char) (not : isspace (byte d) = false) : c ≠ byte d := by
    intro same
    rw [same, not] at white
    cases white
  simp [isQuiet, other '"' (by decide), other '\'' (by decide), other '{' (by decide), other '}' (by decide),
    other '\\' (by decide)]

-- Only an escape inside a token makes the pointer skip bytes.
theorem step_next_open (scan next : Scan) (skip : Nat) (c : UInt8) (rest : Text)
    (action : step scan c rest = .next next skip) : skip = 0 ∨ next.isOpen = true := by
  have quoted (double : Bool) (current : Text) (action : step (.quoted double current) c rest = .next next skip) :
      next.isOpen = true := by
    rcases step_quoted double current rest c with err | ⟨token, -, -⟩ | ⟨b, skip', other, -⟩
    · rw [err] at action
      cases action
    · rw [token] at action
      cases action
    · rw [other] at action
      cases action
      cases double <;> rfl
  cases scan with
  | blank =>
      rw [step] at action
      split at action <;> cases action <;> exact Or.inl rfl
  | plain current =>
      rw [step] at action
      split at action
      · cases action
      · cases action
        exact Or.inl rfl
  | inq current => exact Or.inr (quoted true current action)
  | insq current => exact Or.inr (quoted false current action)
  | inj depth current =>
      rw [step] at action
      split_ifs at action <;> cases action <;> exact Or.inr rfl

-- White space that is no blank stays at the end of the last token.
theorem last_kept (text : Text) (c : UInt8) (white : isspace c = true) (other : c ≠ byte ' ') (scan : Scan) (skip : Nat)
    (tokens : List Text) (inside : skip = 0 ∨ scan.isOpen = true)
    (split : splitFrom scan skip (text ++ [c]) = some tokens) :
    ∃ token, tokens.getLast? = some token ∧ token.getLast? = some c := by
  have quiet := isQuiet_of_isspace c white
  induction text generalizing scan skip tokens with
  | nil =>
      rw [List.nil_append] at split
      by_cases isOpen : scan.isOpen = true
      · cases skip with
        | zero =>
            rw [splitFrom_open [c] scan isOpen (by simpa using quiet)] at split
            cases split
        | succ skip =>
            rw [splitFrom_skip, splitFrom_nil] at split
            cases scan with
            | blank | plain => cases isOpen
            | inq | insq | inj => cases split
      · obtain rfl := inside.resolve_right isOpen
        have plain : isPlain c = true := by
          simp only [isQuiet, Bool.and_eq_true, decide_eq_true_eq] at quiet
          simp [isPlain, other, quiet]
        have entered (current : Text) : enter current c = .plain (current ++ [c]) := by
          simp only [isPlain, Bool.and_eq_true, decide_eq_true_eq] at plain
          simp [enter, plain]
        cases scan with
        | blank =>
            simp only [splitFrom_cons, step, other, if_false, entered, splitFrom_nil, atEnd, Option.some.injEq] at split
            exact ⟨[c], by simp [← split], rfl⟩
        | plain current =>
            simp only [splitFrom_cons, step, other, if_false, entered, splitFrom_nil, atEnd, Option.some.injEq] at split
            exact ⟨current ++ [c], by simp [← split], by simp⟩
        | inq | insq | inj => exact absurd rfl isOpen
  | cons d text ih =>
      cases skip with
      | succ skip => exact ih scan skip tokens (Or.inr (inside.resolve_left (by simp))) split
      | zero =>
          rw [List.cons_append, splitFrom_cons] at split
          cases action : step scan d (text ++ [c]) with
          | err => simp [action] at split
          | token current =>
              simp only [action, Option.map_eq_some_iff] at split
              obtain ⟨rest, split, rfl⟩ := split
              obtain ⟨token, last, ends⟩ := ih .blank 0 rest (Or.inl rfl) split
              exact ⟨token, by simp [List.getLast?_cons, last], ends⟩
          | next next skip =>
              simp only [action] at split
              exact ih next skip tokens (step_next_open scan next skip d _ action) split

-- Only blanks are split into nothing.
theorem splitFrom_eq_nil_iff (text : Text) : splitFrom .blank 0 text = some [] ↔ ∀ c ∈ text, c = byte ' ' := by
  induction text with
  | nil => simp [atEnd]
  | cons c text ih =>
      rw [List.forall_mem_cons]
      by_cases blank : c = byte ' '
      · rw [blank, splitFrom_blank_space, ih]
        simp
      · refine iff_of_false ?_ fun all => blank all.1
        intro split
        simp only [splitFrom_cons, step, blank, if_false] at split
        obtain ⟨token, rest, same, _⟩ := pending_prefix text _ 0 _ (enter_grows [] c).1 split
        cases same

end FastoNoSQL.Sds
