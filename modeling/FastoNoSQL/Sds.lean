import Mathlib.Data.List.TakeWhile
import Mathlib.Tactic.Common
import FastoNoSQL.Bytes.Decimal

set_option autoImplicit false

/-!
# `sdssplitargslong`

The argument splitter of `third-party/sds/sds.c` (`FASTO` build). The two nested
loops of the source walk one pointer over the line; here `splitFrom` walks the
same bytes, and `step` is the body of the inner loop.
-/

namespace FastoNoSQL.Sds

open Bytes

/-- `current` with the flags `inq`, `insq` and `inj`; `blank` is between two tokens. -/
inductive Scan where
  | blank
  | plain (current : Text)
  | inq (current : Text)
  | insq (current : Text)
  | inj (depth : Nat) (current : Text)

inductive Step where
  | next (scan : Scan) (skip : Nat)
  | token (current : Text)
  | err

def isHexDigit (c : UInt8) : Bool :=
  (byte '0' ≤ c && c ≤ byte '9') || (byte 'a' ≤ c && c ≤ byte 'f') ||
    (byte 'A' ≤ c && c ≤ byte 'F')

def hexDigitToInt (c : UInt8) : UInt8 :=
  if byte '0' ≤ c ∧ c ≤ byte '9' then c - byte '0'
  else if byte 'a' ≤ c ∧ c ≤ byte 'f' then c - byte 'a' + 10
  else if byte 'A' ≤ c ∧ c ≤ byte 'F' then c - byte 'A' + 10
  else 0

-- The byte of `\xHH` at the pointer: `c` is under it and `rest` follows.
def hexEscape (c : UInt8) : Text → Option UInt8
  | x :: high :: low :: _ =>
    if c = byte '\\' ∧ x = byte 'x' ∧ isHexDigit high ∧ isHexDigit low then
      some (hexDigitToInt high * 16 + hexDigitToInt low)
    else none
  | _ => none

def escaped (c : UInt8) (quote : Char) (rest : Text) : Bool :=
  c = byte '\\' && rest.head? = some (byte quote)

-- A closing quote must be followed by a space or nothing at all.
def closes (current rest : Text) : Step :=
  match rest with
  | [] => .token current
  | c :: _ => if isspace c then .token current else .err

-- The `switch` of the unquoted state, after the blank and the end are handled.
def enter (current : Text) (c : UInt8) : Scan :=
  if c = byte '"' then .inq current
  else if c = byte '\'' then .insq current
  else if c = byte '{' then .inj 1 (current ++ [c])
  else .plain (current ++ [c])

def step : Scan → UInt8 → Text → Step
  | .blank, c, _ => if c = byte ' ' then .next .blank 0 else .next (enter [] c) 0
  | .plain current, c, _ => if c = byte ' ' then .token current else .next (enter current c) 0
  | .inq current, c, rest =>
    match hexEscape c rest with
    | some b => .next (.inq (current ++ [b])) 3
    | none => if c = byte '"' then closes current rest else .next (.inq (current ++ [c])) 0
  | .insq current, c, rest =>
    if escaped c '\'' rest then .next (.insq (current ++ [byte '\''])) 1
    else if c = byte '\'' then closes current rest
    else .next (.insq (current ++ [c])) 0
  | .inj depth current, c, rest =>
    if escaped c '}' rest then .next (.inj depth (current ++ [byte '}'])) 1
    else if c = byte '{' then .next (.inj (depth + 1) (current ++ [c])) 0
    else if c = byte '}' then
      if depth = 1 then .token (current ++ [c]) else .next (.inj (depth - 1) (current ++ [c])) 0
    else .next (.inj depth (current ++ [c])) 0

-- Unterminated quotes or JSON at the end of the line are an error.
def atEnd : Scan → Option (List Text)
  | .blank => some []
  | .plain current => some [current]
  | .inq _ | .insq _ | .inj _ _ => none

-- `skip` counts the bytes the pointer still has to pass after an escape.
def splitFrom (scan : Scan) (skip : Nat) : Text → Option (List Text)
  | [] => atEnd scan
  | c :: rest =>
    match skip with
    | skip + 1 => splitFrom scan skip rest
    | 0 =>
      match step scan c rest with
      | .next scan skip => splitFrom scan skip rest
      | .token current => (splitFrom .blank 0 rest).map (current :: ·)
      | .err => none

def sdssplitargslong (line : Text) : Option (List Text) := splitFrom .blank 0 (cString line)

example : sdssplitargslong (ascii "-d \n 'it''s'") = none := by decide
example : sdssplitargslong (ascii "a\"b\\x41 \" \x7bx y\x7dc") =
    some [ascii "abA ", ascii "\x7bx y\x7d", ascii "c"] := by decide

@[simp] theorem splitFrom_nil (scan : Scan) (skip : Nat) : splitFrom scan skip [] = atEnd scan := rfl

@[simp] theorem splitFrom_skip (scan : Scan) (skip : Nat) (c : UInt8) (rest : Text) :
    splitFrom scan (skip + 1) (c :: rest) = splitFrom scan skip rest := rfl

theorem splitFrom_cons (scan : Scan) (c : UInt8) (rest : Text) :
    splitFrom scan 0 (c :: rest) =
      match step scan c rest with
      | .next scan skip => splitFrom scan skip rest
      | .token current => (splitFrom .blank 0 rest).map (current :: ·)
      | .err => none := rfl

@[simp] theorem splitFrom_blank_space (rest : Text) :
    splitFrom .blank 0 (byte ' ' :: rest) = splitFrom .blank 0 rest := by
  simp [splitFrom_cons, step]

@[simp] theorem splitFrom_plain_space (current rest : Text) :
    splitFrom (.plain current) 0 (byte ' ' :: rest) =
      (splitFrom .blank 0 rest).map (current :: ·) := by
  simp [splitFrom_cons, step]

/-- `text` closes `depth` open braces exactly at its end, with no `\\}` and no byte that ends or
quotes a token outside the braces. -/
def bareFrom : Nat → Text → Bool
  | 0, [] => true
  | 0, c :: rest =>
    c ≠ byte ' ' && c ≠ byte '"' && c ≠ byte '\'' &&
      if c = byte '{' then bareFrom 1 rest else bareFrom 0 rest
  | _ + 1, [] => false
  | depth + 1, c :: rest =>
    if escaped c '}' rest then false
    else if c = byte '{' then bareFrom (depth + 2) rest
    else if c = byte '}' then if depth = 0 then rest.isEmpty else bareFrom depth rest
    else bareFrom (depth + 1) rest

-- The texts that the splitter takes from an unquoted position as one argument, unchanged.
def isBare (text : Text) : Bool := text ≠ [] && bareFrom 0 text

-- What may stand after a token: the end of the line or a blank.
def Ends : Text → Prop
  | [] => True
  | c :: _ => c = byte ' '

theorem escaped_append_of_ends (c : UInt8) (quote : Char) (rest tail : Text) (ends : Ends tail)
    (other : byte quote ≠ byte ' ') : escaped c quote (rest ++ tail) = escaped c quote rest := by
  cases rest with
  | cons => rfl
  | nil =>
      cases tail with
      | nil => rfl
      | cons d tail =>
          obtain rfl : d = byte ' ' := ends
          simp [escaped, Ne.symm other]

theorem splitFrom_blank_of_ends (tail : Text) (ends : Ends tail) (current : Text) :
    splitFrom (.plain current) 0 tail = (splitFrom .blank 0 tail).map (current :: ·) := by
  cases tail with
  | nil => rfl
  | cons c tail =>
      obtain rfl : c = byte ' ' := ends
      simp

theorem splitFrom_braces (depth : Nat) (text current tail : Text) (ends : Ends tail)
    (bare : bareFrom (depth + 1) text = true) :
    splitFrom (.inj (depth + 1) current) 0 (text ++ tail) =
      (splitFrom .blank 0 tail).map ((current ++ text) :: ·) := by
  induction text generalizing depth current with
  | nil => simp [bareFrom] at bare
  | cons c text ih =>
      rw [List.cons_append, splitFrom_cons]
      simp only [step, escaped_append_of_ends c '}' text tail ends (by decide)]
      simp only [bareFrom] at bare
      by_cases isEscaped : escaped c '}' text = true
      · simp [isEscaped] at bare
      simp only [isEscaped, Bool.false_eq_true, if_false] at bare ⊢
      by_cases opening : c = byte '{'
      · simp only [opening, if_true] at bare ⊢
        simpa using ih (depth + 1) (current ++ [byte '{']) bare
      simp only [opening, if_false] at bare ⊢
      by_cases closing : c = byte '}'
      · simp only [closing, if_true] at bare ⊢
        cases depth with
        | zero =>
            obtain rfl : text = [] := by simpa using bare
            simp
        | succ depth => simpa using ih depth (current ++ [byte '}']) (by simpa using bare)
      · simp only [closing, if_false] at bare ⊢
        simpa using ih depth (current ++ [c]) bare

theorem splitFrom_plain_bare (text current tail : Text) (ends : Ends tail)
    (bare : bareFrom 0 text = true) :
    splitFrom (.plain current) 0 (text ++ tail) =
      (splitFrom .blank 0 tail).map ((current ++ text) :: ·) := by
  induction text generalizing current with
  | nil => simpa using splitFrom_blank_of_ends tail ends current
  | cons c text ih =>
      simp only [bareFrom, Bool.and_eq_true, ne_eq, decide_not, Bool.not_eq_eq_eq_not, Bool.not_true,
        decide_eq_false_iff_not] at bare
      obtain ⟨⟨⟨blank, double⟩, single⟩, inner⟩ := bare
      rw [List.cons_append, splitFrom_cons]
      simp only [step, blank, if_false, enter, double, single]
      by_cases opening : c = byte '{'
      · simp only [opening, if_true] at inner ⊢
        simpa using splitFrom_braces 0 text (current ++ [byte '{']) tail ends inner
      · simp only [opening, if_false] at inner ⊢
        simpa using ih (current ++ [c]) inner

theorem splitFrom_bare (text tail : Text) (ends : Ends tail) (bare : isBare text = true) :
    splitFrom .blank 0 (text ++ tail) = (splitFrom .blank 0 tail).map (text :: ·) := by
  cases text with
  | nil => simp [isBare] at bare
  | cons c text =>
      have whole : bareFrom 0 (c :: text) = true := by simpa [isBare] using bare
      have notBlank : c ≠ byte ' ' := by
        intro blank
        simp [bareFrom, blank] at whole
      -- Only a blank tells the blank state from an empty token.
      have start : splitFrom .blank 0 (c :: (text ++ tail)) =
          splitFrom (.plain []) 0 (c :: (text ++ tail)) := by
        simp [splitFrom_cons, step, notBlank]
      rw [List.cons_append, start, ← List.cons_append, splitFrom_plain_bare (c :: text) [] tail ends whole,
        List.nil_append]

theorem splitFrom_unwords (words : List Text) (bare : ∀ word ∈ words, isBare word = true) :
    splitFrom .blank 0 (unwords words) = some words := by
  induction words with
  | nil => rfl
  | cons first rest ih =>
      have tail := ih fun word member => bare word (List.mem_cons_of_mem _ member)
      cases rest with
      | nil => simpa [atEnd] using splitFrom_bare first [] trivial (bare first (by simp))
      | cons second rest =>
          have ends : Ends (byte ' ' :: unwords (second :: rest)) := rfl
          rw [unwords_cons_cons, splitFrom_bare first _ ends (bare first (by simp)),
            splitFrom_blank_space, tail]
          rfl

theorem sdssplitargslong_unwords (words : List Text) (bare : ∀ word ∈ words, isBare word = true)
    (clean : ∀ word ∈ words, (0 : UInt8) ∉ word) : sdssplitargslong (unwords words) = some words := by
  rw [sdssplitargslong, cString_eq_self _ ((nul_not_mem_unwords words).mpr clean)]
  exact splitFrom_unwords words bare

def isPlain (c : UInt8) : Bool :=
  c ≠ byte ' ' && c ≠ byte '"' && c ≠ byte '\'' && c ≠ byte '{'

theorem bareFrom_of_plain (text : Text) (plain : ∀ c ∈ text, isPlain c = true) :
    bareFrom 0 text = true := by
  induction text with
  | nil => rfl
  | cons c text ih =>
      have head := plain c (by simp)
      have tail := ih fun d member => plain d (List.mem_cons_of_mem _ member)
      simp only [isPlain, Bool.and_eq_true, ne_eq, decide_not, Bool.not_eq_eq_eq_not, Bool.not_true,
        decide_eq_false_iff_not] at head
      simp [bareFrom, head, tail]

theorem isBare_of_plain (text : Text) (nonempty : text ≠ []) (plain : ∀ c ∈ text, isPlain c = true) :
    isBare text = true := by
  simp [isBare, nonempty, bareFrom_of_plain text plain]

-- The words that need no quoting in a command line.
def isWord (text : Text) : Bool := text ≠ [] && text.all fun c => isPlain c && c ≠ 0

theorem isBare_of_isWord (text : Text) (word : isWord text = true) : isBare text = true ∧ (0 : UInt8) ∉ text := by
  simp only [isWord, Bool.and_eq_true, List.all_eq_true, decide_eq_true_eq] at word
  obtain ⟨nonempty, bytes⟩ := word
  exact ⟨isBare_of_plain text nonempty fun c member => (bytes c member).1,
    fun nul => (bytes 0 nul).2 rfl⟩

theorem sdssplitargslong_words (words : List Text) (all : ∀ word ∈ words, isWord word = true) :
    sdssplitargslong (unwords words) = some words :=
  sdssplitargslong_unwords words (fun word member => (isBare_of_isWord word (all word member)).1)
    fun word member => (isBare_of_isWord word (all word member)).2

theorem isWord_intText (i : Int) : isWord (intText i) = true := by
  have bytes (c : UInt8) (member : c ∈ intText i) : isPlain c = true ∧ c ≠ 0 := by
    have ne (d : UInt8) (other : (isDigit d || d = byte '-') = false) : c ≠ d := by
      rintro rfl
      rcases mem_intText i c member with digit | minus
      · simp [digit] at other
      · simp [minus] at other
    simp [isPlain, ne (byte ' ') (by decide), ne (byte '"') (by decide), ne (byte '\'') (by decide),
      ne (byte '{') (by decide), ne 0 (by decide)]
  simp only [isWord, Bool.and_eq_true, List.all_eq_true, decide_eq_true_eq]
  exact ⟨intText_ne_nil i, bytes⟩

theorem isWord_natText (n : Nat) : isWord (natText n) = true := by
  have word := isWord_intText n
  rwa [intText, if_neg (by omega), Int.natAbs_natCast] at word

end FastoNoSQL.Sds
