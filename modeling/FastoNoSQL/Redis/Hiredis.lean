import FastoNoSQL.Common
import Mathlib.Tactic.Common

set_option autoImplicit false

/-!
# Formatting a command

`redisvFormatCommand` of the vendored hiredis: a `printf` pattern that is cut
into arguments at its blanks. The core gives it patterns with `%s` and `%d` and
texts without any argument; every other directive there is a format error or
reads an argument that was not passed, and has no result.
-/

namespace FastoNoSQL.Redis

open Bytes

-- `curarg` and `touched` of the source.
def formatFrom (current : Text) (touched : Bool) : Text → List Arg → Option (List Text)
  | [], _ => some (if touched then [current] else [])
  | c :: [], _ =>
    if c = byte ' ' then some (if touched then [current] else []) else some [current ++ [c]]
  | c :: d :: rest, args =>
    if c = byte '%' then
      if d = byte '%' then formatFrom (current ++ [byte '%']) true rest args
      else
        match args with
        | .s text :: args => if d = byte 's' then formatFrom (current ++ cString text) true rest args else none
        | .d i :: args => if d = byte 'd' then formatFrom (current ++ intText i) true rest args else none
        | [] => none
    else if c = byte ' ' then
      if touched then (formatFrom [] false (d :: rest) args).map (current :: ·)
      else formatFrom current false (d :: rest) args
    else formatFrom (current ++ [c]) true (d :: rest) args

-- The arguments `redisCommand` sends.
def redisFormatCommand (pattern : Text) (args : List Arg) : Option (List Text) :=
  formatFrom [] false (cString pattern) args

example : redisFormatCommand (ascii "SET %s %d") [.s (ascii "a b"), .d (-1)] =
    some [ascii "SET", ascii "a b", ascii "-1"] := by decide
example : redisFormatCommand (ascii "DEL a 100%%b") [] = some [ascii "DEL", ascii "a", ascii "100%b"] := by
  decide
example : redisFormatCommand (ascii "DEL %d") [] = none := by decide

/-! ## Texts without directives -/

section Plain

variable (current : Text) (touched : Bool)

-- One byte that is not `%`, wherever it stands.
theorem formatFrom_byte (c : UInt8) (rest : Text) (args : List Arg) (percent : c ≠ byte '%') (blank : c ≠ byte ' ') :
    formatFrom current touched (c :: rest) args = formatFrom (current ++ [c]) true rest args := by
  cases rest with
  | nil => simp [formatFrom, blank]
  | cons d rest => simp [formatFrom, percent, blank]

theorem formatFrom_blank (rest : Text) (args : List Arg) :
    formatFrom current touched (byte ' ' :: rest) args =
      if touched then (formatFrom [] false rest args).map (current :: ·) else formatFrom current false rest args := by
  have other : byte ' ' ≠ byte '%' := by decide
  cases rest with
  | nil => cases touched <;> simp [formatFrom]
  | cons d rest => simp [formatFrom, other]

-- A word that is copied as it is.
def isCopied (word : Text) : Bool := word.all fun c => c ≠ byte '%' && c ≠ byte ' '

theorem formatFrom_word (word rest : Text) (args : List Arg) (copied : isCopied word = true)
    (nonempty : word ≠ []) :
    formatFrom current touched (word ++ rest) args = formatFrom (current ++ word) true rest args := by
  induction word generalizing current touched with
  | nil => exact absurd rfl nonempty
  | cons c word ih =>
      simp only [isCopied, List.all_cons, Bool.and_eq_true, decide_eq_true_eq] at copied
      obtain ⟨⟨percent, blank⟩, copied⟩ := copied
      rw [List.cons_append, formatFrom_byte current touched c _ args percent blank]
      by_cases last : word = []
      · simp [last]
      · rw [ih (current ++ [c]) true copied last]
        simp

theorem formatFrom_string (text rest : Text) (args : List Arg) (clean : (0 : UInt8) ∉ text) :
    formatFrom current touched (byte '%' :: byte 's' :: rest) (.s text :: args) =
      formatFrom (current ++ text) true rest args := by
  have other : byte 's' ≠ byte '%' := by decide
  simp [formatFrom, other, cString_eq_self text clean]

theorem formatFrom_number (i : Int) (rest : Text) (args : List Arg) :
    formatFrom current touched (byte '%' :: byte 'd' :: rest) (.d i :: args) =
      formatFrom (current ++ intText i) true rest args := by
  have other : byte 'd' ≠ byte '%' := by decide
  simp [formatFrom, other]

end Plain

-- A last word may end in a percent sign: there is nothing after it to make a directive.
def isCopiedLast (word : Text) : Bool := isCopied word.dropLast && word.getLast? ≠ some (byte ' ')

theorem formatFrom_last (word : Text) (copied : isCopiedLast word = true) (nonempty : word ≠ []) :
    formatFrom [] false word [] = some [word] := by
  rcases List.eq_nil_or_concat word with rfl | ⟨front, c, rfl⟩
  · exact absurd rfl nonempty
  · simp only [isCopiedLast, List.concat_eq_append, List.dropLast_concat, List.getLast?_concat, ne_eq,
      Option.some.injEq, Bool.and_eq_true, decide_eq_true_eq] at copied
    obtain ⟨copied, blank⟩ := copied
    rw [List.concat_eq_append]
    by_cases only : front = []
    · simp [only, formatFrom, blank]
    · rw [formatFrom_word [] false front [c] [] copied only]
      simp [formatFrom, blank]

-- The words of a text without directives.
theorem formatFrom_unwords (init : List Text) (last : Text) (copied : ∀ word ∈ init, isCopied word = true ∧ word ≠ [])
    (copiedLast : isCopiedLast last = true) (nonempty : last ≠ []) :
    formatFrom [] false (unwords (init ++ [last])) [] = some (init ++ [last]) := by
  induction init with
  | nil => simpa using formatFrom_last last copiedLast nonempty
  | cons first init ih =>
      obtain ⟨plain, some⟩ := copied first (by simp)
      have rest := ih fun word member => copied word (List.mem_cons_of_mem first member)
      rw [List.cons_append, unwords_cons first _ (by simp), formatFrom_word [] false first _ [] plain some,
        formatFrom_blank, List.nil_append, if_pos rfl, rest]
      rfl

/-! ## What the arguments say about the text -/

/-- The steps of the cutting loop when there are no arguments to insert; the last byte is a step of its own. -/
inductive Cuts : Text → Bool → Text → List Text → Prop where
  | done (current : Text) (touched : Bool) : Cuts current touched [] (if touched then [current] else [])
  | blank (current : Text) (touched : Bool) : Cuts current touched [byte ' '] (if touched then [current] else [])
  | last (current : Text) (touched : Bool) (c : UInt8) (other : c ≠ byte ' ') :
      Cuts current touched [c] [current ++ [c]]
  | doubled {current rest : Text} {touched : Bool} {tokens : List Text} :
      Cuts (current ++ [byte '%']) true rest tokens → Cuts current touched (byte '%' :: byte '%' :: rest) tokens
  | separator {current rest : Text} {d : UInt8} {tokens : List Text} :
      Cuts [] false (d :: rest) tokens → Cuts current true (byte ' ' :: d :: rest) (current :: tokens)
  | leading {current rest : Text} {d : UInt8} {tokens : List Text} :
      Cuts current false (d :: rest) tokens → Cuts current false (byte ' ' :: d :: rest) tokens
  | copied {current rest : Text} {touched : Bool} {c d : UInt8} {tokens : List Text} (percent : c ≠ byte '%')
      (other : c ≠ byte ' ') :
      Cuts (current ++ [c]) true (d :: rest) tokens → Cuts current touched (c :: d :: rest) tokens

theorem cuts_of_format (text current : Text) (touched : Bool) (tokens : List Text)
    (formatted : formatFrom current touched text [] = some tokens) : Cuts current touched text tokens := by
  induction length : text.length using Nat.strong_induction_on generalizing text current touched tokens with
  | _ n ih =>
  match text with
  | [] =>
      obtain rfl := Option.some.inj formatted
      exact .done current touched
  | [c] =>
      by_cases blank : c = byte ' '
      · subst blank
        obtain rfl : (if touched then [current] else []) = tokens := by simpa [formatFrom] using formatted
        exact .blank current touched
      · obtain rfl : [current ++ [c]] = tokens := by simpa [formatFrom, blank] using formatted
        exact .last current touched c blank
  | c :: d :: rest =>
      have shorter : (d :: rest).length < n := by simp [← length]
      by_cases percent : c = byte '%'
      · subst percent
        by_cases doubled : d = byte '%'
        · subst doubled
          exact .doubled (ih rest.length (Nat.lt_trans (Nat.lt_succ_self _) shorter) rest (current ++ [byte '%']) true
            tokens (by simpa [formatFrom] using formatted) rfl)
        · simp [formatFrom, doubled] at formatted
      by_cases blank : c = byte ' '
      · subst blank
        rw [formatFrom_blank] at formatted
        cases touched with
        | true =>
            obtain ⟨later, found, rfl⟩ := Option.map_eq_some_iff.mp formatted
            exact .separator (ih _ shorter (d :: rest) [] false later found rfl)
        | false => exact .leading (ih _ shorter (d :: rest) current false tokens formatted rfl)
      · rw [formatFrom_byte current touched c (d :: rest) [] percent blank] at formatted
        exact .copied percent blank (ih _ shorter (d :: rest) (current ++ [c]) true tokens formatted rfl)

theorem Cuts.format {text current : Text} {touched : Bool} {tokens : List Text}
    (cuts : Cuts current touched text tokens) : formatFrom current touched text [] = some tokens := by
  induction cuts with
  | done current touched => rfl
  | blank current touched => rfl
  | last current touched c other => simp [formatFrom, other]
  | doubled _ ih => simpa [formatFrom] using ih
  | separator _ ih =>
      rw [formatFrom_blank, if_pos rfl, ih]
      rfl
  | leading _ ih => rw [formatFrom_blank, if_neg Bool.false_ne_true, ih]
  | copied percent other _ ih => rw [formatFrom_byte _ _ _ _ _ percent other, ih]

/-- Without arguments to insert, every word is non-empty and has no blank, and each blank or
doubled percent sign of the text is a byte less in the words. -/
structure Cut (current text : Text) (tokens : List Text) : Prop where
  words : ∀ token ∈ tokens, token ≠ [] ∧ byte ' ' ∉ token
  bytes : total tokens + text.count (byte ' ') ≤ current.length + text.length
  whole : total tokens + text.count (byte ' ') = current.length + text.length → byte '%' ∉ text.dropLast

theorem cut_nil (current : Text) (touched : Bool) (kept : touched = true → current ≠ [])
    (fresh : touched = false → current = []) (clean : byte ' ' ∉ current) :
    Cut current [] (if touched then [current] else []) := by
  cases touched with
  | true => exact ⟨by simp [kept rfl, clean], by simp, by simp⟩
  | false => exact ⟨by simp, by simp, by simp⟩

namespace Cut

variable {current rest : Text} {c d : UInt8} {tokens : List Text}

theorem doubled (next : Cut (current ++ [byte '%']) rest tokens) :
    Cut current (byte '%' :: byte '%' :: rest) tokens := by
  have distinct : byte '%' ≠ byte ' ' := by decide
  have bytes := next.bytes
  simp only [List.length_append, List.length_singleton] at bytes
  refine ⟨next.words, ?_, ?_⟩
  · simp [distinct]
    omega
  · simp [distinct]
    omega

theorem separator (next : Cut [] (d :: rest) tokens) (nonempty : current ≠ []) (clean : byte ' ' ∉ current) :
    Cut current (byte ' ' :: d :: rest) (current :: tokens) := by
  have distinct : byte '%' ≠ byte ' ' := by decide
  have bytes := next.bytes
  simp only [List.length_nil, List.length_cons] at bytes
  refine ⟨?_, ?_, ?_⟩
  · simpa [nonempty, clean] using next.words
  · simp only [total_cons, List.count_cons_self, List.length_cons]
    omega
  · intro same
    have inner := next.whole (by
      simp only [total_cons, List.count_cons_self, List.length_cons, List.length_nil] at same ⊢
      omega)
    simpa [distinct] using inner

theorem leading (next : Cut current (d :: rest) tokens) : Cut current (byte ' ' :: d :: rest) tokens := by
  have distinct : byte '%' ≠ byte ' ' := by decide
  have bytes := next.bytes
  simp only [List.length_cons] at bytes
  refine ⟨next.words, ?_, ?_⟩
  · simp only [List.count_cons_self, List.length_cons]
    omega
  · intro same
    have inner := next.whole (by
      simp only [List.count_cons_self, List.length_cons] at same ⊢
      omega)
    simpa [distinct] using inner

theorem copied (next : Cut (current ++ [c]) (d :: rest) tokens) (percent : c ≠ byte '%') (blank : c ≠ byte ' ') :
    Cut current (c :: d :: rest) tokens := by
  have bytes := next.bytes
  simp only [List.length_append, List.length_nil, List.length_cons] at bytes
  refine ⟨next.words, ?_, ?_⟩
  · rw [List.count_cons_of_ne blank]
    simp only [List.length_cons]
    omega
  · intro same
    rw [List.count_cons_of_ne blank] at same
    have inner := next.whole (by
      simp only [List.length_append, List.length_nil, List.length_cons] at same ⊢
      omega)
    simpa [Ne.symm percent] using inner

end Cut

theorem formatFrom_cut (text current : Text) (touched : Bool) (tokens : List Text)
    (kept : touched = true → current ≠ []) (fresh : touched = false → current = [])
    (clean : byte ' ' ∉ current) (formatted : formatFrom current touched text [] = some tokens) :
    Cut current text tokens := by
  have distinct : byte '%' ≠ byte ' ' := by decide
  have cuts := cuts_of_format text current touched tokens formatted
  clear formatted
  induction cuts with
  | done current touched => exact cut_nil current touched kept fresh clean
  | blank current touched =>
      cases touched with
      | true => exact ⟨by simp [kept rfl, clean], by simp, by simp⟩
      | false => exact ⟨by simp, by simp, by simp⟩
  | last current touched c other => exact ⟨by simp [clean, Ne.symm other], by simp [other], by simp⟩
  | doubled _ ih => exact (ih (by simp) (by simp) (by simp [clean, Ne.symm distinct])).doubled
  | separator _ ih => exact (ih (by simp) (by simp) (by simp)).separator (kept rfl) clean
  | leading _ ih => exact (ih (by simp) (fun _ => fresh rfl) clean).leading
  | copied percent other _ ih => exact (ih (by simp) (by simp) (by simp [clean, Ne.symm other])).copied percent other

theorem isCopied_iff (word : Text) : isCopied word = true ↔ byte '%' ∉ word ∧ byte ' ' ∉ word := by
  simp only [isCopied, List.all_eq_true, Bool.and_eq_true, decide_eq_true_eq]
  constructor
  · exact fun all => ⟨fun member => (all _ member).1 rfl, fun member => (all _ member).2 rfl⟩
  · rintro ⟨percent, blank⟩ c member
    exact ⟨fun same => percent (same ▸ member), fun same => blank (same ▸ member)⟩

-- A line is cut into the words it was written from only when they are copied as they are.
theorem copied_of_format (init : List Text) (last : Text)
    (formatted : formatFrom [] false (unwords (init ++ [last])) [] = some (init ++ [last])) :
    (∀ word ∈ init, isCopied word = true ∧ word ≠ []) ∧ isCopiedLast last = true ∧ last ≠ [] := by
  have cut := formatFrom_cut _ [] false _ (by simp) (by simp) (by simp) formatted
  obtain ⟨lastSome, lastClean⟩ := cut.words last (by simp)
  have percent : byte '%' ∉ (unwords (init ++ [last])).dropLast := by
    obtain ⟨first, rest, shape⟩ : ∃ first rest, init ++ [last] = first :: rest :=
      List.exists_cons_of_ne_nil (by simp)
    apply cut.whole
    rw [shape] at cut ⊢
    rw [(count_unwords_iff first rest).mpr fun word member => (cut.words word member).2, length_unwords]
    simp
  -- Only the last byte of the last word is outside of the part without percent signs.
  have front : ∀ word ∈ init, byte '%' ∉ word := by
    intro word member found
    apply percent
    have more : init ≠ [] := List.ne_nil_of_mem member
    rw [unwords_concat init last more, List.dropLast_append_of_ne_nil (by simp)]
    exact List.mem_append_left _ ((mem_unwords init _ (by decide)).mpr ⟨word, member, found⟩)
  have back : byte '%' ∉ last.dropLast := by
    intro found
    apply percent
    by_cases only : init = []
    · simpa [only] using found
    · rw [unwords_concat init last only, List.dropLast_append_of_ne_nil (by simp)]
      apply List.mem_append_right
      rw [List.dropLast_cons_of_ne_nil lastSome]
      exact List.mem_cons_of_mem _ found
  refine ⟨fun word member => ?_, ?_, lastSome⟩
  · obtain ⟨some, clean⟩ := cut.words word (by simp [member])
    exact ⟨(isCopied_iff word).mpr ⟨front word member, clean⟩, some⟩
  · have tail : byte ' ' ∉ last.dropLast := fun member => lastClean (List.dropLast_subset last member)
    simp only [isCopiedLast, Bool.and_eq_true, decide_eq_true_eq]
    refine ⟨(isCopied_iff _).mpr ⟨back, tail⟩, fun ends => ?_⟩
    exact lastClean (List.mem_of_getLast? ends)

-- Exactly when a line without arguments is sent as the words it was written from.
theorem redisFormatCommand_iff (init : List Text) (last : Text)
    (clean : ∀ word ∈ init ++ [last], (0 : UInt8) ∉ word) :
    redisFormatCommand (unwords (init ++ [last])) [] = some (init ++ [last]) ↔
      (∀ word ∈ init, isCopied word = true ∧ word ≠ []) ∧ isCopiedLast last = true ∧ last ≠ [] := by
  rw [redisFormatCommand, cString_eq_self _ ((nul_not_mem_unwords _).mpr clean)]
  constructor
  · exact copied_of_format init last
  · rintro ⟨copied, copiedLast, nonempty⟩
    exact formatFrom_unwords init last copied copiedLast nonempty

/-! ## Lines that begin or end with known words -/

theorem format_line (word text : Text) (copied : isCopied word = true) (nonempty : word ≠ [])
    (clean : (0 : UInt8) ∉ word) :
    redisFormatCommand (word ++ byte ' ' :: text) [] = (formatFrom [] false (cString text) []).map (word :: ·) := by
  have line : cString (word ++ byte ' ' :: text) = word ++ byte ' ' :: cString text := by
    have joined := cString_append_of_clean (word ++ [byte ' ']) text (by simpa [clean] using by decide)
    simpa using joined
  rw [redisFormatCommand, line, formatFrom_word [] false _ _ [] copied nonempty, formatFrom_blank, if_pos rfl]
  rfl

-- What follows a blank is cut by itself.
theorem formatFrom_split (front rest current : Text) (touched : Bool) (tokens : List Text)
    (fresh : touched = false → current = [])
    (formatted : formatFrom current touched (front ++ byte ' ' :: rest) [] = some tokens) :
    ∃ before after, formatFrom [] false rest [] = some after ∧ tokens = before ++ after := by
  have distinct : byte ' ' ≠ byte '%' := by decide
  generalize whole : front ++ byte ' ' :: rest = text at formatted
  have cuts := cuts_of_format text current touched tokens formatted
  clear formatted
  induction cuts generalizing front with
  | done current touched => simp at whole
  | blank current touched =>
      cases front with
      | nil =>
          obtain ⟨-, rfl⟩ := List.cons.inj whole
          exact ⟨_, [], rfl, (List.append_nil _).symm⟩
      | cons c front => simp at whole
  | last current touched c other =>
      cases front with
      | nil => exact absurd (List.cons.inj whole).1.symm other
      | cons c front => simp at whole
  | doubled _ ih =>
      -- A percent sign is no blank, so both are in front.
      cases front with
      | nil => exact absurd (List.cons.inj whole).1 distinct
      | cons first front =>
          cases front with
          | nil => exact absurd (List.cons.inj (List.cons.inj whole).2).1 distinct
          | cons second front => exact ih front (by simp) (List.cons.inj (List.cons.inj whole).2).2
  | @separator current _ _ tokens next ih =>
      cases front with
      | nil =>
          obtain ⟨-, rfl⟩ := List.cons.inj whole
          exact ⟨[current], tokens, next.format, rfl⟩
      | cons first front =>
          obtain ⟨before, after, found, rfl⟩ := ih front (by simp) (List.cons.inj whole).2
          exact ⟨current :: before, after, found, rfl⟩
  | @leading current _ _ tokens next ih =>
      cases front with
      | nil =>
          obtain ⟨-, rfl⟩ := List.cons.inj whole
          rw [fresh rfl] at next
          exact ⟨[], tokens, next.format, rfl⟩
      | cons first front => exact ih front fresh (List.cons.inj whole).2
  | copied percent other _ ih =>
      cases front with
      | nil => exact absurd (List.cons.inj whole).1.symm other
      | cons first front => exact ih front (by simp) (List.cons.inj whole).2

theorem formatFrom_clean (text current : Text) (touched : Bool) (tokens : List Text) (cleanText : (0 : UInt8) ∉ text)
    (clean : (0 : UInt8) ∉ current) (formatted : formatFrom current touched text [] = some tokens) :
    ∀ token ∈ tokens, (0 : UInt8) ∉ token := by
  have cuts := cuts_of_format text current touched tokens formatted
  clear formatted
  induction cuts with
  | done current touched | blank current touched => cases touched <;> simp [clean]
  | last current touched c other =>
      rw [List.mem_singleton] at cleanText
      simp [clean, cleanText]
  | doubled _ ih =>
      simp only [List.mem_cons, not_or] at cleanText
      exact ih cleanText.2.2 (by simp [clean, cleanText.1])
  | separator _ ih =>
      rw [List.mem_cons, not_or] at cleanText
      simpa [clean] using ih cleanText.2 (by simp)
  | leading _ ih =>
      rw [List.mem_cons, not_or] at cleanText
      exact ih cleanText.2 clean
  | copied percent other _ ih =>
      rw [List.mem_cons, not_or] at cleanText
      exact ih cleanText.2 (by simp [clean, cleanText.1])

end FastoNoSQL.Redis
