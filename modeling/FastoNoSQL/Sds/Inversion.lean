import FastoNoSQL.Sds

set_option autoImplicit false

/-!
# What a split says about the line

`isBare` is not only enough for a text to come back as one argument: when the
splitter returns the very words of a short line, every word of it is bare. A
quoted or escaped word loses bytes that no later token can make up for.
-/

namespace FastoNoSQL.Sds

open Bytes

def Scan.pending : Scan → Text
  | .blank => []
  | .plain current | .inq current | .insq current | .inj _ current => current

def Scan.quoted : Bool → Text → Scan
  | true, current => .inq current
  | false, current => .insq current

theorem closes_cases (current rest : Text) :
    closes current rest = .err ∨
      closes current rest = .token current ∧ ∀ c ∈ rest.head?, isspace c = true := by
  cases rest with
  | nil => exact Or.inr ⟨rfl, by simp⟩
  | cons c rest =>
      by_cases space : isspace c = true
      · exact Or.inr ⟨by simp [closes, space], by simpa using space⟩
      · exact Or.inl (by simp [closes, space])

-- The escapes span only bytes that are not blanks.
theorem hexEscape_span (c b : UInt8) (rest : Text) (escape : hexEscape c rest = some b) :
    c = byte '\\' ∧ ∃ x high low rest', rest = x :: high :: low :: rest' ∧ x ≠ byte ' ' ∧
      high ≠ byte ' ' ∧ low ≠ byte ' ' := by
  have notHex : isHexDigit (byte ' ') = false := by decide
  unfold hexEscape at escape
  split at escape
  next x high low rest' =>
    split at escape
    next found =>
      obtain ⟨slash, isX, isHigh, isLow⟩ := found
      refine ⟨slash, x, high, low, rest', rfl, ?_, ?_, ?_⟩
      · rw [isX]; decide
      · rintro rfl; simp [notHex] at isHigh
      · rintro rfl; simp [notHex] at isLow
    next => cases escape
  next => cases escape

def blankFree (rest : Text) : Text := rest.takeWhile (· ≠ byte ' ')

-- What one byte inside quotes can do.
theorem step_quoted (double : Bool) (current rest : Text) (c : UInt8) :
    step (.quoted double current) c rest = .err ∨
      (step (.quoted double current) c rest = .token current ∧ c ≠ byte ' ' ∧
        ∀ d ∈ rest.head?, isspace d = true) ∨
      ∃ b skip, step (.quoted double current) c rest = .next (.quoted double (current ++ [b])) skip ∧
        skip ≤ (blankFree rest).length ∧ (skip = 0 → b = c) ∧ (c = byte ' ' → skip = 0) ∧
        (skip ≠ 0 → b = byte '\'' ∨ skip = 3) := by
  cases double with
  | true =>
      simp only [Scan.quoted, step]
      cases escape : hexEscape c rest with
      | some b =>
          obtain ⟨slash, x, high, low, rest', rfl, hx, hh, hl⟩ := hexEscape_span c b rest escape
          refine Or.inr (Or.inr ⟨b, 3, rfl, ?_, by simp, ?_, by simp⟩)
          · simp [blankFree, hx, hh, hl]
          · rw [slash]; decide
      | none =>
          by_cases closing : c = byte '"'
          · simp only [closing, if_true]
            rcases closes_cases current rest with err | ⟨token, spaces⟩
            · exact Or.inl err
            · exact Or.inr (Or.inl ⟨token, by decide, spaces⟩)
          · simp only [closing, if_false]
            exact Or.inr (Or.inr ⟨c, 0, rfl, by simp, by simp, by simp, by simp⟩)
  | false =>
      simp only [Scan.quoted, step]
      by_cases escape : escaped c '\'' rest = true
      · simp only [escape, if_true]
        simp only [escaped, Bool.and_eq_true, decide_eq_true_eq] at escape
        obtain ⟨slash, next⟩ := escape
        obtain ⟨rest', rfl⟩ : ∃ rest', rest = byte '\'' :: rest' := by
          cases rest with
          | nil => simp at next
          | cons d rest => exact ⟨rest, by simpa using next⟩
        refine Or.inr (Or.inr ⟨byte '\'', 1, rfl, ?_, by simp, ?_, by simp⟩)
        · have other : byte '\'' ≠ byte ' ' := by decide
          simp [blankFree, other]
        · rw [slash]; decide
      · simp only [escape, Bool.false_eq_true, if_false]
        by_cases closing : c = byte '\''
        · simp only [closing, if_true]
          rcases closes_cases current rest with err | ⟨token, spaces⟩
          · exact Or.inl err
          · exact Or.inr (Or.inl ⟨token, by decide, spaces⟩)
        · simp only [closing, if_false]
          exact Or.inr (Or.inr ⟨c, 0, rfl, by simp, by simp, by simp, by simp⟩)

def Scan.isBlank : Scan → Bool
  | .blank => true
  | _ => false

-- The closing quote is still to be read and adds no byte to the token.
def Scan.debt : Scan → Nat
  | .inq _ | .insq _ => 1
  | _ => 0

@[simp] theorem Scan.pending_quoted (double : Bool) (current : Text) :
    (Scan.quoted double current).pending = current := by
  cases double <;> rfl

@[simp] theorem Scan.debt_quoted (double : Bool) (current : Text) :
    (Scan.quoted double current).debt = 1 := by
  cases double <;> rfl

@[simp] theorem Scan.isBlank_quoted (double : Bool) (current : Text) :
    (Scan.quoted double current).isBlank = false := by
  cases double <;> rfl

/-- What one byte can do in any state: tokens only grow, and by at most the byte that was read. -/
def StepFits (scan : Scan) (rest : Text) : Step → Prop
  | .err => True
  | .token token =>
    scan.isBlank = false ∧ scan.pending <+: token ∧ token.length + scan.debt ≤ scan.pending.length + 1
  | .next next skip =>
    (scan.isBlank = false → next.isBlank = false) ∧ scan.pending <+: next.pending ∧
      skip ≤ rest.length ∧
      next.pending.length + scan.debt ≤ scan.pending.length + 1 + next.debt + skip

theorem enter_grows (current : Text) (c : UInt8) :
    (enter current c).isBlank = false ∧ current <+: (enter current c).pending ∧
      (enter current c).pending.length ≤ current.length + 1 := by
  unfold enter
  split
  · simp [Scan.isBlank, Scan.pending]
  split
  · simp [Scan.isBlank, Scan.pending]
  split
  · simp [Scan.isBlank, Scan.pending]
  · simp [Scan.isBlank, Scan.pending]

theorem stepFits_enter (scan : Scan) (c : UInt8) (rest : Text) (unquoted : scan.debt = 0) :
    StepFits scan rest (.next (enter scan.pending c) 0) := by
  obtain ⟨nonblank, grows, bound⟩ := enter_grows scan.pending c
  refine ⟨fun _ => nonblank, grows, Nat.zero_le _, ?_⟩
  omega

theorem stepFits_quoted (double : Bool) (current rest : Text) (c : UInt8) :
    StepFits (.quoted double current) rest (step (.quoted double current) c rest) := by
  rcases step_quoted double current rest c with err | ⟨token, -, -⟩ | ⟨b, skip, next, span, -⟩
  · rw [err]
    trivial
  · rw [token]
    simp [StepFits]
  · have bound : (blankFree rest).length ≤ rest.length := (List.takeWhile_prefix _).length_le
    rw [next]
    simp only [StepFits, Scan.isBlank_quoted, Scan.pending_quoted, Scan.debt_quoted, List.prefix_append,
      List.length_append, List.length_singleton, true_and, implies_true]
    omega

theorem stepFits_inj (depth : Nat) (current rest : Text) (c : UInt8) :
    StepFits (.inj depth current) rest (step (.inj depth current) c rest) := by
  simp only [step]
  by_cases isEscaped : escaped c '}' rest = true
  · have more : 1 ≤ rest.length := by
      cases rest with
      | nil => simp [escaped] at isEscaped
      | cons => simp
    simp [isEscaped, StepFits, Scan.isBlank, Scan.pending, Scan.debt, more]
  simp only [isEscaped, Bool.false_eq_true, if_false]
  by_cases opening : c = byte '{'
  · simp [opening, StepFits, Scan.isBlank, Scan.pending, Scan.debt]
  simp only [opening, if_false]
  by_cases closing : c = byte '}'
  · by_cases last : depth = 1 <;>
      simp [closing, last, StepFits, Scan.isBlank, Scan.pending, Scan.debt]
  · simp [closing, StepFits, Scan.isBlank, Scan.pending, Scan.debt]

theorem step_fits (scan : Scan) (c : UInt8) (rest : Text) : StepFits scan rest (step scan c rest) := by
  cases scan with
  | blank =>
      by_cases blank : c = byte ' '
      · simp [step, blank, StepFits, Scan.isBlank, Scan.pending, Scan.debt]
      · simpa [step, blank, Scan.pending] using stepFits_enter .blank c rest rfl
  | plain current =>
      by_cases blank : c = byte ' '
      · simp [step, blank, StepFits, Scan.isBlank, Scan.pending, Scan.debt]
      · simpa [step, blank, Scan.pending] using stepFits_enter (.plain current) c rest rfl
  | inq current => exact stepFits_quoted true current rest c
  | insq current => exact stepFits_quoted false current rest c
  | inj depth current => exact stepFits_inj depth current rest c

/-! ## Bytes are not made up -/

-- A token keeps what the state had gathered of it.
theorem pending_prefix (text : Text) (scan : Scan) (skip : Nat) (tokens : List Text)
    (nonblank : scan.isBlank = false) (split : splitFrom scan skip text = some tokens) :
    ∃ token rest, tokens = token :: rest ∧ scan.pending <+: token := by
  induction text generalizing scan skip with
  | nil =>
      cases scan with
      | blank => simp [Scan.isBlank] at nonblank
      | plain current => exact ⟨current, [], by simpa [atEnd] using split.symm, List.prefix_refl _⟩
      | inq | insq | inj => simp [atEnd] at split
  | cons c text ih =>
      cases skip with
      | succ skip => exact ih scan skip nonblank split
      | zero =>
          have fits := step_fits scan c text
          rw [splitFrom_cons] at split
          cases action : step scan c text with
          | err => simp [action] at split
          | token token =>
              rw [action] at fits
              simp only [action, Option.map_eq_some_iff] at split
              obtain ⟨rest, -, rfl⟩ := split
              exact ⟨token, rest, rfl, fits.2.1⟩
          | next next skip =>
              rw [action] at fits
              simp only [action] at split
              obtain ⟨token, rest, same, grows⟩ := ih next skip (fits.1 nonblank) split
              exact ⟨token, rest, same, fits.2.1.trans grows⟩

-- Every byte of the tokens was read from the line, and a closing quote gave none.
theorem total_le (text : Text) (scan : Scan) (skip : Nat) (tokens : List Text)
    (inside : skip ≤ text.length) (split : splitFrom scan skip text = some tokens) :
    total tokens + scan.debt + skip ≤ scan.pending.length + text.length := by
  induction text generalizing scan skip tokens with
  | nil =>
      cases scan with
      | blank => simp_all [atEnd, Scan.debt]
      | plain current =>
          obtain rfl : [current] = tokens := by simpa [atEnd] using split
          simp_all [Scan.debt, Scan.pending]
      | inq | insq | inj => simp [atEnd] at split
  | cons c text ih =>
      cases skip with
      | succ skip =>
          have rest := ih scan skip tokens (by simpa using inside) split
          simp only [List.length_cons]
          omega
      | zero =>
          have fits := step_fits scan c text
          rw [splitFrom_cons] at split
          cases action : step scan c text with
          | err => simp [action] at split
          | token token =>
              rw [action] at fits
              simp only [action, Option.map_eq_some_iff] at split
              obtain ⟨rest, tail, rfl⟩ := split
              have read := ih .blank 0 rest (Nat.zero_le _) tail
              have grown := fits.2.2
              simp only [Scan.debt, Scan.pending, List.length_nil] at read
              simp only [total_cons, List.length_cons]
              omega
          | next next skip =>
              rw [action] at fits
              simp only [action] at split
              have read := ih next skip tokens fits.2.2.1 split
              have grown := fits.2.2.2
              simp only [List.length_cons]
              omega

/-! ## The first token -/

theorem length_blankFree_le (text tail : Text) (ends : Ends tail) :
    (blankFree (text ++ tail)).length ≤ text.length := by
  have none : blankFree tail = [] := by
    cases tail with
    | nil => rfl
    | cons c tail =>
        obtain rfl : c = byte ' ' := ends
        simp [blankFree]
  induction text with
  | nil => simp [none]
  | cons c text ih =>
      simp only [blankFree, List.cons_append, List.takeWhile_cons] at ih ⊢
      split
      · simpa using ih
      · simp

-- Inside quotes, a stretch without blanks either closes the token or is followed by a blank that goes into it.
theorem quoted_stretch (double : Bool) (stretch current tail : Text) (skip : Nat) (token : Text)
    (tokens : List Text) (clean : byte ' ' ∉ stretch) (inside : skip ≤ stretch.length)
    (ends : Ends tail)
    (split : splitFrom (.quoted double current) skip (stretch ++ tail) = some (token :: tokens)) :
    token.length + skip ≤ current.length + stretch.length ∨
      ∃ gathered : Text, gathered.length + skip ≤ stretch.length ∧
        current ++ gathered ++ [byte ' '] <+: token := by
  induction stretch generalizing current skip with
  | nil =>
      obtain rfl : skip = 0 := by simpa using inside
      cases tail with
      | nil =>
          cases double
          · simp [Scan.quoted, atEnd] at split
          · simp [Scan.quoted, atEnd] at split
      | cons c tail =>
          obtain rfl : c = byte ' ' := ends
          rw [List.nil_append, splitFrom_cons] at split
          rcases step_quoted double current tail (byte ' ') with
            err | ⟨-, other, -⟩ | ⟨b, skip, next, -, same, none, -⟩
          · simp [err] at split
          · exact absurd rfl other
          · obtain rfl := none rfl
            obtain rfl := same rfl
            simp only [next] at split
            obtain ⟨first, rest, same, grows⟩ := pending_prefix tail _ 0 _ (by simp) split
            obtain ⟨rfl, -⟩ := List.cons.inj same
            exact Or.inr ⟨[], by simp, by simpa using grows⟩
  | cons c stretch ih =>
      have rest : byte ' ' ∉ stretch := fun member => clean (List.mem_cons_of_mem c member)
      cases skip with
      | succ skip =>
          rcases ih current skip rest (by simpa using inside) split with closed | ⟨gathered, bound, grows⟩
          · exact Or.inl (by simp only [List.length_cons]; omega)
          · exact Or.inr ⟨gathered, by simp only [List.length_cons]; omega, grows⟩
      | zero =>
          rw [List.cons_append, splitFrom_cons] at split
          rcases step_quoted double current (stretch ++ tail) c with
            err | ⟨closed, -, -⟩ | ⟨b, skip, next, span, -, -, -⟩
          · simp [err] at split
          · simp only [closed, Option.map_eq_some_iff] at split
            obtain ⟨rest, tail, same⟩ := split
            obtain ⟨rfl, -⟩ := List.cons.inj same
            exact Or.inl (by simp)
          · simp only [next] at split
            have inside := span.trans (length_blankFree_le stretch tail ends)
            rcases ih (current ++ [b]) skip rest inside split with closed | ⟨gathered, bound, grows⟩
            · simp only [List.length_append, List.length_singleton] at closed
              exact Or.inl (by simp only [List.length_cons]; omega)
            · refine Or.inr ⟨b :: gathered, ?_, by simpa using grows⟩
              simp only [List.length_cons]
              omega

theorem ends_dropWhile (text tail : Text) (ends : Ends tail) :
    Ends (text.dropWhile (· ≠ byte ' ') ++ tail) := by
  cases rest : text.dropWhile (· ≠ byte ' ') with
  | nil => exact ends
  | cons c rest =>
      have stop := List.head_dropWhile_not (l := text) (fun c => decide (c ≠ byte ' ')) (by rw [rest]; simp)
      simp only [rest, List.head_cons] at stop
      simpa [Ends] using stop

-- A token that was quoted is never the text it was written as.
theorem quoted_ne (double : Bool) (quote : UInt8) (text current tail : Text) (tokens : List Text)
    (other : quote ≠ byte ' ') (ends : Ends tail) :
    splitFrom (.quoted double current) 0 (text ++ tail) ≠
      some ((current ++ quote :: text) :: tokens) := by
  intro split
  have shape : text ++ tail =
      text.takeWhile (· ≠ byte ' ') ++ (text.dropWhile (· ≠ byte ' ') ++ tail) := by
    rw [← List.append_assoc, List.takeWhile_append_dropWhile]
  have clean : byte ' ' ∉ text.takeWhile (· ≠ byte ' ') := by
    intro member
    have := List.mem_takeWhile_imp member
    simp at this
  have short := (List.takeWhile_prefix (l := text) (fun c => decide (c ≠ byte ' '))).length_le
  rw [shape] at split
  rcases quoted_stretch double _ current _ 0 _ tokens clean (Nat.zero_le _)
    (ends_dropWhile text tail ends) split with closed | ⟨gathered, bound, grows⟩
  · simp only [List.length_append, List.length_cons] at closed
    omega
  · -- The blank lands on a byte of `quote :: stretch`, and there is none in it.
    rw [List.append_assoc, List.prefix_append_right_inj] at grows
    have within : gathered ++ [byte ' '] <+: quote :: text.takeWhile (· ≠ byte ' ') := by
      apply List.prefix_of_prefix_length_le grows
      · exact (List.prefix_cons_inj quote).mpr (List.takeWhile_prefix _)
      · simp only [List.length_append, List.length_cons, List.length_nil]
        omega
    have member := within.subset (List.mem_append_right gathered (List.mem_singleton_self _))
    rcases List.mem_cons.mp member with same | member
    · exact other same.symm
    · exact clean member

theorem inj_first (depth : Nat) (text current tail : Text) (tokens : List Text) (ends : Ends tail)
    (split : splitFrom (.inj (depth + 1) current) 0 (text ++ tail) = some ((current ++ text) :: tokens)) :
    bareFrom (depth + 1) text = true ∧ splitFrom .blank 0 tail = some tokens := by
  induction text generalizing depth current with
  | nil =>
      -- The closing brace is still to come, so the token is longer than `current`.
      cases tail with
      | nil => simp [atEnd] at split
      | cons c tail =>
          obtain rfl : c = byte ' ' := ends
          have other : byte ' ' ≠ byte '{' ∧ byte ' ' ≠ byte '}' ∧ byte ' ' ≠ byte '\\' := by decide
          rw [List.nil_append, splitFrom_cons] at split
          simp only [step, escaped, other, decide_false, Bool.false_and, Bool.false_eq_true, if_false] at split
          obtain ⟨token, rest, same, grows⟩ := pending_prefix tail _ 0 _ rfl split
          obtain ⟨rfl, -⟩ := List.cons.inj same
          have longer := grows.length_le
          simp only [Scan.pending, List.length_append, List.length_singleton, List.length_nil] at longer
          omega
  | cons c text ih =>
      rw [List.cons_append, splitFrom_cons] at split
      simp only [step, escaped_append_of_ends c '}' text tail ends (by decide)] at split
      simp only [bareFrom]
      by_cases isEscaped : escaped c '}' text = true
      · -- The escape would put a brace where the text has a backslash.
        simp only [isEscaped, if_true] at split
        obtain ⟨token, rest, same, grows⟩ := pending_prefix _ _ 1 _ rfl split
        obtain ⟨rfl, -⟩ := List.cons.inj same
        rw [Scan.pending, List.prefix_append_right_inj, List.cons_prefix_cons] at grows
        simp only [escaped, ← grows.1, Bool.and_eq_true, decide_eq_true_eq] at isEscaped
        exact absurd isEscaped.1 (by decide)
      simp only [isEscaped, Bool.false_eq_true, if_false] at split ⊢
      by_cases opening : c = byte '{'
      · simp only [opening, if_true] at split ⊢
        exact ih (depth + 1) (current ++ [byte '{']) (by simpa using split)
      simp only [opening, if_false] at split ⊢
      by_cases closing : c = byte '}'
      · simp only [closing, if_true] at split ⊢
        cases depth with
        | zero =>
            simp only [Nat.zero_add, if_true, Option.map_eq_some_iff] at split ⊢
            obtain ⟨rest, tailSplit, same⟩ := split
            obtain ⟨token, rfl⟩ := List.cons.inj same
            obtain rfl : text = [] := by simpa using token
            exact ⟨rfl, by simpa using tailSplit⟩
        | succ depth =>
            simp only [Nat.add_eq_right, Nat.add_eq_zero_iff, Nat.succ_ne_self, and_false, if_false,
              Nat.add_sub_cancel] at split ⊢
            exact ih depth (current ++ [byte '}']) (by simpa using split)
      · simp only [closing, if_false] at split ⊢
        exact ih depth (current ++ [c]) (by simpa using split)

theorem plain_first (text current tail : Text) (tokens : List Text) (ends : Ends tail)
    (split : splitFrom (.plain current) 0 (text ++ tail) = some ((current ++ text) :: tokens)) :
    bareFrom 0 text = true ∧ splitFrom .blank 0 tail = some tokens := by
  induction text generalizing current with
  | nil =>
      rw [List.nil_append, splitFrom_blank_of_ends tail ends, Option.map_eq_some_iff] at split
      obtain ⟨rest, tailSplit, same⟩ := split
      obtain ⟨-, rfl⟩ := List.cons.inj same
      exact ⟨rfl, tailSplit⟩
  | cons c text ih =>
      rw [List.cons_append] at split
      by_cases blank : c = byte ' '
      · rw [blank, splitFrom_plain_space, Option.map_eq_some_iff] at split
        obtain ⟨rest, tailSplit, same⟩ := split
        simp at same
      rw [splitFrom_cons] at split
      simp only [step, blank, if_false, enter] at split
      by_cases double : c = byte '"'
      · simp only [double, if_true] at split
        exact absurd split (quoted_ne true (byte '"') text current tail tokens (by decide) ends)
      by_cases single : c = byte '\''
      · simp only [single, if_true] at split
        exact absurd split (quoted_ne false (byte '\'') text current tail tokens (by decide) ends)
      simp only [double, single, if_false] at split
      simp only [bareFrom, blank, double, single, ne_eq, not_false_eq_true, decide_true, Bool.true_and]
      by_cases opening : c = byte '{'
      · simp only [opening, if_true] at split ⊢
        exact inj_first 0 text (current ++ [byte '{']) tail tokens ends (by simpa using split)
      · simp only [opening, if_false] at split ⊢
        exact ih (current ++ [c]) (by simpa using split)

-- A first token that is the text in its place is bare, and the rest of the line is split alone.
theorem first_bare (word tail : Text) (tokens : List Text) (nonempty : word ≠ [])
    (start : word.head? ≠ some (byte ' ')) (ends : Ends tail)
    (split : splitFrom .blank 0 (word ++ tail) = some (word :: tokens)) :
    isBare word = true ∧ splitFrom .blank 0 tail = some tokens := by
  obtain ⟨c, text, rfl⟩ := List.exists_cons_of_ne_nil nonempty
  have notBlank : c ≠ byte ' ' := fun blank => start (by simp [blank])
  have same : splitFrom .blank 0 (c :: text ++ tail) = splitFrom (.plain []) 0 (c :: text ++ tail) := by
    simp [splitFrom_cons, step, notBlank]
  rw [same] at split
  obtain ⟨bare, rest⟩ := plain_first (c :: text) [] tail tokens ends split
  exact ⟨by simp [isBare, bare], rest⟩

/-! ## What quoting costs -/

theorem enter_other (current : Text) (c : UInt8) (double : c ≠ byte '"') (single : c ≠ byte '\'') :
    (enter current c).pending = current ++ [c] := by
  unfold enter
  rw [if_neg double, if_neg single]
  split <;> rfl

-- Only a quote starts a token that is empty or starts with a blank.
theorem starts_quoted (text token : Text) (tokens : List Text)
    (start : ∀ c ∈ token.head?, c = byte ' ')
    (split : splitFrom .blank 0 text = some (token :: tokens)) :
    ∃ double rest, rest.length + 1 ≤ text.length ∧
      splitFrom (.quoted double []) 0 rest = some (token :: tokens) := by
  induction text with
  | nil => simp [atEnd] at split
  | cons c text ih =>
      by_cases blank : c = byte ' '
      · rw [blank, splitFrom_blank_space] at split
        obtain ⟨double, rest, shorter, split⟩ := ih split
        exact ⟨double, rest, by simp only [List.length_cons]; omega, split⟩
      rw [splitFrom_cons] at split
      simp only [step, blank, if_false] at split
      by_cases double : c = byte '"'
      · exact ⟨true, text, by simp, by simpa [double, enter, Scan.quoted] using split⟩
      by_cases single : c = byte '\''
      · have other : byte '\'' ≠ byte '"' := by decide
        exact ⟨false, text, by simp, by simpa [single, enter, other, Scan.quoted] using split⟩
      obtain ⟨first, rest, same, grows⟩ :=
        pending_prefix text _ 0 _ (enter_grows [] c).1 split
      obtain ⟨rfl, -⟩ := List.cons.inj same
      rw [enter_other [] c double single, List.nil_append] at grows
      obtain ⟨more, rfl⟩ := grows
      exact absurd (start c (by simp)) blank

-- A closing quote is followed by a blank, unless the next token starts with white space.
theorem quoted_apart (double : Bool) (text current : Text) (skip : Nat) (token second : Text)
    (tokens : List Text) (inside : skip ≤ text.length)
    (start : ∀ c ∈ second.head?, isspace c = false)
    (split : splitFrom (.quoted double current) skip text = some (token :: second :: tokens)) :
    total (token :: second :: tokens) + 2 + skip ≤ current.length + text.length := by
  induction text generalizing current skip with
  | nil => cases double <;> simp [Scan.quoted, atEnd] at split
  | cons c text ih =>
      cases skip with
      | succ skip =>
          have rest := ih current skip (by simpa using inside) split
          simp only [List.length_cons]
          omega
      | zero =>
          rw [splitFrom_cons] at split
          rcases step_quoted double current text c with
            err | ⟨closed, -, spaces⟩ | ⟨b, skip, next, span, -⟩
          · simp [err] at split
          · simp only [closed, Option.map_eq_some_iff] at split
            obtain ⟨rest, tail, same⟩ := split
            obtain ⟨rfl, rfl⟩ := List.cons.inj same
            cases text with
            | nil => simp [atEnd] at tail
            | cons d text =>
                have space : isspace d = true := spaces d (by simp)
                by_cases blank : d = byte ' '
                · rw [blank, splitFrom_blank_space] at tail
                  have read := total_le text .blank 0 _ (Nat.zero_le _) tail
                  simp only [Scan.debt, Scan.pending, List.length_nil] at read
                  simp only [total_cons, List.length_cons] at read ⊢
                  omega
                · have other : d ≠ byte '"' ∧ d ≠ byte '\'' := by
                    constructor <;> (rintro rfl; revert space; decide)
                  rw [splitFrom_cons] at tail
                  simp only [step, blank, if_false] at tail
                  obtain ⟨first, rest, same, grows⟩ :=
                    pending_prefix text _ 0 _ (enter_grows [] d).1 tail
                  obtain ⟨rfl, -⟩ := List.cons.inj same
                  rw [enter_other [] d other.1 other.2, List.nil_append] at grows
                  obtain ⟨more, rfl⟩ := grows
                  simp [start d (by simp)] at space
          · have bound : (blankFree text).length ≤ text.length := (List.takeWhile_prefix _).length_le
            simp only [next] at split
            have rest := ih (current ++ [b]) skip (span.trans bound) split
            simp only [List.length_append, List.length_nil, List.length_cons] at rest ⊢
            omega

-- The lines this is about: at most three arguments, or four of which the second is a plain word.
def Short (words : List Text) : Prop :=
  words.length ≤ 3 ∨ ∃ first second rest, words = first :: second :: rest ∧ rest.length = 2 ∧
    ∀ c ∈ second.head?, isspace c = false

theorem Short.tail (first : Text) (rest : List Text) (short : Short (first :: rest)) : Short rest := by
  rcases short with few | ⟨first, second, rest, same, count, -⟩
  · exact Or.inl (by simp only [List.length_cons] at few; omega)
  · obtain ⟨-, rfl⟩ := List.cons.inj same
    exact Or.inl (by simp [count])

-- A first token that is empty or starts with a blank had to be quoted, and a short line has too few blanks to pay for
-- that.
theorem first_unquoted (line first : Text) (rest : List Text) (short : Short (first :: rest))
    (start : ∀ c ∈ first.head?, c = byte ' ') (fits : line.length < total (first :: rest) + rest.length) :
    splitFrom .blank 0 (byte ' ' :: line) ≠ some (first :: rest) := by
  intro split
  rw [splitFrom_blank_space] at split
  obtain ⟨double, inner, shorter, split⟩ := starts_quoted line first rest start split
  rcases short with few | ⟨_, second, more, same, count, clean⟩
  · have read := total_le inner (.quoted double []) 0 _ (Nat.zero_le _) split
    simp only [Scan.debt_quoted, Scan.pending_quoted, List.length_nil] at read
    simp only [List.length_cons] at few
    omega
  · obtain ⟨rfl, rfl⟩ := List.cons.inj same
    have read := quoted_apart double inner [] 0 first second more (Nat.zero_le _) clean split
    simp only [List.length_nil, List.length_cons] at read fits
    omega

theorem starts_or (word : Text) :
    word ≠ [] ∧ word.head? ≠ some (byte ' ') ∨ ∀ c ∈ word.head?, c = byte ' ' := by
  cases word with
  | nil => exact Or.inr (by simp)
  | cons c word =>
      by_cases blank : c = byte ' '
      · exact Or.inr (by simp [blank])
      · exact Or.inl ⟨by simp, by simpa using blank⟩

-- Splitting a line whose last word may have lost bytes, into the words it was written from.
theorem words_of_split (init : List Text) (last written : Text) (shorter : written.length ≤ last.length)
    (short : Short (init ++ [last]))
    (split : splitFrom .blank 0 (unwords (init ++ [written])) = some (init ++ [last])) :
    written.length = last.length ∧ (∀ word ∈ init, isBare word = true) ∧
      splitFrom .blank 0 written = some [last] := by
  induction init with
  | nil =>
      have alone : splitFrom .blank 0 written = some [last] := by simpa using split
      have read := total_le written .blank 0 _ (Nat.zero_le _) alone
      simp only [total_cons, total_nil, Scan.debt, Scan.pending, List.length_nil] at read
      exact ⟨by omega, by simp, alone⟩
  | cons first init ih =>
      have shape : unwords (first :: init ++ [written]) = first ++ byte ' ' :: unwords (init ++ [written]) :=
        unwords_cons first _ (by simp)
      rw [shape] at split
      rcases starts_or first with ⟨nonempty, start⟩ | start
      · have ends : Ends (byte ' ' :: unwords (init ++ [written])) := rfl
        obtain ⟨bare, tail⟩ := first_bare first _ _ nonempty start ends split
        rw [splitFrom_blank_space] at tail
        obtain ⟨same, others, alone⟩ := ih (short.tail first _) tail
        exact ⟨same, by simpa [bare] using others, alone⟩
      · exfalso
        have blank : ∃ line, first ++ byte ' ' :: unwords (init ++ [written]) = byte ' ' :: line := by
          cases first with
          | nil => exact ⟨_, rfl⟩
          | cons c first => exact ⟨_, by rw [start c (by simp), List.cons_append]⟩
        obtain ⟨line, same⟩ := blank
        rw [same] at split
        refine first_unquoted line first (init ++ [last]) short start ?_ split
        have whole := length_unwords first (init ++ [written])
        have length : (byte ' ' :: line).length = (unwords (first :: (init ++ [written]))).length := by
          rw [← same, ← shape, List.cons_append]
        have totals : total (init ++ [written]) + last.length = total (init ++ [last]) + written.length := by
          simp only [total, List.map_append, List.sum_append, List.map_cons, List.map_nil, List.sum_cons,
            List.sum_nil]
          omega
        simp only [total_cons, List.length_cons, List.length_append, List.length_nil] at whole length ⊢
        omega

-- A text that starts with itself as an argument is bare.
theorem bare_of_split_first (text : Text) (tokens : List Text) (split : splitFrom .blank 0 text = some (text :: tokens)) :
    isBare text = true := by
  rcases starts_or text with ⟨nonempty, start⟩ | start
  · exact (first_bare text [] tokens nonempty start trivial (by rwa [List.append_nil])).1
  · -- A quote that is read is no byte of the argument.
    obtain ⟨double, rest, shorter, quoted⟩ := starts_quoted text text tokens start split
    have read := total_le rest (.quoted double []) 0 _ (Nat.zero_le _) quoted
    simp only [Scan.debt_quoted, Scan.pending_quoted, List.length_nil, total_cons] at read
    omega

/-! ## Line breaks

A line without a line break can only produce one from `\x0a` inside quotes. -/

-- What one byte that is no line break can do to tokens without line breaks.
def LineFits (scan : Scan) : Step → Prop
  | .err => True
  | .token token => byte '\n' ∉ token
  | .next next skip =>
    byte '\n' ∉ next.pending ∧ next.pending.length + next.debt ≤ scan.pending.length + 1 + scan.debt + skip ∨
      scan.debt = 1 ∧ next.debt = 1 ∧ skip = 3 ∧ next.pending.length = scan.pending.length + 1

theorem lineFits_enter (scan : Scan) (c : UInt8) (other : c ≠ byte '\n')
    (clean : byte '\n' ∉ scan.pending) : LineFits scan (.next (enter scan.pending c) 0) := by
  unfold enter
  split
  · exact Or.inl ⟨clean, by simp only [Scan.pending, Scan.debt]; omega⟩
  split
  · exact Or.inl ⟨clean, by simp only [Scan.pending, Scan.debt]; omega⟩
  have clean' : byte '\n' ∉ scan.pending ++ [c] := by simp [clean, other.symm]
  have bound : (scan.pending ++ [c]).length ≤ scan.pending.length + 1 := by simp
  split
  · exact Or.inl ⟨clean', bound.trans (by omega)⟩
  · exact Or.inl ⟨clean', bound.trans (by omega)⟩

theorem lineFits_quoted (double : Bool) (current rest : Text) (c : UInt8) (other : c ≠ byte '\n')
    (clean : byte '\n' ∉ current) :
    LineFits (.quoted double current) (step (.quoted double current) c rest) := by
  rcases step_quoted double current rest c with
    err | ⟨token, -, -⟩ | ⟨b, skip, next, -, same, -, escape⟩
  · rw [err]
    trivial
  · rw [token]
    exact clean
  · rw [next]
    by_cases newline : b = byte '\n'
    · have skipped : skip ≠ 0 := fun zero => other ((same zero).symm.trans newline)
      have quote : b ≠ byte '\'' := by
        rw [newline]
        decide
      obtain rfl : skip = 3 := (escape skipped).resolve_left quote
      exact Or.inr (by simp)
    · refine Or.inl ⟨by simp [clean, Ne.symm newline], ?_⟩
      simp only [Scan.pending_quoted, Scan.debt_quoted, List.length_append, List.length_singleton]
      omega

theorem lineFits_inj (depth : Nat) (current rest : Text) (c : UInt8) (other : c ≠ byte '\n')
    (clean : byte '\n' ∉ current) :
    LineFits (.inj depth current) (step (.inj depth current) c rest) := by
  have brace : byte '\n' ≠ byte '}' := by decide
  have clean' : byte '\n' ∉ current ++ [c] := by simp [clean, other.symm]
  simp only [step]
  split
  · exact Or.inl ⟨by simp [Scan.pending, clean, brace], by simp [Scan.pending, Scan.debt]⟩
  split
  · exact Or.inl ⟨clean', by simp [Scan.pending, Scan.debt]⟩
  split
  · split
    · exact clean'
    · exact Or.inl ⟨clean', by simp [Scan.pending, Scan.debt]⟩
  · exact Or.inl ⟨clean', by simp [Scan.pending, Scan.debt]⟩

theorem step_lineFits (scan : Scan) (c : UInt8) (rest : Text) (other : c ≠ byte '\n')
    (clean : byte '\n' ∉ scan.pending) : LineFits scan (step scan c rest) := by
  cases scan with
  | blank =>
      by_cases blank : c = byte ' '
      · simp [step, blank, LineFits, Scan.pending, Scan.debt]
      · simpa [step, blank, Scan.pending] using lineFits_enter .blank c other clean
  | plain current =>
      by_cases blank : c = byte ' '
      · simpa [step, blank, LineFits, Scan.pending] using clean
      · simpa [step, blank, Scan.pending] using lineFits_enter (.plain current) c other clean
  | inq current => exact lineFits_quoted true current rest c other clean
  | insq current => exact lineFits_quoted false current rest c other clean
  | inj depth current => exact lineFits_inj depth current rest c other clean

-- Two quotes and the three further bytes of the escape pay for a line break in a token.
theorem newline_cost (text : Text) (scan : Scan) (skip : Nat) (tokens : List Text)
    (inside : skip ≤ text.length) (line : byte '\n' ∉ text) (clean : byte '\n' ∉ scan.pending)
    (split : splitFrom scan skip text = some tokens) (broken : ∃ token ∈ tokens, byte '\n' ∈ token) :
    total tokens + 5 + skip ≤ scan.pending.length + text.length + scan.debt := by
  induction text generalizing scan skip tokens with
  | nil =>
      obtain ⟨token, member, newline⟩ := broken
      cases scan with
      | blank =>
          obtain rfl : tokens = [] := by simpa [atEnd] using split.symm
          simp at member
      | plain current =>
          obtain rfl : tokens = [current] := by simpa [atEnd] using split.symm
          exact absurd (List.mem_singleton.mp member ▸ newline) clean
      | inq | insq | inj => simp [atEnd] at split
  | cons c text ih =>
      have rest : byte '\n' ∉ text := fun member => line (List.mem_cons_of_mem c member)
      have other : c ≠ byte '\n' := fun same => line (by simp [same])
      cases skip with
      | succ skip =>
          have read := ih scan skip tokens (by simpa using inside) rest clean split broken
          simp only [List.length_cons]
          omega
      | zero =>
          have fits := step_fits scan c text
          have lineFits := step_lineFits scan c text other clean
          rw [splitFrom_cons] at split
          cases action : step scan c text with
          | err => simp [action] at split
          | token token =>
              rw [action] at fits lineFits
              simp only [action, Option.map_eq_some_iff] at split
              obtain ⟨more, tail, rfl⟩ := split
              obtain ⟨found, member, newline⟩ := broken
              have later : ∃ token ∈ more, byte '\n' ∈ token := by
                rcases List.mem_cons.mp member with rfl | member
                · exact absurd newline lineFits
                · exact ⟨found, member, newline⟩
              have read := ih .blank 0 more (Nat.zero_le _) rest (by simp [Scan.pending]) tail later
              have grown := fits.2.2
              simp only [Scan.debt, Scan.pending, List.length_nil] at read
              simp only [total_cons, List.length_cons]
              omega
          | next next skip =>
              rw [action] at fits lineFits
              simp only [action] at split
              simp only [List.length_cons]
              rcases lineFits with ⟨clean, bound⟩ | ⟨quoted, quoted', rfl, bound⟩
              · have read := ih next skip tokens fits.2.2.1 rest clean split broken
                omega
              · have read := total_le text next 3 tokens fits.2.2.1 split
                omega

end FastoNoSQL.Sds
