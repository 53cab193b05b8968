import Mathlib.Tactic.Common
import FastoNoSQL.Bytes.Text

set_option autoImplicit false

/-!
# Pieces of a separated text

An index loop that collects bytes into a piece and closes it at a separator or
at the last index. The byte at the last index closes its piece and is in none.
-/

namespace Bytes

def piecesFrom (separator : UInt8) (piece : Text) : Text → List Text
  | [] => []
  | [_] => [piece]
  | c :: d :: rest =>
    if c = separator then piece :: piecesFrom separator [] (d :: rest)
    else piecesFrom separator (piece ++ [c]) (d :: rest)

def pieces (separator : UInt8) (text : Text) : List Text := piecesFrom separator [] text

-- The text a writer makes by putting the separator before each item.
def separated (separator : UInt8) (items : List Text) : Text :=
  items.flatMap fun item => separator :: item

variable (separator : UInt8)

theorem piecesFrom_separator (item piece rest : Text) (clean : separator ∉ item) (more : rest ≠ []) :
    piecesFrom separator piece (item ++ separator :: rest) =
      (piece ++ item) :: piecesFrom separator [] rest := by
  obtain ⟨d, rest, rfl⟩ := List.exists_cons_of_ne_nil more
  induction item generalizing piece with
  | nil => simp [piecesFrom]
  | cons c item ih =>
      have head : c ≠ separator := fun same => clean (by simp [same])
      have next := ih (piece ++ [c]) fun member => clean (List.mem_cons_of_mem c member)
      cases item with
      | nil => simp [piecesFrom, head]
      | cons e item => simpa [piecesFrom, head] using next

theorem piecesFrom_last (item piece : Text) (clean : separator ∉ item) (nonempty : item ≠ []) :
    piecesFrom separator piece item = [piece ++ item.dropLast] := by
  induction item generalizing piece with
  | nil => exact absurd rfl nonempty
  | cons c item ih =>
      have head : c ≠ separator := fun same => clean (by simp [same])
      cases item with
      | nil => simp [piecesFrom]
      | cons d item =>
          have next := ih (piece ++ [c]) (fun member => clean (List.mem_cons_of_mem c member)) (by simp)
          simpa [piecesFrom, head] using next

theorem separated_eq_cons (items : List Text) (more : items ≠ []) :
    separated separator items = separator :: (separated separator items).tail := by
  obtain ⟨item, items, rfl⟩ := List.exists_cons_of_ne_nil more
  rfl

theorem separated_tail_ne_nil (items : List Text) (last : Text) (nonempty : last ≠ []) :
    (separated separator (items ++ [last])).tail ≠ [] := by
  cases items with
  | nil => simpa [separated] using nonempty
  | cons item items => simp [separated]

-- From a position after a separator, every item is a piece but the last, which loses its last byte.
theorem pieces_separated (items : List Text) (last : Text) (clean : ∀ item ∈ items, separator ∉ item)
    (lastClean : separator ∉ last) (nonempty : last ≠ []) :
    pieces separator (separated separator (items ++ [last])).tail = items ++ [last.dropLast] := by
  induction items with
  | nil => simpa [separated, pieces] using piecesFrom_last separator last [] lastClean nonempty
  | cons item items ih =>
      have tail := ih fun other member => clean other (List.mem_cons_of_mem item member)
      have shape : (separated separator (item :: items ++ [last])).tail =
          item ++ separated separator (items ++ [last]) := by
        simp [separated]
      rw [shape, separated_eq_cons separator (items ++ [last]) (by simp), pieces,
        piecesFrom_separator separator item [] _ (clean item (by simp))
          (separated_tail_ne_nil separator items last nonempty),
        List.nil_append, ← pieces, tail]
      rfl

/-! ## Splitting at a separator -/

theorem intercalate_concat (delimiter : Text) (items : List Text) (last : Text) :
    delimiter.intercalate (items ++ [last]) = (items.flatMap fun item => item ++ delimiter) ++ last := by
  induction items with
  | nil => simp
  | cons item items ih =>
      have more : items ++ [last] ≠ [] := by simp
      obtain ⟨second, rest, shape⟩ := List.exists_cons_of_ne_nil more
      rw [List.cons_append, shape, List.intercalate_cons_cons, ← shape, ih, List.flatMap_cons]
      simp

theorem intercalate_empty (items : List Text) : ([] : Text).intercalate items = items.flatten := by
  induction items with
  | nil => rfl
  | cons item items ih =>
      cases items with
      | nil => simp
      | cons second items => rw [List.intercalate_cons_cons, ih, List.append_nil, List.flatten_cons, List.flatten_cons, List.flatten_cons]

theorem mem_splitOn (text piece : Text) (member : piece ∈ text.splitOn separator) :
    separator ∉ piece ∧ piece.length ≤ text.length ∧ (separator ∈ text → piece.length < text.length) := by
  induction text generalizing piece with
  | nil =>
      obtain rfl : piece = [] := by simpa using member
      simp
  | cons c text ih =>
      rw [List.splitOn_cons_eq_if_modifyHead] at member
      by_cases same : c = separator
      · simp only [same, beq_self_eq_true, if_true, List.mem_cons] at member
        rcases member with rfl | member
        · simp
        · obtain ⟨clean, length, -⟩ := ih piece member
          exact ⟨clean, by simp only [List.length_cons]; omega, by simp only [List.length_cons]; omega⟩
      · rw [if_neg (by simpa using same)] at member
        obtain ⟨first, rest, shape⟩ := List.exists_cons_of_ne_nil (List.splitOn_ne_nil separator text)
        rw [shape] at member ih
        simp only [List.modifyHead_cons, List.mem_cons] at member
        rcases member with rfl | member
        · obtain ⟨clean, length, strict⟩ := ih first (by simp)
          refine ⟨by simp [clean, Ne.symm same], by simpa using length, ?_⟩
          simpa [Ne.symm same] using strict
        · obtain ⟨clean, length, strict⟩ := ih piece (by simp [member])
          exact ⟨clean, by simp only [List.length_cons]; omega, by simp only [List.length_cons]; omega⟩

theorem head?_splitOn (text : Text) : (text.splitOn separator).head? = some (text.takeWhile (· ≠ separator)) := by
  induction text with
  | nil => simp
  | cons c text ih =>
      rw [List.splitOn_cons_eq_if_modifyHead]
      by_cases same : c = separator
      · simp [same]
      · obtain ⟨pieces, shape⟩ := List.head?_eq_some_iff.mp ih
        rw [if_neg (by simpa using same), shape]
        simp [same]

/-! ## Tokens -/

-- The pieces between separators that are not empty.
def tokens (isSeparator : UInt8 → Bool) (text : Text) : List Text := (text.splitOnP isSeparator).filter (· ≠ [])

section Tokens

variable {isSeparator : UInt8 → Bool}

theorem not_of_mem_splitOnP {text piece : Text} (member : piece ∈ text.splitOnP isSeparator) :
    ∀ c ∈ piece, isSeparator c = false := by
  induction text generalizing piece with
  | nil =>
      obtain rfl : piece = [] := by simpa [List.splitOnP_nil] using member
      simp
  | cons c text ih =>
      rw [List.splitOnP_cons_eq_if_modifyHead] at member
      split at member
      · rcases List.mem_cons.mp member with rfl | later
        · simp
        · exact ih later
      · next clean =>
        obtain ⟨first, rest, shape⟩ := List.exists_cons_of_ne_nil (List.splitOnP_ne_nil isSeparator text)
        rw [shape, List.modifyHead_cons] at member
        rw [shape] at ih
        rcases List.mem_cons.mp member with rfl | later
        · rw [List.forall_mem_cons]
          exact ⟨by simpa using clean, ih List.mem_cons_self⟩
        · exact ih (List.mem_cons_of_mem first later)

theorem mem_tokens {text token : Text} (member : token ∈ tokens isSeparator text) :
    token ≠ [] ∧ ∀ c ∈ token, isSeparator c = false := by
  obtain ⟨piece, nonempty⟩ := List.mem_filter.mp member
  exact ⟨by simpa using nonempty, not_of_mem_splitOnP piece⟩

theorem tokens_separator {c : UInt8} (separates : isSeparator c = true) (first last : Text) :
    tokens isSeparator (first ++ c :: last) = tokens isSeparator first ++ tokens isSeparator last := by
  rw [tokens, List.splitOnP_append_cons first last separates, List.filter_append, tokens, tokens]

theorem tokens_clean {text : Text} (clean : ∀ c ∈ text, isSeparator c = false) :
    tokens isSeparator text = if text = [] then [] else [text] := by
  rw [tokens, List.splitOnP_eq_singleton clean]
  by_cases empty : text = [] <;> simp [empty]

-- A separator is dropped however many bytes it has.
theorem tokens_separators {separator : Text} (separates : ∀ c ∈ separator, isSeparator c = true) (last : Text) :
    tokens isSeparator (separator ++ last) = tokens isSeparator last := by
  induction separator with
  | nil => rfl
  | cons c separator ih =>
      rw [List.forall_mem_cons] at separates
      have empty : tokens isSeparator [] = [] := rfl
      rw [List.cons_append, ← List.nil_append (c :: _), tokens_separator separates.1, empty, List.nil_append,
        ih separates.2]

theorem tokens_intercalate {separator : Text} (separates : ∀ c ∈ separator, isSeparator c = true)
    (nonempty : separator ≠ []) (parts : List Text)
    (clean : ∀ part ∈ parts, part ≠ [] ∧ ∀ c ∈ part, isSeparator c = false) :
    tokens isSeparator (separator.intercalate parts) = parts := by
  induction parts with
  | nil => rfl
  | cons part parts ih =>
      rw [List.forall_mem_cons] at clean
      have alone : tokens isSeparator part = [part] := by rw [tokens_clean clean.1.2, if_neg clean.1.1]
      cases parts with
      | nil => rw [List.intercalate_singleton, alone]
      | cons second parts =>
          obtain ⟨c, separator, rfl⟩ := List.exists_cons_of_ne_nil nonempty
          rw [List.forall_mem_cons] at separates
          rw [List.intercalate_cons_cons, List.append_assoc, List.cons_append, tokens_separator separates.1,
            tokens_separators separates.2, ih clean.2, alone]
          rfl

end Tokens

end Bytes
