import Mathlib.Data.List.Basic
import FastoNoSQL.Bytes.Pieces

set_option autoImplicit false

/-!
# Files read line by line

A file handle with C's end-of-file flag: reading a line that a line feed closes
does not set the flag, even at the end of the file; a read that finds nothing fails.
-/

namespace Stdio

open Bytes

def lineFeed : UInt8 := 10

-- A text that ends in a line feed is its lines, each closed by one.
theorem exists_lines (text : Text) (ends : text.getLast? = some lineFeed) :
    ∃ lines : List Text, text = (lines.flatMap fun line => line ++ [lineFeed]) ∧
      ∀ line ∈ lines, lineFeed ∉ line ∧ line ∈ text.splitOn lineFeed := by
  obtain ⟨lines, last, pieces⟩ :=
    (List.eq_nil_or_concat' (text.splitOn lineFeed)).resolve_left (List.splitOn_ne_nil lineFeed text)
  have clean : ∀ line ∈ text.splitOn lineFeed, lineFeed ∉ line :=
    fun line member => (mem_splitOn lineFeed text line member).1
  have whole : text = (lines.flatMap fun line => line ++ [lineFeed]) ++ last := by
    rw [← intercalate_concat [lineFeed], ← pieces, List.intercalate_splitOn]
  have closed : last = [] := by
    by_contra open_
    rw [whole, List.getLast?_append_of_ne_nil _ open_] at ends
    exact clean last (by simp [pieces]) (List.mem_of_getLast? ends)
  refine ⟨lines, by rw [whole, closed, List.append_nil], fun line member => ?_⟩
  have piece : line ∈ text.splitOn lineFeed := by simp [pieces, member]
  exact ⟨clean line piece, piece⟩

structure Files where
  Handle : Type
  openRead : Text → Handle
  isEof : Handle → Bool
  readLine : Handle → Bool × Text × Handle

variable (files : Files)

structure Files.Lawful (remaining : files.Handle → Text) : Prop where
  remaining_openRead : ∀ content, remaining (files.openRead content) = content
  isEof_openRead : ∀ content, files.isEof (files.openRead content) = false
  readLine_closed : ∀ handle line rest, files.isEof handle = false → lineFeed ∉ line →
    remaining handle = line ++ lineFeed :: rest →
    ∃ next, files.readLine handle = (true, line ++ [lineFeed], next) ∧ remaining next = rest ∧
      files.isEof next = false
  readLine_nothing : ∀ handle, remaining handle = [] → (files.readLine handle).1 = false

/-- `while (!isEof()) { ok = readLine(&line); if (!ok || isEof()) { finish; break; } step }`; no
result means that the fuel did not suffice. -/
def forLines {σ : Type} (step : σ → Text → σ) (finish : σ → σ) : Nat → files.Handle → σ → Option σ
  | 0, _, _ => none
  | fuel + 1, handle, state =>
    if files.isEof handle then some state
    else
      let (ok, line, next) := files.readLine handle
      if !ok || files.isEof next then some (finish state)
      else forLines step finish fuel next (step state line)

-- Every closed line is handled, the last one too, before the end is noticed.
theorem forLines_lines {σ : Type} (step : σ → Text → σ) (finish : σ → σ) (remaining : files.Handle → Text)
    (lawful : files.Lawful remaining) (lines : List Text) (clean : ∀ line ∈ lines, lineFeed ∉ line)
    (fuel : Nat) (enough : lines.length < fuel) (handle : files.Handle) (state : σ)
    (open_ : files.isEof handle = false)
    (content : remaining handle = lines.flatMap fun line => line ++ [lineFeed]) :
    forLines files step finish fuel handle state =
      some (finish (lines.foldl (fun state line => step state (line ++ [lineFeed])) state)) := by
  induction lines generalizing fuel handle state with
  | nil =>
      obtain ⟨fuel, rfl⟩ := Nat.exists_eq_add_of_lt enough
      have nothing := lawful.readLine_nothing handle content
      simp [forLines, open_, nothing]
  | cons line lines ih =>
      cases fuel with
      | zero => simp at enough
      | succ fuel =>
          have shape : remaining handle = line ++ lineFeed :: lines.flatMap fun line => line ++ [lineFeed] := by
            rw [content, List.flatMap_cons, List.append_assoc]
            rfl
          obtain ⟨next, read, rest, more⟩ :=
            lawful.readLine_closed handle line _ open_ (clean line (by simp)) shape
          have later := ih (fun other member => clean other (List.mem_cons_of_mem line member)) fuel
            (by simpa using enough) next (step state (line ++ [lineFeed])) more rest
          simpa [forLines, open_, read, more] using later

/-- A handle as C has it: what is left to read, and the flag. -/
def Files.std : Files where
  Handle := Text × Bool
  openRead content := (content, false)
  isEof handle := handle.2
  readLine handle :=
    match handle.1.takeWhile (· ≠ lineFeed), handle.1.dropWhile (· ≠ lineFeed) with
    | line, c :: rest => (true, line ++ [c], (rest, false))
    | [], [] => (false, [], ([], true))
    | line, [] => (true, line, ([], true))

theorem Files.std_lawful : Files.std.Lawful Prod.fst where
  remaining_openRead _ := rfl
  isEof_openRead _ := rfl
  readLine_closed handle line rest open_ clean content := by
    have other : ∀ c ∈ line, (c ≠ lineFeed) = true := by
      intro c member
      simpa using fun same : c = lineFeed => clean (same ▸ member)
    refine ⟨(rest, false), ?_, rfl, rfl⟩
    simp only [std, content]
    rw [List.takeWhile_append_of_pos (by simpa using other), List.dropWhile_append_of_pos (by simpa using other)]
    simp
  readLine_nothing handle content := by simp [std, content]

end Stdio
