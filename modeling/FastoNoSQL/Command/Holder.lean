import FastoNoSQL.Bytes.Text
import Mathlib.Tactic.Common

set_option autoImplicit false

/-!
# Command tables

`core/command_holder.cpp`, `core/command_info.cpp` and
`core/internal/command_handler.cpp`: a table of names, argument counts and
handlers, and the search for the entry that a line of arguments calls.
-/

namespace FastoNoSQL

open Bytes

/-- A table entry. The texts that only the help shows are left out. -/
structure CommandHolder (Handler : Type) where
  name : Text
  required : Nat
  optional : Nat
  func : Handler
deriving DecidableEq

def infiniteArgs : Nat := 255

inductive Dispatch (Handler : Type) where
  | call (holder : CommandHolder Handler) (args : List Text)
  | invalidArguments (holder : CommandHolder Handler) (passed : Nat)
  | unknownSequence
  -- `CHECK(uargc > white_spaces_count_)` fails.
  | aborted
deriving DecidableEq

namespace CommandHolder

variable {Handler : Type} (holder : CommandHolder Handler)

def maxArgumentsCount : Nat := holder.required + holder.optional

def minArgumentsCount : Nat := holder.required

def accepts (argc : Nat) : Prop := holder.minArgumentsCount ≤ argc ∧ argc ≤ holder.maxArgumentsCount

instance (argc : Nat) : Decidable (holder.accepts argc) :=
  inferInstanceAs (Decidable (_ ∧ _))

def whiteSpacesCount : Nat := holder.name.countP isspace

-- The name comparison of `IsCommand`; the arguments are read as C strings.
def named (argv : List Text) : Prop :=
  lower (unwords ((argv.take (holder.whiteSpacesCount + 1)).map cString)) = lower holder.name

instance (argv : List Text) : Decidable (holder.named argv) :=
  inferInstanceAs (Decidable (_ = _))

end CommandHolder

/-- `CommandHandler::Execute` up to the call of the handler. -/
def dispatch {Handler : Type} : List (CommandHolder Handler) → List Text → Dispatch Handler
  | [], _ => .unknownSequence
  | holder :: commands, argv =>
    if argv.length = 0 ∨ argv.length = holder.whiteSpacesCount then dispatch commands argv
    else if argv.length < holder.whiteSpacesCount then .aborted
    else if holder.named argv then
      let args := argv.drop (holder.whiteSpacesCount + 1)
      if holder.accepts args.length then .call holder args else .invalidArguments holder args.length
    else dispatch commands argv

section Dispatch

variable {Handler : Type} (commands : List (CommandHolder Handler)) (argv : List Text)

theorem dispatch_call (holder : CommandHolder Handler) (args : List Text)
    (called : dispatch commands argv = .call holder args) :
    holder ∈ commands ∧ holder.named argv ∧ holder.whiteSpacesCount < argv.length ∧
      args = argv.drop (holder.whiteSpacesCount + 1) ∧ holder.accepts args.length := by
  induction commands with
  | nil => simp [dispatch] at called
  | cons first commands ih =>
      have later (called : dispatch commands argv = .call holder args) :
          holder ∈ first :: commands ∧ holder.named argv ∧ holder.whiteSpacesCount < argv.length ∧
            args = argv.drop (holder.whiteSpacesCount + 1) ∧ holder.accepts args.length := by
        obtain ⟨member, rest⟩ := ih called
        exact ⟨List.mem_cons_of_mem first member, rest⟩
      unfold dispatch at called
      split at called
      · exact later called
      next count =>
        split at called
        · cases called
        next enough =>
          split at called
          next named =>
            simp only at called
            split at called
            next accepted =>
              obtain ⟨rfl, rfl⟩ := Dispatch.call.inj called
              exact ⟨by simp, named, by omega, rfl, accepted⟩
            next => cases called
          next => exact later called

end Dispatch

def Dispatch.isCall {Handler : Type} : Dispatch Handler → Bool
  | .call _ _ => true
  | _ => false

/-! ## Looking a command word up -/

section Lookup

variable {Handler : Type}

def firstWord (name : Text) : Text := name.takeWhile (· ≠ byte ' ')

theorem lowerByte_eq_space (c : UInt8) : lowerByte c = byte ' ' ↔ c = byte ' ' := by
  constructor
  · intro lowered
    unfold lowerByte at lowered
    split at lowered
    next range =>
      exfalso
      obtain ⟨low, high⟩ := range
      have sum := congrArg UInt8.toNat lowered
      simp only [UInt8.toNat_add, UInt8.le_iff_toNat_le] at sum low high
      have values : (byte 'A').toNat = 65 ∧ (byte 'Z').toNat = 90 ∧ (byte ' ').toNat = 32 ∧
        (32 : UInt8).toNat = 32 := by decide
      omega
    next => exact lowered
  · rintro rfl
    decide

theorem takeWhile_lower (text : Text) :
    (lower text).takeWhile (· ≠ byte ' ') = lower (text.takeWhile (· ≠ byte ' ')) := by
  induction text with
  | nil => rfl
  | cons c text ih =>
      simp only [lower, List.map_cons, List.takeWhile_cons, lowerByte_eq_space, ne_eq] at ih ⊢
      split
      · rw [ih, List.map_cons]
      · rfl

-- A word of the table: no blank in it, so that it is the first word of the names it matches.
def isCommandWord (word : Text) : Bool := word.all fun c => c ≠ byte ' ' && c ≠ 0

theorem isCommandWord_spec (word : Text) (plain : isCommandWord word = true) :
    byte ' ' ∉ word ∧ (0 : UInt8) ∉ word := by
  simp only [isCommandWord, List.all_eq_true, Bool.and_eq_true, decide_eq_true_eq] at plain
  exact ⟨fun member => (plain _ member).1 rfl, fun member => (plain _ member).2 rfl⟩

def startsWith (word : Text) (holder : CommandHolder Handler) : Bool :=
  lower (firstWord holder.name) = lower word

variable (holder : CommandHolder Handler) (word : Text) (args : List Text)
variable (plain : isCommandWord word = true)
include plain

theorem startsWith_of_named (named : holder.named (word :: args)) : startsWith word holder = true := by
  obtain ⟨blank, nul⟩ := isCommandWord_spec word plain
  have whole : word.takeWhile (· ≠ byte ' ') = word := by
    apply List.takeWhile_eq_self_iff.mpr
    intro c member
    simpa using fun same : c = byte ' ' => blank (same ▸ member)
  have cut (rest : Text) : (word ++ byte ' ' :: rest).takeWhile (· ≠ byte ' ') = word := by
    rw [List.takeWhile_append_of_pos]
    · simp
    · intro c member
      simpa using fun same : c = byte ' ' => blank (same ▸ member)
  have first := congrArg (List.takeWhile (· ≠ byte ' ')) named
  rw [takeWhile_lower, takeWhile_lower, List.take_succ_cons, List.map_cons, cString_eq_self word nul] at first
  unfold startsWith firstWord
  rw [decide_eq_true_eq, ← first]
  cases rest : List.map cString (args.take holder.whiteSpacesCount) with
  | nil => rw [unwords_singleton, whole]
  | cons second more => rw [unwords_cons_cons, cut]

omit plain in
theorem named_of_single (single : holder.whiteSpacesCount = 0) (nul : (0 : UInt8) ∉ word)
    (same : lower word = lower holder.name) : holder.named (word :: args) := by
  simp [CommandHolder.named, single, cString_eq_self word nul, same]

-- Only the entries whose name starts with the command word matter.
theorem dispatch_filter (commands : List (CommandHolder Handler))
    (short : ∀ holder ∈ commands, holder.whiteSpacesCount ≤ 1) :
    dispatch commands (word :: args) = dispatch (commands.filter (startsWith word)) (word :: args) := by
  induction commands with
  | nil => rfl
  | cons first commands ih =>
      have rest := ih fun holder member => short holder (List.mem_cons_of_mem first member)
      have spaces := short first (by simp)
      by_cases starts : startsWith word first = true
      · rw [List.filter_cons_of_pos starts]
        simp only [dispatch, rest]
      · rw [List.filter_cons_of_neg starts, ← rest]
        have other : ¬ first.named (word :: args) := fun named =>
          starts (startsWith_of_named first word args plain named)
        have enough : ¬ (word :: args).length < first.whiteSpacesCount := by
          simp only [List.length_cons]
          omega
        simp only [dispatch, other, enough, if_false, ite_self]

omit plain in
/-- The argument counts of the only entry for a command word, when that is the whole name. -/
def arity (commands : List (CommandHolder Handler)) : Option (Nat × Nat) :=
  match commands.filter (startsWith word) with
  | [holder] =>
    if holder.whiteSpacesCount = 0 ∧ lower word = lower holder.name then
      some (holder.minArgumentsCount, holder.maxArgumentsCount)
    else none
  | _ => none

theorem dispatch_known (commands : List (CommandHolder Handler))
    (short : ∀ holder ∈ commands, holder.whiteSpacesCount ≤ 1)
    (only : commands.filter (startsWith word) = [holder]) (single : holder.whiteSpacesCount = 0)
    (same : lower word = lower holder.name) :
    dispatch commands (word :: args) =
      if holder.accepts args.length then .call holder args
      else .invalidArguments holder args.length := by
  have named := named_of_single holder word args single (isCommandWord_spec word plain).2 same
  rw [dispatch_filter word args plain commands short, only]
  simp [dispatch, single, named]

theorem isCall_of_arity (commands : List (CommandHolder Handler)) (low high : Nat)
    (short : ∀ holder ∈ commands, holder.whiteSpacesCount ≤ 1)
    (known : arity word commands = some (low, high)) :
    (dispatch commands (word :: args)).isCall = decide (low ≤ args.length ∧ args.length ≤ high) := by
  unfold arity at known
  split at known
  next holder only =>
    split at known
    next matching =>
      obtain ⟨rfl, rfl⟩ := Prod.mk.inj (Option.some.inj known)
      rw [dispatch_known holder word args plain commands short only matching.1 matching.2]
      by_cases accepted : holder.accepts args.length
      · rw [if_pos accepted]
        exact (decide_eq_true accepted).symm
      · rw [if_neg accepted]
        exact (decide_eq_false accepted).symm
    next => cases known
  next => cases known

theorem dispatch_unknown (commands : List (CommandHolder Handler))
    (short : ∀ holder ∈ commands, holder.whiteSpacesCount ≤ 1)
    (none : commands.filter (startsWith word) = []) :
    dispatch commands (word :: args) = .unknownSequence := by
  rw [dispatch_filter word args plain commands short, none]
  rfl

end Lookup

end FastoNoSQL
