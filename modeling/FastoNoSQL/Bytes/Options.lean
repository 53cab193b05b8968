import Mathlib.Tactic.Common
import FastoNoSQL.Bytes.Text

set_option autoImplicit false

/-!
# Command-line options

A loop over `argv` that looks each word up in a table of options, and the words
a writer emits for it. An option takes no argument or one.
-/

namespace Bytes.Options

variable {σ : Type}

inductive Spec (σ : Type) where
  | flag (set : σ → σ)
  | value (set : Text → σ → σ)

/-- The loop stops at the first word that is no option, or an option without its argument. -/
def parse (table : List (Text × Spec σ)) (cfg : σ) : List Text → σ
  | [] => cfg
  | word :: rest =>
    match table.lookup (cString word), rest with
    | some (.flag set), rest => parse table (set cfg) rest
    | some (.value set), value :: rest => parse table (set (cString value) cfg) rest
    | some (.value _), [] => cfg
    | none, _ => cfg

-- The words that a writer adds when `condition` holds.
def wordsIf (condition : Prop) [Decidable condition] (words : List Text) : List Text :=
  if condition then words else []

theorem forall_mem_wordsIf (property : Text → Prop) (condition : Prop) [Decidable condition]
    (words : List Text) :
    (∀ word ∈ wordsIf condition words, property word) ↔ (condition → ∀ word ∈ words, property word) := by
  by_cases holds : condition <;> simp [wordsIf, holds]

variable (table : List (Text × Spec σ)) (cfg : σ)

@[simp] theorem parse_nil : parse table cfg [] = cfg := rfl

theorem parse_unknown (word : Text) (rest : List Text) (unknown : table.lookup (cString word) = none) :
    parse table cfg (word :: rest) = cfg := by
  cases rest <;> simp [parse, unknown]

/-! An option that sets one field, given by `get` and `put`, changes the field alone. -/

variable {α : Type} (get : σ → α) (put : α → σ → σ)

theorem parse_flag (condition : Prop) [Decidable condition] (name : Text) (mode : α) (rest : List Text)
    (found : table.lookup (cString name) = some (.flag (put mode))) (same : put (get cfg) cfg = cfg) :
    parse table cfg (wordsIf condition [name] ++ rest) =
      parse table (put (if condition then mode else get cfg) cfg) rest := by
  by_cases holds : condition
  · simp [wordsIf, holds, parse, found]
  · simp [wordsIf, holds, same]

theorem parse_value (condition : Prop) [Decidable condition] (name value : Text) (read : Text → α)
    (rest : List Text) (found : table.lookup (cString name) = some (.value fun text => put (read text)))
    (same : put (get cfg) cfg = cfg) (clean : condition → (0 : UInt8) ∉ value) :
    parse table cfg (wordsIf condition [name, value] ++ rest) =
      parse table (put (if condition then read value else get cfg) cfg) rest := by
  by_cases holds : condition
  · simp [wordsIf, holds, parse, found, cString_eq_self value (clean holds)]
  · simp [wordsIf, holds, same]

def Spec.Keeps (invariant : σ → Prop) : Spec σ → Prop
  | .flag set => ∀ cfg, invariant cfg → invariant (set cfg)
  | .value set => ∀ text cfg, (0 : UInt8) ∉ text → invariant cfg → invariant (set text cfg)

-- What every option keeps, the parser keeps.
theorem parse_invariant (invariant : σ → Prop) (keeps : ∀ entry ∈ table, entry.2.Keeps invariant)
    (words : List Text) (start : invariant cfg) : invariant (parse table cfg words) := by
  have kept (word : Text) (spec : Spec σ) (found : table.lookup word = some spec) : spec.Keeps invariant := by
    obtain ⟨before, after, rfl, -⟩ := List.lookup_eq_some_iff.mp found
    exact keeps (word, spec) (by simp)
  fun_induction parse table cfg words with
  | case1 cfg => exact start
  | case2 cfg word set rest found ih => exact ih (kept _ _ found cfg start)
  | case3 cfg word set value rest found ih =>
      exact ih (kept _ _ found (cString value) cfg (nul_not_mem_cString value) start)
  | case4 cfg word set found => exact start
  | case5 cfg word rest found => exact start

end Bytes.Options
