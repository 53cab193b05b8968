import FastoNoSQL.Driver.Execute

set_option autoImplicit false

/-!
# Translated commands as Execute requests

What runs when the text of a translator is submitted as a request: exactly the
command that was asked for when every key, value and name is bare and on one
line, and something else otherwise.
-/

namespace FastoNoSQL

open Bytes Sds

namespace KeyRequest

-- The condition on a request under which its text is taken apart as it was put together.
def Bare (type : ConnectionType) (request : KeyRequest) : Prop :=
  (∀ part ∈ request.parts, isBare part = true ∧ byte '\n' ∉ part) ∧
    ∀ last ∈ (request.argv type).getLast?, last.getLast? ≠ some (byte '\r')

-- The words that the patterns themselves put into a line.
def isFixed (text : Text) : Bool := isWord text && !text.contains (byte '\n')

theorem isFixed_spec (text : Text) (fixed : isFixed text = true) :
    isWord text = true ∧ byte '\n' ∉ text := by
  simpa [isFixed] using fixed

theorem isFixed_intText (i : Int) : isFixed (intText i) = true := by
  have line : byte '\n' ∉ intText i := by
    intro member
    have printed := mem_intText i _ member
    revert printed
    decide
  simp [isFixed, isWord_intText, line]

theorem isspace_head_of_isFixed (text : Text) (starts : text.head?.all (!isspace ·) = true) :
    ∀ c ∈ text.head?, isspace c = false := by
  intro c member
  simpa [Option.mem_def.mp member] using starts

-- An argument vector made of the parts of a request and of fixed words.
def Composed (parts argv : List Text) : Prop :=
  ∃ word init last, argv = word :: (init ++ [last]) ∧ isFixed word = true ∧ Short (init ++ [last]) ∧
    (∀ argument ∈ init ++ [last], argument ∈ parts ∨ isFixed argument = true) ∧
    ∀ part ∈ parts, part ∈ init ++ [last]

section Composed

variable (word key value : Text) (fixed : isFixed word = true)
include fixed

theorem composed_key : Composed [key] [word, key] :=
  ⟨word, [], key, rfl, fixed, Or.inl (by simp), by simp, by simp⟩

theorem composed_pair : Composed [key, value] [word, key, value] :=
  ⟨word, [key], value, rfl, fixed, Or.inl (by simp), by simp, by simp⟩

theorem composed_number (i : Int) : Composed [key] [word, key, intText i] :=
  ⟨word, [key], intText i, rfl, fixed, Or.inl (by simp), by simp [isFixed_intText], by simp⟩

theorem composed_range : Composed [key] [word, key, ascii "0", ascii "-1"] := by
  have numbers : isFixed (ascii "0") = true ∧ isFixed (ascii "-1") = true := by decide
  exact ⟨word, [key, ascii "0"], ascii "-1", rfl, fixed, Or.inl (by simp), by simp [numbers], by simp⟩

theorem composed_scores : Composed [key] [word, key, ascii "0", ascii "-1", ascii "WITHSCORES"] := by
  have constants : isFixed (ascii "0") = true ∧ isFixed (ascii "-1") = true ∧
    isFixed (ascii "WITHSCORES") = true := by decide
  refine ⟨word, [key, ascii "0", ascii "-1"], ascii "WITHSCORES", rfl, fixed, Or.inr ?_, by simp [constants],
    by simp⟩
  exact ⟨key, ascii "0", _, rfl, rfl, isspace_head_of_isFixed _ (by decide)⟩

theorem composed_flags : Composed [key, value] [word, key, ascii "0", ascii "0", value] := by
  have number : isFixed (ascii "0") = true := by decide
  refine ⟨word, [key, ascii "0", ascii "0"], value, rfl, fixed, Or.inr ?_, by simp [number], by simp⟩
  exact ⟨key, ascii "0", _, rfl, rfl, isspace_head_of_isFixed _ (by decide)⟩

end Composed

theorem print_ok (lib : Common) (lawful : lib.Lawful) (pattern : String) (args : List Arg) (words : List Text)
    (text : Text) (same : format (ascii pattern) args = unwords words)
    (printed : CommandTranslator.print lib pattern args = .ok text) : text = unwords words := by
  simp only [CommandTranslator.print, lawful.memSPrintf_eq, same, Except.ok.injEq] at printed
  exact printed.symm

theorem translate_ok (lib : Common) (lawful : lib.Lawful) (type : ConnectionType) (request : KeyRequest)
    (text : Text) (translated : request.translate (.ofType lib type) = .ok text) :
    text = unwords (request.argv type) ∧ Composed request.parts (request.argv type) := by
  cases request with
  | create key value =>
      cases type with
      | memcached => exact ⟨print_ok lib lawful _ _ _ _ rfl translated, composed_flags _ _ _ (by decide)⟩
      | redis | ssdb | leveldb | rocksdb | unqlite | lmdb | upscaledb =>
          exact ⟨print_ok lib lawful _ _ _ _ rfl translated, composed_pair _ _ _ (by decide)⟩
  | load key valueType =>
      cases type with
      | redis =>
          cases valueType with
          | array => exact ⟨print_ok lib lawful _ _ _ _ rfl translated, composed_range _ _ (by decide)⟩
          | zset => exact ⟨print_ok lib lawful _ _ _ _ rfl translated, composed_scores _ _ (by decide)⟩
          | _ => exact ⟨print_ok lib lawful _ _ _ _ rfl translated, composed_key _ _ (by decide)⟩
      | ssdb =>
          cases valueType with
          | array | zset => exact ⟨print_ok lib lawful _ _ _ _ rfl translated, composed_range _ _ (by decide)⟩
          | _ => exact ⟨print_ok lib lawful _ _ _ _ rfl translated, composed_key _ _ (by decide)⟩
      | memcached | leveldb | rocksdb | unqlite | lmdb | upscaledb =>
          exact ⟨print_ok lib lawful _ _ _ _ rfl translated, composed_key _ _ (by decide)⟩
  | delete key =>
      cases type with
      | _ => exact ⟨print_ok lib lawful _ _ _ _ rfl translated, composed_key _ _ (by decide)⟩
  | rename key newName =>
      cases type with
      | _ => exact ⟨print_ok lib lawful _ _ _ _ rfl translated, composed_pair _ _ _ (by decide)⟩
  | changeTTL key ttl =>
      cases type with
      | redis =>
          simp only [translate, CommandTranslator.ofType, CommandTranslator.redis, argv] at translated ⊢
          split at translated
          next persistent =>
            rw [if_pos persistent]
            exact ⟨print_ok lib lawful _ _ _ _ rfl translated, composed_key _ _ (by decide)⟩
          next timed =>
            rw [if_neg timed]
            exact ⟨print_ok lib lawful _ _ _ _ rfl translated, composed_number _ _ (by decide) _⟩
      | memcached => exact ⟨print_ok lib lawful _ _ _ _ rfl translated, composed_number _ _ (by decide) _⟩
      | ssdb | leveldb | rocksdb | unqlite | lmdb | upscaledb => cases translated

theorem composed_parts (type : ConnectionType) (request : KeyRequest) (word : Text) (init : List Text)
    (last : Text) (argv : request.argv type = word :: (init ++ [last]))
    (composed : ∀ argument ∈ init ++ [last], argument ∈ request.parts ∨ isFixed argument = true)
    (all : ∀ part ∈ request.parts, part ∈ init ++ [last]) :
    request.Bare type ↔
      (∀ argument ∈ init ++ [last], isBare argument = true ∧ byte '\n' ∉ argument) ∧
        last.getLast? ≠ some (byte '\r') := by
  have ending : (request.argv type).getLast? = some last := by
    rw [argv, ← List.cons_append]
    exact List.getLast?_concat
  simp only [Bare, ending, Option.mem_some_iff, forall_eq']
  refine and_congr_left fun _ => ⟨?_, fun bare part member => bare part (all part member)⟩
  intro bare argument member
  rcases composed argument member with part | fixed
  · exact bare argument part
  · obtain ⟨word, line⟩ := isFixed_spec argument fixed
    exact ⟨(isBare_of_isWord argument word).1, line⟩

/-- A translated command runs alone and as it was asked for exactly when its parts are bare. -/
theorem translated_runs_iff_bare {State : Type} (driver : Driver State) (lib : Common) (lawful : lib.Lawful)
    (type : ConnectionType) (request : KeyRequest) (text : Text) (state : State)
    (ready : driver.isInterrupted state = false) (clean : ∀ part ∈ request.parts, (0 : UInt8) ∉ part)
    (translated : request.translate (.ofType lib type) = .ok text) :
    (driver.handleExecuteEvent lib text 0 state).executed = [request.argv type] ↔ request.Bare type := by
  obtain ⟨rfl, word, init, last, argv, fixed, short, composed, all⟩ :=
    translate_ok lib lawful type request text translated
  obtain ⟨isWord', line⟩ := isFixed_spec word fixed
  have noNul : ∀ argument ∈ init ++ [last], (0 : UInt8) ∉ argument := by
    intro argument member
    rcases composed argument member with part | fixed
    · exact clean argument part
    · exact (isBare_of_isWord argument (isFixed_spec argument fixed).1).2
  rw [composed_parts type request word init last argv composed all, argv]
  exact executed_iff_bare word init last driver lib lawful state ready isWord' line short noNul

def accepting : Driver Unit := ⟨fun _ _ => ((), none), fun _ => false⟩

def sampleRequest : KeyRequest := create (ascii "user:1") (ascii "\x7bname: Ann\x7d")

theorem sampleRequest_runs :
    (accepting.handleExecuteEvent .std (ascii "SET user:1 \x7bname: Ann\x7d") 0 ()).executed =
      [[ascii "SET", ascii "user:1", ascii "\x7bname: Ann\x7d"]] :=
  (translated_runs_iff_bare accepting .std Common.std_lawful .redis sampleRequest _ () rfl (by decide) rfl).mpr
    ⟨by decide, by decide⟩

/-- A key with a line break starts a second command. -/
theorem newline_key_runs_more :
    (delete (ascii "a\nFLUSHALL")).translate (.ofType .std .redis) = .ok (ascii "DEL a\nFLUSHALL") ∧
      (accepting.handleExecuteEvent .std (ascii "DEL a\nFLUSHALL") 0 ()).executed =
        [[ascii "DEL", ascii "a"], [ascii "FLUSHALL"]] ∧
      (accepting.handleExecuteEvent .std (ascii "DEL a\nFLUSHALL") 0 ()).executed ≠
        [(delete (ascii "a\nFLUSHALL")).argv .redis] := by
  refine ⟨rfl, ?_, ?_⟩ <;> decide

end KeyRequest

end FastoNoSQL
