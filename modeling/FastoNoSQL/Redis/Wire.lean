import FastoNoSQL.Redis.ReaderReplies

set_option autoImplicit false

/-!
# Commands on the wire

`redisFormatSdsCommandArgv` and the end of `redisvFormatCommand`: both measure a
command first and write it then, one with the numbers of `sds` and one with
those of `printf`.
-/

namespace FastoNoSQL.Redis

open Bytes Sds Framing ReplyObject

/-! ## Sizes -/

-- The loop of `countDigits`, four digits at a time.
def countFrom (result v : Nat) : Nat :=
  if v < 10 then result
  else if v < 100 then result + 1
  else if v < 1000 then result + 2
  else if v < 10000 then result + 3
  else countFrom (result + 4) (v / 10000)
termination_by v
decreasing_by omega

def countDigits (v : Nat) : Nat := countFrom 1 v

def bulklen (len : Nat) : Nat := 1 + countDigits len + 2 + len + 2

def totlen (argv : List Text) : Nat :=
  argv.foldl (fun total arg => total + bulklen arg.length) (1 + countDigits argv.length + 2)

/-! ## Texts -/

def redisFormatSdsCommandArgv (argv : List Text) : Option (Text × Int) :=
  let cmd := argv.foldl (fun cmd arg => cmd ++ (byte '$' :: (sdsull2str arg.length ++ crlf)) ++ arg ++ crlf)
    (byte '*' :: (sdsll2str argv.length ++ crlf))
  -- The assertion of the source, and the size as the `int` that is returned.
  if cmd.length = totlen argv then some (cmd, toInt (totlen argv)) else none

-- The command is written into a buffer of the size that was measured, an `int`.
def protocolCommand (argv : List Text) : Option (Text × Int) :=
  let cmd := argv.foldl (fun cmd arg => cmd ++ (byte '$' :: (natText arg.length ++ crlf)) ++ arg ++ crlf)
    (byte '*' :: (intText argv.length ++ crlf))
  if (cmd.length : Int) = toInt (totlen argv) then some (cmd, toInt (totlen argv)) else none

def redisvFormatCommand (format : Text) (args : List Arg) : Option (Text × Int) :=
  (redisFormatCommand format args).bind protocolCommand

-- `argvlen` is given, or the arguments end at their first NUL.
def arguments (argvlen : Bool) (argv : List Text) : List Text := if argvlen then argv else argv.map cString

/-! ## What is written -/

def bulkText (arg : Text) : Text := byte '$' :: (natText arg.length ++ crlf ++ arg ++ crlf)

def commandText (argv : List Text) : Text := byte '*' :: (natText argv.length ++ crlf ++ argv.flatMap bulkText)

theorem length_natText_of_lt (v : Nat) (small : v < 10) : (natText v).length = 1 := by
  rw [natText, Nat.toDigits_of_lt_base small]
  rfl

theorem length_natText (v : Nat) (large : 10 ≤ v) : (natText v).length = (natText (v / 10)).length + 1 := by
  rw [natText, Nat.toDigits_of_base_le (by omega) large, List.map_append, List.length_append, natText]
  rfl

theorem countFrom_eq (result v : Nat) : countFrom result v + 1 = result + (natText v).length := by
  induction v using Nat.strongRecOn generalizing result with
  | ind v ih =>
      rw [countFrom]
      split_ifs with one two three four
      · rw [length_natText_of_lt v one]
      · rw [length_natText v (by omega), length_natText_of_lt _ (by omega)]
      · rw [length_natText v (by omega), length_natText _ (by omega), length_natText_of_lt _ (by omega)]
      · rw [length_natText v (by omega), length_natText _ (by omega), length_natText _ (by omega),
          length_natText_of_lt _ (by omega)]
      · have split : v / 10 / 10 / 10 / 10 = v / 10000 := by omega
        rw [ih _ (by omega), length_natText v (by omega), length_natText (v / 10) (by omega),
          length_natText (v / 10 / 10) (by omega), length_natText (v / 10 / 10 / 10) (by omega), split]
        omega

theorem countDigits_eq (v : Nat) : countDigits v = (natText v).length := by
  have counted := countFrom_eq 1 v
  rw [countDigits]
  omega

theorem length_bulkText (arg : Text) : (bulkText arg).length = bulklen arg.length := by
  have size : crlf.length = 2 := rfl
  simp only [bulkText, bulklen, countDigits_eq, List.length_cons, List.length_append, size]
  omega

theorem totlen_eq (argv : List Text) : totlen argv = (commandText argv).length := by
  have size : crlf.length = 2 := rfl
  have sum (start : Nat) : argv.foldl (fun total arg => total + bulklen arg.length) start =
      start + (argv.flatMap bulkText).length := by
    clear size
    induction argv generalizing start with
    | nil => simp
    | cons arg argv ih =>
        rw [List.foldl_cons, ih, List.flatMap_cons, List.length_append, length_bulkText]
        omega
  rw [totlen, sum, commandText, countDigits_eq]
  simp only [List.length_cons, List.length_append, size]
  omega

theorem foldl_bulkText (number : Nat → Text) (same : ∀ n, number n = natText n) (argv : List Text) (start : Text) :
    argv.foldl (fun cmd arg => cmd ++ (byte '$' :: (number arg.length ++ crlf)) ++ arg ++ crlf) start =
      start ++ argv.flatMap bulkText := by
  induction argv generalizing start with
  | nil => simp
  | cons arg argv ih =>
      rw [List.foldl_cons, ih, List.flatMap_cons, bulkText, same]
      simp only [List.append_assoc, List.cons_append]

theorem intText_natCast (n : Nat) : intText n = natText n := by
  rw [intText, if_neg (by omega), Int.natAbs_natCast]

-- The assertion never fails.
theorem redisFormatSdsCommandArgv_eq (argv : List Text) :
    redisFormatSdsCommandArgv argv = some (commandText argv, toInt (commandText argv).length) := by
  rw [redisFormatSdsCommandArgv, foldl_bulkText sdsull2str sdsull2str_eq, sdsll2str_eq, intText_natCast, totlen_eq]
  exact if_pos rfl

theorem protocolCommand_eq (argv : List Text) (small : (commandText argv).length < 2 ^ 31) :
    protocolCommand argv = some (commandText argv, ((commandText argv).length : Int)) := by
  have size := toInt_eq (commandText argv).length (by omega) (by omega)
  rw [protocolCommand, foldl_bulkText natText fun _ => rfl, intText_natCast, totlen_eq, size]
  exact if_pos rfl

/-! ## What is read back -/

theorem encodesAll_bulkText (room : Nat) (argv : List Text) (small : ∀ arg ∈ argv, arg.length + 2 < 2 ^ 63) :
    EncodesAll room (argv.map Reply.string) (argv.flatMap bulkText) := by
  induction argv with
  | nil => rfl
  | cons arg argv ih =>
      rw [List.map_cons, EncodesAll]
      refine ⟨bulkText arg, argv.flatMap bulkText, rfl, ?_, ih fun other member => small other (List.mem_cons_of_mem _ member)⟩
      rw [Encodes]
      exact ⟨small arg List.mem_cons_self, rfl⟩

-- A command of a size that is an `int` is an array of its arguments.
theorem encodes_commandText (argv : List Text) (small : (commandText argv).length < 2 ^ 31) :
    Encodes 8 (.array (argv.map Reply.string)) (commandText argv) := by
  have each : ∀ arg ∈ argv, (bulkText arg).length ≤ (argv.flatMap bulkText).length := by
    intro arg member
    rw [List.flatMap_def]
    exact (List.sublist_flatten_of_mem (List.mem_map_of_mem member)).length_le
  have count : argv.length ≤ (argv.flatMap bulkText).length := by
    rw [List.length_flatMap]
    clear small each
    induction argv with
    | nil => exact Nat.le_refl 0
    | cons arg argv ih =>
        rw [List.map_cons, List.sum_cons, List.length_cons, bulkText, List.length_cons]
        omega
  have whole : (argv.flatMap bulkText).length ≤ (commandText argv).length := by
    simp only [commandText, List.length_cons, List.length_append]
    omega
  rw [Encodes, List.length_map]
  refine ⟨by decide, by omega, argv.flatMap bulkText, rfl, encodesAll_bulkText 7 argv fun arg member => ?_⟩
  have inside := each arg member
  rw [length_bulkText, bulklen] at inside
  omega

def twoCommands : List (List Text) := [[ascii "SET", ascii "k\r\n", ascii "$1\r\n"], [ascii "GET", []]]

def twoOps : List (Op UInt8) :=
  [.feed (ascii "*3\r\n$3\r\nSET\r\n$3\r\nk\r\n"), .pull, .feed (ascii "\r\n$4\r\n$1\r\n\r\n*2\r\n$3"), .pull, .pull]

end FastoNoSQL.Redis
