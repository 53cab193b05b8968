import FastoNoSQL.Command.Translator
import FastoNoSQL.Redis.Commands
import FastoNoSQL.Redis.Server

set_option autoImplicit false

/-!
# Forwarding commands to the redis server

The handlers of `core/redis/internal/commands_api.cpp` and the functions of
`core/redis/db_connection.cpp` behind them, up to the commands that are sent on
an open connection. Some handlers send the argument vector itself, some print
the arguments they read into a pattern, and some make a text of them that
`redisCommand` takes for a pattern.
-/

namespace FastoNoSQL.Redis

open Bytes

/-! ## What the handlers send -/

section Handlers

variable (lib : Common)

-- `redisCommand` on the text of a translator or of `MemSPrintf`, without arguments.
def sendText (text : Except ErrorValue Text) : Option (List Text) := text.toOption.bind (redisFormatCommand · [])

def deleteText (key : Text) : Except ErrorValue Text := (CommandTranslator.redis lib).deleteKeyCommand ⟨cString key, -1⟩

def setTTLText (key : Text) (ttl : Int32) : Except ErrorValue Text :=
  (CommandTranslator.redis lib).changeKeyTTLCommand ⟨cString key, -1⟩ ttl

def renameText (key newKey : Text) : Except ErrorValue Text :=
  (CommandTranslator.redis lib).renameKeyCommand ⟨cString key, -1⟩ (cString newKey)

-- `ConvertFromString<int>(argv[i])`
def number (arg : Text) : Int32 := lib.toInt (cString arg)

-- `argc == 4 && strncmp(argv[3], "WITHSCORES", 10) == 0`.
def withScores (options : List Text) : Bool :=
  match options with
  | [option] => (cString option).take 10 = ascii "WITHSCORES"
  | _ => false

def zrangeText (key start stop : Text) (options : List Text) : Except ErrorValue Text :=
  let args := [.s (cString key), .d (number lib start).toInt, .d (number lib stop).toInt]
  if withScores options then CommandTranslator.print lib "ZRANGE %s %d %d WITHSCORES" args
  else CommandTranslator.print lib "ZRANGE %s %d %d" args

-- The handler is given the arguments; `argv - n` are the `n` words before them.
def stepBack (argv args : List Text) (n : Nat) : List Text := argv.drop (argv.length - (args.length + n))

/-- The commands sent to the server; none where `redisCommand` has no result. -/
def forward (argv : List Text) (handler : Handler) (args : List Text) : Option (List (List Text)) :=
  match handler, args with
  | .commonExec, args => some [stepBack argv args 1]
  | .commonExecOff2, args => some [stepBack argv args 2]
  | .del, args => args.mapM fun key => sendText (deleteText lib key)
  | .get, key :: _ => (redisFormatCommand (ascii "GET %s") [.s (cString key)]).map ([·])
  | .smembers, key :: _ => (redisFormatCommand (ascii "SMEMBERS %s") [.s (cString key)]).map ([·])
  | .hgetall, key :: _ => (redisFormatCommand (ascii "HGETALL %s") [.s (cString key)]).map ([·])
  | .set, key :: value :: _ =>
    (redisFormatCommand (ascii "SET %s %s") [.s (cString key), .s (cString value)]).map ([·])
  | .lrange, key :: start :: stop :: _ =>
    (redisFormatCommand (ascii "LRANGE %s %d %d")
      [.s (cString key), .d (number lib start).toInt, .d (number lib stop).toInt]).map ([·])
  | .zrange, key :: start :: stop :: options => (sendText (zrangeText lib key start stop options)).map ([·])
  | .rename, key :: newKey :: _ => (sendText (renameText lib key newKey)).map ([·])
  | .persist, key :: _ => (sendText (setTTLText lib key (-1))).map ([·])
  | .expire, key :: ttl :: _ => (sendText (setTTLText lib key (number lib ttl))).map ([·])
  | _, _ => none

end Handlers

-- The entries that work on keys or pass their arguments on.
def forwards : Handler → Bool
  | .commonExec | .commonExecOff2 | .set | .get | .del | .rename | .expire | .persist | .lrange | .zrange
  | .smembers | .hgetall => true
  | _ => false

section Statements

variable (lib : Common) (argv : List Text) (holder : CommandHolder Handler) (args : List Text)

-- The words of the user's command, in any case.
def isUserCommand (words : List Text) : Prop :=
  words.map (fun word => lower (cString word)) =
    (argv.take (holder.whiteSpacesCount + 1)).map fun word => lower (cString word)

-- The user's command with all of its arguments, or one `DEL` for each key.
def Carries (sent : List (List Text)) : Prop :=
  ∃ words, isUserCommand argv holder words ∧
    (sent = [words ++ args] ∨ holder.func = .del ∧ sent = args.map fun key => words ++ [key])

def Faithful : Prop := ∃ sent, forward lib argv holder.func args = some sent ∧ Carries argv holder args sent

end Statements

-- A word that a text passes on, in the middle of it.
def Plain (word : Text) : Prop := (0 : UInt8) ∉ word ∧ isCopied word = true ∧ word ≠ []

-- The last word may end in a percent sign.
def PlainLast (word : Text) : Prop := (0 : UInt8) ∉ word ∧ isCopiedLast word = true ∧ word ≠ []

-- A number as it is printed.
def IsNumber (text : Text) : Prop := ∃ i : Int32, text = intText i.toInt

/-- The arguments that each handler passes on. -/
def Forwardable : Handler → List Text → Prop
  | .commonExec, _ | .commonExecOff2, _ => True
  | .get, key :: _ | .smembers, key :: _ | .hgetall, key :: _ => (0 : UInt8) ∉ key
  | .set, key :: value :: options => (0 : UInt8) ∉ key ∧ (0 : UInt8) ∉ value ∧ options = []
  | .lrange, key :: start :: stop :: _ => (0 : UInt8) ∉ key ∧ IsNumber start ∧ IsNumber stop
  | .del, keys => ∀ key ∈ keys, PlainLast key
  | .persist, key :: _ => PlainLast key
  | .rename, key :: newKey :: _ => Plain key ∧ PlainLast newKey
  | .expire, key :: ttl :: _ => Plain key ∧ ∃ i : Int32, i ≠ -1 ∧ ttl = intText i.toInt
  | .zrange, key :: start :: stop :: options =>
    Plain key ∧ IsNumber start ∧ IsNumber stop ∧ (options = [] ∨ options = [ascii "WITHSCORES"])
  | _, _ => False

/-! ## Texts that are taken for patterns -/

section Texts

theorem formatFrom_words_iff (init : List Text) (last : Text) :
    formatFrom [] false (unwords ((init ++ [last]).map cString)) [] = some (init ++ [last]) ↔
      (∀ word ∈ init, Plain word) ∧ PlainLast last := by
  have same (clean : ∀ word ∈ init ++ [last], (0 : UInt8) ∉ word) : (init ++ [last]).map cString = init ++ [last] :=
    (List.map_congr_left fun word member => cString_eq_self word (clean word member)).trans (List.map_id _)
  constructor
  · intro formatted
    have none : (0 : UInt8) ∉ unwords ((init ++ [last]).map cString) := by
      rw [nul_not_mem_unwords]
      intro word member
      obtain ⟨original, _, rfl⟩ := List.mem_map.mp member
      exact nul_not_mem_cString original
    have clean := formatFrom_clean _ [] false _ none (by simp) formatted
    rw [same clean] at formatted
    obtain ⟨copied, copiedLast, nonempty⟩ := copied_of_format init last formatted
    exact ⟨fun word member => ⟨clean word (by simp [member]), copied word member⟩,
      clean last (by simp), copiedLast, nonempty⟩
  · intro ⟨plain, clean, copied, nonempty⟩
    have all : ∀ word ∈ init ++ [last], (0 : UInt8) ∉ word := by
      intro word member
      rcases List.mem_append.mp member with front | back
      · exact (plain word front).1
      · exact List.mem_singleton.mp back ▸ clean
    rw [same all]
    exact formatFrom_unwords init last (fun word member => (plain word member).2) copied nonempty

theorem isCopiedLast_of_plain (word : Text) (plain : Plain word) : isCopiedLast word = true := by
  obtain ⟨percent, blank⟩ := (isCopied_iff word).mp plain.2.1
  simp only [isCopiedLast, Bool.and_eq_true, decide_eq_true_eq, isCopied_iff]
  refine ⟨⟨fun member => percent (List.dropLast_subset word member),
    fun member => blank (List.dropLast_subset word member)⟩, fun ends => blank (List.mem_of_getLast? ends)⟩

theorem plain_intText (i : Int) : Plain (intText i) := by
  have bytes (c : UInt8) (member : c ∈ intText i) : c ≠ 0 ∧ c ≠ byte '%' ∧ c ≠ byte ' ' := by
    rcases mem_intText i c member with digit | rfl
    · refine ⟨?_, ?_, ?_⟩ <;> intro same <;> rw [same] at digit <;> revert digit <;> decide
    · decide
  refine ⟨fun member => (bytes 0 member).1 rfl, (isCopied_iff _).mpr ⟨?_, ?_⟩, intText_ne_nil i⟩
  · exact fun member => (bytes _ member).2.1 rfl
  · exact fun member => (bytes _ member).2.2 rfl

variable (key : Text) (init : List Text) (last : Text) (plain : ∀ word ∈ init ++ [last], Plain word)

include plain

-- With words that are passed on behind it, a text is passed on when its first word is.
theorem formatFrom_plain (plainKey : Plain key) :
    formatFrom [] false (unwords (cString key :: (init ++ [last]))) [] = some (key :: (init ++ [last])) := by
  have copied : ∀ word ∈ key :: init, isCopied word = true ∧ word ≠ [] := by
    intro word member
    rcases List.mem_cons.mp member with rfl | later
    · exact plainKey.2
    · exact (plain word (by simp [later])).2
  have lastPlain := plain last (by simp)
  rw [cString_eq_self key plainKey.1]
  exact formatFrom_unwords (key :: init) last copied (isCopiedLast_of_plain last lastPlain) lastPlain.2.2

-- No bytes are left for other words between the first and the last ones.
theorem before_eq_nil (before : List Text)
    (formatted : formatFrom [] false (unwords (cString key :: (init ++ [last]))) [] =
      some (key :: (before ++ (init ++ [last])))) : before = [] := by
  have cut := formatFrom_cut _ [] false _ (by simp) (by simp) (by simp) formatted
  obtain ⟨first, rest, ending⟩ : ∃ first rest, init ++ [last] = first :: rest := List.exists_cons_of_ne_nil (by simp)
  have bytes := cut.bytes
  have blanks : ∀ word ∈ first :: rest, byte ' ' ∉ word := by
    intro word member
    exact ((isCopied_iff word).mp (plain word (ending ▸ member)).2.1).2
  have shorter : (cString key).length ≤ key.length := (List.takeWhile_prefix _).length_le
  have parts (front back : List Text) : total (front ++ back) = total front + total back := by
    simp [total]
  rw [ending, unwords_cons _ _ (by simp), List.count_append, List.count_cons_self,
    (count_unwords_iff first rest).mpr blanks, List.length_append, List.length_cons, length_unwords, total_cons, parts] at bytes
  have none : total before = 0 := by
    simp only [List.length_nil] at bytes
    omega
  cases before with
  | nil => rfl
  | cons word before =>
      have some := (cut.words word (by simp)).1
      rw [total_cons] at none
      exact absurd (List.length_eq_zero_iff.mp (by omega)) some

theorem formatFrom_ending_iff (rest : List Text) :
    formatFrom [] false (unwords (cString key :: (init ++ [last]))) [] = some (key :: rest) ↔
      Plain key ∧ rest = init ++ [last] := by
  constructor
  · intro formatted
    have whole := formatted
    rw [unwords_cons _ _ (by simp)] at whole
    obtain ⟨before, after, ending, shape⟩ := formatFrom_split _ _ [] false _ (by simp) whole
    have lastPlain := plain last (by simp)
    rw [formatFrom_unwords init last (fun word member => (plain word (by simp [member])).2)
      (isCopiedLast_of_plain last lastPlain) lastPlain.2.2] at ending
    obtain rfl := Option.some.inj ending
    cases before with
    | nil =>
        -- The key is one of the words behind it, so it is passed on itself.
        have plainKey := plain key (by rw [List.nil_append] at shape; rw [← shape]; simp)
        rw [formatFrom_plain key init last plain plainKey] at formatted
        exact ⟨plainKey, ((List.cons.inj (Option.some.inj formatted)).2).symm⟩
    | cons first before =>
        obtain ⟨rfl, rfl⟩ := List.cons.inj shape
        obtain rfl := before_eq_nil key init last plain before formatted
        refine ⟨?_, rfl⟩
        have same : (init ++ [last]).map cString = init ++ [last] :=
          (List.map_congr_left fun word member => cString_eq_self word (plain word member).1).trans (List.map_id _)
        have words := (formatFrom_words_iff (key :: init) last).mp (by
          rw [List.cons_append, List.map_cons, same]
          exact formatted)
        exact words.1 key (by simp)
  · intro ⟨plainKey, same⟩
    rw [same]
    exact formatFrom_plain key init last plain plainKey

end Texts

/-! ## The command word -/

section Words

variable {lib : Common} {argv : List Text} {holder : CommandHolder Handler} {args : List Text}
variable (named : holder.named argv) (some : 0 < argv.length) (single : holder.whiteSpacesCount = 0)

include named some single

theorem isUserCommand_iff (words : List Text) :
    isUserCommand argv holder words ↔ ∃ word, words = [word] ∧ lower (cString word) = lower holder.name := by
  obtain ⟨first, rest, rfl⟩ := List.exists_cons_of_length_pos some
  have name : lower (cString first) = lower holder.name := by
    simpa [CommandHolder.named, single] using named
  simp only [isUserCommand, single, Nat.zero_add, List.take_succ_cons, List.take_zero, List.map_cons, List.map_nil,
    List.map_eq_singleton_iff, name]

variable {word : Text} (clean : (0 : UInt8) ∉ word)

include clean

theorem carries_iff (name : holder.name = word) (rest : List Text) (isDel : holder.func = .del → ∃ key, args = [key]) :
    Carries argv holder args [word :: rest] ↔ rest = args := by
  simp only [Carries, isUserCommand_iff named some single]
  constructor
  · intro ⟨_, ⟨first, rfl, _⟩, sent⟩
    rcases sent with sent | ⟨del, sent⟩
    · exact (List.cons.inj (List.singleton_inj.mp sent)).2
    · obtain ⟨key, rfl⟩ := isDel del
      exact (List.cons.inj (List.singleton_inj.mp sent)).2
  · intro same
    exact ⟨[word], ⟨word, rfl, by rw [cString_eq_self word clean, name]⟩, Or.inl (by rw [same]; rfl)⟩

-- A handler that sends one command with its own word.
theorem faithful_iff_of_forward (name : holder.name = word) (other : holder.func ≠ .del) (found : Option (List Text))
    (sends : forward lib argv holder.func args = found.map fun rest => [word :: rest]) :
    Faithful lib argv holder args ↔ found = Option.some args := by
  have carries := @carries_iff argv holder args named some single word clean name
  unfold Faithful
  rw [sends]
  constructor
  · intro ⟨sent, shape, carried⟩
    obtain ⟨rest, result, rfl⟩ := Option.map_eq_some_iff.mp shape
    rw [result, (carries rest fun del => absurd del other).mp carried]
  · intro result
    rw [result]
    exact ⟨[word :: args], rfl, (carries args fun del => absurd del other).mpr rfl⟩

end Words

/-! ## The handlers -/

-- The names and argument counts of the entries with a handler of their own.
def entry : Handler → Option (String × Nat × Nat)
  | .get => some ("GET", 1, 0)
  | .smembers => some ("SMEMBERS", 1, 0)
  | .hgetall => some ("HGETALL", 1, 0)
  | .set => some ("SET", 2, 5)
  | .lrange => some ("LRANGE", 3, 0)
  | .zrange => some ("ZRANGE", 3, 1)
  | .del => some ("DEL", 1, infiniteArgs)
  | .persist => some ("PERSIST", 1, 0)
  | .rename => some ("RENAME", 2, 0)
  | .expire => some ("EXPIRE", 2, 0)
  | _ => none

theorem commands_entry : ∀ holder ∈ commands, ∀ known ∈ entry holder.func,
    holder.name = ascii known.1 ∧ holder.required = known.2.1 ∧ holder.optional = known.2.2 := by
  decide +kernel

theorem format_numbers (key : Text) (start stop : Int) (clean : (0 : UInt8) ∉ key) :
    redisFormatCommand (ascii "LRANGE %s %d %d") [.s key, .d start, .d stop] =
      some [ascii "LRANGE", key, intText start, intText stop] := by
  have shape : ascii "LRANGE %s %d %d" =
      ascii "LRANGE" ++ ascii " %s" ++ [byte ' ', byte '%', byte 'd', byte ' ', byte '%', byte 'd'] := by decide
  rw [shape, format_key (ascii "LRANGE") key (by decide) (by decide) (by decide) clean _ _ (by decide),
    formatFrom_blank, formatFrom_number, formatFrom_blank, formatFrom_number]
  rfl

theorem isNumber_iff (lib : Common) (lawful : lib.Lawful) (text : Text) :
    intText (number lib text).toInt = text ↔ IsNumber text := by
  constructor
  · exact fun same => ⟨number lib text, same.symm⟩
  · intro ⟨i, same⟩
    rw [same, number, cString_eq_self _ (plain_intText _).1, lawful.toInt_intText]

section Forward

variable {lib : Common} (lawful : lib.Lawful) (argv : List Text)

theorem sendText_words (word : Text) (rest : List Text) (copied : isCopied word = true) (nonempty : word ≠ [])
    (clean : (0 : UInt8) ∉ word) (more : rest ≠ []) (cleanRest : ∀ other ∈ rest, (0 : UInt8) ∉ other) :
    sendText (.ok (unwords (word :: rest))) = (formatFrom [] false (unwords rest) []).map (word :: ·) := by
  show redisFormatCommand (unwords (word :: rest)) [] = _
  rw [unwords_cons word rest more, format_line word _ copied nonempty clean,
    cString_eq_self _ ((nul_not_mem_unwords rest).mpr cleanRest)]

include lawful

theorem deleteText_eq (key : Text) : deleteText lib key = .ok (unwords [ascii "DEL", cString key]) := by
  show Except.ok (lib.memSPrintf _ _) = _
  rw [lawful.memSPrintf_eq]
  rfl

theorem renameText_eq (key newKey : Text) :
    renameText lib key newKey = .ok (unwords [ascii "RENAME", cString key, cString newKey]) := by
  show Except.ok (lib.memSPrintf _ _) = _
  rw [lawful.memSPrintf_eq]
  rfl

theorem setTTLText_eq (key : Text) (ttl : Int32) :
    setTTLText lib key ttl = .ok (unwords
      (if ttl = -1 then [ascii "PERSIST", cString key] else [ascii "EXPIRE", cString key, intText ttl.toInt])) := by
  show (if ttl = -1 then Except.ok (lib.memSPrintf _ _) else Except.ok (lib.memSPrintf _ _)) = _
  rw [lawful.memSPrintf_eq, lawful.memSPrintf_eq]
  split <;> rfl

-- The numbers of a range, and the option when it is recognised.
def rangeWords (lib : Common) (start stop : Text) (options : List Text) : List Text :=
  [intText (number lib start).toInt, intText (number lib stop).toInt] ++
    if withScores options then [ascii "WITHSCORES"] else []

theorem zrangeText_eq (key start stop : Text) (options : List Text) :
    zrangeText lib key start stop options =
      .ok (unwords (ascii "ZRANGE" :: cString key :: rangeWords lib start stop options)) := by
  unfold zrangeText rangeWords
  dsimp only [CommandTranslator.print]
  rw [lawful.memSPrintf_eq, lawful.memSPrintf_eq]
  split <;> rfl

end Forward

theorem rangeWords_plain (lib : Common) (start stop : Text) (options : List Text) :
    ∃ init last, rangeWords lib start stop options = init ++ [last] ∧ ∀ word ∈ init ++ [last], Plain word := by
  have option : Plain (ascii "WITHSCORES") := ⟨by decide, by decide, by decide⟩
  have numbers := plain_intText
  unfold rangeWords
  split
  · exact ⟨[_, _], _, rfl, by simp [option, numbers]⟩
  · exact ⟨[_], _, rfl, by simp [numbers]⟩

-- The option is passed on when it is written as the source compares it, and dropped otherwise.
theorem withScores_iff (options : List Text) :
    (options = if withScores options then [ascii "WITHSCORES"] else []) ↔
      options = [] ∨ options = [ascii "WITHSCORES"] := by
  constructor
  · intro same
    rw [same]
    split
    · exact Or.inr rfl
    · exact Or.inl rfl
  · intro cases
    rcases cases with rfl | rfl
    · rfl
    · have recognised : withScores [ascii "WITHSCORES"] = true := by decide
      rw [if_pos recognised]

theorem mapM_map_iff {A B : Type} (f : A → Option B) (g : A → B) (list : List A) :
    list.mapM f = some (list.map g) ↔ ∀ a ∈ list, f a = some (g a) := by
  induction list with
  | nil => simp
  | cons a list ih =>
      simp only [List.mapM_cons, Option.bind_eq_bind, Option.bind_eq_some_iff, Option.pure_def, List.map_cons,
        Option.some.injEq, List.cons.injEq, List.forall_mem_cons, ← ih]
      constructor
      · intro ⟨b, first, rest, others, same, tail⟩
        rw [first, others, same, tail]
        exact ⟨rfl, rfl⟩
      · intro ⟨first, others⟩
        exact ⟨g a, first, list.map g, others, rfl, rfl⟩

section Called

-- The equations of both are made here, once for the proofs below.
attribute [local simp] Forwardable forward

variable {lib : Common} (lawful : lib.Lawful) {argv : List Text} {holder : CommandHolder Handler} {args : List Text}
variable (called : dispatch commands argv = .call holder args)

include called

theorem called_entry (known : String × Nat × Nat) (listed : entry holder.func = some known) :
    holder.named argv ∧ 0 < argv.length ∧ holder.whiteSpacesCount = 0 ∧ holder.name = ascii known.1 ∧
      known.2.1 ≤ args.length ∧ args.length ≤ known.2.1 + known.2.2 := by
  obtain ⟨member, named, enough, _, low, high⟩ := dispatch_call commands argv holder args called
  obtain ⟨name, required, optional⟩ := commands_entry holder member known listed
  have spaces := commands_spaces holder member
  rw [if_neg (by intro off2; rw [off2] at listed; cases listed)] at spaces
  simp only [CommandHolder.minArgumentsCount, CommandHolder.maxArgumentsCount, required, optional] at low high
  exact ⟨named, by omega, spaces, name, low, high⟩

theorem forward_verbatim (n : Nat) (words : holder.whiteSpacesCount + 1 = n) :
    Carries argv holder args [stepBack argv args n] := by
  obtain ⟨_, _, enough, rfl, _⟩ := dispatch_call commands argv holder args called
  refine ⟨argv.take n, by rw [isUserCommand, words], Or.inl ?_⟩
  have start : argv.length - ((argv.drop n).length + n) = 0 := by
    rw [List.length_drop]
    omega
  rw [words, stepBack, start, List.drop_zero, List.take_append_drop]

-- `GET`, `SMEMBERS` and `HGETALL`.
theorem faithful_load (word : String) (handler : Handler) (func : holder.func = handler)
    (listed : entry handler = some (word, 1, 0)) (other : handler ≠ .del)
    (copied : isCopied (ascii word) = true) (nonempty : ascii word ≠ []) (clean : (0 : UInt8) ∉ ascii word)
    (sends : ∀ key rest, forward lib argv handler (key :: rest) =
      (redisFormatCommand (ascii word ++ ascii " %s") [.s (cString key)]).map ([·]))
    (able : ∀ key, Forwardable handler [key] ↔ (0 : UInt8) ∉ key) :
    Faithful lib argv holder args ↔ Forwardable holder.func args := by
  subst func
  obtain ⟨named, some, single, name, low, high⟩ := called_entry called _ listed
  obtain ⟨key, rfl⟩ : ∃ key, args = [key] := List.length_eq_one_iff.mp (by simp only at low high; omega)
  rw [faithful_iff_of_forward named some single clean name other (Option.some [cString key])]
  · rw [able, Option.some.injEq, List.singleton_inj, cString_eq_iff]
  · rw [sends, format_key_only _ _ copied nonempty clean (nul_not_mem_cString key)]
    rfl

theorem faithful_set (func : holder.func = .set) : Faithful lib argv holder args ↔ Forwardable holder.func args := by
  obtain ⟨named, some, single, name, low, high⟩ := called_entry called ("SET", 2, 5) (by rw [func]; rfl)
  obtain ⟨key, value, options, rfl⟩ : ∃ key value options, args = key :: value :: options := by
    match args with
    | [] | [_] => simp at low
    | key :: value :: options => exact ⟨key, value, options, rfl⟩
  rw [faithful_iff_of_forward named some single (by decide) name (by rw [func]; decide)
    (Option.some [cString key, cString value])]
  · rw [func]
    simp only [Forwardable, Option.some.injEq, List.cons.injEq, cString_eq_iff]
    rw [eq_comm (a := [])]
  · rw [func, forward, format_set _ _ (nul_not_mem_cString key) (nul_not_mem_cString value)]
    rfl

include lawful

theorem faithful_lrange (func : holder.func = .lrange) :
    Faithful lib argv holder args ↔ Forwardable holder.func args := by
  obtain ⟨named, some, single, name, low, high⟩ := called_entry called ("LRANGE", 3, 0) (by rw [func]; rfl)
  obtain ⟨key, start, stop, rfl⟩ : ∃ key start stop, args = [key, start, stop] :=
    List.length_eq_three.mp (by simp only at low high; omega)
  rw [faithful_iff_of_forward named some single (by decide) name (by rw [func]; decide)
    (Option.some [cString key, intText (number lib start).toInt, intText (number lib stop).toInt])]
  · rw [func]
    simp only [Forwardable, Option.some.injEq, List.cons.injEq, cString_eq_iff, isNumber_iff lib lawful, and_true]
  · rw [func, forward, format_numbers _ _ _ (nul_not_mem_cString key)]
    rfl

theorem faithful_persist (func : holder.func = .persist) :
    Faithful lib argv holder args ↔ Forwardable holder.func args := by
  obtain ⟨named, some, single, name, low, high⟩ := called_entry called ("PERSIST", 1, 0) (by rw [func]; rfl)
  obtain ⟨key, rfl⟩ : ∃ key, args = [key] := List.length_eq_one_iff.mp (by simp only at low high; omega)
  rw [faithful_iff_of_forward named some single (by decide) name (by rw [func]; decide)
    (formatFrom [] false (unwords [cString key]) [])]
  · have words := formatFrom_words_iff [] key
    rw [func]
    simpa [Forwardable] using words
  · rw [func, forward, setTTLText_eq lawful, if_pos rfl, sendText_words _ _ (by decide) (by decide) (by decide) (by simp)
      (by simpa using nul_not_mem_cString key), Option.map_map]
    rfl

theorem faithful_rename (func : holder.func = .rename) :
    Faithful lib argv holder args ↔ Forwardable holder.func args := by
  obtain ⟨named, some, single, name, low, high⟩ := called_entry called ("RENAME", 2, 0) (by rw [func]; rfl)
  obtain ⟨key, newKey, rfl⟩ : ∃ key newKey, args = [key, newKey] :=
    List.length_eq_two.mp (by simp only at low high; omega)
  rw [faithful_iff_of_forward named some single (by decide) name (by rw [func]; decide)
    (formatFrom [] false (unwords [cString key, cString newKey]) [])]
  · have words := formatFrom_words_iff [key] newKey
    rw [func]
    simpa [Forwardable] using words
  · rw [func, forward, renameText_eq lawful, sendText_words _ _ (by decide) (by decide) (by decide) (by simp)
      (by simp [nul_not_mem_cString]), Option.map_map]
    rfl

theorem faithful_expire (func : holder.func = .expire) :
    Faithful lib argv holder args ↔ Forwardable holder.func args := by
  obtain ⟨named, some, single, name, low, high⟩ := called_entry called ("EXPIRE", 2, 0) (by rw [func]; rfl)
  obtain ⟨key, ttl, rfl⟩ : ∃ key ttl, args = [key, ttl] := List.length_eq_two.mp (by simp only at low high; omega)
  have printed (i : Int32) (same : ttl = intText i.toInt) : number lib ttl = i := by
    rw [number, same, cString_eq_self _ (plain_intText _).1, lawful.toInt_intText]
  by_cases never : number lib ttl = -1
  · -- The source takes the number -1 for a key without a time to live.
    have sends : forward lib argv holder.func [key, ttl] =
        (formatFrom [] false (unwords [cString key]) []).map fun rest => [ascii "PERSIST" :: rest] := by
      rw [func, forward, never, setTTLText_eq lawful, if_pos rfl, sendText_words _ _ (by decide) (by decide)
        (by decide) (by simp) (by simpa using nul_not_mem_cString key), Option.map_map]
      rfl
    have refused : ¬ Faithful lib argv holder [key, ttl] := by
      intro ⟨sent, shape, words, command, carried⟩
      obtain ⟨first, rfl, same⟩ := (isUserCommand_iff named some single words).mp command
      rw [sends] at shape
      obtain ⟨rest, _, rfl⟩ := Option.map_eq_some_iff.mp shape
      rcases carried with carried | ⟨del, _⟩
      · rw [← (List.cons.inj (List.singleton_inj.mp carried)).1, name] at same
        revert same
        decide
      · rw [func] at del
        cases del
    refine iff_of_false refused ?_
    rw [func]
    intro ⟨_, i, differs, same⟩
    exact differs ((printed i same).symm.trans never)
  · rw [faithful_iff_of_forward named some single (by decide) name (by rw [func]; decide)
      (formatFrom [] false (unwords (cString key :: ([] ++ [intText (number lib ttl).toInt]))) []),
      formatFrom_ending_iff key [] _ (by simpa using plain_intText _), func]
    · simp only [Forwardable, List.nil_append, List.singleton_inj]
      apply and_congr_right
      intro _
      constructor
      · exact fun same => ⟨number lib ttl, never, same⟩
      · intro ⟨i, _, same⟩
        rw [printed i same]
        exact same
    · rw [func, forward, setTTLText_eq lawful, if_neg never, sendText_words _ _ (by decide) (by decide) (by decide)
        (by simp) (by simpa using ⟨nul_not_mem_cString key, (plain_intText _).1⟩), Option.map_map]
      rfl

theorem faithful_zrange (func : holder.func = .zrange) :
    Faithful lib argv holder args ↔ Forwardable holder.func args := by
  obtain ⟨named, some, single, name, low, high⟩ := called_entry called ("ZRANGE", 3, 1) (by rw [func]; rfl)
  obtain ⟨key, start, stop, options, rfl⟩ : ∃ key start stop options, args = key :: start :: stop :: options := by
    match args with
    | [] | [_] | [_, _] => simp at low
    | key :: start :: stop :: options => exact ⟨key, start, stop, options, rfl⟩
  obtain ⟨init, last, shape, plain⟩ := rangeWords_plain lib start stop options
  rw [faithful_iff_of_forward named some single (by decide) name (by rw [func]; decide)
    (formatFrom [] false (unwords (cString key :: rangeWords lib start stop options)) []), shape,
    formatFrom_ending_iff key init last plain, ← shape, func]
  · simp only [Forwardable, rangeWords, List.cons_append, List.nil_append, List.cons.injEq]
    rw [eq_comm (a := start), eq_comm (a := stop), isNumber_iff lib lawful, isNumber_iff lib lawful, withScores_iff]
  · have clean : ∀ word ∈ cString key :: rangeWords lib start stop options, (0 : UInt8) ∉ word := by
      intro word member
      rcases List.mem_cons.mp member with rfl | later
      · exact nul_not_mem_cString key
      · exact (plain word (shape ▸ later)).1
    rw [func, forward, zrangeText_eq lawful, sendText_words _ _ (by decide) (by decide) (by decide) (by simp) clean,
      Option.map_map]
    rfl

theorem faithful_del (func : holder.func = .del) : Faithful lib argv holder args ↔ Forwardable holder.func args := by
  obtain ⟨named, some, single, name, low, high⟩ := called_entry called ("DEL", 1, infiniteArgs) (by rw [func]; rfl)
  have sends (key : Text) : sendText (deleteText lib key) =
      (formatFrom [] false (unwords [cString key]) []).map (ascii "DEL" :: ·) := by
    rw [deleteText_eq lawful, sendText_words _ _ (by decide) (by decide) (by decide) (by simp)
      (by simpa using nul_not_mem_cString key)]
  have own (key : Text) (word : Text) : sendText (deleteText lib key) = Option.some [word, key] ↔
      word = ascii "DEL" ∧ PlainLast key := by
    have words := formatFrom_words_iff [] key
    simp only [List.nil_append, List.map_cons, List.map_nil, List.not_mem_nil, false_implies, implies_true,
      true_and] at words
    rw [sends, ← words, Option.map_eq_some_iff]
    simp [eq_comm, and_comm]
  rw [func]
  simp only [Faithful, Carries, isUserCommand_iff named some single, func, forward, Forwardable]
  constructor
  · intro ⟨sent, mapped, _, ⟨word, rfl, _⟩, shape⟩
    have each : sent = args.map fun key => [word] ++ [key] := by
      rcases shape with whole | ⟨_, each⟩
      · match args with
        | [] => simp at low
        | [key] => exact whole
        | first :: second :: rest =>
            -- Every key is sent in a command of its own.
            simp only [List.mapM_cons, Option.bind_eq_bind, Option.bind_eq_some_iff, Option.pure_def,
              Option.some.injEq] at mapped
            obtain ⟨_, _, _, ⟨_, _, _, _, rfl⟩, rfl⟩ := mapped
            simp at whole
      · exact each
    rw [each, mapM_map_iff] at mapped
    intro key member
    exact ((own key word).mp (mapped key member)).2
  · intro all
    refine ⟨args.map fun key => [ascii "DEL"] ++ [key], ?_, [ascii "DEL"], ⟨ascii "DEL", rfl, ?_⟩, Or.inr ⟨trivial, rfl⟩⟩
    · rw [mapM_map_iff]
      exact fun key member => (own key _).mpr ⟨rfl, all key member⟩
    · rw [name]
      rfl

/-- Exactly when a command of the table is sent as the user gave it. -/
theorem faithful_iff (listed : forwards holder.func = true) :
    Faithful lib argv holder args ↔ Forwardable holder.func args := by
  cases func : holder.func <;> rw [func] at listed
  case commonExec =>
    have spaces := commands_spaces holder (dispatch_call commands argv holder args called).1
    rw [func, if_neg (by decide)] at spaces
    refine iff_of_true ⟨_, by rw [func]; rfl, forward_verbatim called 1 (by rw [spaces])⟩ trivial
  case commonExecOff2 =>
    have spaces := commands_spaces holder (dispatch_call commands argv holder args called).1
    rw [func, if_pos rfl] at spaces
    refine iff_of_true ⟨_, by rw [func]; rfl, forward_verbatim called 2 (by rw [spaces])⟩ trivial
  case get =>
    rw [← func]
    exact faithful_load called "GET" .get func rfl (by decide) (by decide) (by decide) (by decide) (fun _ _ => rfl)
      fun _ => Iff.rfl
  case smembers =>
    rw [← func]
    exact faithful_load called "SMEMBERS" .smembers func rfl (by decide) (by decide) (by decide) (by decide)
      (fun _ _ => rfl) fun _ => Iff.rfl
  case hgetall =>
    rw [← func]
    exact faithful_load called "HGETALL" .hgetall func rfl (by decide) (by decide) (by decide) (by decide)
      (fun _ _ => rfl) fun _ => Iff.rfl
  case set => exact func ▸ faithful_set called func
  case lrange => exact func ▸ faithful_lrange lawful called func
  case persist => exact func ▸ faithful_persist lawful called func
  case rename => exact func ▸ faithful_rename lawful called func
  case expire => exact func ▸ faithful_expire lawful called func
  case zrange => exact func ▸ faithful_zrange lawful called func
  case del => exact func ▸ faithful_del lawful called func
  all_goals cases listed

end Called

/-! ## Commands -/

section Concrete

def zrangeArgs : List Text := [ascii "k", ascii "0", ascii "-1", ascii "WITHSCORES"]

def setArgs : List Text := [ascii "k", ascii "v", ascii "EX", ascii "10"]

theorem dispatch_zrange :
    dispatch commands (ascii "zrange" :: zrangeArgs) = .call ⟨ascii "ZRANGE", 3, 1, .zrange⟩ zrangeArgs := by
  have known : ("ZRANGE", 3, 1, Handler.zrange) ∈ writtenCommands := by simp [writtenCommands]
  rw [dispatch_written known (ascii "zrange") zrangeArgs (by decide) (by decide)]
  rfl

theorem dispatch_set : dispatch commands (ascii "SET" :: setArgs) = .call ⟨ascii "SET", 2, 5, .set⟩ setArgs := by
  have known : ("SET", 2, 5, Handler.set) ∈ writtenCommands := by simp [writtenCommands]
  rw [dispatch_written known (ascii "SET") setArgs (by decide) rfl]
  rfl

theorem dispatch_del :
    dispatch commands [ascii "DEL", ascii "a b"] = .call ⟨ascii "DEL", 1, infiniteArgs, .del⟩ [ascii "a b"] := by
  have known : ("DEL", 1, infiniteArgs, Handler.del) ∈ writtenCommands := by simp [writtenCommands]
  rw [dispatch_written known (ascii "DEL") _ (by decide) rfl]
  rfl

/-- A range of a sorted set with its scores. -/
theorem zrange_faithful :
    dispatch commands (ascii "zrange" :: zrangeArgs) = .call ⟨ascii "ZRANGE", 3, 1, .zrange⟩ zrangeArgs ∧
      Faithful .std (ascii "zrange" :: zrangeArgs) ⟨ascii "ZRANGE", 3, 1, .zrange⟩ zrangeArgs := by
  have plain : Plain (ascii "k") := ⟨by decide, by decide, by decide⟩
  have start : IsNumber (ascii "0") := ⟨0, by decide⟩
  have stop : IsNumber (ascii "-1") := ⟨-1, by decide⟩
  exact ⟨dispatch_zrange,
    (faithful_iff Common.std_lawful dispatch_zrange rfl).mpr ⟨plain, start, stop, Or.inr rfl⟩⟩

/-- The options of `SET` are dropped, and a key with a blank in it is deleted as two. -/
theorem options_dropped_key_split :
    (dispatch commands (ascii "SET" :: setArgs) = .call ⟨ascii "SET", 2, 5, .set⟩ setArgs ∧
      forward .std (ascii "SET" :: setArgs) .set setArgs = some [[ascii "SET", ascii "k", ascii "v"]] ∧
      ¬ Faithful .std (ascii "SET" :: setArgs) ⟨ascii "SET", 2, 5, .set⟩ setArgs) ∧
    dispatch commands [ascii "DEL", ascii "a b"] = .call ⟨ascii "DEL", 1, infiniteArgs, .del⟩ [ascii "a b"] ∧
      forward .std [ascii "DEL", ascii "a b"] .del [ascii "a b"] = some [[ascii "DEL", ascii "a", ascii "b"]] ∧
      ¬ Faithful .std [ascii "DEL", ascii "a b"] ⟨ascii "DEL", 1, infiniteArgs, .del⟩ [ascii "a b"] := by
  refine ⟨⟨dispatch_set, by decide, ?_⟩, dispatch_del, by decide, ?_⟩
  · rw [faithful_set dispatch_set rfl]
    intro able
    exact absurd able.2.2 (List.cons_ne_nil _ _)
  · rw [faithful_del Common.std_lawful dispatch_del rfl]
    intro all
    have copied := (all (ascii "a b") List.mem_cons_self).2.1
    revert copied
    decide

end Concrete

end FastoNoSQL.Redis
