import FastoNoSQL.Command.Tables
import FastoNoSQL.Driver.Understood
import FastoNoSQL.Redis.Server
import FastoNoSQL.Store.Connection

set_option autoImplicit false

/-!
# Creating a key and loading it

The way of a string value from the translator to the store and back: the text
is split, the table picks a handler, the handler picks arguments by position
and the connection stores them.
-/

namespace FastoNoSQL

open Bytes Sds Store

-- The outcome of one executed command: the value it loaded, if it loads one, and the store.
abbrev Executed := Except ErrorValue (Option Text) × Content

/-- The outside of the back-ends, with every command but `SET` and `GET`. -/
structure World where
  lib : Common
  notFound : Text
  server : Redis.Server
  otherCall : Call → Content → Executed
  otherCommand : Redis.Handler → List Text → Content → Executed

namespace World

variable (world : World)

def refusal {Handler : Type} (argv : List Text) : Dispatch Handler → ErrorValue
  | .invalidArguments holder passed =>
    ⟨world.lib.memSPrintf
      (ascii "Invalid input argument for command: '%s', passed %d, must be in range %d - %d.")
      [.s holder.name, .d passed, .d holder.maxArgumentsCount, .d holder.minArgumentsCount], true⟩
  | _ => ⟨world.lib.memSPrintf (ascii "Unknown sequence: '%s'.") [.s (unwords (argv.map cString))], true⟩

/-- The connection functions behind `set` and `get`. -/
def call (type : ConnectionType) (store : type ≠ .redis) : Call → Content → Executed
  | .function .set [key, value], content =>
    let answer := Store.set (.ofType world.notFound (fun _ => none) type store) ⟨⟨key, -1⟩, .string, value⟩
      ⟨true, content, 0⟩
    (answer.result.map fun _ => none, answer.connection.content)
  | .function .get [key], content =>
    let answer := Store.get (.ofType world.notFound (fun _ => none) type store) ⟨key, -1⟩ ⟨true, content, 0⟩
    (answer.result.map fun loaded => some loaded.valueString, answer.connection.content)
  | call, content => world.otherCall call content

-- `CommandHandler::Execute` of a store; none when the handler reads past its arguments.
def executeStore (type : ConnectionType) (store : type ≠ .redis) (argv : List Text) (content : Content) :
    Option Executed :=
  match dispatch (commandsOf type store) argv with
  | .call holder args => (holder.func.run args).map fun call => world.call type store call content
  | refused => some (.error (world.refusal argv refused), content)

-- What `redisCommand` sends and the server answers; none for a pattern that it cannot send.
def redisCommand (pattern : Text) (args : List Arg) (content : Content) : Option (Redis.Reply × Content) :=
  (Redis.redisFormatCommand pattern args).map (world.server.serve content)

/-- `SetImpl` and `GetImpl` of redis. -/
def redisCall : Redis.Handler → List Text → Content → Option Executed
  | .set, key :: value :: _, content =>
    match world.redisCommand (ascii "SET %s %s") [.s (cString key), .s (cString value)] content with
    | none => none
    | some (.error text, content) => some (.error ⟨text, true⟩, content)
    | some (_, content) => some (.ok none, content)
  | .get, key :: _, content =>
    match world.redisCommand (ascii "GET %s") [.s (cString key)] content with
    | some (.string text, content) => some (.ok (some (cString text)), content)
    | some (.nil, content) => some (.ok none, content)
    | some (.error text, content) => some (.error ⟨text, true⟩, content)
    -- `NOTREACHED`
    | _ => none
  | handler, args, content => some (world.otherCommand handler args content)

def executeRedis (argv : List Text) (content : Content) : Option Executed :=
  match dispatch Redis.commands argv with
  | .call holder args => world.redisCall holder.func args content
  | refused => some (.error (world.refusal argv refused), content)

def execute (type : ConnectionType) (argv : List Text) (content : Content) : Option Executed :=
  if redis : type = .redis then world.executeRedis argv content else world.executeStore type redis argv content

/-- A request is translated, split and executed. -/
def submit (type : ConnectionType) (request : KeyRequest) (content : Content) : Option Executed :=
  match request.translate (.ofType world.lib type) with
  | .error err => some (.error err, content)
  | .ok text =>
    match sdssplitargslong text with
    | none => some (.error (makeErrorValue "Invalid input argument(s)"), content)
    | some argv => world.execute type argv content

-- Create and then load: both succeed, only `key` has changed, and the load yields the value.
def CreatesAndLoads (type : ConnectionType) (key value : Text) (content : Content) : Prop :=
  world.submit type (.create key value) content = some (.ok none, content.put key value) ∧
    world.submit type (.load key .string) (content.put key value) =
      some (.ok (some value), content.put key value)

end World

/-! ## Splitting a line that a NUL byte may cut short -/

-- The claim of a word without quoting, with no condition on NUL bytes.
def isUnquoted (text : Text) : Bool := text ≠ [] && text.all isPlain

theorem isWord_of_isUnquoted (text : Text) (unquoted : isUnquoted text = true) (clean : (0 : UInt8) ∉ text) :
    isWord text = true := by
  simp only [isUnquoted, isWord, Bool.and_eq_true, List.all_eq_true, decide_eq_true_eq] at unquoted ⊢
  exact ⟨unquoted.1, fun c member => ⟨unquoted.2 c member, fun zero => clean (zero ▸ member)⟩⟩

theorem isWord_cString (text : Text) (unquoted : isUnquoted text = true) (some : cString text ≠ []) :
    isWord (cString text) = true := by
  apply isWord_of_isUnquoted _ _ (nul_not_mem_cString text)
  simp only [isUnquoted, Bool.and_eq_true, List.all_eq_true, decide_eq_true_eq] at unquoted ⊢
  exact ⟨some, fun c member => unquoted.2 c ((List.takeWhile_prefix _).subset member)⟩

theorem splitFrom_unwords_append (words : List Text) (more : words ≠ [])
    (all : ∀ word ∈ words, isWord word = true) (tail : Text) :
    splitFrom .blank 0 (unwords words ++ byte ' ' :: tail) =
      (splitFrom .blank 0 tail).map (words ++ ·) := by
  induction words with
  | nil => exact absurd rfl more
  | cons first rest ih =>
      have bare := (isBare_of_isWord first (all first (by simp))).1
      cases rest with
      | nil =>
          have ends : Ends (byte ' ' :: tail) := rfl
          rw [unwords_singleton, splitFrom_bare first _ ends bare, splitFrom_blank_space]
          rfl
      | cons second rest =>
          have later := ih (by simp) fun word member => all word (List.mem_cons_of_mem first member)
          have ends : Ends (byte ' ' :: (unwords (second :: rest) ++ byte ' ' :: tail)) := rfl
          rw [unwords_cons_cons, List.append_assoc, List.cons_append, splitFrom_bare first _ ends bare,
            splitFrom_blank_space, later, Option.map_map]
          rfl

-- The arguments of a line are those before the first NUL byte.
theorem sdssplitargslong_cut (init : List Text) (last tail : Text) (more : init ≠ [])
    (all : ∀ word ∈ init, isWord word = true) (unquoted : isUnquoted last = true)
    (cut : tail = [] ∨ (0 : UInt8) ∈ last) :
    sdssplitargslong (unwords init ++ byte ' ' :: (last ++ tail)) =
      some (init ++ if cString last = [] then [] else [cString last]) := by
  have clean : (0 : UInt8) ∉ unwords init ++ [byte ' '] := by
    have space : (0 : UInt8) ≠ byte ' ' := by decide
    have words := (nul_not_mem_unwords init).mpr fun word member => (isBare_of_isWord word (all word member)).2
    simp [words, space]
  have shown : cString (last ++ tail) = cString last := by
    rcases cut with rfl | nul
    · simp
    · exact cString_append_of_nul last tail nul
  have line : cString (unwords init ++ byte ' ' :: (last ++ tail)) = unwords init ++ byte ' ' :: cString last := by
    have joined := cString_append_of_clean (unwords init ++ [byte ' ']) (last ++ tail) clean
    rw [shown] at joined
    simpa using joined
  rw [sdssplitargslong, line, splitFrom_unwords_append init more all]
  by_cases empty : cString last = []
  · simp [empty, atEnd]
  · have word := (isBare_of_isWord _ (isWord_cString last unquoted empty)).1
    have split := splitFrom_bare (cString last) [] trivial word
    simp only [List.append_nil, splitFrom_nil, atEnd, Option.map_some] at split
    simp [empty, split]

/-! ## The `SET` and `GET` entries -/

def World.setCount : ConnectionType → Nat
  | .memcached => 4
  | _ => 2

theorem store_entries (type : ConnectionType) (store : type ≠ .redis) :
    (commandsOf type store).filter (startsWith (ascii "SET")) =
        [⟨ascii "SET", World.setCount type, 0, .call .set (.positions [0, 1])⟩] ∧
      (commandsOf type store).filter (startsWith (ascii "GET")) =
        [⟨ascii "GET", 1, 0, .call .get (.positions [0])⟩] := by
  cases type with
  | redis => exact absurd rfl store
  | _ => decide +revert

theorem set_written : ("SET", 2, 5, Redis.Handler.set) ∈ Redis.writtenCommands := by
  simp [Redis.writtenCommands]

theorem get_written : ("GET", 1, 0, Redis.Handler.get) ∈ Redis.writtenCommands := by
  simp [Redis.writtenCommands]

namespace World

section Execute

variable (world : World) (lawful : world.server.Lawful) (type : ConnectionType) (content : Content)

theorem execute_set_short (args : List Text) (short : args.length < setCount type) :
    ∃ err, world.execute type (ascii "SET" :: args) content = some (.error err, content) := by
  unfold execute
  split
  next redis =>
    subst redis
    have refused : ¬ (⟨ascii "SET", 2, 5, .set⟩ : CommandHolder Redis.Handler).accepts args.length :=
      fun accepted => absurd (Nat.lt_of_lt_of_le short accepted.1) (lt_irrefl _)
    rw [executeRedis, Redis.dispatch_written set_written (ascii "SET") args (by decide) rfl, if_neg refused]
    exact ⟨_, rfl⟩
  next store =>
    have refused : ¬ (⟨ascii "SET", setCount type, 0, .call .set (.positions [0, 1])⟩ :
        CommandHolder Handler).accepts args.length :=
      fun accepted => absurd (Nat.lt_of_lt_of_le short accepted.1) (lt_irrefl _)
    rw [executeStore, dispatch_known ⟨ascii "SET", setCount type, 0, .call .set (.positions [0, 1])⟩
      (ascii "SET") args (by decide) _ (commandsOf_short type store) (store_entries type store).1
      rfl rfl, if_neg refused]
    exact ⟨_, rfl⟩

include lawful

theorem execute_set (key value : Text) (rest : List Text)
    (count : (key :: value :: rest).length = setCount type) :
    world.execute type (ascii "SET" :: key :: value :: rest) content =
      some (.ok none, content.put (cString key) (cString value)) := by
  unfold execute
  split
  next redis =>
    subst redis
    have accepted : (⟨ascii "SET", 2, 5, .set⟩ : CommandHolder Redis.Handler).accepts
        (key :: value :: rest).length := by
      rw [count]
      decide
    rw [executeRedis, Redis.dispatch_written set_written (ascii "SET") _ (by decide) rfl, if_pos accepted]
    simp only [redisCall, redisCommand, Option.map_some, lawful.serve_set,
      Redis.format_set _ _ (nul_not_mem_cString key) (nul_not_mem_cString value)]
  next store =>
    have accepted : (⟨ascii "SET", setCount type, 0, .call .set (.positions [0, 1])⟩ :
        CommandHolder Handler).accepts (key :: value :: rest).length := by
      rw [count]
      exact ⟨le_refl _, le_refl _⟩
    rw [executeStore, dispatch_known ⟨ascii "SET", setCount type, 0, .call .set (.positions [0, 1])⟩
      (ascii "SET") _ (by decide) _ (commandsOf_short type store) (store_entries type store).1
      rfl rfl, if_pos accepted]
    cases type with
    | redis => exact absurd rfl store
    | _ => rfl

theorem execute_get (key value : Text) (clean : (0 : UInt8) ∉ key) (found : content key = some value) :
    world.execute type [ascii "GET", key] content =
      some (.ok (some (if type = .redis then cString value else value)), content) := by
  unfold execute
  split
  next redis =>
    rw [executeRedis, Redis.dispatch_written get_written (ascii "GET") _ (by decide) rfl,
      if_pos ⟨le_refl 1, le_refl 1⟩]
    simp only [redisCall, redisCommand, cString_eq_self key clean, Redis.format_get key clean, Option.map_some,
      lawful.serve_get, found]
  next store =>
    rw [executeStore, dispatch_known ⟨ascii "GET", 1, 0, .call .get (.positions [0])⟩
      (ascii "GET") _ (by decide) _ (commandsOf_short type store) (store_entries type store).2
      (by decide) rfl, if_pos ⟨le_refl 1, le_refl 1⟩]
    have read : Handler.run (.call .get (.positions [0])) [key] = some (.function .get [key]) := by
      simp [Handler.run, Reads.indices, readAll, cString_eq_self key clean]
    simp only [read, Option.map_some, call, Store.get, guarded, getImpl, getInner, perform, found]
    cases type with
    | redis => exact absurd rfl store
    | _ => rfl

end Execute

/-! ## Create and load -/

section CreateLoad

variable (world : World) (lawful : world.lib.Lawful) (served : world.server.Lawful) (type : ConnectionType)
variable (key value : Text) (keyUnquoted : isUnquoted key = true) (valueUnquoted : isUnquoted value = true)
variable (content : Content)

-- The flags and the expiry time that the memcached translator writes.
def middle : ConnectionType → List Text
  | .memcached => [ascii "0", ascii "0"]
  | _ => []

-- The value that the `set` handler takes for `value`.
def stored : ConnectionType → Text → Text
  | .memcached, _ => ascii "0"
  | _, value => cString value

include lawful

theorem submit_create : world.submit type (.create key value) content =
    match sdssplitargslong (unwords (ascii "SET" :: key :: middle type) ++ byte ' ' :: value) with
    | none => some (.error (makeErrorValue "Invalid input argument(s)"), content)
    | some argv => world.execute type argv content := by
  have translated : (KeyRequest.create key value).translate (.ofType world.lib type) =
      .ok (unwords (ascii "SET" :: key :: middle type) ++ byte ' ' :: value) := by
    rw [← unwords_concat _ _ (by simp)]
    cases type with
    | memcached => exact ValueRequest.print_words world.lib lawful "SET %s 0 0 %s" _ _ rfl
    | _ => exact ValueRequest.print_words world.lib lawful "SET %s %s" _ _ rfl
  rw [submit, translated]

include keyUnquoted

theorem submit_create_nul_key (nul : (0 : UInt8) ∈ key) :
    ∃ err, world.submit type (.create key value) content = some (.error err, content) := by
  obtain ⟨tail, line⟩ : ∃ tail, unwords (ascii "SET" :: key :: middle type) ++ byte ' ' :: value =
      unwords [ascii "SET"] ++ byte ' ' :: (key ++ tail) := by
    cases type with
    | memcached => exact ⟨byte ' ' :: (unwords [ascii "0", ascii "0"] ++ byte ' ' :: value), by
        simp [middle, unwords_cons_cons]⟩
    | _ => exact ⟨byte ' ' :: value, by simp [middle, unwords_cons_cons]⟩
  rw [submit_create world lawful, line, sdssplitargslong_cut [ascii "SET"] key tail (by simp) (by decide)
    keyUnquoted (Or.inr nul)]
  apply world.execute_set_short
  have two : 2 ≤ setCount type := by cases type <;> decide
  split
  · exact Nat.lt_of_succ_lt two
  · exact two

include served valueUnquoted

theorem submit_create_clean_key (clean : (0 : UInt8) ∉ key) :
    if cString value = [] then
      ∃ err, world.submit type (.create key value) content = some (.error err, content)
    else world.submit type (.create key value) content =
      some (.ok none, content.put key (stored type value)) := by
  have keyWord := isWord_of_isUnquoted key keyUnquoted clean
  have words : ∀ word ∈ ascii "SET" :: key :: middle type, isWord word = true := by
    simp only [List.forall_mem_cons]
    exact ⟨by decide, keyWord, by cases type <;> decide⟩
  have split := sdssplitargslong_cut (ascii "SET" :: key :: middle type) value [] (by simp) words valueUnquoted
    (Or.inl rfl)
  rw [List.append_nil] at split
  rw [submit_create world lawful, split]
  split
  next empty =>
    rw [List.append_nil]
    apply world.execute_set_short
    cases type <;> simp [middle, setCount]
  next =>
    cases type with
    | memcached =>
        have same := world.execute_set served .memcached content key (ascii "0")
          [ascii "0", cString value] rfl
        rw [cString_eq_self key clean] at same
        exact same
    | _ =>
        have same := fun type => world.execute_set served type content key (cString value) []
        simp only [cString_eq_self key clean, cString_eq_self _ (nul_not_mem_cString value)] at same
        exact same _ rfl

omit valueUnquoted in
theorem submit_load (clean : (0 : UInt8) ∉ key) :
    world.submit type (.load key .string) (content.put key value) =
      some (.ok (some (if type = .redis then cString value else value)), content.put key value) := by
  have keyWord := isWord_of_isUnquoted key keyUnquoted clean
  have translated : (KeyRequest.load key .string).translate (.ofType world.lib type) =
      .ok (unwords [ascii "GET", key]) := by
    cases type with
    | _ => exact ValueRequest.print_words world.lib lawful "GET %s" _ _ rfl
  have split := sdssplitargslong_words [ascii "GET", key] (by
    simp only [List.forall_mem_cons]
    exact ⟨by decide, keyWord, by simp⟩)
  simp only [submit, translated, split]
  exact world.execute_get served type _ key value clean (content.put_same key value)

/-- Creating a string and loading it gives it back exactly when no NUL byte cuts the command short and,
for memcached, the value is the `0` that stands where the handler looks for it. -/
theorem createsAndLoads_iff :
    world.CreatesAndLoads type key value content ↔
      (0 : UInt8) ∉ key ∧ (0 : UInt8) ∉ value ∧ (type = .memcached → value = ascii "0") := by
  constructor
  · intro ⟨created, loaded⟩
    have clean : (0 : UInt8) ∉ key := by
      intro nul
      obtain ⟨err, refused⟩ := submit_create_nul_key world lawful type key value keyUnquoted content nul
      rw [refused] at created
      cases created
    have outcome := submit_create_clean_key world lawful served type key value keyUnquoted valueUnquoted content clean
    split at outcome
    · obtain ⟨err, refused⟩ := outcome
      rw [refused] at created
      cases created
    · rw [outcome] at created
      have same := content.put_injective key _ _ (Prod.mk.inj (Option.some.inj created)).2
      refine ⟨clean, ?_, ?_⟩
      · rw [← cString_eq_iff]
        cases type with
        | memcached =>
            rw [← same, stored]
            decide
        | _ => exact same
      · intro memcached
        subst memcached
        exact same.symm
  · intro ⟨keyClean, valueClean, zero⟩
    have whole := cString_eq_self value valueClean
    have nonempty : value ≠ [] := by
      intro empty
      subst empty
      cases valueUnquoted
    have outcome := submit_create_clean_key world lawful served type key value keyUnquoted valueUnquoted content
      keyClean
    have kept : stored type value = value := by
      cases type with
      | memcached => exact (zero rfl).symm
      | _ => exact whole
    rw [whole, if_neg nonempty, kept] at outcome
    refine ⟨outcome, ?_⟩
    rw [submit_load world lawful served type key value keyUnquoted content keyClean, whole, ite_self]

end CreateLoad

def std : World where
  lib := .std
  notFound := ascii "NotFound: "
  server := .std
  otherCall _ content := (.error notConnected, content)
  otherCommand _ _ content := (.error notConnected, content)

theorem std_leveldb_createsAndLoads :
    std.CreatesAndLoads .leveldb (ascii "user:1") (ascii "Ann") fun _ => none :=
  (createsAndLoads_iff std Common.std_lawful Redis.Server.std_lawful .leveldb (ascii "user:1") (ascii "Ann")
    (by decide) (by decide) _).mpr ⟨by decide, by decide, fun memcached => by cases memcached⟩

/-- The flags of the memcached command are stored in place of the value. -/
theorem std_memcached_stores_flags :
    isUnquoted (ascii "k") = true ∧ isUnquoted (ascii "v") = true ∧
      std.submit .memcached (.create (ascii "k") (ascii "v")) (fun _ => none) =
        some (.ok none, Content.put (fun _ => none) (ascii "k") (ascii "0")) ∧
      ¬ std.CreatesAndLoads .memcached (ascii "k") (ascii "v") fun _ => none := by
  have created := submit_create_clean_key std Common.std_lawful Redis.Server.std_lawful .memcached (ascii "k")
    (ascii "v") (by decide) (by decide) (fun _ => none) (by decide)
  rw [if_neg (by decide)] at created
  refine ⟨by decide, by decide, created, ?_⟩
  intro ⟨same, _⟩
  rw [created] at same
  have values := Content.put_injective _ _ _ _ (Prod.mk.inj (Option.some.inj same)).2
  exact absurd values (by decide)

end World

end FastoNoSQL
