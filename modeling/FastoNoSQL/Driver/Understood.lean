import FastoNoSQL.Command.Tables
import FastoNoSQL.Driver.Translated
import FastoNoSQL.Redis.Commands

set_option autoImplicit false

/-!
# Translators against command tables

Whether a back-end's own table has an entry for each command that its
translator writes, with the number of arguments that the command gets.
-/

namespace FastoNoSQL

open Bytes Sds

-- The table of the back-end calls a handler for the arguments.
def reachesHandler (type : ConnectionType) (argv : List Text) : Bool :=
  if redis : type = .redis then (dispatch Redis.commands argv).isCall
  else (dispatch (commandsOf type redis) argv).isCall

def ValueType.isList : ValueType → Bool
  | .array | .set | .zset | .hash => true
  | _ => false

-- The translators of redis and ssdb have a branch for each list-valued type.
def hasBranch (type : ConnectionType) (valueType : ValueType) : Bool :=
  type = .redis || type = .ssdb || !valueType.isList

/-- A request for any value; `ValueString` puts a blank between the elements of a list. -/
inductive ValueRequest where
  | create (key : Text) (valueType : ValueType) (values : List Text)
  | other (request : KeyRequest)

namespace ValueRequest

def translate (translator : CommandTranslator) : ValueRequest → Except ErrorValue Text
  | create key valueType values => translator.createKeyCommand ⟨⟨key, -1⟩, valueType, unwords values⟩
  | other request => request.translate translator

-- Words for the key and the values, one of them for a type that is not a list.
def Admissible (type : ConnectionType) : ValueRequest → Prop
  | create key valueType values =>
    isWord key = true ∧ (∀ value ∈ values, isWord value = true) ∧ values ≠ [] ∧ values.length ≤ 200 ∧
      hasBranch type valueType = true ∧ (valueType.isList = false → values.length = 1)
  | other request => ∀ part ∈ request.parts, isWord part = true

/-- The requests whose command the table of the back-end has, with enough arguments. -/
def Agrees (type : ConnectionType) : ValueRequest → Prop
  | create _ valueType values =>
    match type with
    | .redis => valueType = .zset ∨ valueType = .hash → 2 ≤ values.length
    | .ssdb => valueType.isList = false
    | _ => True
  | other (.load _ valueType) =>
    match type with
    | .ssdb => valueType ≠ .array ∧ valueType ≠ .set ∧ valueType ≠ .hash
    | _ => True
  | other _ => True

-- Every text of the translator is split into arguments that the table has a handler for.
def Understood (lib : Common) (type : ConnectionType) (request : ValueRequest) : Prop :=
  ∀ text, request.translate (.ofType lib type) = .ok text →
    ∃ argv, sdssplitargslong text = some argv ∧ reachesHandler type argv = true

end ValueRequest

/-! ## Arities -/

theorem commandsOf_short (type : ConnectionType) (store : type ≠ .redis) :
    ∀ holder ∈ commandsOf type store, holder.whiteSpacesCount ≤ 1 := by
  cases type with
  | redis => exact absurd rfl store
  | memcached => exact (by decide : ∀ holder ∈ Memcached.commands, holder.whiteSpacesCount ≤ 1)
  | ssdb => exact (by decide +kernel : ∀ holder ∈ Ssdb.commands, holder.whiteSpacesCount ≤ 1)
  | rocksdb => exact (by decide : ∀ holder ∈ Rocksdb.commands, holder.whiteSpacesCount ≤ 1)
  | leveldb | lmdb | unqlite | upscaledb =>
      exact (by decide : ∀ holder ∈ Embedded.commands, holder.whiteSpacesCount ≤ 1)

-- The argument counts a back-end's table has for a command word.
def arityOf (type : ConnectionType) (word : Text) : Option (Nat × Nat) :=
  if redis : type = .redis then arity word Redis.commands else arity word (commandsOf type redis)

theorem reachesHandler_of_arity (type : ConnectionType) (word : Text) (args : List Text) (low high : Nat)
    (plain : isCommandWord word = true) (known : arityOf type word = some (low, high)) :
    reachesHandler type (word :: args) = decide (low ≤ args.length ∧ args.length ≤ high) := by
  unfold arityOf at known
  unfold reachesHandler
  split at known
  next redis =>
    rw [dif_pos redis]
    exact isCall_of_arity word args plain Redis.commands low high Redis.commands_short known
  next store =>
    rw [dif_neg store]
    exact isCall_of_arity word args plain _ low high (commandsOf_short type store) known

theorem ssdb_unknown (word : Text) (args : List Text) (plain : isCommandWord word = true)
    (none : Ssdb.commands.filter (startsWith word) = []) :
    reachesHandler .ssdb (word :: args) = false := by
  have unknown := dispatch_unknown word args plain Ssdb.commands (commandsOf_short .ssdb (by decide)) none
  show (dispatch Ssdb.commands (word :: args)).isCall = false
  rw [unknown]
  rfl

-- The argument counts of the commands that the translators write.
def writtenArities : ConnectionType → List (String × Nat × Nat)
  | .redis =>
    [("SET", 2, 7), ("LPUSH", 2, 257), ("SADD", 2, 257), ("ZADD", 3, 258), ("HMSET", 3, 258), ("GET", 1, 1),
      ("LRANGE", 3, 3), ("SMEMBERS", 1, 1), ("ZRANGE", 3, 4), ("HGETALL", 1, 1), ("DEL", 1, 256),
      ("RENAME", 2, 2), ("EXPIRE", 2, 2), ("PERSIST", 1, 1)]
  | .ssdb => [("SET", 2, 2), ("GET", 1, 1), ("ZRANGE", 3, 3), ("HGET", 2, 2), ("DEL", 1, 256), ("RENAME", 2, 2)]
  | .memcached => [("SET", 4, 4), ("GET", 1, 1), ("DEL", 1, 256), ("RENAME", 2, 2), ("EXPIRE", 2, 2)]
  | _ => [("SET", 2, 2), ("GET", 1, 1), ("DEL", 1, 256), ("RENAME", 2, 2)]

theorem writtenArities_known (type : ConnectionType) :
    ∀ entry ∈ writtenArities type, arityOf type (ascii entry.1) = some entry.2 := by
  cases type with
  | redis =>
      intro known listed
      have written : writtenArities .redis =
          Redis.writtenCommands.map fun known => (known.1, known.2.1, known.2.1 + known.2.2.1) := rfl
      rw [written] at listed
      obtain ⟨⟨word, required, optional, func⟩, member, rfl⟩ := List.mem_map.mp listed
      rw [arityOf, dif_pos rfl]
      exact Redis.arity_written member
  | _ => decide

theorem ssdb_unknown_words : ∀ word ∈ ["LPUSH", "SADD", "ZADD", "HMSET", "LRANGE", "SMEMBERS"],
    Ssdb.commands.filter (startsWith (ascii word)) = [] := by
  decide

namespace ValueRequest

section Line

variable (lib : Common) (type : ConnectionType) (request : ValueRequest) (word : Text) (args : List Text)

theorem understood_line (words : ∀ argument ∈ word :: args, isWord argument = true)
    (translated : request.translate (.ofType lib type) = .ok (unwords (word :: args))) :
    Understood lib type request ↔ reachesHandler type (word :: args) = true := by
  have split := sdssplitargslong_words (word :: args) words
  constructor
  · intro understood
    obtain ⟨argv, same, reached⟩ := understood _ translated
    rw [split] at same
    obtain rfl := Option.some.inj same
    exact reached
  · intro reached text printed
    rw [translated] at printed
    obtain rfl := Except.ok.inj printed
    exact ⟨word :: args, split, reached⟩

theorem isCommandWord_of_isWord (plain : isWord word = true) : isCommandWord word = true := by
  simp only [isWord, isPlain, Bool.and_eq_true, List.all_eq_true] at plain
  simp only [isCommandWord, List.all_eq_true, Bool.and_eq_true]
  exact fun c member => ⟨(plain.2 c member).1.1.1.1, (plain.2 c member).2⟩

theorem understood_arity (low high : Nat) (words : ∀ argument ∈ word :: args, isWord argument = true)
    (known : arityOf type word = some (low, high))
    (translated : request.translate (.ofType lib type) = .ok (unwords (word :: args))) :
    Understood lib type request ↔ low ≤ args.length ∧ args.length ≤ high := by
  have plain := isCommandWord_of_isWord word (words word (by simp))
  rw [understood_line lib type request word args words translated,
    reachesHandler_of_arity type word args low high plain known, decide_eq_true_eq]

end Line

theorem unwords_nested (word key : Text) (values : List Text) (more : values ≠ []) :
    unwords [word, key, unwords values] = unwords (word :: key :: values) := by
  rw [unwords_cons_cons, unwords_cons_cons, unwords_singleton, unwords_cons_cons, unwords_cons key values more]

section Create

variable (lib : Common) (lawful : lib.Lawful)
include lawful

theorem print_words (pattern : String) (args : List Arg) (words : List Text)
    (same : format (ascii pattern) args = unwords words) :
    CommandTranslator.print lib pattern args = .ok (unwords words) := by
  rw [CommandTranslator.print, lawful.memSPrintf_eq, same]

variable (key : Text) (values : List Text) (keyWord : isWord key = true)
variable (valueWords : ∀ value ∈ values, isWord value = true) (more : values ≠ [])
include keyWord valueWords more

theorem understood_create (type : ConnectionType) (valueType : ValueType) (pattern word : String)
    (low high : Nat) (plain : isWord (ascii word) = true) (known : (word, low, high) ∈ writtenArities type)
    (same : ∀ value, format (ascii pattern) [.s key, .s value] = unwords [ascii word, key, value])
    (translated : (create key valueType values).translate (.ofType lib type) =
      CommandTranslator.print lib pattern [.s key, .s (unwords values)]) :
    Understood lib type (create key valueType values) ↔
      low ≤ values.length + 1 ∧ values.length + 1 ≤ high := by
  have words : ∀ argument ∈ ascii word :: key :: values, isWord argument = true := by
    simp only [List.forall_mem_cons]
    exact ⟨plain, keyWord, valueWords⟩
  rw [print_words lib lawful pattern _ (ascii word :: key :: values)
    ((same _).trans (unwords_nested _ key values more))] at translated
  exact understood_arity lib type _ _ (key :: values) low high words
    (writtenArities_known type (word, low, high) known) translated

theorem redis_create_understood (valueType : ValueType) (few : values.length ≤ 200)
    (single : valueType.isList = false → values.length = 1) :
    Understood lib .redis (create key valueType values) ↔
      (valueType = .zset ∨ valueType = .hash → 2 ≤ values.length) := by
  have some : 1 ≤ values.length := List.length_pos_iff.mpr more
  have understood := understood_create lib lawful key values keyWord valueWords more .redis valueType
  cases valueType with
  | array =>
      rw [understood "LPUSH %s %s" "LPUSH" 2 257 (by decide) (by simp [writtenArities]) (fun _ => rfl) rfl]
      simp
      omega
  | set =>
      rw [understood "SADD %s %s" "SADD" 2 257 (by decide) (by simp [writtenArities]) (fun _ => rfl) rfl]
      simp
      omega
  | zset =>
      rw [understood "ZADD %s %s" "ZADD" 3 258 (by decide) (by simp [writtenArities]) (fun _ => rfl) rfl]
      simp
      omega
  | hash =>
      rw [understood "HMSET %s %s" "HMSET" 3 258 (by decide) (by simp [writtenArities]) (fun _ => rfl) rfl]
      simp
      omega
  | _ =>
      rw [understood "SET %s %s" "SET" 2 7 (by decide) (by simp [writtenArities]) (fun _ => rfl) rfl]
      simp [single rfl]

theorem ssdb_create_unknown (valueType : ValueType) (pattern word : String) (plain : isWord (ascii word) = true)
    (unknown : word ∈ ["LPUSH", "SADD", "ZADD", "HMSET", "LRANGE", "SMEMBERS"])
    (same : ∀ value, format (ascii pattern) [.s key, .s value] = unwords [ascii word, key, value])
    (translated : (create key valueType values).translate (.ofType lib .ssdb) =
      CommandTranslator.print lib pattern [.s key, .s (unwords values)]) :
    ¬ Understood lib .ssdb (create key valueType values) := by
  have words : ∀ argument ∈ ascii word :: key :: values, isWord argument = true := by
    simp only [List.forall_mem_cons]
    exact ⟨plain, keyWord, valueWords⟩
  rw [print_words lib lawful pattern _ (ascii word :: key :: values)
    ((same _).trans (unwords_nested _ key values more))] at translated
  rw [understood_line lib .ssdb _ _ _ words translated,
    ssdb_unknown _ _ (isCommandWord_of_isWord _ plain) (ssdb_unknown_words word unknown)]
  simp

theorem ssdb_create_understood (valueType : ValueType) (single : valueType.isList = false → values.length = 1) :
    Understood lib .ssdb (create key valueType values) ↔ valueType.isList = false := by
  have understood := understood_create lib lawful key values keyWord valueWords more .ssdb valueType
  have unknown := ssdb_create_unknown lib lawful key values keyWord valueWords more valueType
  cases valueType with
  | array => simpa [ValueType.isList] using unknown "LPUSH %s %s" "LPUSH" (by decide) (by simp) (fun _ => rfl) rfl
  | set => simpa [ValueType.isList] using unknown "SADD %s %s" "SADD" (by decide) (by simp) (fun _ => rfl) rfl
  | zset => simpa [ValueType.isList] using unknown "ZADD %s %s" "ZADD" (by decide) (by simp) (fun _ => rfl) rfl
  | hash => simpa [ValueType.isList] using unknown "HMSET %s %s" "HMSET" (by decide) (by simp) (fun _ => rfl) rfl
  | _ =>
      rw [understood "SET %s %s" "SET" 2 2 (by decide) (by simp [writtenArities]) (fun _ => rfl) rfl]
      simp [single rfl, ValueType.isList]

end Create

theorem memcached_create_understood (lib : Common) (lawful : lib.Lawful) (key value : Text)
    (valueType : ValueType) (keyWord : isWord key = true) (valueWord : isWord value = true) :
    Understood lib .memcached (create key valueType [value]) := by
  have words : ∀ argument ∈ [ascii "SET", key, ascii "0", ascii "0", value], isWord argument = true := by
    have fixed : isWord (ascii "SET") = true ∧ isWord (ascii "0") = true := by decide
    simp [fixed, keyWord, valueWord]
  have translated : (create key valueType [value]).translate (.ofType lib .memcached) =
      .ok (unwords [ascii "SET", key, ascii "0", ascii "0", value]) :=
    print_words lib lawful "SET %s 0 0 %s" [.s key, .s (unwords [value])] _ (by rw [unwords_singleton]; rfl)
  rw [understood_arity lib .memcached _ _ _ 4 4 words
    (writtenArities_known .memcached ("SET", 4, 4) (by simp [writtenArities])) translated]
  simp

-- A command on a key and a second text is understood when the table has it with that many arguments.
theorem understood_request (lib : Common) (lawful : lib.Lawful) (type : ConnectionType) (request : KeyRequest)
    (text : Text) (word : String) (args : List Text) (low high : Nat)
    (words : ∀ part ∈ request.parts, isWord part = true)
    (translated : request.translate (.ofType lib type) = .ok text)
    (argv : request.argv type = ascii word :: args) (known : (word, low, high) ∈ writtenArities type) :
    Understood lib type (other request) ↔ low ≤ args.length ∧ args.length ≤ high := by
  obtain ⟨rfl, first, init, last, same, fixed, -, composed, -⟩ :=
    KeyRequest.translate_ok lib lawful type request text translated
  have all : ∀ argument ∈ request.argv type, isWord argument = true := by
    rw [same]
    intro argument member
    rcases List.mem_cons.mp member with rfl | member
    · exact (KeyRequest.isFixed_spec argument fixed).1
    · rcases composed argument member with part | fixed
      · exact words argument part
      · exact (KeyRequest.isFixed_spec argument fixed).1
  rw [argv] at all translated
  exact understood_arity lib type (other request) _ args low high all
    (writtenArities_known type (word, low, high) known) translated

theorem ssdb_load_unknown (lib : Common) (lawful : lib.Lawful) (key : Text) (valueType : ValueType)
    (word : String) (args : List Text) (keyWord : isWord key = true) (argWords : ∀ arg ∈ args, isWord arg = true)
    (plain : isWord (ascii word) = true)
    (unknown : word ∈ ["LPUSH", "SADD", "ZADD", "HMSET", "LRANGE", "SMEMBERS"])
    (pattern : String) (same : format (ascii pattern) [.s key] = unwords (ascii word :: key :: args))
    (translated : (KeyRequest.load key valueType).translate (.ofType lib .ssdb) =
      CommandTranslator.print lib pattern [.s key]) :
    ¬ Understood lib .ssdb (other (.load key valueType)) := by
  have words : ∀ argument ∈ ascii word :: key :: args, isWord argument = true := by
    simp only [List.forall_mem_cons]
    exact ⟨plain, keyWord, argWords⟩
  rw [print_words lib lawful pattern _ _ same] at translated
  rw [understood_line lib .ssdb (other (.load key valueType)) _ _ words translated,
    ssdb_unknown _ _ (isCommandWord_of_isWord _ plain) (ssdb_unknown_words word unknown)]
  simp

theorem ssdb_load_understood (lib : Common) (lawful : lib.Lawful) (key : Text) (valueType : ValueType)
    (keyWord : isWord key = true) :
    Understood lib .ssdb (other (.load key valueType)) ↔
      valueType ≠ .array ∧ valueType ≠ .set ∧ valueType ≠ .hash := by
  have words : ∀ part ∈ (KeyRequest.load key valueType).parts, isWord part = true := by
    simpa [KeyRequest.parts] using keyWord
  have understood := understood_request lib lawful .ssdb (.load key valueType)
  have unknown := ssdb_load_unknown lib lawful key valueType
  cases valueType with
  | array =>
      simpa using unknown "LRANGE" [ascii "0", ascii "-1"] keyWord (by decide) (by decide) (by simp)
        "LRANGE %s 0 -1" rfl rfl
  | set => simpa using unknown "SMEMBERS" [] keyWord (by simp) (by decide) (by simp) "SMEMBERS %s" rfl rfl
  | hash =>
      rw [understood _ "HGET" [key] 2 2 words rfl rfl (by simp [writtenArities])]
      simp
  | zset =>
      rw [understood _ "ZRANGE" [key, ascii "0", ascii "-1"] 3 3 words rfl rfl (by simp [writtenArities])]
      simp
  | _ =>
      rw [understood _ "GET" [key] 1 1 words rfl rfl (by simp [writtenArities])]
      simp

theorem redis_load_understood (lib : Common) (lawful : lib.Lawful) (key : Text) (valueType : ValueType)
    (keyWord : isWord key = true) : Understood lib .redis (other (.load key valueType)) := by
  have words : ∀ part ∈ (KeyRequest.load key valueType).parts, isWord part = true := by
    simpa [KeyRequest.parts] using keyWord
  have understood := understood_request lib lawful .redis (.load key valueType)
  cases valueType with
  | array =>
      rw [understood _ "LRANGE" [key, ascii "0", ascii "-1"] 3 3 words rfl rfl (by simp [writtenArities])]
      simp
  | zset =>
      rw [understood _ "ZRANGE" [key, ascii "0", ascii "-1", ascii "WITHSCORES"] 3 4 words rfl rfl
        (by simp [writtenArities])]
      simp
  | set =>
      rw [understood _ "SMEMBERS" [key] 1 1 words rfl rfl (by simp [writtenArities])]
      simp
  | hash =>
      rw [understood _ "HGETALL" [key] 1 1 words rfl rfl (by simp [writtenArities])]
      simp
  | _ =>
      rw [understood _ "GET" [key] 1 1 words rfl rfl (by simp [writtenArities])]
      simp

theorem ttl_understood (lib : Common) (lawful : lib.Lawful) (type : ConnectionType) (key : Text) (ttl : Int32)
    (keyWord : isWord key = true) : Understood lib type (other (.changeTTL key ttl)) := by
  have words : ∀ part ∈ (KeyRequest.changeTTL key ttl).parts, isWord part = true := by
    simpa [KeyRequest.parts] using keyWord
  have understood := understood_request lib lawful type (.changeTTL key ttl)
  cases type with
  | redis =>
      by_cases persistent : ttl = -1
      · rw [understood _ "PERSIST" [key] 1 1 words
          (by simp only [KeyRequest.translate, CommandTranslator.ofType, CommandTranslator.redis, persistent]; rfl)
          (by simp [KeyRequest.argv, persistent]) (by simp [writtenArities])]
        simp
      · rw [understood _ "EXPIRE" [key, intText ttl.toInt] 2 2 words
          (by simp only [KeyRequest.translate, CommandTranslator.ofType, CommandTranslator.redis, persistent]; rfl)
          (by simp [KeyRequest.argv, persistent]) (by simp [writtenArities])]
        simp
  | memcached =>
      rw [understood _ "EXPIRE" [key, intText ttl.toInt] 2 2 words rfl rfl (by simp [writtenArities])]
      simp
  | ssdb | leveldb | rocksdb | unqlite | lmdb | upscaledb =>
      intro text translated
      cases translated

theorem request_understood (lib : Common) (lawful : lib.Lawful) (type : ConnectionType) (request : KeyRequest)
    (words : ∀ part ∈ request.parts, isWord part = true) :
    Understood lib type (other request) ↔ Agrees type (other request) := by
  have understood := understood_request lib lawful type request
  cases request with
  | create key value =>
      refine iff_of_true ?_ trivial
      cases type with
      | redis =>
          rw [understood _ "SET" [key, value] 2 7 words rfl rfl (by simp [writtenArities])]
          simp
      | memcached =>
          rw [understood _ "SET" [key, ascii "0", ascii "0", value] 4 4 words rfl rfl (by simp [writtenArities])]
          simp
      | ssdb | leveldb | rocksdb | unqlite | lmdb | upscaledb =>
          rw [understood _ "SET" [key, value] 2 2 words rfl rfl (by simp [writtenArities])]
          simp
  | load key valueType =>
      have keyWord : isWord key = true := words key (by simp [KeyRequest.parts])
      cases type with
      | redis => exact iff_of_true (redis_load_understood lib lawful key valueType keyWord) trivial
      | ssdb => exact ssdb_load_understood lib lawful key valueType keyWord
      | memcached | leveldb | rocksdb | unqlite | lmdb | upscaledb =>
          refine iff_of_true ?_ trivial
          rw [understood _ "GET" [key] 1 1 words rfl rfl (by simp [writtenArities])]
          simp
  | delete key =>
      refine iff_of_true ?_ trivial
      cases type with
      | _ =>
          rw [understood _ "DEL" [key] 1 256 words rfl rfl (by simp [writtenArities])]
          simp
  | rename key newName =>
      refine iff_of_true ?_ trivial
      cases type with
      | _ =>
          rw [understood _ "RENAME" [key, newName] 2 2 words rfl rfl (by simp [writtenArities])]
          simp
  | changeTTL key ttl =>
      exact iff_of_true (ttl_understood lib lawful type key ttl (words key (by simp [KeyRequest.parts]))) trivial

theorem create_understood (lib : Common) (lawful : lib.Lawful) (type : ConnectionType) (key : Text)
    (valueType : ValueType) (values : List Text) (admissible : Admissible type (create key valueType values)) :
    Understood lib type (create key valueType values) ↔ Agrees type (create key valueType values) := by
  obtain ⟨keyWord, valueWords, more, few, branch, single⟩ := admissible
  have scalar (noLists : hasBranch type valueType = !valueType.isList) : ∃ value, values = [value] := by
    rw [noLists] at branch
    exact List.length_eq_one_iff.mp (single (by simpa using branch))
  have understood := understood_create lib lawful key values keyWord valueWords more type valueType
  cases type with
  | redis => exact redis_create_understood lib lawful key values keyWord valueWords more valueType few single
  | ssdb => exact ssdb_create_understood lib lawful key values keyWord valueWords more valueType single
  | memcached =>
      obtain ⟨value, rfl⟩ := scalar rfl
      exact iff_of_true
        (memcached_create_understood lib lawful key value valueType keyWord (valueWords value (by simp))) trivial
  | leveldb | rocksdb | unqlite | lmdb | upscaledb =>
      refine iff_of_true ?_ trivial
      obtain ⟨value, rfl⟩ := scalar rfl
      rw [understood "SET %s %s" "SET" 2 2 (by decide) (by simp [writtenArities]) (fun _ => rfl) rfl]
      simp

/-- A back-end calls a handler for every text of its translator exactly when the request agrees
with its table. -/
theorem understood_iff_agrees (lib : Common) (lawful : lib.Lawful) (type : ConnectionType)
    (request : ValueRequest) (admissible : request.Admissible type) :
    Understood lib type request ↔ request.Agrees type := by
  cases request with
  | create key valueType values => exact create_understood lib lawful type key valueType values admissible
  | other request => exact request_understood lib lawful type request admissible

theorem redis_hash_understood :
    Understood .std .redis (create (ascii "user:1") .hash [ascii "name", ascii "Ann"]) :=
  (understood_iff_agrees .std Common.std_lawful .redis (create _ .hash [_, _])
    ⟨by decide, by decide, by decide, by decide, rfl, by decide⟩).mpr fun _ => by decide

/-- ssdb writes `LPUSH` for a list, and its table does not have it. -/
theorem ssdb_list_not_understood :
    let request := create (ascii "queue") .array [ascii "first"]
    request.Admissible .ssdb ∧
      request.translate (.ofType .std .ssdb) = .ok (ascii "LPUSH queue first") ∧
      sdssplitargslong (ascii "LPUSH queue first") = some [ascii "LPUSH", ascii "queue", ascii "first"] ∧
      dispatch Ssdb.commands [ascii "LPUSH", ascii "queue", ascii "first"] = .unknownSequence ∧
      ¬ Understood .std .ssdb request := by
  refine ⟨⟨by decide, by decide, by decide, by decide, rfl, by decide⟩, rfl, by decide,
    by decide, ?_⟩
  rw [create_understood .std Common.std_lawful .ssdb _ _ _
    ⟨by decide, by decide, by decide, by decide, rfl, by decide⟩]
  exact fun scalar : ValueType.array.isList = false => by cases scalar

end ValueRequest

end FastoNoSQL
