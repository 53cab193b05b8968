import FastoNoSQL.Redis.Collections
import FastoNoSQL.Redis.Forwarding
import FastoNoSQL.Sds.Tail
import FastoNoSQL.Store.CreateLoad

set_option autoImplicit false

/-!
# Creating, editing and loading a collection

The way of a collection from the redis translator to the server and back. A key
that is edited is written with the command that creates it, so what the server
does with the elements that it already holds decides what is loaded.
-/

namespace FastoNoSQL.Redis

open Bytes Sds

section Execution

variable (world : World) (clusterMode : Bool) (server : CollectionServer)

-- The outcome of one command: an error, or the value that was loaded, and what the server then holds.
abbrev Outcome := Except ErrorValue (Option Value) × Keyspace server.Score

-- The value that `Lrange`, `Smembers`, `Zrange` and `Hgetall` make of the elements of a reply.
def gather : Handler → List Text → List Value → Value
  | .smembers, _, values => .set values
  | .hgetall, _, values => .hash (pairUp values)
  | .zrange, _ :: _ :: _ :: options, values =>
    if withScores options then .zset ((pairUp values).map Prod.swap) else .array values
  | _, _, values => .array values

/-- What a handler makes of the reply to its command; none where the source asserts that it is not reached. -/
def readReply (handler : Handler) (args : List Text) (reply : Reply) : Option (Except ErrorValue (Option Value)) :=
  match handler with
  | .commonExec => (formatReply world.lib clusterMode reply).map fun child => child.map fun _ => none
  | .lrange | .smembers | .zrange | .hgetall =>
    match reply with
    | .array elements => some ((valuesFromReplay elements).map fun values => some (gather handler args values))
    | .error text => some (.error ⟨text, true⟩)
    | _ => none
  | _ => none

def serveOne (argv : List Text) (handler : Handler) (args : List Text) (content : Keyspace server.Score) :
    Option (Outcome server) :=
  match forward world.lib argv handler args with
  | some [sent] =>
    (readReply world clusterMode handler args (server.serve content sent).1).map (·, (server.serve content sent).2)
  | _ => none

-- `CommandHandler::Execute` for the commands on collections.
def executeArgv (argv : List Text) (content : Keyspace server.Score) : Option (Outcome server) :=
  match dispatch commands argv with
  | .call holder args => serveOne world clusterMode server argv holder.func args content
  | refused => some (.error (world.refusal argv refused), content)

def submit (translated : Except ErrorValue Text) (content : Keyspace server.Score) : Option (Outcome server) :=
  match translated with
  | .error err => some (.error err, content)
  | .ok text =>
    match sdssplitargslong text with
    | none => some (.error (makeErrorValue "Invalid input argument(s)"), content)
    | some argv => executeArgv world clusterMode server argv content

-- `createKey` and `editKey`.
def create (key : Text) (collection : Collection) (content : Keyspace server.Score) : Option (Outcome server) :=
  submit world clusterMode server
    ((CommandTranslator.redis world.lib).createKeyCommand (collection.keyValue key)) content

def load (key : Text) (type : ValueType) (content : Keyspace server.Score) : Option (Outcome server) :=
  submit world clusterMode server ((CommandTranslator.redis world.lib).loadKeyCommand ⟨key, -1⟩ type) content

-- The value is written, and what is loaded then is the same.
def CreatesAndLoads (key : Text) (collection : Collection) (content : Keyspace server.Score) : Prop :=
  ∃ created loaded after, create world clusterMode server key collection content = some (.ok none, created) ∧
    load world clusterMode server key collection.type created = some (.ok (some loaded), after) ∧
    loaded.Same collection.value

end Execution

/-- A collection that is loaded as it was written, for what the key holds before. -/
def Restorable (server : CollectionServer) (key : Text) (held : Option (Stored server.Score)) : Collection → Prop
  | .array elements => elements.length ≤ 256 ∧ Stored.asList held = some [] ∧ elements.reverse = elements
  | .set members => members.length ≤ 256 ∧ ∀ old ∈ Stored.asSet held, ∀ member ∈ old, member ∈ members
  | .zset entries =>
    Plain key ∧ entries.length ≤ 128 ∧ (∀ entry ∈ entries, ∃ score, server.print score = entry.1) ∧
      Dict.Consistent (entries.map Prod.swap) ∧
      ∀ old ∈ Stored.asZset held, ∀ member ∈ old, member ∈ entries.map Prod.snd
  | .hash fields =>
    fields.length ≤ 128 ∧ Dict.Consistent fields ∧
      ∀ old ∈ Stored.asHash held, ∀ field ∈ old, field ∈ fields.map Prod.fst

/-! ## The two commands -/

namespace Collection

variable (collection : Collection)

def createWord : Collection → String
  | array _ => "LPUSH"
  | set _ => "SADD"
  | zset _ => "ZADD"
  | hash _ => "HMSET"

-- The arguments that the table requires, the key included.
def required : Collection → Nat
  | array _ | set _ => 2
  | zset _ | hash _ => 3

-- The entry of the command in the table.
def createEntry : CommandHolder Handler := ⟨ascii collection.createWord, collection.required, infiniteArgs, .commonExec⟩

theorem createWord_written :
    (collection.createWord, collection.required, infiniteArgs, Handler.commonExec) ∈ writtenCommands := by
  cases collection <;> simp [writtenCommands, createWord, required]

theorem createWord_listed : (collection.createWord, collection.type) ∈ collectionCommands := by
  cases collection <;> simp [collectionCommands, createWord, type]

theorem createWord_isWord : isWord (ascii collection.createWord) = true := by
  have words : ∀ word ∈ ["LPUSH", "SADD", "ZADD", "HMSET"], isWord (ascii word) = true := by decide
  apply words
  cases collection <;> simp [createWord]

end Collection

-- Every other key holds a string.
def crowded {Score : Type} (key : Text) (held : Option (Stored Score)) : Keyspace Score :=
  Function.update (fun _ => some (.string [])) key held

section Create

variable (world : World) (lawful : world.lib.Lawful) (clusterMode : Bool) (server : CollectionServer)
variable (key : Text) (collection : Collection) (content : Keyspace server.Score)

theorem execute_create (args : List Text) :
    executeArgv world clusterMode server (ascii collection.createWord :: args) content =
      if collection.createEntry.accepts args.length then
        (readReply world clusterMode .commonExec args
          (server.serve content (ascii collection.createWord :: args)).1).map
          (·, (server.serve content (ascii collection.createWord :: args)).2)
      else
        some (.error (world.refusal (ascii collection.createWord :: args)
          (.invalidArguments collection.createEntry args.length)), content) := by
  have plain := ValueRequest.isCommandWord_of_isWord _ collection.createWord_isWord
  have start : (args.length + 1) - (args.length + 1) = 0 := Nat.sub_self _
  rw [executeArgv, dispatch_written collection.createWord_written _ args plain rfl]
  by_cases accepted : collection.createEntry.accepts args.length
  · rw [if_pos accepted, if_pos (show CommandHolder.accepts ⟨_, _, _, _⟩ _ from accepted)]
    simp only [serveOne, forward, stepBack, List.length_cons, start, List.drop_zero]
  · rw [if_neg accepted, if_neg (show ¬ CommandHolder.accepts ⟨_, _, _, _⟩ _ from accepted)]
    rfl

theorem readReply_refused (args argv : List Text) (handler : Handler) (refuses : server.Refuses content argv)
    (listed : handler ∈ [Handler.commonExec, .lrange, .smembers, .zrange, .hgetall]) :
    ∃ err, readReply world clusterMode handler args (server.serve content argv).1 = some (.error err) := by
  obtain ⟨text, direct, same⟩ := refuses
  have direct : isRedirect clusterMode (.error text) = false := by
    cases clusterMode with
    | true => exact direct
    | false => rfl
  have shown : formatReply world.lib clusterMode (.error text) = some (.error ⟨text, true⟩) := by
    simp [formatReply, direct]
  rw [same]
  simp only [List.mem_cons, List.not_mem_nil, or_false] at listed
  rcases listed with rfl | rfl | rfl | rfl | rfl
  · exact ⟨_, by rw [readReply, shown]; rfl⟩
  · exact ⟨_, rfl⟩
  · exact ⟨_, rfl⟩
  · exact ⟨_, rfl⟩
  · exact ⟨_, rfl⟩

include lawful

variable (more : collection.words ≠ []) (all : ∀ word ∈ collection.words, isSimpleWord word = true)

include more all

theorem create_eq :
    create world clusterMode server key collection content =
      match sdssplitargslong (key ++ byte ' ' :: unwords collection.words) with
      | none => some (.error (makeErrorValue "Invalid input argument(s)"), content)
      | some args => executeArgv world clusterMode server (ascii collection.createWord :: args) content := by
  have nonempty : ∀ word ∈ collection.words, word ≠ [] := by
    intro word member empty
    have simple := all word member
    rw [empty] at simple
    revert simple
    decide
  have text := collection.convertToString_words more nonempty
  have printed (value : Text) :
      (CommandTranslator.redis world.lib).createKeyCommand ⟨⟨key, -1⟩, collection.type, value⟩ =
        .ok (unwords [ascii collection.createWord, key, value]) := by
    cases collection with
    | array => exact ValueRequest.print_words world.lib lawful "LPUSH %s %s" [.s key, .s value] [ascii "LPUSH", key, value] rfl
    | set => exact ValueRequest.print_words world.lib lawful "SADD %s %s" [.s key, .s value] [ascii "SADD", key, value] rfl
    | zset => exact ValueRequest.print_words world.lib lawful "ZADD %s %s" [.s key, .s value] [ascii "ZADD", key, value] rfl
    | hash => exact ValueRequest.print_words world.lib lawful "HMSET %s %s" [.s key, .s value] [ascii "HMSET", key, value] rfl
  have translated : (CommandTranslator.redis world.lib).createKeyCommand (collection.keyValue key) =
      .ok (unwords [ascii collection.createWord, key, unwords collection.words]) := by
    rw [← text]
    exact printed _
  rw [create, translated, submit, unwords_cons_cons, unwords_cons_cons, unwords_singleton,
    sdssplitargslong_word _ _ collection.createWord_isWord]
  cases sdssplitargslong (key ++ byte ' ' :: unwords collection.words) <;> rfl

-- A key that is written is bare: every other text has a first argument that is another key.
theorem bare_of_create (served : server.Lawful) (held : Option (Stored server.Score)) (created : Keyspace server.Score)
    (done : create world clusterMode server key collection (crowded key held) = some (.ok none, created)) :
    isBare key = true ∧ (0 : UInt8) ∉ key := by
  have refused (args : List Text)
      (refuses : server.Refuses (crowded key held) (ascii collection.createWord :: args)) :
      executeArgv world clusterMode server (ascii collection.createWord :: args) (crowded key held) ≠
        some (.ok none, created) := by
    rw [execute_create]
    split
    · obtain ⟨err, reads⟩ := readReply_refused world clusterMode server (crowded key held) args _ .commonExec refuses
        List.mem_cons_self
      rw [reads]
      simp
    · simp
  rw [create_eq world lawful clusterMode server key collection _ more all] at done
  cases split : sdssplitargslong (key ++ byte ' ' :: unwords collection.words) with
  | none =>
      rw [split] at done
      simp at done
  | some args =>
      rw [split] at done
      cases args with
      | nil => exact absurd done (refused [] (served.refuses_alone _ collection.createWord_listed _))
      | cons first rest =>
          by_cases same : first = key
          · exact bare_of_split_words key collection.words rest more all (same ▸ split)
          · have other : crowded key held first = some (.string []) := by simp [crowded, same]
            have apart : (Stored.string [] : Stored server.Score).type ≠ collection.type := by
              cases collection <;> simp [Stored.type, Collection.type]
            exact absurd done (refused (first :: rest) (served.refuses_type _ collection.createWord_listed _ _ _ _ other apart))

variable (bare : isBare key = true) (clean : (0 : UInt8) ∉ key)

include bare clean

theorem create_bare :
    create world clusterMode server key collection content =
      executeArgv world clusterMode server (ascii collection.createWord :: key :: collection.words) content := by
  have split : sdssplitargslong (key ++ byte ' ' :: unwords collection.words) = some (key :: collection.words) := by
    have isWords : ∀ word ∈ collection.words, isWord word = true := by
      intro word member
      exact (Bool.and_eq_true _ _ ▸ all word member).1
    rw [← unwords_cons key collection.words more]
    apply sdssplitargslong_unwords
    · rw [List.forall_mem_cons]
      exact ⟨bare, fun word member => (isBare_of_isWord word (isWords word member)).1⟩
    · rw [List.forall_mem_cons]
      exact ⟨clean, fun word member => (isBare_of_isWord word (isWords word member)).2⟩
  rw [create_eq world lawful clusterMode server key collection content more all, split]

theorem created_others (served : server.Lawful) (created : Keyspace server.Score)
    (done : create world clusterMode server key collection content = some (.ok none, created)) (other : Text)
    (apart : other ≠ key) : created other = content other := by
  rw [create_bare world lawful clusterMode server key collection content more all bare clean, execute_create] at done
  split at done
  · obtain ⟨_, -, same⟩ := Option.map_eq_some_iff.mp done
    rw [← (Prod.mk.inj same).2]
    exact served.others _ collection.createWord_listed content key collection.words other apart
  · cases (Prod.mk.inj (Option.some.inj done)).1

-- With a reply that is no error, the command succeeds when the table takes all of its arguments.
theorem create_served (reply : Reply) (stored after : Keyspace server.Score)
    (answer : server.serve content (ascii collection.createWord :: key :: collection.words) = (reply, stored))
    (fine : formatReply world.lib clusterMode reply = some (.ok reply)) :
    create world clusterMode server key collection content = some (.ok none, after) ↔
      collection.createEntry.accepts (key :: collection.words).length ∧ after = stored := by
  rw [create_bare world lawful clusterMode server key collection content more all bare clean, execute_create, answer]
  split
  next accepted =>
    have reads : readReply world clusterMode .commonExec (key :: collection.words) reply = some (.ok none) := by
      rw [readReply, fine]
      rfl
    simp only [reads, Option.map_some, accepted, true_and, Option.some.injEq, Prod.mk.injEq]
    exact eq_comm
  next refused =>
    refine iff_of_false (by simp) fun both => refused both.1

end Create

section Load

variable (world : World) (lawful : world.lib.Lawful) (clusterMode : Bool) (server : CollectionServer)
variable (key : Text) (content : Keyspace server.Score)

theorem serveOne_sent (argv args sent : List Text) (handler : Handler)
    (sends : forward world.lib argv handler args = some [sent]) (texts : List Text) (after : Keyspace server.Score)
    (loads : handler ∈ [Handler.lrange, .smembers, .zrange, .hgetall])
    (answer : server.serve content sent = (.array (texts.map .string), after)) :
    serveOne world clusterMode server argv handler args content =
      some (.ok (some (gather handler args (texts.map .string))), after) := by
  simp only [serveOne, sends, answer]
  simp only [List.mem_cons, List.not_mem_nil, or_false] at loads
  rcases loads with rfl | rfl | rfl | rfl
  all_goals simp only [readReply, valuesFromReplay_strings]; rfl

-- The words of a range that asks for everything.
def wholeRange : List Text := [ascii "0", ascii "-1"]

theorem wholeRange_numbers (lib : Common) (lawful : lib.Lawful) :
    [intText (number lib (ascii "0")).toInt, intText (number lib (ascii "-1")).toInt] = wholeRange := by
  have start : IsNumber (ascii "0") := ⟨0, by decide⟩
  have stop : IsNumber (ascii "-1") := ⟨-1, by decide⟩
  rw [(isNumber_iff lib lawful _).mpr start, (isNumber_iff lib lawful _).mpr stop]
  rfl

theorem gather_scores (values : List Value) :
    gather .zrange (key :: (wholeRange ++ [ascii "WITHSCORES"])) values = .zset ((pairUp values).map Prod.swap) := by
  have recognised : withScores [ascii "WITHSCORES"] = true := by decide
  simp only [gather, wholeRange, List.cons_append, List.nil_append, recognised, if_true]

include lawful

-- What the range of a sorted set sends: its own key only when that is passed on by the text.
theorem forward_zrange (argv : List Text) :
    ∃ found : Option (List Text),
      forward world.lib argv .zrange (key :: (wholeRange ++ [ascii "WITHSCORES"])) =
        found.map (fun rest => [ascii "ZRANGE" :: rest]) ∧
      ∀ rest, found = some (key :: rest) ↔ Plain key ∧ rest = wholeRange ++ [ascii "WITHSCORES"] := by
  have words : rangeWords world.lib (ascii "0") (ascii "-1") [ascii "WITHSCORES"] =
      wholeRange ++ [ascii "WITHSCORES"] := by
    have recognised : withScores [ascii "WITHSCORES"] = true := by decide
    rw [rangeWords, wholeRange_numbers world.lib lawful, if_pos recognised]
  have plain : ∀ word ∈ wholeRange ++ [ascii "WITHSCORES"], Plain word := by
    have start : Plain (ascii "0") := ⟨by decide, by decide, by decide⟩
    have stop : Plain (ascii "-1") := ⟨by decide, by decide, by decide⟩
    have scores : Plain (ascii "WITHSCORES") := ⟨by decide, by decide, by decide⟩
    simp [wholeRange, start, stop, scores]
  have clean : ∀ word ∈ cString key :: (wholeRange ++ [ascii "WITHSCORES"]), (0 : UInt8) ∉ word := by
    rw [List.forall_mem_cons]
    exact ⟨nul_not_mem_cString key, fun word member => (plain word member).1⟩
  refine ⟨formatFrom [] false (unwords (cString key :: (wholeRange ++ [ascii "WITHSCORES"]))) [], ?_,
    formatFrom_ending_iff key wholeRange _ plain⟩
  show (sendText (zrangeText world.lib key (ascii "0") (ascii "-1") [ascii "WITHSCORES"])).map ([·]) = _
  rw [zrangeText_eq lawful, words, sendText_words _ _ (by decide) (by decide) (by decide) (by simp) clean,
    Option.map_map]
  rfl

variable (bare : isBare key = true) (clean : (0 : UInt8) ∉ key)

include bare clean

omit lawful in
theorem load_eq (type : ValueType) (word : String) (required optional : Nat) (handler : Handler) (tail : List Text)
    (known : (word, required, optional, handler) ∈ writtenCommands) (fixed : ∀ other ∈ ascii word :: tail, isWord other = true)
    (printed : (CommandTranslator.redis world.lib).loadKeyCommand ⟨key, -1⟩ type =
      .ok (unwords (ascii word :: key :: tail)))
    (accepted : (⟨ascii word, required, optional, handler⟩ : CommandHolder Handler).accepts (key :: tail).length) :
    load world clusterMode server key type content =
      serveOne world clusterMode server (ascii word :: key :: tail) handler (key :: tail) content := by
  rw [List.forall_mem_cons] at fixed
  have split : sdssplitargslong (unwords (ascii word :: key :: tail)) = some (ascii word :: key :: tail) := by
    apply sdssplitargslong_unwords
    · simp only [List.forall_mem_cons]
      exact ⟨(isBare_of_isWord _ fixed.1).1, bare, fun other member => (isBare_of_isWord other (fixed.2 other member)).1⟩
    · simp only [List.forall_mem_cons]
      exact ⟨(isBare_of_isWord _ fixed.1).2, clean, fun other member => (isBare_of_isWord other (fixed.2 other member)).2⟩
  have plain := ValueRequest.isCommandWord_of_isWord _ fixed.1
  rw [load, printed, submit]
  simp only [split]
  rw [executeArgv, dispatch_written known _ (key :: tail) plain rfl, if_pos accepted]

variable (served : server.Lawful)

include served

theorem load_array (elements : List Text) (found : Stored.asList (content key) = some elements) :
    load world clusterMode server key .array content = some (.ok (some (.array (elements.map .string))), content) := by
  have sends : forward world.lib (ascii "LRANGE" :: key :: wholeRange) .lrange (key :: wholeRange) =
      some [ascii "LRANGE" :: key :: wholeRange] := by
    have numbers := format_numbers (cString key) (number world.lib (ascii "0")).toInt (number world.lib (ascii "-1")).toInt
      (nul_not_mem_cString key)
    rw [wholeRange_numbers world.lib lawful, cString_eq_self key clean] at numbers
    simp only [wholeRange, forward, cString_eq_self key clean] at numbers ⊢
    rw [numbers]
    rfl
  rw [load_eq world clusterMode server key content bare clean .array "LRANGE" 3 0 .lrange wholeRange
    (by simp [writtenCommands]) (by decide)
    (ValueRequest.print_words world.lib lawful "LRANGE %s 0 -1" [.s key] (ascii "LRANGE" :: key :: wholeRange) rfl)
    ⟨le_refl 3, le_refl 3⟩]
  exact serveOne_sent world clusterMode server content _ _ _ _ sends elements content (by decide)
    (served.lrange content key elements found)

-- `SMEMBERS` and `HGETALL` send their key as they are given it.
omit bare lawful served in
theorem format_load (word : String) (copied : isCopied (ascii word) = true) (nonempty : ascii word ≠ [])
    (wordClean : (0 : UInt8) ∉ ascii word) :
    (redisFormatCommand (ascii word ++ ascii " %s") [.s (cString key)]).map ([·]) = some [[ascii word, key]] := by
  rw [cString_eq_self key clean, format_key_only _ _ copied nonempty wordClean clean]
  rfl

theorem load_set (held : Dict Text Unit) (found : Stored.asSet (content key) = some held) :
    ∃ members : List Text, (∀ member, member ∈ members ↔ member ∈ held) ∧
      load world clusterMode server key .set content = some (.ok (some (.set (members.map .string))), content) := by
  obtain ⟨members, exact, answer⟩ := served.smembers content key held found
  refine ⟨members, exact, ?_⟩
  have sends : forward world.lib [ascii "SMEMBERS", key] .smembers [key] = some [[ascii "SMEMBERS", key]] :=
    format_load key clean "SMEMBERS" (by decide) (by decide) (by decide)
  rw [load_eq world clusterMode server key content bare clean .set "SMEMBERS" 1 0 .smembers []
    (by simp [writtenCommands]) (by decide)
    (ValueRequest.print_words world.lib lawful "SMEMBERS %s" [.s key] [ascii "SMEMBERS", key] rfl)
    ⟨le_refl 1, le_refl 1⟩]
  exact serveOne_sent world clusterMode server content _ _ _ _ sends members content (by decide) answer

theorem load_hash (held : Dict Text Text) (found : Stored.asHash (content key) = some held) :
    ∃ fields : List (Text × Text), (∀ field value, (field, value) ∈ fields ↔ held.lookup field = some value) ∧
      load world clusterMode server key .hash content =
        some (.ok (some (.hash (fields.map Collection.strings))), content) := by
  obtain ⟨fields, exact, answer⟩ := served.hgetall content key held found
  refine ⟨fields, exact, ?_⟩
  have sends : forward world.lib [ascii "HGETALL", key] .hgetall [key] = some [[ascii "HGETALL", key]] :=
    format_load key clean "HGETALL" (by decide) (by decide) (by decide)
  have gathered : gather .hgetall [key] ((unpair fields).map .string) = .hash (fields.map Collection.strings) := by
    rw [gather, map_unpair, pairUp_unpair]
    rfl
  rw [load_eq world clusterMode server key content bare clean .hash "HGETALL" 1 0 .hgetall []
    (by simp [writtenCommands]) (by decide)
    (ValueRequest.print_words world.lib lawful "HGETALL %s" [.s key] [ascii "HGETALL", key] rfl)
    ⟨le_refl 1, le_refl 1⟩, ← gathered]
  exact serveOne_sent world clusterMode server content _ _ _ _ sends (unpair fields) content (by decide) answer

omit served in
theorem load_zset_eq :
    load world clusterMode server key .zset content =
      serveOne world clusterMode server (ascii "ZRANGE" :: key :: (wholeRange ++ [ascii "WITHSCORES"])) .zrange
        (key :: (wholeRange ++ [ascii "WITHSCORES"])) content :=
  load_eq world clusterMode server key content bare clean .zset "ZRANGE" 3 1 .zrange
    (wholeRange ++ [ascii "WITHSCORES"]) (by simp [writtenCommands]) (by decide)
    (ValueRequest.print_words world.lib lawful "ZRANGE %s 0 -1 WITHSCORES" [.s key]
      (ascii "ZRANGE" :: key :: (wholeRange ++ [ascii "WITHSCORES"])) rfl)
    ⟨Nat.le_succ 3, le_refl 4⟩

theorem load_zset (plain : Plain key) (held : Dict Text server.Score) (found : Stored.asZset (content key) = some held) :
    ∃ entries : List (Text × server.Score),
      (∀ member score, (member, score) ∈ entries ↔ held.lookup member = some score) ∧
      load world clusterMode server key .zset content =
        some (.ok (some (.zset (entries.map fun entry => Collection.strings (server.print entry.2, entry.1)))), content) := by
  obtain ⟨entries, exact, answer⟩ := served.zrange content key held found
  refine ⟨entries, exact, ?_⟩
  obtain ⟨found, sends, own⟩ := forward_zrange world lawful key (ascii "ZRANGE" :: key :: (wholeRange ++ [ascii "WITHSCORES"]))
  rw [(own _).mpr ⟨plain, rfl⟩, Option.map_some] at sends
  have gathered :
      gather .zrange (key :: (wholeRange ++ [ascii "WITHSCORES"]))
          ((unpair (entries.map fun entry => (entry.1, server.print entry.2))).map .string) =
        .zset (entries.map fun entry => Collection.strings (server.print entry.2, entry.1)) := by
    rw [gather_scores, map_unpair, pairUp_unpair, List.map_map, List.map_map]
    rfl
  rw [load_zset_eq world lawful clusterMode server key content bare clean, ← gathered]
  exact serveOne_sent world clusterMode server content _ _ _ _ sends _ content (by decide) answer

-- A sorted set is only loaded from a key that its text passes on; every other text names another key.
theorem plain_of_load (others : ∀ other, other ≠ key → content other = some (.string [])) (value : Value)
    (after : Keyspace server.Score)
    (loaded : load world clusterMode server key .zset content = some (.ok (some value), after)) : Plain key := by
  have listed : ("ZRANGE", ValueType.zset) ∈ collectionCommands := by simp [collectionCommands]
  obtain ⟨found, sends, own⟩ := forward_zrange world lawful key (ascii "ZRANGE" :: key :: (wholeRange ++ [ascii "WITHSCORES"]))
  rw [load_zset_eq world lawful clusterMode server key content bare clean, serveOne, sends] at loaded
  cases found with
  | none => simp at loaded
  | some words =>
      have accepted : ¬ server.Refuses content (ascii "ZRANGE" :: words) := by
        intro refuses
        obtain ⟨err, reads⟩ := readReply_refused world clusterMode server content
          (key :: (wholeRange ++ [ascii "WITHSCORES"])) _ .zrange refuses (by decide)
        simp only [Option.map_some, reads] at loaded
        simp at loaded
      cases words with
      | nil => exact absurd (served.refuses_alone _ listed content) accepted
      | cons first rest =>
          by_cases same : first = key
          · exact ((own rest).mp (same ▸ rfl)).1
          · exact absurd (served.refuses_type _ listed content first rest _ (others first same) (by simp [Stored.type]))
              accepted

end Load

/-! ## What is loaded -/

theorem string_injective : Function.Injective Value.string := fun _ _ same => Value.string.inj same

theorem strings_injective : Function.Injective Collection.strings := by
  intro first second same
  obtain ⟨left, right⟩ := Prod.mk.inj same
  exact Prod.ext (string_injective left) (string_injective right)

theorem same_members_iff {A B : Type} (f : A → B) (injective : Function.Injective f) (first second : List A) :
    (∀ b, b ∈ first.map f ↔ b ∈ second.map f) ↔ ∀ a, a ∈ first ↔ a ∈ second := by
  constructor
  · intro same a
    have both := same (f a)
    rwa [List.mem_map_of_injective injective, List.mem_map_of_injective injective] at both
  · intro same b
    simp only [List.mem_map, same]

theorem reverse_append_eq_iff (elements held : List Text) :
    elements.reverse ++ held = elements ↔ held = [] ∧ elements.reverse = elements := by
  constructor
  · intro same
    have length := congrArg List.length same
    obtain rfl : held = [] := by
      apply List.eq_nil_of_length_eq_zero
      simpa using length
    exact ⟨rfl, by simpa using same⟩
  · intro ⟨empty, same⟩
    rw [empty, List.append_nil, same]

theorem scored_of_printed (server : CollectionServer) (entries : List (Text × Text))
    (printed : ∀ entry ∈ entries, ∃ score, server.print score = entry.1) :
    ∃ scored : List (server.Score × Text), entries = scored.map fun entry => (server.print entry.1, entry.2) := by
  induction entries with
  | nil => exact ⟨[], rfl⟩
  | cons entry entries ih =>
      rw [List.forall_mem_cons] at printed
      obtain ⟨⟨score, same⟩, rest⟩ := printed
      obtain ⟨scored, rfl⟩ := ih rest
      exact ⟨(score, entry.2) :: scored, by rw [List.map_cons, same]⟩

section Types

variable {Score : Type} (held : Option (Stored Score))

theorem asList_of_type (same : ∀ stored ∈ held, stored.type = .array) : ∃ list, Stored.asList held = some list := by
  match held with
  | none => exact ⟨_, rfl⟩
  | some stored =>
      have type := same stored rfl
      cases stored <;> first | exact ⟨_, rfl⟩ | cases type

theorem asSet_of_type (same : ∀ stored ∈ held, stored.type = .set) : ∃ members, Stored.asSet held = some members := by
  match held with
  | none => exact ⟨_, rfl⟩
  | some stored =>
      have type := same stored rfl
      cases stored <;> first | exact ⟨_, rfl⟩ | cases type

theorem asZset_of_type (same : ∀ stored ∈ held, stored.type = .zset) : ∃ scores, Stored.asZset held = some scores := by
  match held with
  | none => exact ⟨_, rfl⟩
  | some stored =>
      have type := same stored rfl
      cases stored <;> first | exact ⟨_, rfl⟩ | cases type

theorem asHash_of_type (same : ∀ stored ∈ held, stored.type = .hash) : ∃ fields, Stored.asHash held = some fields := by
  match held with
  | none => exact ⟨_, rfl⟩
  | some stored =>
      have type := same stored rfl
      cases stored <;> first | exact ⟨_, rfl⟩ | cases type

end Types

section Survive

variable (world : World) (lawful : world.lib.Lawful) (clusterMode : Bool) (server : CollectionServer)
variable (served : server.Lawful) (key : Text) (content : Keyspace server.Score)

section Written

variable (collection : Collection) (more : collection.words ≠ [])
variable (all : ∀ word ∈ collection.words, isSimpleWord word = true)
variable (bare : isBare key = true) (clean : (0 : UInt8) ∉ key)

include lawful more all bare clean

theorem createsAndLoads_served (reply : Reply) (stored : Keyspace server.Score) (loaded : Value)
    (answer : server.serve content (ascii collection.createWord :: key :: collection.words) = (reply, stored))
    (fine : formatReply world.lib clusterMode reply = some (.ok reply))
    (loads : load world clusterMode server key collection.type stored = some (.ok (some loaded), stored)) :
    CreatesAndLoads world clusterMode server key collection content ↔
      collection.createEntry.accepts (key :: collection.words).length ∧ loaded.Same collection.value := by
  have creates := fun after => create_served world lawful clusterMode server key collection content more all bare clean
    reply stored after answer fine
  constructor
  · intro ⟨created, value, after, done, found, same⟩
    obtain ⟨accepted, rfl⟩ := (creates created).mp done
    rw [loads] at found
    obtain rfl : loaded = value := Option.some.inj (Except.ok.inj (Prod.mk.inj (Option.some.inj found)).1)
    exact ⟨accepted, same⟩
  · intro ⟨accepted, same⟩
    exact ⟨stored, loaded, stored, (creates stored).mpr ⟨accepted, rfl⟩, loads, same⟩

end Written

section Types

variable (bare : isBare key = true) (clean : (0 : UInt8) ∉ key)

include lawful served bare clean

theorem array_iff (elements held : List Text) (found : Stored.asList (content key) = some held) (more : elements ≠ [])
    (all : ∀ word ∈ elements, isSimpleWord word = true) :
    CreatesAndLoads world clusterMode server key (.array elements) content ↔
      elements.length ≤ 256 ∧ held = [] ∧ elements.reverse = elements := by
  obtain ⟨n, answer⟩ := served.lpush content key elements held more found
  have put : Stored.asList ((content.put key (.list (elements.reverse ++ held))) key) = some (elements.reverse ++ held) := by
    rw [Keyspace.put, Function.update_self]
    rfl
  have loads := load_array world lawful clusterMode server key _ bare clean served _ put
  have some : 0 < elements.length := List.length_pos_iff.mpr more
  have fits : (Collection.array elements).createEntry.accepts (key :: elements).length ↔ elements.length ≤ 256 := by
    show 2 ≤ elements.length + 1 ∧ elements.length + 1 ≤ 257 ↔ _
    omega
  have same : (Value.array ((elements.reverse ++ held).map .string)).Same (Collection.array elements).value ↔
      elements.reverse ++ held = elements := by
    show Value.array _ = Value.array _ ↔ _
    rw [Value.array.injEq, (List.map_injective_iff.mpr string_injective).eq_iff]
  rw [createsAndLoads_served world lawful clusterMode server key content (.array elements) more all bare clean
    _ _ _ answer rfl loads, ← reverse_append_eq_iff, same]
  exact and_congr_left fun _ => fits

theorem set_iff (members : List Text) (held : Dict Text Unit) (found : Stored.asSet (content key) = some held)
    (more : members ≠ []) (all : ∀ word ∈ members, isSimpleWord word = true) :
    CreatesAndLoads world clusterMode server key (.set members) content ↔
      members.length ≤ 256 ∧ ∀ member ∈ held, member ∈ members := by
  obtain ⟨n, answer⟩ := served.sadd content key members held more found
  have put : Stored.asSet ((content.put key (.set (Dict.putAll (members.map (·, ())) held))) key) =
      some (Dict.putAll (members.map (·, ())) held) := by
    rw [Keyspace.put, Function.update_self]
    rfl
  obtain ⟨listed, exact, loads⟩ := load_set world lawful clusterMode server key _ bare clean served _ put
  have some : 0 < members.length := List.length_pos_iff.mpr more
  have fits : (Collection.set members).createEntry.accepts (key :: members).length ↔ members.length ≤ 256 := by
    show 2 ≤ members.length + 1 ∧ members.length + 1 ≤ 257 ↔ _
    omega
  rw [createsAndLoads_served world lawful clusterMode server key content (.set members) more all bare clean
    _ _ _ answer rfl loads]
  have same := same_members_iff Value.string string_injective listed members
  simp only [exact] at same
  exact and_congr fits (same.trans (Dict.members_putAll_iff held members))

theorem hash_iff (fields : List (Text × Text)) (held : Dict Text Text)
    (found : Stored.asHash (content key) = some held) (more : fields ≠ [])
    (all : ∀ word ∈ unpair fields, isSimpleWord word = true) :
    CreatesAndLoads world clusterMode server key (.hash fields) content ↔
      fields.length ≤ 128 ∧ Dict.Consistent fields ∧ ∀ field ∈ held, field ∈ fields.map Prod.fst := by
  have answer := served.hmset content key fields held more found
  have put : Stored.asHash ((content.put key (.hash (Dict.putAll fields held))) key) =
      some (Dict.putAll fields held) := by
    rw [Keyspace.put, Function.update_self]
    rfl
  obtain ⟨listed, exact, loads⟩ := load_hash world lawful clusterMode server key _ bare clean served _ put
  have some : 0 < fields.length := List.length_pos_iff.mpr more
  have fits : (Collection.hash fields).createEntry.accepts (key :: unpair fields).length ↔ fields.length ≤ 128 := by
    show 3 ≤ (unpair fields).length + 1 ∧ (unpair fields).length + 1 ≤ 258 ↔ _
    rw [length_unpair]
    omega
  rw [createsAndLoads_served world lawful clusterMode server key content (.hash fields) (unpair_ne_nil fields more) all
    bare clean _ _ _ answer rfl loads, ← Dict.lookup_putAll_iff]
  refine and_congr fits ((same_members_iff Collection.strings strings_injective listed fields).trans ?_)
  simp only [Prod.forall, exact]

theorem zset_printed_iff (plain : Plain key) (scored : List (server.Score × Text)) (held : Dict Text server.Score)
    (found : Stored.asZset (content key) = some held) (more : scored ≠ [])
    (all : ∀ word ∈ server.scoreWords scored, isSimpleWord word = true) :
    CreatesAndLoads world clusterMode server key (.zset (scored.map fun entry => (server.print entry.1, entry.2)))
        content ↔
      scored.length ≤ 128 ∧ Dict.Consistent (scored.map Prod.swap) ∧
        ∀ member ∈ held, member ∈ (scored.map Prod.swap).map Prod.fst := by
  obtain ⟨n, answer⟩ := served.zadd content key scored held more found
  have put : Stored.asZset ((content.put key (.zset (Dict.putAll (scored.map Prod.swap) held))) key) =
      some (Dict.putAll (scored.map Prod.swap) held) := by
    rw [Keyspace.put, Function.update_self]
    rfl
  obtain ⟨listed, exact, loads⟩ := load_zset world lawful clusterMode server key _ bare clean served plain _ put
  have some : 0 < scored.length := List.length_pos_iff.mpr more
  have fits : (Collection.zset (scored.map fun entry => (server.print entry.1, entry.2))).createEntry.accepts
      (key :: server.scoreWords scored).length ↔ scored.length ≤ 128 := by
    show 3 ≤ (server.scoreWords scored).length + 1 ∧ (server.scoreWords scored).length + 1 ≤ 258 ↔ _
    rw [CollectionServer.scoreWords, length_unpair, List.length_map]
    omega
  have nonempty : server.scoreWords scored ≠ [] := unpair_ne_nil _ (by simpa using more)
  rw [createsAndLoads_served world lawful clusterMode server key content (.zset _) nonempty all bare clean
    _ _ _ answer rfl loads, ← Dict.lookup_putAll_iff]
  let shown (entry : Text × server.Score) : Value × Value := Collection.strings (server.print entry.2, entry.1)
  have injective : Function.Injective shown := by
    intro first second same
    obtain ⟨score, member⟩ := Prod.mk.inj (strings_injective same)
    exact Prod.ext member (served.print_injective score)
  have same := same_members_iff shown injective listed (scored.map Prod.swap)
  rw [List.map_map] at same
  have value : (Collection.zset (scored.map fun entry => (server.print entry.1, entry.2))).value =
      .zset (scored.map (shown ∘ Prod.swap)) := by
    rw [Collection.value, List.map_map]
    rfl
  rw [value]
  refine and_congr fits (same.trans ?_)
  simp only [Prod.forall, exact]

theorem printed_of_loads (plain : Plain key) (entries : List (Text × Text))
    (loads : CreatesAndLoads world clusterMode server key (.zset entries) content) :
    ∀ entry ∈ entries, ∃ score, server.print score = entry.1 := by
  obtain ⟨created, loaded, after, -, found, same⟩ := loads
  cases zset : Stored.asZset (created key) with
  | some held =>
      obtain ⟨listed, -, result⟩ := load_zset world lawful clusterMode server key created bare clean served plain held zset
      rw [show (Collection.zset entries).type = .zset from rfl, result] at found
      obtain rfl := Option.some.inj (Except.ok.inj (Prod.mk.inj (Option.some.inj found)).1)
      intro entry member
      obtain ⟨shown, -, printed⟩ := List.mem_map.mp ((same (Collection.strings entry)).mpr (List.mem_map_of_mem member))
      exact ⟨shown.2, (Prod.mk.inj (strings_injective printed)).1⟩
  | none =>
      exfalso
      obtain ⟨stored, holds, other⟩ : ∃ stored, created key = some stored ∧ stored.type ≠ .zset := by
        match holds : created key with
        | none => simp [holds, Stored.asZset] at zset
        | some stored => cases stored <;> simp_all [Stored.asZset, Stored.type]
      obtain ⟨sent, sends, own⟩ := forward_zrange world lawful key
        (ascii "ZRANGE" :: key :: (wholeRange ++ [ascii "WITHSCORES"]))
      rw [(own _).mpr ⟨plain, rfl⟩, Option.map_some] at sends
      have refuses := served.refuses_type ("ZRANGE", .zset) (by simp [collectionCommands]) created key
        (wholeRange ++ [ascii "WITHSCORES"]) stored holds other
      obtain ⟨err, reads⟩ := readReply_refused world clusterMode server created
        (key :: (wholeRange ++ [ascii "WITHSCORES"])) _ .zrange refuses (by decide)
      rw [show (Collection.zset entries).type = .zset from rfl,
        load_zset_eq world lawful clusterMode server key created bare clean, serveOne, sends] at found
      simp only [reads] at found
      simp at found

theorem zset_iff (plain : Plain key) (entries : List (Text × Text)) (held : Dict Text server.Score)
    (found : Stored.asZset (content key) = some held) (more : entries ≠ [])
    (all : ∀ word ∈ unpair entries, isSimpleWord word = true) :
    CreatesAndLoads world clusterMode server key (.zset entries) content ↔
      entries.length ≤ 128 ∧ (∀ entry ∈ entries, ∃ score, server.print score = entry.1) ∧
        Dict.Consistent (entries.map Prod.swap) ∧ ∀ member ∈ held, member ∈ entries.map Prod.snd := by
  by_cases printed : ∀ entry ∈ entries, ∃ score, server.print score = entry.1
  · obtain ⟨scored, rfl⟩ : ∃ scored : List (server.Score × Text),
        entries = scored.map fun entry => (server.print entry.1, entry.2) := scored_of_printed server entries printed
    have swapped : (scored.map fun entry => (server.print entry.1, entry.2)).map Prod.swap =
        (scored.map Prod.swap).map fun pair => (pair.1, server.print pair.2) := by
      simp
    have members : (scored.map fun entry => (server.print entry.1, entry.2)).map Prod.snd =
        (scored.map Prod.swap).map Prod.fst := by
      simp
    rw [zset_printed_iff world lawful clusterMode server served key content bare clean plain scored held found
      (by simpa using more) all, swapped, Dict.consistent_map_iff _ _ served.print_injective, members, List.length_map]
    exact and_congr_right fun _ => (and_iff_right printed).symm
  · refine iff_of_false (fun loads => printed ?_) fun conditions => printed conditions.2.1
    exact printed_of_loads world lawful clusterMode server served key content bare clean plain entries loads

end Types

include lawful served in
/-- A collection survives being written to a key and loaded, whatever other keys the server holds, exactly when
the key is a bare text and what it held before can be overwritten. -/
theorem survives_iff (collection : Collection) (held : Option (Stored server.Score))
    (same : ∀ stored ∈ held, stored.type = collection.type) (more : collection.words ≠ [])
    (all : ∀ word ∈ collection.words, isSimpleWord word = true) :
    (∀ content, content key = held → CreatesAndLoads world clusterMode server key collection content) ↔
      isBare key = true ∧ (0 : UInt8) ∉ key ∧ Restorable server key held collection := by
  have crowdedKey : crowded key held key = held := Function.update_self _ _ _
  have known (content : Keyspace server.Score) (holds : content key = held) (bare : isBare key = true)
      (clean : (0 : UInt8) ∉ key) (plain : collection.type = .zset → Plain key) :
      CreatesAndLoads world clusterMode server key collection content ↔ Restorable server key held collection := by
    subst holds
    cases collection with
    | array elements =>
        obtain ⟨list, found⟩ := asList_of_type _ same
        rw [array_iff world lawful clusterMode server served key content bare clean elements list found more all]
        simp [Restorable, found]
    | set members =>
        obtain ⟨old, found⟩ := asSet_of_type _ same
        rw [set_iff world lawful clusterMode server served key content bare clean members old found more all]
        simp [Restorable, found]
    | zset entries =>
        obtain ⟨old, found⟩ := asZset_of_type _ same
        have entriesMore : entries ≠ [] := fun empty => more (by rw [empty]; rfl)
        rw [zset_iff world lawful clusterMode server served key content bare clean (plain rfl) entries old found
          entriesMore all]
        simp only [Restorable, found, plain rfl, true_and, Option.mem_some_iff, forall_eq']
    | hash fields =>
        obtain ⟨old, found⟩ := asHash_of_type _ same
        have fieldsMore : fields ≠ [] := fun empty => more (by rw [empty]; rfl)
        rw [hash_iff world lawful clusterMode server served key content bare clean fields old found fieldsMore all]
        simp only [Restorable, found, Option.mem_some_iff, forall_eq']
  constructor
  · intro survives
    obtain ⟨created, loaded, after, done, found, -⟩ := survives (crowded key held) crowdedKey
    obtain ⟨bare, clean⟩ := bare_of_create world lawful clusterMode server key collection more all served held created done
    refine ⟨bare, clean, (known _ crowdedKey bare clean fun zset => ?_).mp (survives _ crowdedKey)⟩
    have others : ∀ other, other ≠ key → created other = some (.string []) := by
      intro other apart
      rw [created_others world lawful clusterMode server key collection _ more all bare clean served created done other
        apart]
      exact Function.update_of_ne apart _ _
    rw [zset] at found
    exact plain_of_load world lawful clusterMode server key created bare clean served others loaded after found
  · intro ⟨bare, clean, restorable⟩ content holds
    refine (known content holds bare clean fun zset => ?_).mpr restorable
    cases collection with
    | zset entries => exact restorable.1
    | array | set | hash => cases zset

end Survive

section Concrete

def board : Collection := .zset [(ascii "1", ascii "ann"), (ascii "2", ascii "bob")]

theorem board_survives :
    CreatesAndLoads World.std false CollectionServer.std (ascii "board") board (fun _ => none) := by
  have plain : Plain (ascii "board") := ⟨by decide, by decide, by decide⟩
  have printed : ∀ entry ∈ [(ascii "1", ascii "ann"), (ascii "2", ascii "bob")], ∃ score : Int, intText score = entry.1 := by
    simp only [List.forall_mem_cons, List.not_mem_nil, false_implies, implies_true, and_true]
    exact ⟨⟨1, by decide⟩, 2, by decide⟩
  have consistent : Dict.Consistent ([(ascii "1", ascii "ann"), (ascii "2", ascii "bob")].map Prod.swap) := by
    have other : ascii "ann" ≠ ascii "bob" := by decide
    intro key first second memberFirst memberSecond
    simp only [List.map_cons, List.map_nil, Prod.swap_prod_mk, List.mem_cons, Prod.mk.injEq, List.not_mem_nil, or_false]
      at memberFirst memberSecond
    grind
  refine (survives_iff World.std Common.std_lawful false CollectionServer.std CollectionServer.std_lawful (ascii "board")
    board none (by simp) (List.cons_ne_nil _ _) (by decide)).mpr
      ⟨by decide, by decide, plain, by decide, printed, consistent, ?_⟩ (fun _ => none) rfl
  intro old empty member held
  obtain rfl := Option.some.inj empty
  cases held

/-- A list comes back in the other order, and a member that is edited away stays. -/
theorem list_turned_member_left :
    ¬ CreatesAndLoads World.std false CollectionServer.std (ascii "k") (.array [ascii "a", ascii "b"]) (fun _ => none) ∧
      ¬ CreatesAndLoads World.std false CollectionServer.std (ascii "k") (.set [ascii "a"])
        (Keyspace.put (fun _ => none) (ascii "k") (.set (AList.insert (ascii "x") () ∅))) := by
  constructor
  · rw [array_iff World.std Common.std_lawful false CollectionServer.std CollectionServer.std_lawful (ascii "k") _
      (by decide) (by decide) [ascii "a", ascii "b"] [] rfl (by simp) (by decide)]
    intro ⟨_, _, same⟩
    revert same
    decide
  · rw [set_iff World.std Common.std_lawful false CollectionServer.std CollectionServer.std_lawful (ascii "k") _
      (by decide) (by decide) [ascii "a"] (AList.insert (ascii "x") () ∅) ?_ (by simp) (by decide)]
    · intro ⟨_, kept⟩
      have left := kept (ascii "x") ((AList.mem_insert _).mpr (Or.inl rfl))
      revert left
      decide
    · rw [Keyspace.put, Function.update_self]
      rfl

end Concrete

end FastoNoSQL.Redis
