import FastoNoSQL.Dict
import FastoNoSQL.Redis.Pipeline

set_option autoImplicit false

/-!
# Collections

Values with elements: their text in `global/global.cpp`, what
`core/redis/db_connection.cpp` makes of replies, and what the core relies on of
a server that holds them.
-/

namespace FastoNoSQL.Redis

open Bytes

/-- `common::Value`, as replies make it. A container is the list of its entries in iteration order. -/
inductive Value where
  | null
  | string (text : Text)
  | integer (value : Int)
  | array (elements : List Value)
  | set (members : List Value)
  | zset (entries : List (Value × Value))
  | hash (fields : List (Value × Value))

-- Only an array has an order.
def Value.Same : Value → Value → Prop
  | set first, set second => ∀ member, member ∈ first ↔ member ∈ second
  | zset first, zset second | hash first, hash second => ∀ entry, entry ∈ first ↔ entry ∈ second
  | first, second => first = second

mutual

def valueFromReplay : Reply → Except ErrorValue Value
  | .nil => .ok .null
  | .error text => .error ⟨text, true⟩
  | .status text | .string text => .ok (.string text)
  | .integer value => .ok (.integer value)
  | .array elements => (valuesFromReplay elements).map .array

def valuesFromReplay : List Reply → Except ErrorValue (List Value)
  | [] => .ok []
  | reply :: replies => do
    let value ← valueFromReplay reply
    let values ← valuesFromReplay replies
    return value :: values

end

theorem valuesFromReplay_strings (texts : List Text) :
    valuesFromReplay (texts.map .string) = .ok (texts.map .string) := by
  induction texts with
  | nil => rfl
  | cons text texts ih =>
      rw [List.map_cons, valuesFromReplay, ih]
      rfl

-- The loops over `i` and `i + 1`; an element without a second one is passed over.
def pairUp {A : Type} : List A → List (A × A)
  | first :: second :: rest => (first, second) :: pairUp rest
  | _ => []

def unpair {A : Type} (pairs : List (A × A)) : List A := pairs.flatMap fun pair => [pair.1, pair.2]

theorem pairUp_unpair {A : Type} (pairs : List (A × A)) : pairUp (unpair pairs) = pairs := by
  induction pairs with
  | nil => rfl
  | cons pair pairs ih =>
      show (pair.1, pair.2) :: pairUp (unpair pairs) = pair :: pairs
      rw [ih]

theorem map_unpair {A B : Type} (f : A → B) (pairs : List (A × A)) :
    (unpair pairs).map f = unpair (pairs.map (Prod.map f f)) := by
  simp [unpair, List.map_flatMap, List.flatMap_map]

theorem length_unpair {A : Type} (pairs : List (A × A)) : (unpair pairs).length = 2 * pairs.length := by
  simp [unpair, Nat.mul_comm]

theorem unpair_ne_nil {A : Type} (pairs : List (A × A)) (more : pairs ≠ []) : unpair pairs ≠ [] := by
  obtain ⟨pair, pairs, rfl⟩ := List.exists_cons_of_ne_nil more
  exact List.cons_ne_nil _ _

/-! ## The text of a value -/

/-- A value with string elements. The entries of a sorted set have the score first. -/
inductive Collection where
  | array (elements : List Text)
  | set (members : List Text)
  | zset (entries : List (Text × Text))
  | hash (fields : List (Text × Text))

namespace Collection

def type : Collection → ValueType
  | array _ => .array
  | set _ => .set
  | zset _ => .zset
  | hash _ => .hash

def strings (pair : Text × Text) : Value × Value := (.string pair.1, .string pair.2)

def value : Collection → Value
  | array elements => .array (elements.map .string)
  | set members => .set (members.map .string)
  | zset entries => .zset (entries.map strings)
  | hash fields => .hash (fields.map strings)

def pairText (pair : Text × Text) : Text :=
  if pair.1 = [] ∨ pair.2 = [] then [] else pair.1 ++ ascii " " ++ pair.2

def items : Collection → List Text
  | array elements | set elements => elements
  | zset pairs | hash pairs => pairs.map pairText

-- Empty items are skipped, but an item before skipped ones keeps its delimiter.
def convertItems (delimiter : Text) : List Text → Text
  | [] => []
  | [item] => item
  | item :: second :: items =>
    (if item = [] then [] else item ++ delimiter) ++ convertItems delimiter (second :: items)

def emptyText : Collection → Text
  | array _ => ascii "(empty list)"
  | set _ => ascii "(empty set)"
  | zset _ => ascii "(empty zset)"
  | hash _ => ascii "(empty hash)"

-- The overloads of `ConvertToString` for containers.
def convertToString (delimiter : Text) (collection : Collection) : Text :=
  if collection.items = [] then collection.emptyText else convertItems delimiter collection.items

-- The key and value given to a translator, with `NDbKValue::ValueString`.
def keyValue (key : Text) (collection : Collection) : NDbKValue :=
  ⟨⟨key, -1⟩, collection.type, collection.convertToString (ascii " ")⟩

-- The elements, members, fields, values and scores, in the order of the text.
def words : Collection → List Text
  | array elements | set elements => elements
  | zset pairs | hash pairs => unpair pairs

theorem convertItems_unwords (items : List Text) (all : ∀ item ∈ items, item ≠ []) :
    convertItems (ascii " ") items = unwords items := by
  induction items with
  | nil => rfl
  | cons item items ih =>
      rw [List.forall_mem_cons] at all
      cases items with
      | nil => simp [convertItems]
      | cons second items =>
          rw [convertItems, if_neg all.1, ih all.2, unwords_cons_cons, List.append_assoc]
          rfl

theorem unwords_pairs (pairs : List (Text × Text)) (all : ∀ word ∈ unpair pairs, word ≠ []) :
    unwords (pairs.map pairText) = unwords (unpair pairs) ∧ ∀ item ∈ pairs.map pairText, item ≠ [] := by
  induction pairs with
  | nil => simp [unpair]
  | cons pair pairs ih =>
      have shape : unpair (pair :: pairs) = pair.1 :: pair.2 :: unpair pairs := rfl
      rw [shape, List.forall_mem_cons, List.forall_mem_cons] at all
      obtain ⟨first, second, rest⟩ := all
      obtain ⟨tail, nonempty⟩ := ih rest
      have text : pairText pair = pair.1 ++ byte ' ' :: pair.2 := by
        rw [pairText, if_neg (by simp [first, second]), List.append_assoc]
        rfl
      constructor
      · rw [shape, List.map_cons, text, unwords_cons_cons]
        cases pairs with
        | nil => simp [unpair]
        | cons other pairs =>
            rw [unwords_cons _ _ (by simp), tail, unwords_cons pair.2 _ (by simp [unpair]), List.append_assoc]
            rfl
      · rw [List.map_cons, List.forall_mem_cons, text]
        exact ⟨by simp, nonempty⟩

-- With words for its entries, the text of a value is these words with blanks between them.
theorem convertToString_words (collection : Collection) (more : collection.words ≠ [])
    (all : ∀ word ∈ collection.words, word ≠ []) :
    collection.convertToString (ascii " ") = unwords collection.words := by
  have listed (elements : List Text) (some : elements ≠ []) (nonempty : ∀ word ∈ elements, word ≠ []) (text : Text) :
      (if elements = [] then text else convertItems (ascii " ") elements) = unwords elements := by
    rw [if_neg some, convertItems_unwords elements nonempty]
  have paired (pairs : List (Text × Text)) (some : unpair pairs ≠ []) (nonempty : ∀ word ∈ unpair pairs, word ≠ [])
      (text : Text) :
      (if pairs.map pairText = [] then text else convertItems (ascii " ") (pairs.map pairText)) =
        unwords (unpair pairs) := by
    have entries : pairs.map pairText ≠ [] := by
      intro none
      rw [List.map_eq_nil_iff.mp none] at some
      exact some rfl
    obtain ⟨same, items⟩ := unwords_pairs pairs nonempty
    rw [if_neg entries, convertItems_unwords _ items, same]
  cases collection with
  | array elements | set elements => exact listed elements more all _
  | zset pairs | hash pairs => exact paired pairs more all _

end Collection

/-! ## The server -/

inductive Stored (Score : Type) where
  | string (value : Text)
  | list (elements : List Text)
  | set (members : Dict Text Unit)
  | zset (scores : Dict Text Score)
  | hash (fields : Dict Text Text)

namespace Stored

variable {Score : Type}

def type : Stored Score → ValueType
  | string _ => .string
  | list _ => .array
  | set _ => .set
  | zset _ => .zset
  | hash _ => .hash

-- A key that is absent is an empty collection of any type.
def asList : Option (Stored Score) → Option (List Text)
  | none => some []
  | some (list elements) => some elements
  | some _ => none

def asSet : Option (Stored Score) → Option (Dict Text Unit)
  | none => some ∅
  | some (set members) => some members
  | some _ => none

def asZset : Option (Stored Score) → Option (Dict Text Score)
  | none => some ∅
  | some (zset scores) => some scores
  | some _ => none

def asHash : Option (Stored Score) → Option (Dict Text Text)
  | none => some ∅
  | some (hash fields) => some fields
  | some _ => none

end Stored

abbrev Keyspace (Score : Type) := Text → Option (Stored Score)

def Keyspace.put {Score : Type} (content : Keyspace Score) (key : Text) (stored : Stored Score) : Keyspace Score :=
  Function.update content key (some stored)

/-- A server with its sorted set scores and the text it prints for a score. -/
structure CollectionServer where
  Score : Type
  print : Score → Text
  serve : Keyspace Score → List Text → Reply × Keyspace Score

-- The commands on collections, with the type of value that each of them works on.
def collectionCommands : List (String × ValueType) :=
  [("LPUSH", .array), ("SADD", .set), ("ZADD", .zset), ("HMSET", .hash), ("LRANGE", .array), ("SMEMBERS", .set),
    ("ZRANGE", .zset), ("HGETALL", .hash)]

namespace CollectionServer

variable (server : CollectionServer)

-- The error reply to a command that is not run; it is no redirection.
def Refuses (content : Keyspace server.Score) (argv : List Text) : Prop :=
  ∃ text, isRedirect true (.error text) = false ∧ server.serve content argv = (.error text, content)

-- The arguments of `ZADD` for some scores, as the server itself prints these.
def scoreWords (entries : List (server.Score × Text)) : List Text :=
  unpair (entries.map fun entry => (server.print entry.1, entry.2))

/-- The commands on collections as they are documented. The order of members and fields is left open. -/
structure Lawful : Prop where
  print_injective : Function.Injective server.print
  lpush : ∀ content key (elements held : List Text), elements ≠ [] → Stored.asList (content key) = some held →
    ∃ n, server.serve content (ascii "LPUSH" :: key :: elements) =
      (.integer n, content.put key (.list (elements.reverse ++ held)))
  sadd : ∀ content key (members : List Text) held, members ≠ [] → Stored.asSet (content key) = some held →
    ∃ n, server.serve content (ascii "SADD" :: key :: members) =
      (.integer n, content.put key (.set (Dict.putAll (members.map (·, ())) held)))
  zadd : ∀ content key (entries : List (server.Score × Text)) held, entries ≠ [] → Stored.asZset (content key) = some held →
    ∃ n, server.serve content (ascii "ZADD" :: key :: server.scoreWords entries) =
      (.integer n, content.put key (.zset (Dict.putAll (entries.map Prod.swap) held)))
  hmset : ∀ content key fields held, fields ≠ [] → Stored.asHash (content key) = some held →
    server.serve content (ascii "HMSET" :: key :: unpair fields) =
      (.status (ascii "OK"), content.put key (.hash (Dict.putAll fields held)))
  lrange : ∀ content key held, Stored.asList (content key) = some held →
    server.serve content [ascii "LRANGE", key, ascii "0", ascii "-1"] = (.array (held.map .string), content)
  smembers : ∀ content key held, Stored.asSet (content key) = some held →
    ∃ members : List Text, (∀ member, member ∈ members ↔ member ∈ held) ∧
      server.serve content [ascii "SMEMBERS", key] = (.array (members.map .string), content)
  zrange : ∀ content key held, Stored.asZset (content key) = some held →
    ∃ entries : List (Text × server.Score), (∀ member score, (member, score) ∈ entries ↔ held.lookup member = some score) ∧
      server.serve content [ascii "ZRANGE", key, ascii "0", ascii "-1", ascii "WITHSCORES"] =
        (.array ((unpair (entries.map fun entry => (entry.1, server.print entry.2))).map .string), content)
  hgetall : ∀ content key held, Stored.asHash (content key) = some held →
    ∃ fields : List (Text × Text), (∀ field value, (field, value) ∈ fields ↔ held.lookup field = some value) ∧
      server.serve content [ascii "HGETALL", key] = (.array ((unpair fields).map .string), content)
  -- A value of another type is left alone, also by a command that is wrong in other ways.
  refuses_type : ∀ command ∈ collectionCommands, ∀ content key args stored, content key = some stored →
    stored.type ≠ command.2 → server.Refuses content (ascii command.1 :: key :: args)
  refuses_alone : ∀ command ∈ collectionCommands, ∀ content, server.Refuses content [ascii command.1]
  -- A command changes only the key that it names.
  others : ∀ command ∈ collectionCommands, ∀ content key args other, other ≠ key →
    (server.serve content (ascii command.1 :: key :: args)).2 other = content other

/-! ### A server with integer scores -/

/-- What a command makes of the value that its key holds: the reply and a new value, none when it is refused. -/
def stdAction (word : Text) (held : Option (Stored Int)) (args : List Text) : Option (Reply × Option (Stored Int)) :=
  if word = ascii "LPUSH" then
    (Stored.asList held).bind fun held =>
      if args = [] then none
      else some (.integer (args.length + held.length), some (.list (args.reverse ++ held)))
  else if word = ascii "SADD" then
    (Stored.asSet held).bind fun held =>
      if args = [] then none else some (.integer args.length, some (.set (Dict.putAll (args.map (·, ())) held)))
  else if word = ascii "ZADD" then
    (Stored.asZset held).bind fun held =>
      if args = [] ∨ unpair (pairUp args) ≠ args then none
      else
        ((pairUp args).mapM fun pair =>
          if intText (readInt pair.1) = pair.1 then some (pair.2, readInt pair.1) else none).map fun entries =>
          (.integer entries.length, some (.zset (Dict.putAll entries held)))
  else if word = ascii "HMSET" then
    (Stored.asHash held).bind fun held =>
      if args = [] ∨ unpair (pairUp args) ≠ args then none
      else some (.status (ascii "OK"), some (.hash (Dict.putAll (pairUp args) held)))
  else if word = ascii "LRANGE" then
    (Stored.asList held).bind fun held =>
      if args = [ascii "0", ascii "-1"] then some (.array (held.map .string), none) else none
  else if word = ascii "SMEMBERS" then
    (Stored.asSet held).bind fun held =>
      if args = [] then some (.array (held.keys.map .string), none) else none
  else if word = ascii "ZRANGE" then
    (Stored.asZset held).bind fun held =>
      if args = [ascii "0", ascii "-1", ascii "WITHSCORES"] then
        some (.array ((unpair (held.entries.map fun entry => (entry.1, intText entry.2))).map .string), none)
      else none
  else if word = ascii "HGETALL" then
    (Stored.asHash held).bind fun held =>
      if args = [] then some (.array ((unpair (held.entries.map fun entry => (entry.1, entry.2))).map .string), none)
      else none
  else none

def std : CollectionServer where
  Score := Int
  print := intText
  serve content argv :=
    let refused := (.error (ascii "ERR"), content)
    match argv with
    | word :: key :: args =>
      match stdAction word (content key) args with
      | none => refused
      | some (reply, none) => (reply, content)
      | some (reply, some stored) => (reply, content.put key stored)
    | _ => refused

section Std

variable (content : Keyspace Int) (key : Text)

theorem std_serve_reply (word : Text) (args : List Text) (reply : Reply)
    (answer : stdAction word (content key) args = some (reply, none)) :
    std.serve content (word :: key :: args) = (reply, content) := by
  simp only [std, answer]

theorem std_serve_put (word : Text) (args : List Text) (reply : Reply) (stored : Stored Int)
    (answer : stdAction word (content key) args = some (reply, some stored)) :
    std.serve content (word :: key :: args) = (reply, content.put key stored) := by
  simp only [std, answer]

theorem std_refuses (word : Text) (args : List Text) (none : stdAction word (content key) args = none) :
    std.Refuses content (word :: key :: args) :=
  ⟨ascii "ERR", by decide, by simp only [std, none]⟩

theorem stdAction_type : ∀ command ∈ collectionCommands, ∀ (stored : Stored Int) args, stored.type ≠ command.2 →
    stdAction (ascii command.1) (some stored) args = none := by
  have refused (stored : Stored Int) :
      (stored.type ≠ .array → Stored.asList (some stored) = none) ∧
        (stored.type ≠ .set → Stored.asSet (some stored) = none) ∧
        (stored.type ≠ .zset → Stored.asZset (some stored) = none) ∧
        (stored.type ≠ .hash → Stored.asHash (some stored) = none) := by
    cases stored <;> simp [Stored.type, Stored.asList, Stored.asSet, Stored.asZset, Stored.asHash]
  intro command listed stored args other
  obtain ⟨list, set, zset, hash⟩ := refused stored
  simp only [collectionCommands, List.mem_cons, List.not_mem_nil, or_false] at listed
  rcases listed with rfl | rfl | rfl | rfl | rfl | rfl | rfl | rfl
  case inl => exact congrArg (Option.bind · _) (list other)
  case inr.inl => exact congrArg (Option.bind · _) (set other)
  case inr.inr.inl => exact congrArg (Option.bind · _) (zset other)
  case inr.inr.inr.inl => exact congrArg (Option.bind · _) (hash other)
  case inr.inr.inr.inr.inl => exact congrArg (Option.bind · _) (list other)
  case inr.inr.inr.inr.inr.inl => exact congrArg (Option.bind · _) (set other)
  case inr.inr.inr.inr.inr.inr.inl => exact congrArg (Option.bind · _) (zset other)
  case inr.inr.inr.inr.inr.inr.inr => exact congrArg (Option.bind · _) (hash other)

theorem std_others (word : Text) (args : List Text) (other : Text) (apart : other ≠ key) :
    (std.serve content (word :: key :: args)).2 other = content other := by
  simp only [std]
  split
  · rfl
  · rfl
  · exact Function.update_of_ne apart _ _

theorem readScores (entries : List (Int × Text)) :
    ((entries.map fun entry => (intText entry.1, entry.2)).mapM fun pair =>
      if intText (readInt pair.1) = pair.1 then some (pair.2, readInt pair.1) else none) =
      some (entries.map Prod.swap) := by
  induction entries with
  | nil => rfl
  | cons entry entries ih =>
      simp only [List.map_cons, List.mapM_cons, ih, readInt_intText, if_true]
      rfl

end Std

section Actions

variable (held : Option (Stored Int))

theorem stdAction_lpush (elements list : List Text) (more : elements ≠ []) (found : Stored.asList held = some list) :
    stdAction (ascii "LPUSH") held elements =
      some (.integer (elements.length + list.length), some (.list (elements.reverse ++ list))) := by
  show (Stored.asList held).bind _ = _
  rw [found, Option.bind_some, if_neg more]

theorem stdAction_sadd (members : List Text) (old : Dict Text Unit) (more : members ≠ [])
    (found : Stored.asSet held = some old) :
    stdAction (ascii "SADD") held members =
      some (.integer members.length, some (.set (Dict.putAll (members.map (·, ())) old))) := by
  show (Stored.asSet held).bind _ = _
  rw [found, Option.bind_some, if_neg more]

theorem stdAction_zadd (entries : List (Int × Text)) (old : Dict Text Int) (more : entries ≠ [])
    (found : Stored.asZset held = some old) :
    stdAction (ascii "ZADD") held (unpair (entries.map fun entry => (intText entry.1, entry.2))) =
      some (.integer (entries.map Prod.swap).length, some (.zset (Dict.putAll (entries.map Prod.swap) old))) := by
  have some : unpair (entries.map fun entry => (intText entry.1, entry.2)) ≠ [] :=
    unpair_ne_nil _ (by simpa using more)
  show (Stored.asZset held).bind _ = _
  rw [found, Option.bind_some, if_neg (by simp [some, pairUp_unpair]), pairUp_unpair, readScores]
  rfl

theorem stdAction_hmset (fields : List (Text × Text)) (old : Dict Text Text) (more : fields ≠ [])
    (found : Stored.asHash held = some old) :
    stdAction (ascii "HMSET") held (unpair fields) =
      some (.status (ascii "OK"), some (.hash (Dict.putAll fields old))) := by
  have some := unpair_ne_nil fields more
  show (Stored.asHash held).bind _ = _
  rw [found, Option.bind_some, if_neg (by simp [some, pairUp_unpair]), pairUp_unpair]

theorem stdAction_lrange (list : List Text) (found : Stored.asList held = some list) :
    stdAction (ascii "LRANGE") held [ascii "0", ascii "-1"] = some (.array (list.map .string), none) := by
  show (Stored.asList held).bind _ = _
  rw [found, Option.bind_some, if_pos rfl]

theorem stdAction_smembers (old : Dict Text Unit) (found : Stored.asSet held = some old) :
    stdAction (ascii "SMEMBERS") held [] = some (.array (old.keys.map .string), none) := by
  show (Stored.asSet held).bind _ = _
  rw [found, Option.bind_some, if_pos rfl]

-- The entries of a dictionary as pairs.
def entriesOf {V : Type} (dict : Dict Text V) : List (Text × V) := dict.entries.map fun entry => (entry.1, entry.2)

theorem mem_entriesOf {V : Type} (dict : Dict Text V) (key : Text) (value : V) :
    (key, value) ∈ entriesOf dict ↔ dict.lookup key = some value := by
  rw [← Option.mem_def, AList.mem_lookup_iff]
  simp [entriesOf]

theorem stdAction_zrange (old : Dict Text Int) (found : Stored.asZset held = some old) :
    stdAction (ascii "ZRANGE") held [ascii "0", ascii "-1", ascii "WITHSCORES"] =
      some (.array ((unpair ((entriesOf old).map fun entry => (entry.1, intText entry.2))).map .string), none) := by
  show (Stored.asZset held).bind _ = _
  rw [found, Option.bind_some, if_pos rfl, entriesOf, List.map_map]
  rfl

theorem stdAction_hgetall (old : Dict Text Text) (found : Stored.asHash held = some old) :
    stdAction (ascii "HGETALL") held [] = some (.array ((unpair (entriesOf old)).map .string), none) := by
  show (Stored.asHash held).bind _ = _
  rw [found, Option.bind_some, if_pos rfl, entriesOf]

end Actions

theorem std_lawful : std.Lawful where
  print_injective := intText_injective
  lpush content key elements held more found :=
    ⟨_, std_serve_put content key _ _ _ _ (stdAction_lpush _ elements held more found)⟩
  sadd content key members held more found :=
    ⟨_, std_serve_put content key _ _ _ _ (stdAction_sadd _ members held more found)⟩
  zadd content key entries held more found :=
    ⟨_, std_serve_put content key _ _ _ _ (stdAction_zadd _ entries held more found)⟩
  hmset content key fields held more found :=
    std_serve_put content key _ _ _ _ (stdAction_hmset _ fields held more found)
  lrange content key held found := std_serve_reply content key _ _ _ (stdAction_lrange _ held found)
  smembers content key held found :=
    ⟨held.keys, fun _ => Iff.rfl, std_serve_reply content key _ _ _ (stdAction_smembers _ held found)⟩
  zrange content key held found :=
    ⟨entriesOf held, mem_entriesOf held, std_serve_reply content key _ _ _ (stdAction_zrange _ held found)⟩
  hgetall content key held found :=
    ⟨entriesOf held, mem_entriesOf held, std_serve_reply content key _ _ _ (stdAction_hgetall _ held found)⟩
  refuses_type command listed content key args stored held other := by
    refine std_refuses content key _ _ ?_
    rw [held]
    exact stdAction_type command listed stored args other
  refuses_alone command _ content := ⟨ascii "ERR", by decide, rfl⟩
  others command _ content key args other apart := std_others content key _ args other apart

end CollectionServer

end FastoNoSQL.Redis
