import Mathlib.Algebra.Group.Int.Defs
import FastoNoSQL.Driver.Execute
import FastoNoSQL.Redis.Replies
import FastoNoSQL.Sds.Tail
import FastoNoSQL.Types

set_option autoImplicit false

/-!
# A page of keys

`Driver::HandleLoadDatabaseContentEvent` of redis: a `SCAN`, then a pipeline
that asks for the type and the TTL of each key, then the number of keys.
-/

namespace FastoNoSQL.Redis.Page

open Bytes Sds

def convertFromStringRType (type : Text) : ValueType :=
  if type = ascii "string" then .string
  else if type = ascii "list" then .array
  else if type = ascii "set" then .set
  else if type = ascii "hash" then .hash
  else if type = ascii "zset" then .zset
  else .null

-- The elements of an array that are no arrays are its values, the others its children.
def isArray : Reply → Bool
  | .array _ => true
  | _ => false

def arrayValues (elements : List Reply) : List Reply := elements.filter fun element => !isArray element

def arrayChildren (elements : List Reply) : List (List Reply) :=
  elements.filterMap fun
    | .array elements => some elements
    | _ => none

-- `SCAN` is answered with the next cursor and a page of keys.
def scanReply (page : UInt64 × List Text) : Reply :=
  .array [.string (natText page.1.toNat), .array (page.2.map .string)]

def getString : Reply → Option Text
  | .string text => some text
  | .status text => some text
  | _ => none

section Handler

-- What `ToString` makes of the other children; a command's children, or the error of `Execute`.
variable (lib : Common) (clusterMode : Bool) (answer : List (List Text) → Reply) (otherText : Reply → Text)
variable (execute : Text → Link → Option (Except ErrorValue (List Reply) × Link))

def childText (child : Reply) : Text :=
  match child with
  | .string text => text
  | .status text => text
  | .integer value => intText value
  | child => otherText child

def keyCommands (keys : List Text) : List Text :=
  keys.flatMap fun key => [stableCommand (ascii "TYPE " ++ key), stableCommand (ascii "TTL " ++ key)]

def describe (key : Text) (type ttl : Option Reply) : LoadedKey where
  key := { key, ttl := match ttl with | some (.integer ttl) => Int32.ofInt ttl | _ => -1 }
  type := match type with | some child => convertFromStringRType (childText otherText child) | none => .null

def loadKeys (res : ContentResponce) (keys : List Text) (link : Link) : Option (ContentResponce × Link) := do
  let res := { res with keys := keys.map fun key => describe otherText key none none }
  let (err, children, link) ← executeAsPipeline lib clusterMode answer (keyCommands keys) link
  if err.any ErrorValue.isError then return (res, link)
  else
    let res := { res with keys := keys.mapIdx fun i key => describe otherText key children[i * 2]? children[i * 2 + 1]? }
    let (count, link) ← dbkcount answer link
    -- An error is checked in debug builds only.
    match count with
    | .ok size => return ({ res with dbKeysCount := size }, link)
    | .error _ => return (res, link)

def scanText (request : ContentRequest) (cursor : Int) : Text :=
  lib.memSPrintf (ascii "SCAN %d MATCH %s COUNT %d") [.d cursor, .s request.pattern, .d request.countKeys.toInt32.toInt]

def handleLoadDatabaseContentEvent (request : ContentRequest) (link : Link) : Option (ContentResponce × Link) := do
  -- The unsigned cursor is passed to `%d`.
  let (outcome, link) ← execute (scanText lib request request.cursorIn.toInt32.toInt) link
  match outcome with
  | .error err => return ({ error := some err }, link)
  | .ok (.array elements :: _) =>
    match (arrayValues elements).head?.bind getString with
    | none => return ({}, link)
    | some cursor =>
      let res : ContentResponce := { cursorOut := lib.toUInt32 cursor }
      match arrayChildren elements with
      | [] => return (res, link)
      | keys :: _ =>
        if (arrayValues keys).isEmpty then return (res, link)
        else loadKeys lib clusterMode answer otherText res ((arrayValues keys).filterMap getString) link
  | .ok _ => return ({}, link)

end Handler

/-! ## What the server knows of the keys -/

/-- The types and TTLs of the keys, the commands that it refuses, and the number of keys, none when it
cannot tell. -/
structure Keyspace where
  types : Text → Text
  ttls : Text → Int
  refused : List Text → Option Text
  size : Option UInt64

def Keyspace.serve (keyspace : Keyspace) (argv : List Text) : Reply :=
  match argv with
  | [word] =>
    match keyspace.size with
    | some size => if word = ascii "DBSIZE" then .integer size.toNat else .error (ascii "ERR unknown command")
    | none => .error (ascii "ERR unknown command")
  | [word, name] =>
    match keyspace.refused [word, name] with
    | some text => .error text
    | none =>
      if word = ascii "TYPE" then .status (keyspace.types name)
      else if word = ascii "TTL" then .integer (keyspace.ttls name)
      else .error (ascii "ERR unknown command")
  | _ => .error (ascii "ERR wrong number of arguments")

def Keyspace.answer (keyspace : Keyspace) (sent : List (List Text)) : Reply := keyspace.serve (sent.getLast?.getD [])

-- A reply to the pipeline or the number of keys is an error.
def Keyspace.Fails (keyspace : Keyspace) (keys : List Text) : Prop :=
  keyspace.size = none ∨ ∃ key ∈ keys,
    keyspace.refused [ascii "TYPE", key] ≠ none ∨ keyspace.refused [ascii "TTL", key] ≠ none

def Keyspace.entry (keyspace : Keyspace) (key : Text) : LoadedKey where
  key := { key, ttl := Int32.ofInt (keyspace.ttls key) }
  type := convertFromStringRType (keyspace.types key)

-- The response carries an error when the server does, and otherwise its cursor, its keys with their types and TTLs
-- and their number.
def Keyspace.Loaded (keyspace : Keyspace) (page : UInt64 × List Text) (res : ContentResponce) : Prop :=
  (keyspace.Fails page.2 → ∃ err ∈ res.error, err.isError = true) ∧
    (¬ keyspace.Fails page.2 → res.error = none ∧ res.cursorOut.toNat = page.1.toNat ∧
      (res.keys.map fun entry => (entry.key.key, entry.key.ttl.toInt, entry.type)) =
        (page.2.map fun key => (key, keyspace.ttls key, convertFromStringRType (keyspace.types key))) ∧
      some res.dbKeysCount = keyspace.size)

/-- The cursor and the TTLs have 32 bits, each key is one word of a command line, and the server answers; an
empty page is one of an empty database. -/
structure Keyspace.Plain (keyspace : Keyspace) (page : UInt64 × List Text) : Prop where
  cursor : page.1.toNat < 2 ^ 32
  counted : keyspace.size ≠ none
  answered : ∀ key ∈ page.2, keyspace.refused [ascii "TYPE", key] = none ∧ keyspace.refused [ascii "TTL", key] = none
  ttl : ∀ key ∈ page.2, -2 ^ 31 ≤ keyspace.ttls key ∧ keyspace.ttls key < 2 ^ 31
  word : ∀ key ∈ page.2, isBare key = true ∧ key.getLast? ≠ some (byte '\r')
  empty : page.2 = [] → keyspace.size = some 0

/-! ## What is sent for the keys -/

-- The commands for each key that the splitter takes.
def sentFor (keys : List Text) : List (List Text) :=
  keys.flatMap fun key =>
    match sdssplitargslong (stableCommand key) with
    | none => []
    | some args => [ascii "TYPE" :: args.map cString, ascii "TTL" :: args.map cString]

theorem plan_word (word key : Text) (isWord' : isWord word = true) (piped : isPipeLineCommand word = true) :
    plan (stableCommand (word ++ byte ' ' :: key)) =
      match sdssplitargslong (stableCommand key) with
      | none => .skipped
      | some args => .sent (word :: args.map cString) := by
  have nonempty : word ++ byte ' ' :: stableCommand key ≠ [] := by simp
  rw [stableCommand_append, plan, if_neg nonempty, sdssplitargslong_word word _ isWord']
  cases sdssplitargslong (stableCommand key) with
  | none => rfl
  | some args =>
      have whole : cString word = word := cString_eq_self word (isBare_of_isWord word isWord').2
      simp only [Option.map_some, piped, if_true, List.map_cons, whole]

theorem plan_type (key : Text) :
    plan (stableCommand (ascii "TYPE " ++ key)) =
      match sdssplitargslong (stableCommand key) with
      | none => .skipped
      | some args => .sent (ascii "TYPE" :: args.map cString) :=
  plan_word (ascii "TYPE") key (by decide) (by decide)

theorem plan_ttl (key : Text) :
    plan (stableCommand (ascii "TTL " ++ key)) =
      match sdssplitargslong (stableCommand key) with
      | none => .skipped
      | some args => .sent (ascii "TTL" :: args.map cString) :=
  plan_word (ascii "TTL") key (by decide) (by decide)

theorem sentOf_keyCommands (keys : List Text) :
    sentOf (keyCommands keys) = sentFor keys ∧ ∀ input ∈ keyCommands keys, plan input ≠ .undefined := by
  induction keys with
  | nil => exact ⟨rfl, nofun⟩
  | cons key keys ih =>
      obtain ⟨sent, defined⟩ := ih
      have pair : keyCommands (key :: keys) =
        stableCommand (ascii "TYPE " ++ key) :: stableCommand (ascii "TTL " ++ key) :: keyCommands keys := rfl
      have own : sentFor (key :: keys) = (match sdssplitargslong (stableCommand key) with
        | none => []
        | some args => [ascii "TYPE" :: args.map cString, ascii "TTL" :: args.map cString]) ++ sentFor keys := rfl
      rw [pair, own, sentOf_cons, sentOf_cons, plan_type, plan_ttl, List.forall_mem_cons, List.forall_mem_cons,
        plan_type,
        plan_ttl, sent]
      cases sdssplitargslong (stableCommand key) with
      | none => exact ⟨rfl, nofun, nofun, defined⟩
      | some args => exact ⟨rfl, nofun, nofun, defined⟩

theorem replies_answer (keyspace : Keyspace) (sent batch : List (List Text)) :
    replies keyspace.answer sent batch = batch.map keyspace.serve := by
  induction batch generalizing sent with
  | nil => rfl
  | cons argv batch ih =>
      rw [replies, ih, List.map_cons]
      simp [Keyspace.answer]

section Pipeline

variable (lib : Common) (clusterMode : Bool)

-- The children are the replies in their order, as far as they were read.
theorem readChildren_prefix (sent : List (List Text)) (queue : List Reply) (err : Option ErrorValue)
    (children : List Reply)
    (link : Link) (read : readChildren lib clusterMode queue.length ⟨sent, queue⟩ = some (err, children, link)) :
    (err = none → link.queue = []) ∧ ∀ (j : Nat) (child : Reply), children[j]? = some child →
      ∃ reply, queue[j]? = some reply ∧ formatReply lib clusterMode reply = some (.ok child) := by
  induction queue generalizing err children link with
  | nil =>
      obtain ⟨rfl, rfl, rfl⟩ :
          none = err ∧ [] = children ∧ (⟨sent, []⟩ : Link) = link := by simpa [readChildren] using read
      exact ⟨fun _ => rfl, by simp⟩
  | cons reply queue ih =>
      rw [List.length_cons, readChildren_cons] at read
      cases shown : formatReply lib clusterMode reply with
      | none => simp [shown] at read
      | some outcome =>
          cases outcome with
          | error stop =>
              simp only [shown, Option.some.injEq, Prod.mk.injEq] at read
              obtain ⟨rfl, rfl, rfl⟩ := read
              exact ⟨by simp, by simp⟩
          | ok child =>
              simp only [shown, Option.map_eq_some_iff] at read
              obtain ⟨⟨err', children', link'⟩, rest, same⟩ := read
              obtain ⟨rfl, rfl, rfl⟩ : err' = err ∧ child :: children' = children ∧ link' = link := by simpa using same
              obtain ⟨done, later⟩ := ih err' children' link' rest
              refine ⟨done, ?_⟩
              intro j other found
              cases j with
              | zero =>
                  obtain rfl : child = other := by simpa using found
                  exact ⟨reply, rfl, shown⟩
              | succ j => exact later j other (by simpa using found)

theorem executeAsPipeline_keys (answer : List (List Text) → Reply) (keys : List Text) (some' : keys ≠ []) (link : Link)
    (idle : link.queue = []) :
    executeAsPipeline lib clusterMode answer (keyCommands keys) link =
      readChildren lib clusterMode (sentFor keys).length
        ⟨link.sent ++ sentFor keys, replies answer link.sent (sentFor keys)⟩ := by
  obtain ⟨sent, defined⟩ := sentOf_keyCommands keys
  have commands : keyCommands keys ≠ [] := by
    cases keys with
    | nil => exact absurd rfl some'
    | cons key keys => exact List.cons_ne_nil _ _
  rw [executeAsPipeline, if_neg commands, sendAll_spec, if_pos defined, sent, foldl_append, idle, List.nil_append]
  rfl

end Pipeline

-- The commands for a key ask for that key and no other.
def AskedFor (key : Text) : Prop := (sdssplitargslong (stableCommand key)).map (·.map cString) = some [key]

theorem askedFor_iff (key : Text) (clean : (0 : UInt8) ∉ key) :
    AskedFor key ↔ isBare key = true ∧ key.getLast? ≠ some (byte '\r') := by
  have stable : cString (stableCommand key) = stableCommand key :=
    cString_eq_self _ fun nul => clean (mem_of_mem_stableCommand key 0 nul)
  rw [AskedFor, sdssplitargslong, stable]
  constructor
  · intro asked
    obtain ⟨args, split, same⟩ := Option.map_eq_some_iff.mp asked
    obtain ⟨arg, rfl, cut⟩ := List.map_eq_singleton_iff.mp same
    -- Nothing is left over for a NUL, a quote or a carriage return.
    have read := total_le _ .blank 0 _ (Nat.zero_le _) split
    have front : key.length ≤ arg.length := cut ▸ (List.takeWhile_prefix _).length_le
    have shorter := stableCommand_length key
    simp only [total_cons, total_nil, Scan.debt, Scan.pending, List.length_nil] at read
    obtain ⟨whole, plainEnd⟩ := stableCommand_eq_of_length key (by omega)
    have own : arg = key := by
      rw [← cut]
      exact ((List.takeWhile_prefix _).eq_of_length (by rw [← cString, cut]; omega)).symm
    rw [whole, own] at split
    exact ⟨bare_of_split_first key [] split, plainEnd⟩
  · rintro ⟨bare, plainEnd⟩
    have whole : stableCommand key = key := by simp [stableCommand, plainEnd]
    have alone := splitFrom_unwords [key] (by simpa using bare)
    rw [unwords_singleton] at alone
    rw [whole, alone, Option.map_some, List.map_cons, cString_eq_self key clean]
    rfl

theorem sentFor_asked (keys : List Text) (asked : ∀ key ∈ keys, AskedFor key) :
    sentFor keys = keys.flatMap fun key => [[ascii "TYPE", key], [ascii "TTL", key]] := by
  rw [sentFor]
  apply List.flatMap_congr
  intro key member
  obtain ⟨args, split, same⟩ := Option.map_eq_some_iff.mp (asked key member)
  simp only [split, same]

theorem getElem?_flatMap_pair {A B : Type} (list : List A) (first second : A → B) (i : Nat) :
    (list.flatMap fun element => [first element, second element])[i * 2]? = list[i]?.map first ∧
      (list.flatMap fun element => [first element, second element])[i * 2 + 1]? = list[i]?.map second := by
  induction list generalizing i with
  | nil => simp
  | cons element list ih =>
      cases i with
      | zero => simp
      | succ i =>
          obtain ⟨even, odd⟩ := ih i
          have shift : (i + 1) * 2 = i * 2 + 2 := by omega
          rw [shift]
          exact ⟨by simpa using even, by simpa using odd⟩

def taken (key : Text) : Bool := (sdssplitargslong (stableCommand key)).isSome

theorem length_sentFor (keys : List Text) : (sentFor keys).length = 2 * keys.countP taken := by
  induction keys with
  | nil => rfl
  | cons key keys ih =>
      have own : sentFor (key :: keys) = (match sdssplitargslong (stableCommand key) with
        | none => []
        | some args => [ascii "TYPE" :: args.map cString, ascii "TTL" :: args.map cString]) ++ sentFor keys := rfl
      rw [own, List.length_append, ih, List.countP_cons]
      cases split : sdssplitargslong (stableCommand key) with
      | none => simp [taken, split]
      | some args =>
          simp only [taken, split, Option.isSome_some, if_true, List.length_cons, List.length_nil]
          omega

-- When the command of each key stands where its reply is looked for, each key was asked for.
theorem asked_of_positions (keys : List Text)
    (each : ∀ (i : Nat) (key : Text), keys[i]? = some key → (sentFor keys)[i * 2]? = some [ascii "TYPE", key])
    (key : Text) (member : key ∈ keys) : AskedFor key := by
  -- The command of the last key has all the others before it, so that none was skipped.
  have nonempty : 0 < keys.length := List.length_pos_of_mem member
  have within : keys.length - 1 < keys.length := by omega
  have last := each (keys.length - 1) keys[keys.length - 1] (List.getElem?_eq_getElem within)
  have far := (List.getElem?_eq_some_iff.mp last).1
  have most := keys.countP_le_length (p := taken)
  rw [length_sentFor] at far
  have all : ∀ key ∈ keys, taken key = true := List.countP_eq_length.mp (by omega)
  have pairs : sentFor keys = keys.flatMap fun key =>
      [ascii "TYPE" :: ((sdssplitargslong (stableCommand key)).getD []).map cString,
        ascii "TTL" :: ((sdssplitargslong (stableCommand key)).getD []).map cString] := by
    apply List.flatMap_congr
    intro key member
    obtain ⟨args, split⟩ := Option.isSome_iff_exists.mp (all key member)
    simp only [split, Option.getD_some]
  obtain ⟨i, found⟩ := List.mem_iff_getElem?.mp member
  have own := each i key found
  rw [pairs, (getElem?_flatMap_pair keys _ _ i).1, found, Option.map_some] at own
  obtain ⟨args, split⟩ := Option.isSome_iff_exists.mp (all key member)
  simpa [AskedFor, split] using own

section Handling

variable (lib : Common) (clusterMode : Bool) (otherText : Reply → Text)

theorem serve_pair (keyspace : Keyspace) (word name : Text) (allowed : keyspace.refused [word, name] = none) :
    keyspace.serve [word, name] =
      if word = ascii "TYPE" then .status (keyspace.types name)
      else if word = ascii "TTL" then .integer (keyspace.ttls name)
      else .error (ascii "ERR unknown command") := by
  simp only [Keyspace.serve, allowed]

theorem intText_ne_string (value : Int) : intText value ≠ ascii "string" := by
  intro same
  have first := mem_intText value (byte 's') (by rw [same]; decide)
  exact absurd first (by decide)

-- No redirection is shown as the text of a type.
theorem redirected_ne_string (lawful : lib.Lawful) (text : Text) (child : Reply)
    (shown : formatReply lib clusterMode (.error text) = some (.ok child)) :
    childText otherText child ≠ ascii "string" := by
  rw [formatReply] at shown
  cases redirect : isRedirect clusterMode (.error text) with
  | false => simp [redirect] at shown
  | true =>
      simp only [redirect, if_true, Option.map_eq_some_iff] at shown
      obtain ⟨⟨slot, host⟩, _, same⟩ := shown
      cases same
      rw [childText, lawful.memSPrintf_eq]
      intro same
      have head : some (byte '-') = some (byte 's') := congrArg List.head? same
      exact absurd head (by decide)

-- Only the key of type string is answered so.
theorem serve_string (lawful : lib.Lawful) (keyspace : Keyspace) (key : Text)
    (only : keyspace.types = fun name => if name = key then ascii "string" else ascii "list") (argv : List Text)
    (child : Reply) (shown : formatReply lib clusterMode (keyspace.serve argv) = some (.ok child))
    (text : childText otherText child = ascii "string") : argv = [ascii "TYPE", key] := by
  have failed : ∀ message, keyspace.serve argv ≠ .error message := by
    intro message same
    rw [same] at shown
    exact redirected_ne_string lib clusterMode otherText lawful message child shown text
  have counted : ∀ value, keyspace.serve argv ≠ .integer value := by
    intro value same
    rw [same] at shown
    cases shown
    exact intText_ne_string value text
  match argv with
  | [] => exact absurd rfl (failed _)
  | [word] =>
      rw [Keyspace.serve] at failed counted
      split at failed
      · split at failed
        · simp_all
        · exact absurd rfl (failed _)
      · exact absurd rfl (failed _)
  | [word, name] =>
      cases refusal : keyspace.refused [word, name] with
      | some message => exact absurd (by rw [Keyspace.serve, refusal]) (failed message)
      | none =>
          by_cases type : word = ascii "TYPE"
          · rw [serve_pair keyspace word name refusal, if_pos type, only] at shown
            cases shown
            by_cases same : name = key
            · rw [type, same]
            · simp only [childText, same, if_false] at text
              exact absurd text (by decide)
          · by_cases ttl : word = ascii "TTL"
            · refine absurd ?_ (counted (keyspace.ttls name))
              rw [serve_pair keyspace word name refusal, if_neg type, if_pos ttl]
            · refine absurd ?_ (failed (ascii "ERR unknown command"))
              rw [serve_pair keyspace word name refusal, if_neg type, if_neg ttl]
  | _ :: _ :: _ :: _ => exact absurd rfl (failed _)

variable (execute : Text → Link → Option (Except ErrorValue (List Reply) × Link))

theorem handle_scanned (answer : List (List Text) → Reply) (request : ContentRequest) (link after : Link)
    (cursor : UInt64)
    (keys : List Text) (scanned : execute (scanText lib request request.cursorIn.toInt32.toInt) link =
      some (.ok [scanReply (cursor, keys)], after)) :
    handleLoadDatabaseContentEvent lib clusterMode answer otherText execute request link =
      if keys = [] then some ({ cursorOut := lib.toUInt32 (natText cursor.toNat) }, after)
      else loadKeys lib clusterMode answer otherText { cursorOut := lib.toUInt32 (natText cursor.toNat) } keys after := by
  have values : arrayValues (keys.map .string) = keys.map .string := by
    rw [arrayValues, List.filter_map]
    simp [isArray, Function.comp_def]
  have texts : (keys.map Reply.string).filterMap getString = keys := by
    rw [List.filterMap_map]
    exact List.filterMap_some
  have first : (arrayValues [.string (natText cursor.toNat), .array (keys.map .string)]).head?.bind getString =
      some (natText cursor.toNat) := rfl
  have children : arrayChildren [.string (natText cursor.toNat), .array (keys.map .string)] = [keys.map .string] := rfl
  rw [handleLoadDatabaseContentEvent, scanned]
  simp only [scanReply, Option.bind_eq_bind, Option.bind_some, first, children, values, texts, List.isEmpty_map]
  by_cases none : keys = []
  · rw [if_pos none, none]
    rfl
  · rw [if_neg none, if_neg (by simpa using none)]

theorem loadKeys_error (answer : List (List Text) → Reply) (res : ContentResponce) (keys : List Text) (link : Link)
    (loaded : ContentResponce × Link) (done : loadKeys lib clusterMode answer otherText res keys link = some loaded) :
    loaded.1.error = res.error := by
  rw [loadKeys] at done
  obtain ⟨⟨err, children, read⟩, _, done⟩ := Option.bind_eq_some_iff.mp done
  cases stop : err.any ErrorValue.isError with
  | true =>
      simp only [stop, if_true, Option.pure_def, Option.some.injEq] at done
      rw [← done]
  | false =>
      simp only [stop, Bool.false_eq_true, if_false] at done
      obtain ⟨⟨count, counted⟩, _, done⟩ := Option.bind_eq_some_iff.mp done
      cases count with
      | ok size =>
          cases done
          rfl
      | error err =>
          cases done
          rfl

theorem convertFromStringRType_string (text : Text) (string : convertFromStringRType text = .string) :
    text = ascii "string" := by
  rw [convertFromStringRType] at string
  split_ifs at string
  assumption

-- The key that is shown as a string was asked for where its reply was looked for.
theorem position_of_string (lawful : lib.Lawful) (keyspace : Keyspace) (keys : List Text) (link : Link)
    (idle : link.queue = []) (res : ContentResponce) (loaded : ContentResponce × Link)
    (done : loadKeys lib clusterMode keyspace.answer otherText res keys link = some loaded) (i : Nat) (key : Text)
    (only : keyspace.types = fun name => if name = key then ascii "string" else ascii "list")
    (string : loaded.1.keys[i]?.map (·.type) = some .string) :
    (sentFor keys)[i * 2]? = some [ascii "TYPE", key] := by
  have more : keys ≠ [] := by
    intro none
    rw [none, loadKeys] at done
    cases done
    simp at string
  rw [loadKeys, executeAsPipeline_keys lib clusterMode keyspace.answer keys more link idle] at done
  obtain ⟨⟨err, children, rest⟩, read, done⟩ := Option.bind_eq_some_iff.mp done
  rw [← length_replies keyspace.answer link.sent] at read
  obtain ⟨_, each⟩ := readChildren_prefix lib clusterMode _ _ err children rest read
  -- The types are set from the children, or not at all.
  have typed : ∃ child, children[i * 2]? = some child ∧ childText otherText child = ascii "string" := by
    cases stop : err.any ErrorValue.isError with
    | true =>
        simp only [stop, if_true, Option.pure_def, Option.some.injEq] at done
        rw [← done] at string
        simp [describe] at string
    | false =>
        simp only [stop, Bool.false_eq_true, if_false] at done
        obtain ⟨⟨count, counted⟩, _, done⟩ := Option.bind_eq_some_iff.mp done
        have shown : loaded.1.keys =
            keys.mapIdx fun i key => describe otherText key children[i * 2]? children[i * 2 + 1]? := by
          cases count <;> cases done <;> rfl
        rw [shown, List.getElem?_mapIdx, Option.map_map] at string
        obtain ⟨name, _, type⟩ := Option.map_eq_some_iff.mp string
        cases own : children[i * 2]? with
        | none => simp [describe, own] at type
        | some child =>
            simp only [Function.comp_apply, describe, own] at type
            exact ⟨child, rfl, convertFromStringRType_string _ type⟩
  obtain ⟨child, found, text⟩ := typed
  obtain ⟨reply, queued, shown⟩ := each (i * 2) child found
  rw [replies_answer, List.getElem?_map] at queued
  obtain ⟨argv, sent, rfl⟩ := Option.map_eq_some_iff.mp queued
  rw [sent, serve_string lib clusterMode otherText lawful keyspace key only argv child shown text]

theorem dbkcount_answer (keyspace : Keyspace) (link : Link) (idle : link.queue = []) :
    dbkcount keyspace.answer link =
      some (match keyspace.size with
        | some size => .ok size
        | none => .error (makeErrorValue "Couldn't determine DBSIZE!"),
        ⟨link.sent ++ [[ascii "DBSIZE"]], []⟩) := by
  have last : keyspace.answer (link.sent ++ [[ascii "DBSIZE"]]) = keyspace.serve [ascii "DBSIZE"] := by
    simp [Keyspace.answer]
  rw [dbkcount, Link.append, idle, last]
  cases counted : keyspace.size with
  | none => simp [Keyspace.serve, counted, Link.getReply]
  | some size =>
      have small := size.toNat_lt
      have back : UInt64.ofInt size.toNat = size := by
        rw [UInt64.ofInt, Int.emod_eq_of_lt (by omega) (by omega), Int.toNat_natCast, UInt64.ofNat_toNat]
      simp [Keyspace.serve, counted, Link.getReply, back]

theorem serve_answered (keyspace : Keyspace) (page : UInt64 × List Text) (plain : keyspace.Plain page) (key : Text)
    (member : key ∈ page.2) :
    keyspace.serve [ascii "TYPE", key] = .status (keyspace.types key) ∧
      keyspace.serve [ascii "TTL", key] = .integer (keyspace.ttls key) := by
  obtain ⟨type, ttl⟩ := plain.answered key member
  have other : ascii "TTL" ≠ ascii "TYPE" := by decide
  constructor
  · rw [serve_pair keyspace _ key type, if_pos rfl]
  · rw [serve_pair keyspace _ key ttl, if_neg other, if_pos rfl]

theorem loadKeys_plain (keyspace : Keyspace) (page : UInt64 × List Text) (plain : keyspace.Plain page)
    (clean : ∀ key ∈ page.2, (0 : UInt8) ∉ key) (more : page.2 ≠ []) (size : UInt64)
    (counted : keyspace.size = some size)
    (link : Link) (idle : link.queue = []) (res : ContentResponce) :
    ∃ sent, loadKeys lib clusterMode keyspace.answer otherText res page.2 link =
      some ({ res with keys := page.2.map keyspace.entry, dbKeysCount := size }, ⟨sent, []⟩) := by
  have asked : ∀ key ∈ page.2, AskedFor key :=
    fun key member => (askedFor_iff key (clean key member)).mpr (plain.word key member)
  have queue : replies keyspace.answer link.sent (sentFor page.2) =
      page.2.flatMap fun key => [.status (keyspace.types key), .integer (keyspace.ttls key)] := by
    rw [replies_answer, sentFor_asked page.2 asked, List.map_flatMap]
    apply List.flatMap_congr
    intro key member
    obtain ⟨type, ttl⟩ := serve_answered keyspace page plain key member
    rw [List.map_cons, List.map_cons, List.map_nil, type, ttl]
  have fine : ∀ reply ∈ replies keyspace.answer link.sent (sentFor page.2), ∀ text, reply ≠ .error text := by
    rw [queue]
    intro reply member text
    obtain ⟨key, _, among⟩ := List.mem_flatMap.mp member
    rcases List.mem_pair.mp among with same | same <;> simp [same]
  have read := readChildren_all lib clusterMode (link.sent ++ sentFor page.2) _ fine
  rw [length_replies] at read
  have described : page.2.mapIdx (fun i key => describe otherText key
      (replies keyspace.answer link.sent (sentFor page.2))[i * 2]?
      (replies keyspace.answer link.sent (sentFor page.2))[i * 2 + 1]?) = page.2.map keyspace.entry := by
    rw [queue]
    apply List.ext_getElem?
    intro i
    rw [List.getElem?_mapIdx, List.getElem?_map]
    cases found : page.2[i]? with
    | none => rfl
    | some key =>
        obtain ⟨type, ttl⟩ := getElem?_flatMap_pair page.2 (fun key => Reply.status (keyspace.types key))
          (fun key => Reply.integer (keyspace.ttls key)) i
        simp only [Option.map_some, type, ttl, found]
        rfl
  have drained : (⟨link.sent ++ sentFor page.2, []⟩ : Link).queue = [] := rfl
  refine ⟨(link.sent ++ sentFor page.2) ++ [[ascii "DBSIZE"]], ?_⟩
  rw [loadKeys, executeAsPipeline_keys lib clusterMode keyspace.answer page.2 more link idle, read]
  simp only [Option.bind_eq_bind, Option.bind_some, described, dbkcount_answer keyspace _ drained, counted]
  rfl

theorem not_fails_of_plain (keyspace : Keyspace) (page : UInt64 × List Text) (plain : keyspace.Plain page) :
    ¬ keyspace.Fails page.2 := by
  intro fails
  cases fails with
  | inl none => exact plain.counted none
  | inr refused =>
      obtain ⟨key, member, refused⟩ := refused
      obtain ⟨type, ttl⟩ := plain.answered key member
      exact refused.elim (· type) (· ttl)

-- A plain page is loaded, and leaves no reply behind.
theorem loaded_of_plain (lawful : lib.Lawful) (keyspace : Keyspace) (page : UInt64 × List Text)
    (plain : keyspace.Plain page) (clean : ∀ key ∈ page.2, (0 : UInt8) ∉ key) (request : ContentRequest)
    (link after : Link) (idle : after.queue = [])
    (scanned : execute (scanText lib request request.cursorIn.toInt32.toInt) link =
      some (.ok [scanReply page], after)) :
    ∃ res link', handleLoadDatabaseContentEvent lib clusterMode keyspace.answer otherText execute request link =
        some (res, link') ∧ link'.queue = [] ∧ res.cursorOut.toNat = page.1.toNat ∧
      res.keys = page.2.map keyspace.entry ∧ keyspace.Loaded page res := by
  have quiet := not_fails_of_plain keyspace page plain
  have number := lawful.toUInt32_natText (UInt32.ofNat page.1.toNat)
  have cursor : (lib.toUInt32 (natText page.1.toNat)).toNat = page.1.toNat := by
    rw [UInt32.toNat_ofNat_of_lt' plain.cursor] at number
    rw [number, UInt32.toNat_ofNat_of_lt' plain.cursor]
  have entries : ((page.2.map keyspace.entry).map fun entry => (entry.key.key, entry.key.ttl.toInt, entry.type)) =
      page.2.map fun key => (key, keyspace.ttls key, convertFromStringRType (keyspace.types key)) := by
    rw [List.map_map]
    apply List.map_congr_left
    intro key member
    obtain ⟨low, high⟩ := plain.ttl key member
    simp [Keyspace.entry, -Int32.toInt_ofInt, Int32.toInt_ofInt_of_le low high]
  rw [handle_scanned lib clusterMode otherText execute keyspace.answer request link after page.1 page.2 scanned]
  by_cases none : page.2 = []
  · refine ⟨{ cursorOut := lib.toUInt32 (natText page.1.toNat) }, after, if_pos none, idle, cursor, by rw [none]; rfl,
      fun fails => absurd fails quiet, fun _ => ⟨rfl, cursor, by rw [none]; rfl, (plain.empty none).symm⟩⟩
  · obtain ⟨size, counted⟩ := Option.ne_none_iff_exists'.mp plain.counted
    obtain ⟨sent, done⟩ :=
      loadKeys_plain lib clusterMode otherText keyspace page plain clean none size counted after idle
      { cursorOut := lib.toUInt32 (natText page.1.toNat) }
    refine ⟨_, _, by rw [if_neg none]; exact done, rfl, cursor, rfl, fun fails => absurd fails quiet, fun _ =>
      ⟨rfl, cursor, entries, counted.symm⟩⟩

-- What is loaded for any types of the keys shows that the page is plain.
theorem plain_of_loaded (lawful : lib.Lawful) (keyspace : Keyspace) (page : UInt64 × List Text)
    (clean : ∀ key ∈ page.2, (0 : UInt8) ∉ key) (request : ContentRequest) (link after : Link) (idle : after.queue = [])
    (scanned : execute (scanText lib request request.cursorIn.toInt32.toInt) link =
      some (.ok [scanReply page], after))
    (each : ∀ types, ∃ res link',
      handleLoadDatabaseContentEvent lib clusterMode ({ keyspace with types }).answer otherText
        execute request link = some (res, link') ∧ ({ keyspace with types }).Loaded page res) : keyspace.Plain page := by
  -- No error is ever set after the scan.
  have quiet : ∀ types res link',
      handleLoadDatabaseContentEvent lib clusterMode ({ keyspace with types }).answer otherText
        execute request link = some (res, link') → res.error = none := by
    intro types res link' done
    rw [handle_scanned lib clusterMode otherText execute _ request link after page.1 page.2 scanned] at done
    split at done
    · cases done
      rfl
    · exact loadKeys_error lib clusterMode otherText _ _ page.2 after _ done
  obtain ⟨res, link', done, failed, loaded⟩ := each keyspace.types
  have calm : ¬ keyspace.Fails page.2 := by
    intro fails
    obtain ⟨err, set, _⟩ := failed fails
    rw [quiet keyspace.types res link' done] at set
    cases set
  obtain ⟨_, cursor, entries, counted⟩ := loaded calm
  rw [handle_scanned lib clusterMode otherText execute _ request link after page.1 page.2 scanned] at done
  constructor
  case cursor => exact cursor ▸ res.cursorOut.toNat_lt
  case counted => exact counted ▸ Option.some_ne_none _
  case answered =>
    intro key member
    by_contra refused
    rw [not_and_or] at refused
    exact calm (.inr ⟨key, member, refused⟩)
  case ttl =>
    intro key member
    have listed : (key, keyspace.ttls key, convertFromStringRType (keyspace.types key)) ∈
        res.keys.map fun entry => (entry.key.key, entry.key.ttl.toInt, entry.type) := by
      rw [entries]
      exact List.mem_map_of_mem member
    obtain ⟨entry, _, same⟩ := List.mem_map.mp listed
    obtain ⟨_, ttl, _⟩ : entry.key.key = key ∧ entry.key.ttl.toInt = keyspace.ttls key ∧ _ := by simpa using same
    exact ttl ▸ ⟨entry.key.ttl.le_toInt, entry.key.ttl.toInt_lt⟩
  case empty =>
    intro none
    rw [if_pos none] at done
    cases done
    exact counted.symm
  case word =>
    intro key member
    have more : page.2 ≠ [] := List.ne_nil_of_mem member
    -- Each key in turn is the only one of type string.
    refine (askedFor_iff key (clean key member)).mp (asked_of_positions page.2 ?_ key member)
    intro i key found
    obtain ⟨res, link', done, _, loaded⟩ := each fun name => if name = key then ascii "string" else ascii "list"
    obtain ⟨_, _, entries, _⟩ := loaded calm
    rw [handle_scanned lib clusterMode otherText execute _ request link after page.1 page.2 scanned,
      if_neg more] at done
    apply position_of_string lib clusterMode otherText lawful _ page.2 after idle _ _ done i key rfl
    have own := congrArg (fun list => list[i]?.map (·.2.2)) entries
    simp only [List.getElem?_map, found, Option.map_some, Option.map_map] at own
    have string : convertFromStringRType (ascii "string") = .string := by simp [convertFromStringRType]
    simpa only [if_true, string, Function.comp_def] using own

/-! ## The scan -/

-- The keys of the pages from a cursor on, up to the page whose cursor is zero.
def serverScan (pages : UInt64 → UInt64 × List Text) : Nat → UInt64 → Option (List Text)
  | 0, _ => none
  | count + 1, cursor =>
    if (pages cursor).1 = 0 then some (pages cursor).2
    else (serverScan pages count (pages cursor).1).map ((pages cursor).2 ++ ·)

inductive Reached (pages : UInt64 → UInt64 × List Text) : UInt64 → Prop
  | start : Reached pages 0
  | next (cursor : UInt64) : Reached pages cursor → (pages cursor).1 ≠ 0 → Reached pages (pages cursor).1

def Answers (request : ContentRequest) (pages : UInt64 → UInt64 × List Text) : Prop :=
  ∀ (cursor : UInt64) (link : Link), link.queue = [] → ∃ after : Link, after.queue = [] ∧
    execute (scanText lib request cursor.toNat) link = some (.ok [scanReply (pages cursor)], after)

/-- The requests of the view of keys: the next one has the cursor of the last response. -/
def clientScan (answer : List (List Text) → Reply) (request : ContentRequest) :
    Nat → UInt32 → Link → Option (List LoadedKey)
  | 0, _, _ => none
  | count + 1, cursorIn, link => do
    let (res, link) ←
      handleLoadDatabaseContentEvent lib clusterMode answer otherText execute { request with cursorIn } link
    if res.cursorOut = 0 then return res.keys
    else
      let keys ← clientScan answer request count res.cursorOut link
      return res.keys ++ keys

-- On plain pages with small cursors the requests follow the server, page by page.
theorem clientScan_eq (lawful : lib.Lawful) (keyspace : Keyspace) (request : ContentRequest)
    (pages : UInt64 → UInt64 × List Text) (answers : Answers lib execute request pages)
    (each : ∀ cursor, Reached pages cursor → keyspace.Plain (pages cursor) ∧ (pages cursor).1.toNat < 2 ^ 31 ∧
      ∀ key ∈ (pages cursor).2, (0 : UInt8) ∉ key)
    (count : Nat) (cursor : UInt64) (reached : Reached pages cursor) (cursorIn : UInt32)
    (same : cursorIn.toNat = cursor.toNat) (small : cursor.toNat < 2 ^ 31) (link : Link) (idle : link.queue = []) :
    clientScan lib clusterMode otherText execute keyspace.answer request count cursorIn link =
      (serverScan pages count cursor).map (·.map keyspace.entry) := by
  induction count generalizing cursor cursorIn link with
  | zero => rfl
  | succ count ih =>
      obtain ⟨plain, below, clean⟩ := each cursor reached
      obtain ⟨after, quiet, scanned⟩ := answers cursor link idle
      have printed : cursorIn.toInt32.toInt = cursor.toNat := by rw [toInt_of_small cursorIn (by omega), same]
      rw [← printed] at scanned
      obtain ⟨res, link', done, idle', next, keys, _⟩ :=
        loaded_of_plain lib clusterMode otherText execute lawful keyspace
        (pages cursor) plain clean { request with cursorIn } link after quiet scanned
      have last : res.cursorOut = 0 ↔ (pages cursor).1 = 0 := by
        rw [← UInt32.toNat_inj, ← UInt64.toNat_inj, next]
        rfl
      rw [clientScan, done, serverScan]
      simp only [Option.bind_eq_bind, Option.bind_some]
      by_cases stop : (pages cursor).1 = 0
      · rw [if_pos (last.mpr stop), if_pos stop, keys]
        rfl
      · rw [if_neg (last.not.mpr stop), if_neg stop,
          ih (pages cursor).1 (.next cursor reached stop) res.cursorOut next below link' idle', keys]
        cases serverScan pages count (pages cursor).1 with
        | none => rfl
        | some rest => simp

/-- A page is loaded, whatever the types of its keys, exactly when it is plain, and a scan of plain pages with
small cursors yields the keys of the server. -/
theorem content_loaded_iff (lawful : lib.Lawful) (keyspace : Keyspace) (request : ContentRequest) :
    (∀ (page : UInt64 × List Text) (link after : Link), (∀ key ∈ page.2, (0 : UInt8) ∉ key) → after.queue = [] →
      execute (scanText lib request request.cursorIn.toInt32.toInt) link = some (.ok [scanReply page], after) →
      ((∀ types, ∃ res link', handleLoadDatabaseContentEvent lib clusterMode ({ keyspace with types }).answer otherText
          execute request link = some (res, link') ∧ ({ keyspace with types }).Loaded page res) ↔
        keyspace.Plain page)) ∧
    ∀ pages, Answers lib execute request pages →
      (∀ cursor, Reached pages cursor → keyspace.Plain (pages cursor) ∧ (pages cursor).1.toNat < 2 ^ 31 ∧
        ∀ key ∈ (pages cursor).2, (0 : UInt8) ∉ key) →
      ∀ (count : Nat) (link : Link), link.queue = [] →
        clientScan lib clusterMode otherText execute keyspace.answer request count 0 link =
          (serverScan pages count 0).map (·.map keyspace.entry) := by
  constructor
  · intro page link after clean idle scanned
    constructor
    · exact plain_of_loaded lib clusterMode otherText execute lawful keyspace page clean request link after idle scanned
    · intro plain types
      have plain' : ({ keyspace with types }).Plain page :=
        ⟨plain.cursor, plain.counted, plain.answered, plain.ttl, plain.word, plain.empty⟩
      obtain ⟨res, link', done, _, _, _, loaded⟩ :=
        loaded_of_plain lib clusterMode otherText execute lawful _ page plain'
        clean request link after idle scanned
      exact ⟨res, link', done, loaded⟩
  · intro pages answers each count link idle
    exact clientScan_eq lib clusterMode otherText execute lawful keyspace request pages answers each count 0 .start 0 rfl
      (by decide) link idle

end Handling

def oneString : Keyspace := ⟨fun _ => ascii "string", fun _ => -1, fun _ => none, some 1⟩

def scanOnce (key : Text) (_ : Text) (link : Link) : Option (Except ErrorValue (List Reply) × Link) :=
  some (.ok [scanReply (0, [key])], link)

theorem one_key_loaded :
    (∃ res link', handleLoadDatabaseContentEvent .std false oneString.answer (fun _ => []) (scanOnce (ascii "name"))
        ⟨ascii "*", 10, 0⟩ {} = some (res, link') ∧ oneString.Loaded (0, [ascii "name"]) res) ∧
      clientScan .std false (fun _ => []) (scanOnce (ascii "name")) oneString.answer ⟨ascii "*", 10, 0⟩ 1 0 {} =
        some [⟨⟨ascii "name", -1⟩, .string⟩] := by
  have clean : ∀ key ∈ [ascii "name"], (0 : UInt8) ∉ key := by decide
  have plain : oneString.Plain (0, [ascii "name"]) :=
    ⟨by decide, by decide, fun _ _ => ⟨rfl, rfl⟩, by decide, by decide, by decide⟩
  obtain ⟨pages, scans⟩ :=
    content_loaded_iff .std false (fun _ => []) (scanOnce (ascii "name")) Common.std_lawful oneString
    ⟨ascii "*", 10, 0⟩
  have loaded := (pages (0, [ascii "name"]) {} {} clean rfl rfl).mpr plain
  have scan := scans (fun _ => (0, [ascii "name"])) (fun _ link idle => ⟨link, idle, rfl⟩)
    (fun _ _ => ⟨plain, by decide, clean⟩) 1 {} rfl
  exact ⟨loaded fun _ => ascii "string", scan.trans (by decide)⟩

/-- The commands of a key with a blank are other commands: the pipeline stops at their error, which the response does
not carry. -/
theorem blank_not_loaded :
    ¬ ∃ res link', handleLoadDatabaseContentEvent .std false oneString.answer (fun _ => []) (scanOnce (ascii "a b"))
      ⟨ascii "*", 10, 0⟩ {} = some (res, link') ∧ oneString.Loaded (0, [ascii "a b"]) res := by
  intro ⟨res, link', done, _, loaded⟩
  have quiet : ¬ oneString.Fails [ascii "a b"] := by simp [Keyspace.Fails, oneString]
  have untyped : (handleLoadDatabaseContentEvent .std false oneString.answer (fun _ => []) (scanOnce (ascii "a b"))
      ⟨ascii "*", 10, 0⟩ {}).map (·.1.keys) = some [⟨⟨ascii "a b", -1⟩, .null⟩] := by decide
  obtain ⟨_, _, entries, _⟩ := loaded quiet
  rw [done] at untyped
  have shown : res.keys = [⟨⟨ascii "a b", -1⟩, .null⟩] := Option.some.inj untyped
  rw [shown] at entries
  exact absurd entries (by decide)

end FastoNoSQL.Redis.Page
