import FastoNoSQL.Store.CreateLoad
import FastoNoSQL.Store.Keys

set_option autoImplicit false

/-!
# The keys that the stores show

`HandleLoadDatabaseContentEvent` of leveldb, lmdb, ssdb and memcached: one
`KEYS` command with fixed bounds, and the number of keys.
-/

namespace FastoNoSQL.Store.Listing

open Bytes Sds

local instance keyOrder : LinearOrder UInt8 := byteOrder

inductive Backend where
  | leveldb | lmdb | ssdb | memcached
deriving DecidableEq

def Backend.type : Backend → ConnectionType
  | leveldb => .leveldb
  | lmdb => .lmdb
  | ssdb => .ssdb
  | memcached => .memcached

theorem Backend.store (backend : Backend) : backend.type ≠ .redis := by
  cases backend <;> decide

/-- The keys of a store, and the order in which `memcached_dump` passes them on. -/
structure StoredKeys extends OrderedKeys where
  dumped : List Text
  perm : dumped.Perm keys
  bounded : keys.length < 2 ^ 64

section Loops

variable (keyStart keyEnd : Text) (limit : UInt64)

-- The `keys` call of the ssdb client; an empty bound means no limit.
def ssdbKeys (keys : List Text) : List Text :=
  (keys.filter fun key => (keyStart = [] || keyStart < key) && (keyEnd = [] || key ≤ keyEnd)).take limit.toNat

-- The dump goes on when the callback returns `MEMCACHED_END`.
def addKey (ret : List Text) (key : Text) : List Text :=
  if ret.length < limit.toNat then push keyStart keyEnd ret key else ret

def Backend.keys (stored : StoredKeys) : Backend → List Text
  | leveldb => Leveldb.keys keyStart keyEnd limit stored.toOrderedKeys
  | lmdb => Lmdb.keys keyStart keyEnd limit stored.toOrderedKeys
  | ssdb => ssdbKeys keyStart keyEnd limit stored.keys
  | memcached => stored.dumped.foldl (addKey keyStart keyEnd limit) []

theorem foldl_addKey (keys ret : List Text) :
    keys.foldl (addKey keyStart keyEnd limit) ret =
      ret ++ (keys.filter (inside keyStart keyEnd)).take (limit.toNat - ret.length) := by
  induction keys generalizing ret with
  | nil => simp
  | cons key keys ih =>
      rw [List.foldl_cons, ih, addKey]
      by_cases room : ret.length < limit.toNat
      · rw [if_pos room, push]
        cases within : inside keyStart keyEnd key with
        | true =>
            have count : limit.toNat - ret.length = (limit.toNat - (ret ++ [key]).length) + 1 := by
              simp only [List.length_append, List.length_singleton]
              omega
            rw [if_pos rfl, count]
            simp [within]
        | false => simp [within]
      · have count : limit.toNat - ret.length = 0 := by omega
        simp [room, count]

end Loops

def maxLimit : UInt64 := .ofNat (2 ^ 64 - 1)

def Backend.dbkcount (stored : StoredKeys) : Backend → UInt64
  | leveldb | lmdb => .ofNat stored.keys.length
  | ssdb => .ofNat (Backend.keys [] [] maxLimit stored ssdb).length
  | memcached => .ofNat (Backend.keys (ascii "a") (ascii "z") maxLimit stored memcached).length

section Handler

-- `ConvertFromString<uint64_t>`, and the commands other than `KEYS` with the arrays that they add.
variable (world : World) (toUInt64 : Text → UInt64) (other : Call → Option (Except ErrorValue (List (List Text))))
variable (stored : StoredKeys) (backend : Backend)

def executeImpl (argv : List Text) : Option (Except ErrorValue (List (List Text))) :=
  match dispatch (commandsOf backend.type backend.store) argv with
  | .call holder args =>
    match holder.func.run args with
    | some (.function .keys [keyStart, keyEnd, limit]) =>
      some (.ok [backend.keys keyStart keyEnd (toUInt64 limit) stored])
    | some call => other call
    | none => none
  | refused => some (.error (world.refusal argv refused))

/-- `IDriver::Execute` of a new command object, and its children. -/
def execute (text : Text) : Option (Except ErrorValue (List (List Text))) :=
  match createCommand text with
  | none => some (.error (makeErrorValue "Invalid input argument(s)"))
  | some command =>
    match sdssplitargslong command with
    | none => some (.error (makeErrorValue "Invalid input argument(s)"))
    | some argv => executeImpl world toUInt64 other stored backend argv

-- The pattern and the cursor of the request are not read.
def handleLoadDatabaseContentEvent (request : ContentRequest) : Option ContentResponce := do
  match ← execute world toUInt64 other stored backend
      (world.lib.memSPrintf (ascii "KEYS a z %d") [.d request.countKeys.toInt32.toInt]) with
  | .error err => return { error := some err }
  | .ok [] => return {}
  | .ok (keys :: _) =>
    return { keys := keys.map fun key => ⟨{ key }, .string⟩, dbKeysCount := backend.dbkcount stored }

end Handler

-- As many of the stored keys as were asked for, and their number.
def Shown (stored : StoredKeys) (request : ContentRequest) (res : ContentResponce) : Prop :=
  res.error = none ∧ (res.keys.map (·.key.key)).Nodup ∧ (∀ entry ∈ res.keys, entry.key.key ∈ stored.keys) ∧
    res.keys.length = min request.countKeys.toNat stored.keys.length ∧
    res.dbKeysCount.toNat = stored.keys.length

-- The keys between the fixed bounds.
def Backend.inside : Backend → Text → Bool
  | leveldb, key => ascii "a" ≤ key && key < ascii "z"
  | lmdb, key | memcached, key => Store.inside (ascii "a") (ascii "z") key
  | ssdb, key => ascii "a" < key && key ≤ ascii "z"

-- The limit as it is read back cuts the keys between the bounds to as many as were asked for; memcached also counts
-- between the bounds.
def Backend.Complete (toUInt64 : Text → UInt64) (stored : StoredKeys) (request : ContentRequest)
    (backend : Backend) : Prop :=
  min (toUInt64 (intText request.countKeys.toInt32.toInt)).toNat (stored.keys.countP backend.inside) =
      min request.countKeys.toNat stored.keys.length ∧
    (backend = memcached → ∀ key ∈ stored.keys, backend.inside key = true)

/-! ## The keys between the bounds -/

-- The keys in the order of the listing.
def Backend.visits (stored : StoredKeys) : Backend → List Text
  | memcached => stored.dumped
  | _ => stored.keys

theorem Backend.visits_perm (stored : StoredKeys) (backend : Backend) : (backend.visits stored).Perm stored.keys := by
  cases backend with
  | memcached => exact stored.perm
  | _ => exact .refl _

theorem Backend.keys_eq (stored : StoredKeys) (backend : Backend) (limit : UInt64) :
    backend.keys (ascii "a") (ascii "z") limit stored =
      ((backend.visits stored).filter backend.inside).take limit.toNat := by
  cases backend with
  | leveldb =>
      rw [Backend.keys, Leveldb.keys, iterate_seek]
      rfl
  | lmdb =>
      rw [Backend.keys, Lmdb.keys, Lmdb.scan_eq]
      rfl
  | ssdb => rfl
  | memcached =>
      rw [Backend.keys, foldl_addKey]
      rfl

theorem Backend.length_keys (stored : StoredKeys) (backend : Backend) (limit : UInt64) :
    (backend.keys (ascii "a") (ascii "z") limit stored).length =
      min limit.toNat (stored.keys.countP backend.inside) := by
  rw [Backend.keys_eq, List.length_take, ← List.countP_eq_length_filter, (backend.visits_perm stored).countP_eq]

theorem Backend.dbkcount_eq_iff (stored : StoredKeys) (backend : Backend) :
    (backend.dbkcount stored).toNat = stored.keys.length ↔
      (backend = memcached → ∀ key ∈ stored.keys, backend.inside key = true) := by
  have most : maxLimit.toNat = 2 ^ 64 - 1 := rfl
  have size : UInt64.size = 2 ^ 64 := rfl
  have bounded := stored.bounded
  have whole : (UInt64.ofNat stored.keys.length).toNat = stored.keys.length := UInt64.toNat_ofNat_of_lt' bounded
  cases backend with
  | leveldb | lmdb => simpa [dbkcount] using whole
  | ssdb =>
      have all : Backend.keys [] [] maxLimit stored ssdb = stored.keys := by
        rw [Backend.keys, ssdbKeys, List.filter_eq_self.mpr (by simp), List.take_of_length_le (by omega)]
      simpa [dbkcount, all] using whole
  | memcached =>
      have fewer := stored.keys.countP_le_length (p := Backend.inside memcached)
      have cut : min maxLimit.toNat (stored.keys.countP (Backend.inside memcached)) =
          stored.keys.countP (Backend.inside memcached) := by omega
      have count : (Backend.dbkcount stored memcached).toNat = stored.keys.countP (Backend.inside memcached) := by
        rw [dbkcount, Backend.length_keys, cut]
        exact UInt64.toNat_ofNat_of_lt' (by omega)
      rw [count, List.countP_eq_length]
      simp

/-! ## The command -/

section Command

variable (world : World) (lawful : world.lib.Lawful) (toUInt64 : Text → UInt64)
variable (other : Call → Option (Except ErrorValue (List (List Text)))) (stored : StoredKeys) (backend : Backend)

theorem keys_entry : (commandsOf backend.type backend.store).filter (startsWith (ascii "KEYS")) =
    [⟨ascii "KEYS", 3, 0, .call .keys (.positions [0, 1, 2])⟩] := by
  cases backend <;> decide +kernel

theorem executeImpl_keys (limit : Text) (clean : (0 : UInt8) ∉ limit) :
    executeImpl world toUInt64 other stored backend [ascii "KEYS", ascii "a", ascii "z", limit] =
      some (.ok [backend.keys (ascii "a") (ascii "z") (toUInt64 limit) stored]) := by
  have called := dispatch_known ⟨ascii "KEYS", 3, 0, .call .keys (.positions [0, 1, 2])⟩ (ascii "KEYS")
    [ascii "a", ascii "z", limit] (by decide) _ (commandsOf_short backend.type backend.store) (keys_entry backend)
    (by decide) rfl
  have run : Handler.run (.call .keys (.positions [0, 1, 2])) [ascii "a", ascii "z", limit] =
      some (.function .keys [ascii "a", ascii "z", limit]) := by
    have first : cString (ascii "a") = ascii "a" := rfl
    have last : cString (ascii "z") = ascii "z" := rfl
    simp [Handler.run, Reads.indices, readAll, first, last, cString_eq_self limit clean]
  rw [if_pos ⟨le_refl 3, le_refl 3⟩] at called
  simp only [executeImpl, called, run]

include lawful

theorem execute_keys (count : Int) :
    execute world toUInt64 other stored backend (world.lib.memSPrintf (ascii "KEYS a z %d") [.d count]) =
      some (.ok [backend.keys (ascii "a") (ascii "z") (toUInt64 (intText count)) stored]) := by
  have number := isWord_intText count
  have words : ∀ word ∈ [ascii "KEYS", ascii "a", ascii "z", intText count], isWord word = true := by
    simp only [List.forall_mem_cons, number, true_and]
    decide
  have printed : format (ascii "KEYS a z %d") [.d count] =
      unwords [ascii "KEYS", ascii "a", ascii "z", intText count] := by
    rw [unwords_cons_cons, unwords_cons_cons, unwords_cons_cons, unwords_singleton, ← List.append_nil (intText count)]
    rfl
  have created : createCommand (unwords [ascii "KEYS", ascii "a", ascii "z", intText count]) =
      some (unwords [ascii "KEYS", ascii "a", ascii "z", intText count]) := by
    have digits : stableCommand (intText count) = intText count := by
      have plainEnd : (intText count).getLast? ≠ some (byte '\r') := by
        intro ends
        exact absurd (mem_intText count _ (List.mem_of_getLast? ends)) (by decide)
      simp [stableCommand, plainEnd]
    have stable := stableCommand_unwords (ascii "KEYS") [ascii "a", ascii "z"] (intText count)
    rw [digits] at stable
    have nonempty : unwords [ascii "KEYS", ascii "a", ascii "z", intText count] ≠ [] := by
      simp [unwords_cons_cons]
    exact (congrArg (fun text => if text = [] then none else some text) stable).trans (if_neg nonempty)
  rw [lawful.memSPrintf_eq, printed, execute, created]
  simp only [sdssplitargslong_words _ words,
    executeImpl_keys world toUInt64 other stored backend _ (isBare_of_isWord _ number).2]

/-- The keys are shown exactly when the bounds and the limit leave enough of them. -/
theorem shown_iff (request : ContentRequest) :
    (∃ res, handleLoadDatabaseContentEvent world toUInt64 other stored backend request = some res ∧
        Shown stored request res) ↔ backend.Complete toUInt64 stored request := by
  have executed := execute_keys world lawful toUInt64 other stored backend request.countKeys.toInt32.toInt
  have listed := Backend.keys_eq stored backend (toUInt64 (intText request.countKeys.toInt32.toInt))
  have length := Backend.length_keys stored backend (toUInt64 (intText request.countKeys.toInt32.toInt))
  have counted := Backend.dbkcount_eq_iff stored backend
  have visited := backend.visits_perm stored
  generalize backend.keys (ascii "a") (ascii "z") (toUInt64 (intText request.countKeys.toInt32.toInt)) stored = keys
    at executed listed length
  have part : keys.Sublist (backend.visits stored) := listed ▸ (List.take_sublist _ _).trans List.filter_sublist
  have distinct : keys.Nodup := part.nodup (visited.nodup_iff.mpr stored.nodup)
  have texts : (keys.map fun key => LoadedKey.mk { key } .string).map (·.key.key) = keys := by
    rw [List.map_map]
    exact List.map_id keys
  have among : ∀ entry ∈ keys.map fun key => LoadedKey.mk { key } .string, entry.key.key ∈ stored.keys := by
    intro entry member
    obtain ⟨key, listed, rfl⟩ := List.mem_map.mp member
    exact visited.subset (part.subset listed)
  rw [handleLoadDatabaseContentEvent, executed]
  simp only [Option.bind_eq_bind, Option.bind_some, Option.pure_def, Option.some.injEq, exists_eq_left', Shown, texts,
    List.length_map, length, counted, Backend.Complete]
  exact ⟨fun ⟨_, _, _, complete⟩ => complete, fun complete => ⟨trivial, distinct, among, complete⟩⟩

omit lawful in
-- A count below 2^31 is read back as it is: either the page is full, or no key lies outside of the bounds.
theorem complete_of_small (reads : ∀ n : UInt64, toUInt64 (natText n.toNat) = n) (request : ContentRequest)
    (small : request.countKeys.toNat < 2 ^ 31) :
    min (toUInt64 (intText request.countKeys.toInt32.toInt)).toNat (stored.keys.countP backend.inside) =
        min request.countKeys.toNat stored.keys.length ↔
      request.countKeys.toNat ≤ stored.keys.countP backend.inside ∨ ∀ key ∈ stored.keys, backend.inside key = true := by
  have printed : intText request.countKeys.toInt32.toInt = natText request.countKeys.toUInt64.toNat := by
    rw [toInt_of_small request.countKeys small, UInt32.toNat_toUInt64]
    rfl
  have fewer := stored.keys.countP_le_length (p := backend.inside)
  rw [printed, reads, UInt32.toNat_toUInt64, ← List.countP_eq_length]
  omega

end Command

def numbered : StoredKeys where
  keys := [ascii "1", ascii "b"]
  sorted := by decide
  dumped := [ascii "b", ascii "1"]
  perm := .swap _ _ _
  bounded := by decide

/-- A page of one key is full. -/
theorem first_key_shown :
    ∃ res, handleLoadDatabaseContentEvent .std (fun text => .ofNat (readNat text)) (fun _ => none) numbered .leveldb
      ⟨ascii "*", 1, 0⟩ = some res ∧ Shown numbered ⟨ascii "*", 1, 0⟩ res :=
  (shown_iff .std Common.std_lawful (fun text => .ofNat (readNat text)) (fun _ => none) numbered .leveldb
    ⟨ascii "*", 1, 0⟩).mpr ⟨by decide, nofun⟩

/-- A key that starts with a digit is counted and never listed. -/
theorem numeric_key_hidden :
    ¬ ∃ res, handleLoadDatabaseContentEvent .std (fun text => .ofNat (readNat text)) (fun _ => none) numbered .leveldb
      ⟨ascii "*", 10, 0⟩ = some res ∧ Shown numbered ⟨ascii "*", 10, 0⟩ res := by
  intro ⟨res, done, _, _, _, count, _⟩
  have keys : (handleLoadDatabaseContentEvent .std (fun text => .ofNat (readNat text)) (fun _ => none) numbered .leveldb
      ⟨ascii "*", 10, 0⟩).map (·.keys) = some [⟨⟨ascii "b", -1⟩, .string⟩] := by
    decide
  rw [done] at keys
  rw [show res.keys = _ from Option.some.inj keys] at count
  exact absurd count (by decide)

end FastoNoSQL.Store.Listing
