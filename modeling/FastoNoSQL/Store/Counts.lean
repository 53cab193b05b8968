import FastoNoSQL.Store.Content

set_option autoImplicit false

/-!
# The number of the keys and their list

`DBkcount` and `Keys` of leveldb, unqlite, upscaledb and memcached over one
store.
-/

namespace FastoNoSQL.Store.Counting

open Bytes Listing

local instance keyOrder : LinearOrder UInt8 := byteOrder

inductive Backend where
  | leveldb | unqlite | upscaledb | memcached
deriving DecidableEq

/-- The connection, and the text of the error that the library reports for a call, if any. -/
structure Library where
  connected : Bool
  failure : Option Text

section Calls

variable (lib : Common) (library : Library) (keyStart keyEnd : Text) (limit : UInt64) (stored : StoredKeys)

-- `pattern` is the source's message for an error of the library.
def call {A : Type} (pattern : String) (result : A) : Except ErrorValue A :=
  if library.connected then
    match library.failure with
    | some text => .error (printedError lib pattern text)
    | none => .ok result
  else .error (makeErrorValue "Not connected")

-- The cursor of unqlite has an order of its own; the loop over it is that of lmdb.
def unqliteKeys : List Text := Lmdb.scan keyStart keyEnd limit stored.dumped []

def Backend.listing : Backend → List Text
  | leveldb => Leveldb.keys keyStart keyEnd limit stored.toOrderedKeys
  | unqlite => unqliteKeys keyStart keyEnd limit stored
  | upscaledb => Upscaledb.keys keyStart keyEnd limit stored.toOrderedKeys
  | memcached => stored.dumped.foldl (addKey keyStart keyEnd limit) []

def Backend.keys (backend : Backend) : Except ErrorValue (List Text) :=
  call lib library "Keys function error: %s" (backend.listing keyStart keyEnd limit stored)

-- `sz++` for each entry of the iterator.
def countEntries (keys : List Text) : UInt64 := keys.foldl (fun sz _ => sz + 1) 0

/-- What `ups_db_count` reports is the number of keys. -/
def Backend.dbkcount : Backend → Except ErrorValue UInt64
  | leveldb => call lib library "Couldn't determine DBKCOUNT error: %s" (countEntries stored.keys)
  | unqlite => call lib library "DBKCOUNT function error: %s" (countEntries stored.dumped)
  | upscaledb => call lib library "dbkcount function error: %s" (.ofNat stored.keys.length)
  | memcached =>
    if library.connected then
      match Backend.keys lib library (ascii "a") (ascii "z") maxLimit stored memcached with
      | .error err => .error (printedError lib "Couldn't determine DBKCOUNT error: %s" err.description)
      | .ok ret => .ok (.ofNat ret.length)
    else .error (makeErrorValue "Not connected")

end Calls

-- The bounds as leveldb takes them.
def Contains (keyStart keyEnd : Text) (stored : StoredKeys) : Prop :=
  ∀ key ∈ stored.keys, keyStart ≤ key ∧ key < keyEnd

instance (keyStart keyEnd : Text) (stored : StoredKeys) : Decidable (Contains keyStart keyEnd stored) :=
  inferInstanceAs (Decidable (∀ key ∈ stored.keys, keyStart ≤ key ∧ key < keyEnd))

-- The other three compare strictly with both bounds, and the bounds of memcached's own count are fixed.
def Backend.Exact (keyStart : Text) (stored : StoredKeys) : Backend → Prop
  | leveldb => True
  | unqlite => keyStart ∉ stored.keys
  | upscaledb => stored.keys ≠ [keyStart]
  | memcached => (∀ key ∈ stored.keys, inside (ascii "a") (ascii "z") key = true) ∧ keyStart ∉ stored.keys

/-! ## What the calls count -/

section Counts

variable (lib : Common) (library : Library) (keyStart keyEnd : Text) (stored : StoredKeys)

theorem call_ok_iff {A : Type} (pattern : String) (result value : A) :
    call lib library pattern result = .ok value ↔
      (library.connected = true ∧ library.failure = none) ∧ result = value := by
  rw [call]
  cases library.connected with
  | false => simp
  | true => cases library.failure <;> simp

theorem toNat_countEntries (keys : List Text) (bounded : keys.length < 2 ^ 64) :
    (countEntries keys).toNat = keys.length := by
  have counted (sz : UInt64) : keys.foldl (fun sz _ => sz + 1) sz = sz + .ofNat keys.length := by
    clear bounded
    induction keys generalizing sz with
    | nil => simp
    | cons key keys ih =>
        rw [List.foldl_cons, ih, List.length_cons, UInt64.ofNat_add, UInt64.add_assoc, UInt64.add_comm 1]
        rfl
  rw [countEntries, counted, UInt64.zero_add]
  exact UInt64.toNat_ofNat_of_lt' bounded

-- The keys strictly between the bounds are all of them when the start is none of them.
theorem length_inside_iff (keys : List Text) (within : ∀ key ∈ keys, keyStart ≤ key ∧ key < keyEnd) :
    (keys.filter (inside keyStart keyEnd)).length = keys.length ↔ keyStart ∉ keys := by
  rw [List.length_filter_eq_length_iff]
  constructor
  · intro strict member
    have low := strict keyStart member
    simp [inside] at low
  · intro outside key member
    obtain ⟨low, high⟩ := within key member
    have apart : keyStart ≠ key := by
      rintro rfl
      exact outside member
    simp [inside, lt_of_le_of_ne low apart, high]

theorem take_maxLimit (keys : List Text) (bounded : keys.length < 2 ^ 64) : keys.take maxLimit.toNat = keys := by
  have most : maxLimit.toNat = 2 ^ 64 - 1 := rfl
  exact List.take_of_length_le (by omega)

theorem dumped_bounded : stored.dumped.length < 2 ^ 64 := stored.perm.length_eq ▸ stored.bounded

-- The strict filter over the keys in any order.
theorem length_strict (keys : List Text) (perm : keys.Perm stored.keys) :
    ((keys.filter (inside keyStart keyEnd)).take maxLimit.toNat).length =
      (stored.keys.filter (inside keyStart keyEnd)).length := by
  have same := perm.filter (inside keyStart keyEnd)
  have fewer := List.length_filter_le (inside keyStart keyEnd) keys
  have bounded := perm.length_eq ▸ stored.bounded
  rw [take_maxLimit _ (by omega), same.length_eq]

theorem length_unqlite :
    (Backend.listing keyStart keyEnd maxLimit stored .unqlite).length =
      (stored.keys.filter (inside keyStart keyEnd)).length := by
  rw [Backend.listing, unqliteKeys, Lmdb.scan_eq]
  exact length_strict keyStart keyEnd stored stored.dumped stored.perm

theorem length_memcached :
    (Backend.listing keyStart keyEnd maxLimit stored .memcached).length =
      (stored.keys.filter (inside keyStart keyEnd)).length := by
  rw [Backend.listing, foldl_addKey]
  exact length_strict keyStart keyEnd stored stored.dumped stored.perm

theorem length_leveldb (contains : Contains keyStart keyEnd stored) :
    (Backend.listing keyStart keyEnd maxLimit stored .leveldb).length = stored.keys.length := by
  have all : stored.keys.filter (fun key => keyStart ≤ key && key < keyEnd) = stored.keys := by
    rw [List.filter_eq_self]
    intro key member
    simp [contains key member]
  rw [Backend.listing, Leveldb.keys, iterate_seek, firstKeys, all, take_maxLimit _ stored.bounded]

theorem listing_upscaledb (first : Text) (rest : List Text) (shape : stored.keys = first :: rest)
    (bounded : rest.length + 1 < 2 ^ 64) :
    Backend.listing keyStart keyEnd maxLimit stored .upscaledb =
      (rest ++ [rest.getLastD first]).filter (inside keyStart keyEnd) := by
  have positive : ([] : List Text).length < maxLimit.toNat := by decide
  have fewer := List.length_filter_le (inside keyStart keyEnd) (rest ++ [rest.getLastD first])
  rw [List.length_append, List.length_singleton] at fewer
  rw [Backend.listing, Upscaledb.keys, shape]
  simp only []
  rw [Upscaledb.scan_eq _ _ _ _ _ _ positive, visited_eq, List.nil_append, List.length_nil, Nat.sub_zero,
    take_maxLimit _ (by omega)]

-- The walk of upscaledb passes the first key by and sees the last one again.
theorem length_upscaledb_iff (contains : Contains keyStart keyEnd stored) :
    (Backend.listing keyStart keyEnd maxLimit stored .upscaledb).length = stored.keys.length ↔
      stored.keys ≠ [keyStart] := by
  have sorted := stored.sorted
  have bounded := stored.bounded
  cases shape : stored.keys with
  | nil => simp [Backend.listing, Upscaledb.keys, shape]
  | cons first rest =>
      rw [shape, List.pairwise_cons] at sorted
      rw [shape, List.length_cons] at bounded
      have low : keyStart ≤ first := (contains first (shape ▸ List.mem_cons_self)).1
      have later : ∀ key ∈ rest, inside keyStart keyEnd key = true := by
        intro key member
        have high := (contains key (shape ▸ List.mem_cons_of_mem _ member)).2
        simp [inside, lt_of_le_of_lt low (sorted.1 key member), high]
      rw [listing_upscaledb keyStart keyEnd stored first rest shape bounded, List.filter_append,
        List.filter_eq_self.mpr later]
      cases rest with
      | nil =>
          have high := (contains first (shape ▸ List.mem_cons_self)).2
          simp only [List.nil_append, List.getLastD_nil, ne_eq, List.cons.injEq, and_true]
          by_cases same : first = keyStart
          · subst same
            simp [inside]
          · have strict : inside keyStart keyEnd first = true := by
              simp [inside, lt_of_le_of_ne low (Ne.symm same), high]
            simp [same, strict]
      | cons second rest =>
          have last := later _ (List.getLastD_mem_cons : rest.getLastD second ∈ second :: rest)
          rw [List.getLastD_cons, List.filter_cons_of_pos last]
          simp

theorem length_listing_iff (backend : Backend) (contains : Contains keyStart keyEnd stored) :
    (backend.listing keyStart keyEnd maxLimit stored).length = stored.keys.length ↔
      match backend with
      | .leveldb => True
      | .unqlite | .memcached => keyStart ∉ stored.keys
      | .upscaledb => stored.keys ≠ [keyStart] := by
  cases backend with
  | leveldb => exact iff_of_true (length_leveldb keyStart keyEnd stored contains) trivial
  | unqlite => rw [length_unqlite, length_inside_iff keyStart keyEnd stored.keys contains]
  | upscaledb => exact length_upscaledb_iff keyStart keyEnd stored contains
  | memcached => rw [length_memcached, length_inside_iff keyStart keyEnd stored.keys contains]

theorem dbkcount_memcached_iff (size : UInt64) :
    Backend.dbkcount lib library stored .memcached = .ok size ↔
      (library.connected = true ∧ library.failure = none) ∧
        .ofNat (Backend.listing (ascii "a") (ascii "z") maxLimit stored .memcached).length = size := by
  rw [Backend.dbkcount, Backend.keys, call]
  cases library.connected with
  | false => simp
  | true => cases library.failure <;> simp

-- A count that succeeds is the number of keys, for memcached of those between its bounds.
theorem dbkcount_exact_iff (backend : Backend) (size : UInt64)
    (counted : backend.dbkcount lib library stored = .ok size) :
    size.toNat = stored.keys.length ↔
      (backend = .memcached → ∀ key ∈ stored.keys, inside (ascii "a") (ascii "z") key = true) := by
  have bounded := stored.bounded
  cases backend with
  | leveldb =>
      rw [Backend.dbkcount, call_ok_iff] at counted
      rw [← counted.2, toNat_countEntries _ bounded]
      simp
  | unqlite =>
      rw [Backend.dbkcount, call_ok_iff] at counted
      rw [← counted.2, toNat_countEntries _ (dumped_bounded stored), stored.perm.length_eq]
      simp
  | upscaledb =>
      rw [Backend.dbkcount, call_ok_iff] at counted
      have whole : (UInt64.ofNat stored.keys.length).toNat = stored.keys.length := UInt64.toNat_ofNat_of_lt' bounded
      rw [← counted.2, whole]
      simp
  | memcached =>
      rw [dbkcount_memcached_iff, length_memcached] at counted
      have fewer := List.length_filter_le (inside (ascii "a") (ascii "z")) stored.keys
      have size : UInt64.size = 2 ^ 64 := rfl
      have whole : (UInt64.ofNat (stored.keys.filter (inside (ascii "a") (ascii "z"))).length).toNat =
          (stored.keys.filter (inside (ascii "a") (ascii "z"))).length := UInt64.toNat_ofNat_of_lt' (by omega)
      rw [← counted.2, whole, List.length_filter_eq_length_iff]
      simp

end Counts

/-- The count is the number of keys and of those that are listed: always for leveldb, otherwise unless a key is equal
to the start (for upscaledb, the only key), and for memcached when all keys are within the bounds of its count. -/
theorem counts_agree_iff (lib : Common) (count list : Library) (keyStart keyEnd : Text) (stored : StoredKeys)
    (backend : Backend) (contains : Contains keyStart keyEnd stored) (size : UInt64) (ret : List Text)
    (counted : backend.dbkcount lib count stored = .ok size)
    (listed : backend.keys lib list keyStart keyEnd maxLimit stored = .ok ret) :
    size.toNat = stored.keys.length ∧ size.toNat = ret.length ↔ backend.Exact keyStart stored := by
  rw [Backend.keys, call_ok_iff] at listed
  have exact := dbkcount_exact_iff lib count stored backend size counted
  have whole := length_listing_iff keyStart keyEnd stored backend contains
  rw [listed.2] at whole
  have both : size.toNat = stored.keys.length ∧ size.toNat = ret.length ↔
      size.toNat = stored.keys.length ∧ ret.length = stored.keys.length := by
    constructor <;> rintro ⟨first, second⟩ <;> exact ⟨first, by omega⟩
  rw [both, exact, whole]
  cases backend <;> simp [Backend.Exact]

def working : Library := ⟨true, none⟩

def lowerCase : StoredKeys := ⟨threeKeys, threeKeys.keys, .refl _, by decide⟩

theorem counts_agree_lowerCase :
    ∃ size ret, Backend.dbkcount Common.std working lowerCase .upscaledb = .ok size ∧
      Backend.keys Common.std working (ascii "a") (ascii "z") maxLimit lowerCase .upscaledb = .ok ret ∧
      size.toNat = lowerCase.keys.length ∧ size.toNat = ret.length :=
  ⟨3, [ascii "b", ascii "c", ascii "c"], rfl, rfl,
    (counts_agree_iff Common.std working working (ascii "a") (ascii "z") lowerCase .upscaledb (by decide) 3 _ rfl
      rfl).mpr (by simp [Backend.Exact, lowerCase, threeKeys])⟩

def upperCase : StoredKeys := ⟨⟨[ascii "Z"], by decide⟩, [ascii "Z"], .refl _, by decide⟩

/-- A key in upper case is listed and not counted by memcached; as the start of the range it is not listed by three
back-ends. -/
theorem upperCase_miscounted :
    upperCase.keys.length = 1 ∧ Backend.dbkcount Common.std working upperCase .memcached = .ok 0 ∧
      Backend.keys Common.std working (ascii "A") (ascii "a") maxLimit upperCase .memcached = .ok [ascii "Z"] ∧
      ∀ backend ∈ [Backend.unqlite, Backend.upscaledb, Backend.memcached],
        Backend.keys Common.std working (ascii "Z") (ascii "a") maxLimit upperCase backend = .ok [] := by
  refine ⟨rfl, rfl, rfl, ?_⟩
  simp only [List.forall_mem_cons]
  exact ⟨rfl, rfl, rfl, by simp⟩

end FastoNoSQL.Store.Counting
