import FastoNoSQL.Types
import Mathlib.Data.List.Lex

set_option autoImplicit false

/-!
# Listing the keys of a range

`Keys` of the back-ends whose library walks over the keys in byte order. A
cursor is the list of the keys that it has not visited yet.
-/

namespace FastoNoSQL.Store

open Bytes

local instance byteOrder : LinearOrder UInt8 where
  le_refl := UInt8.le_refl
  le_trans _ _ _ := UInt8.le_trans
  lt_iff_le_not_ge a b := by simp [UInt8.le_iff_toNat_le, UInt8.lt_iff_toNat_lt]; omega
  le_antisymm _ _ := UInt8.le_antisymm
  le_total := UInt8.le_total
  toDecidableLE := inferInstance

/-- The keys of a store, as its iterators visit them. -/
structure OrderedKeys where
  keys : List Text
  sorted : keys.Pairwise (· < ·)

theorem OrderedKeys.nodup (store : OrderedKeys) : store.keys.Nodup := store.sorted.imp ne_of_lt

section Loops

variable (keyStart keyEnd : Text) (limit : UInt64)

def seek (keys : List Text) : List Text := keys.dropWhile (· < keyStart)

-- The `for` loop of leveldb and rocksdb after `Seek`.
def iterate : List Text → List Text → List Text
  | [], ret => ret
  | key :: rest, ret =>
    if key < keyEnd then
      if ret.length < limit.toNat then iterate rest (ret ++ [key]) else ret
    else ret

def Leveldb.keys (store : OrderedKeys) : List Text := iterate keyEnd limit (seek keyStart store.keys) []

def Rocksdb.keys (store : OrderedKeys) : List Text := iterate keyEnd limit (seek keyStart store.keys) []

def inside (key : Text) : Bool := keyStart < key && keyEnd > key

def push (ret : List Text) (key : Text) : List Text := if inside keyStart keyEnd key then ret ++ [key] else ret

-- `MDB_NEXT` moves a new cursor to the first key; the limit is tested after the move.
def Lmdb.scan : List Text → List Text → List Text
  | [], ret => ret
  | key :: rest, ret => if limit.toNat > ret.length then scan rest (push keyStart keyEnd ret key) else ret

def Lmdb.keys (store : OrderedKeys) : List Text := Lmdb.scan keyStart keyEnd limit store.keys []

-- `current` is the key buffer; a move past the end leaves it as it is, and the body still runs.
def Upscaledb.scan (current : Text) : List Text → List Text → List Text
  | [], ret => push keyStart keyEnd ret current
  | key :: rest, ret =>
    let ret := push keyStart keyEnd ret key
    if limit.toNat > ret.length then scan key rest ret else ret

def Upscaledb.keys (store : OrderedKeys) : List Text :=
  match store.keys with
  | [] => []
  | first :: rest => Upscaledb.scan keyStart keyEnd limit first rest []

-- The first keys of the range, at most `limit` of them.
def firstKeys (store : OrderedKeys) : List Text :=
  (store.keys.filter fun key => keyStart ≤ key && key < keyEnd).take limit.toNat

-- Every back-end lists the first keys of the range.
def SameKeys (store : OrderedKeys) : Prop :=
  ∀ keys ∈ [Leveldb.keys keyStart keyEnd limit store, Rocksdb.keys keyStart keyEnd limit store,
    Lmdb.keys keyStart keyEnd limit store, Upscaledb.keys keyStart keyEnd limit store],
    keys = firstKeys keyStart keyEnd limit store

/-! ## What the loops return -/

theorem iterate_eq (rest ret : List Text) :
    iterate keyEnd limit rest ret = ret ++ (rest.takeWhile (· < keyEnd)).take (limit.toNat - ret.length) := by
  induction rest generalizing ret with
  | nil => simp [iterate]
  | cons key rest ih =>
      by_cases before : key < keyEnd
      · by_cases room : ret.length < limit.toNat
        · have count : limit.toNat - ret.length = (limit.toNat - (ret ++ [key]).length) + 1 := by
            simp only [List.length_append, List.length_singleton]
            omega
          rw [iterate, if_pos before, if_pos room, ih, count]
          simp [before]
        · have count : limit.toNat - ret.length = 0 := by omega
          simp [iterate, before, room, count]
      · simp [iterate, before]

theorem Lmdb.scan_eq (rest ret : List Text) :
    Lmdb.scan keyStart keyEnd limit rest ret =
      ret ++ (rest.filter (inside keyStart keyEnd)).take (limit.toNat - ret.length) := by
  induction rest generalizing ret with
  | nil => simp [Lmdb.scan]
  | cons key rest ih =>
      by_cases room : limit.toNat > ret.length
      · rw [Lmdb.scan, if_pos room, ih, push]
        cases within : inside keyStart keyEnd key with
        | true =>
            have count : limit.toNat - ret.length = (limit.toNat - (ret ++ [key]).length) + 1 := by
              simp only [List.length_append, List.length_singleton]
              omega
            rw [if_pos rfl, count]
            simp [within]
        | false => simp [within]
      · have count : limit.toNat - ret.length = 0 := by omega
        simp [Lmdb.scan, room, count]

-- The keys that the body of the `do` loop sees.
def visited (current : Text) : List Text → List Text
  | [] => [current]
  | key :: rest => key :: visited key rest

theorem Upscaledb.scan_eq (current : Text) (rest ret : List Text) (room : ret.length < limit.toNat) :
    Upscaledb.scan keyStart keyEnd limit current rest ret =
      ret ++ ((visited current rest).filter (inside keyStart keyEnd)).take (limit.toNat - ret.length) := by
  induction rest generalizing current ret with
  | nil =>
      rw [Upscaledb.scan, push, visited]
      cases within : inside keyStart keyEnd current with
      | true =>
          obtain ⟨more, count⟩ : ∃ more, limit.toNat - ret.length = more + 1 :=
            ⟨limit.toNat - ret.length - 1, by omega⟩
          simp [within, count]
      | false => simp [within]
  | cons key rest ih =>
      rw [Upscaledb.scan, push, visited]
      cases within : inside keyStart keyEnd key with
      | true =>
          have count : limit.toNat - ret.length = (limit.toNat - (ret ++ [key]).length) + 1 := by
            simp only [List.length_append, List.length_singleton]
            omega
          simp only [if_true]
          split
          next more =>
            rw [ih key (ret ++ [key]) more, count]
            simp [within]
          next full =>
            have none : limit.toNat - (ret ++ [key]).length = 0 := by omega
            rw [count, none]
            simp [within]
      | false =>
          simp only [Bool.false_eq_true, if_false]
          rw [if_pos room, ih key ret room]
          simp [within]

-- Without room for any key the body has still run once.
theorem Upscaledb.scan_full (current : Text) (rest : List Text) (full : limit.toNat = 0) :
    Upscaledb.scan keyStart keyEnd limit current rest [] =
      push keyStart keyEnd [] (rest.headD current) := by
  cases rest with
  | nil => rfl
  | cons key rest => simp [Upscaledb.scan, full]

theorem visited_eq (current : Text) (rest : List Text) :
    visited current rest = rest ++ [rest.getLastD current] := by
  induction rest generalizing current with
  | nil => rfl
  | cons key rest ih =>
      rw [visited, ih, List.getLastD_cons]
      rfl

/-! ## Ranges of an ordered store -/

section Sorted

variable (keys : List Text) (sorted : keys.Pairwise (· < ·))
include sorted

theorem seek_eq_filter : seek keyStart keys = keys.filter (keyStart ≤ ·) := by
  induction keys with
  | nil => rfl
  | cons key rest ih =>
      rw [List.pairwise_cons] at sorted
      by_cases before : key < keyStart
      · have out : ¬ keyStart ≤ key := not_le.mpr before
        have next := ih sorted.2
        simp only [seek] at next ⊢
        simp [before, out, next]
      · have later : ∀ other ∈ rest, keyStart ≤ other := fun other member =>
          le_trans (not_lt.mp before) (le_of_lt (sorted.1 other member))
        rw [List.filter_cons_of_pos (by simpa using not_lt.mp before), List.filter_eq_self.mpr (by simpa using later)]
        simp [seek, before]

theorem takeWhile_eq_filter : keys.takeWhile (· < keyEnd) = keys.filter (· < keyEnd) := by
  induction keys with
  | nil => rfl
  | cons key rest ih =>
      rw [List.pairwise_cons] at sorted
      by_cases before : key < keyEnd
      · simp [before, ih sorted.2]
      · have later : ∀ other ∈ rest, ¬ other < keyEnd := fun other member =>
          not_lt.mpr (le_trans (not_lt.mp before) (le_of_lt (sorted.1 other member)))
        rw [List.filter_cons_of_neg (by simpa using before), List.filter_eq_nil_iff.mpr (by simpa using later)]
        simp [before]

omit sorted in
theorem range_eq_inside (outside : ¬ (keyStart ∈ keys ∧ keyStart < keyEnd)) :
    keys.filter (fun key => keyStart ≤ key && key < keyEnd) = keys.filter (inside keyStart keyEnd) := by
  apply List.filter_congr
  intro key member
  rw [Bool.eq_iff_iff]
  simp only [inside, Bool.and_eq_true, decide_eq_true_eq, gt_iff_lt]
  constructor
  · intro ⟨low, high⟩
    refine ⟨lt_of_le_of_ne low fun same => ?_, high⟩
    subst same
    exact outside ⟨member, high⟩
  · intro ⟨low, high⟩
    exact ⟨le_of_lt low, high⟩

-- A key equal to the start is the first of the range.
theorem range_eq_start_cons (member : keyStart ∈ keys) (nonempty : keyStart < keyEnd) :
    keys.filter (fun key => keyStart ≤ key && key < keyEnd) =
      keyStart :: keys.filter (inside keyStart keyEnd) := by
  induction keys with
  | nil => simp at member
  | cons key rest ih =>
      rw [List.pairwise_cons] at sorted
      by_cases same : key = keyStart
      · subst same
        have distinct : key ∉ rest := fun again => lt_irrefl key (sorted.1 key again)
        rw [List.filter_cons_of_pos (by simpa using nonempty), List.filter_cons_of_neg (by simp [inside]),
          range_eq_inside key keyEnd rest fun ⟨again, _⟩ => distinct again]
      · have later : keyStart ∈ rest := by simpa [Ne.symm same] using member
        have before : key < keyStart := sorted.1 keyStart later
        rw [List.filter_cons_of_neg (by simp [not_le.mpr before]),
          List.filter_cons_of_neg (by simp [inside, le_of_lt before]), ih sorted.2 later]

end Sorted

theorem iterate_seek (store : OrderedKeys) :
    iterate keyEnd limit (seek keyStart store.keys) [] = firstKeys keyStart keyEnd limit store := by
  have later := store.sorted.filter (keyStart ≤ ·)
  rw [iterate_eq, seek_eq_filter keyStart store.keys store.sorted, takeWhile_eq_filter keyEnd _ later,
    List.filter_filter, List.nil_append, List.length_nil, Nat.sub_zero, firstKeys]
  congr 2
  funext key
  rw [Bool.and_comm]

-- lmdb leaves out a key equal to the start.
theorem Lmdb.keys_iff (store : OrderedKeys) :
    Lmdb.keys keyStart keyEnd limit store = firstKeys keyStart keyEnd limit store ↔
      limit.toNat = 0 ∨ ¬ (keyStart ∈ store.keys ∧ keyStart < keyEnd) := by
  have listed : Lmdb.keys keyStart keyEnd limit store =
      (store.keys.filter (inside keyStart keyEnd)).take limit.toNat := by
    simp [Lmdb.keys, Lmdb.scan_eq]
  rw [listed, firstKeys]
  constructor
  · intro same
    by_contra neither
    simp only [not_or, not_not] at neither
    obtain ⟨positive, member, nonempty⟩ := neither
    obtain ⟨more, count⟩ : ∃ more, limit.toNat = more + 1 := ⟨limit.toNat - 1, by omega⟩
    rw [range_eq_start_cons keyStart keyEnd store.keys store.sorted member nonempty, count,
      List.take_succ_cons] at same
    have found : keyStart ∈ (store.keys.filter (inside keyStart keyEnd)).take (more + 1) := by
      rw [same]
      exact List.mem_cons_self
    have strict := (List.mem_filter.mp (List.mem_of_mem_take found)).2
    simp [inside] at strict
  · intro condition
    rcases condition with none | outside
    · simp [none]
    · rw [range_eq_inside keyStart keyEnd store.keys outside]

-- The walk of upscaledb passes the first key by and sees the last key twice.
theorem Upscaledb.walk_iff (first second : Text) (rest : List Text) (distinct : first ∉ second :: rest) (count : Nat)
    (positive : 0 < count) :
    ((visited first (second :: rest)).filter (inside keyStart keyEnd)).take count =
        ((first :: second :: rest).filter (inside keyStart keyEnd)).take count ↔
      inside keyStart keyEnd first = false ∧
        (inside keyStart keyEnd (rest.getLastD second) = true →
          count ≤ ((first :: second :: rest).filter (inside keyStart keyEnd)).length) := by
  obtain ⟨more, rfl⟩ : ∃ more, count = more + 1 := ⟨count - 1, by omega⟩
  have last : rest.getLastD second ∈ second :: rest := List.getLastD_mem_cons
  rw [visited_eq, List.getLastD_cons, List.filter_append]
  cases front : inside keyStart keyEnd first with
  | true =>
      simp only [Bool.true_eq_false, false_and, iff_false]
      intro same
      rw [List.filter_cons_of_pos front, List.take_succ_cons] at same
      have found := List.mem_of_mem_take (same ▸ List.mem_cons_self : first ∈ List.take (more + 1) _)
      rcases List.mem_append.mp found with inRest | inLast
      · exact distinct (List.mem_filter.mp inRest).1
      · have again := (List.mem_filter.mp inLast).1
        rw [List.mem_singleton] at again
        exact distinct (again ▸ last)
  | false =>
      have tail : (first :: second :: rest).filter (inside keyStart keyEnd) =
          (second :: rest).filter (inside keyStart keyEnd) := List.filter_cons_of_neg (by simp [front])
      rw [tail]
      cases back : inside keyStart keyEnd (rest.getLastD second) with
      | true =>
          simp only [List.filter_cons_of_pos back, List.filter_nil, true_and, forall_const]
          constructor
          · intro same
            have lengths := congrArg List.length same
            simp only [List.length_take, List.length_append, List.length_singleton] at lengths
            omega
          · intro room
            exact List.take_append_of_le_length room
      | false =>
          have nothing : [rest.getLastD second].filter (inside keyStart keyEnd) = [] := by
            rw [List.filter_cons_of_neg (by rw [back]; exact Bool.false_ne_true), List.filter_nil]
          rw [nothing, List.append_nil]
          exact iff_of_true rfl ⟨rfl, fun impossible => by cases impossible⟩

/-- The stores and bounds for which the walk of upscaledb lists what lmdb lists. -/
def Walkable (store : OrderedKeys) : Prop :=
  match store.keys with
  | [] => True
  | [only] => limit = 0 → inside keyStart keyEnd only = false
  | first :: second :: rest =>
    if limit = 0 then inside keyStart keyEnd second = false
    else
      inside keyStart keyEnd first = false ∧
        (inside keyStart keyEnd (rest.getLastD second) = true →
          limit.toNat ≤ (store.keys.filter (inside keyStart keyEnd)).length)

theorem Upscaledb.keys_iff (store : OrderedKeys) :
    Upscaledb.keys keyStart keyEnd limit store = (store.keys.filter (inside keyStart keyEnd)).take limit.toNat ↔
      Walkable keyStart keyEnd limit store := by
  obtain ⟨keys, sorted⟩ := store
  by_cases none : limit = 0
  · have full : limit.toNat = 0 := by simp [none]
    -- The body runs once, on the second key or on the only one.
    match keys with
    | [] => simp [Upscaledb.keys, Walkable]
    | [only] =>
        simp only [Upscaledb.keys, Upscaledb.scan_full keyStart keyEnd limit only [] full, push, Walkable, full,
          List.headD_nil]
        by_cases within : inside keyStart keyEnd only = true <;> simp [none, within]
    | first :: second :: rest =>
        have once := Upscaledb.scan_full keyStart keyEnd limit first (second :: rest) full
        simp only [Upscaledb.keys, once, push, Walkable, full, if_pos none, List.headD_cons]
        by_cases within : inside keyStart keyEnd second = true <;> simp [within]
  · have positive : 0 < limit.toNat := by
      rw [Nat.pos_iff_ne_zero]
      exact fun zero => none (UInt64.toNat_inj.mp zero)
    match keys with
    | [] => simp [Upscaledb.keys, Walkable]
    | [only] =>
        simp only [Upscaledb.keys, Upscaledb.scan_eq keyStart keyEnd limit only [] [] positive, visited, Walkable]
        simp [none]
    | first :: second :: rest =>
        have distinct : first ∉ second :: rest := fun again =>
          lt_irrefl first ((List.pairwise_cons.mp sorted).1 first again)
        simp only [Upscaledb.keys, Upscaledb.scan_eq keyStart keyEnd limit first _ [] positive, Walkable, none,
          if_false, List.nil_append, List.length_nil, Nat.sub_zero]
        exact Upscaledb.walk_iff keyStart keyEnd first second rest distinct limit.toNat positive

/-- The back-ends list the same keys exactly when no stored key is the start of the range, unless
nothing is asked for, and the walk of upscaledb neither misses the first key nor repeats the last. -/
theorem sameKeys_iff (store : OrderedKeys) :
    SameKeys keyStart keyEnd limit store ↔
      (limit = 0 ∨ ¬ (keyStart ∈ store.keys ∧ keyStart < keyEnd)) ∧ Walkable keyStart keyEnd limit store := by
  have zero : limit.toNat = 0 ↔ limit = 0 := by
    constructor
    · exact fun none => UInt64.toNat_inj.mp none
    · intro none
      simp [none]
  have lmdb := Lmdb.keys_iff keyStart keyEnd limit store
  rw [zero] at lmdb
  have listed : Lmdb.keys keyStart keyEnd limit store =
      (store.keys.filter (inside keyStart keyEnd)).take limit.toNat := by
    simp [Lmdb.keys, Lmdb.scan_eq]
  simp only [SameKeys, List.forall_mem_cons, Leveldb.keys, Rocksdb.keys, iterate_seek, true_and, lmdb,
    List.not_mem_nil, false_implies, implies_true, and_true]
  apply and_congr_right
  intro outside
  rw [← lmdb.mpr outside, listed]
  exact Upscaledb.keys_iff keyStart keyEnd limit store

end Loops

def threeKeys : OrderedKeys := ⟨[ascii "a", ascii "b", ascii "c"], by decide⟩

theorem threeKeys_same : SameKeys (ascii "aa") (ascii "c") 10 threeKeys := by
  rw [sameKeys_iff]
  refine ⟨Or.inr (by decide), ?_⟩
  simp only [Walkable, threeKeys]
  decide

/-- Each bound shows a difference: lmdb leaves the start out, and upscaledb misses `a` and lists
`c` twice. -/
theorem threeKeys_differ :
    Leveldb.keys (ascii "b") (ascii "d") 10 threeKeys = [ascii "b", ascii "c"] ∧
      Lmdb.keys (ascii "b") (ascii "d") 10 threeKeys = [ascii "c"] ∧
      Lmdb.keys (ascii "0") (ascii "d") 10 threeKeys = [ascii "a", ascii "b", ascii "c"] ∧
      Upscaledb.keys (ascii "0") (ascii "d") 10 threeKeys = [ascii "b", ascii "c", ascii "c"] ∧
      Upscaledb.keys (ascii "0") (ascii "d") 0 threeKeys = [ascii "b"] ∧
      ¬ SameKeys (ascii "0") (ascii "d") 10 threeKeys := by
  refine ⟨by decide, by decide, by decide, by decide, by decide, ?_⟩
  intro same
  have listed := same (Upscaledb.keys (ascii "0") (ascii "d") 10 threeKeys) (by simp)
  exact absurd listed (by decide)

end FastoNoSQL.Store
