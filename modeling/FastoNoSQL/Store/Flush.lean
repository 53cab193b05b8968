import FastoNoSQL.Cursor
import FastoNoSQL.Types
import Mathlib.Data.List.Nodup
import Mathlib.Data.List.TakeWhile

set_option autoImplicit false

/-!
# Emptying a store

`Flushdb` of leveldb, rocksdb, lmdb, unqlite and upscaledb, on an open
connection. A store is the list of its keys in the order in which cursors visit
them.
-/

namespace FastoNoSQL.Flush

open Bytes Walk

inductive Library where
  | leveldb
  | rocksdb
  | lmdb
  | unqlite
  | upscaledb
deriving DecidableEq

/-- The calls that fail, with the text of the status: creating the cursor or the transaction,
moving to an entry, deleting it, and the commit. -/
structure Faults where
  cursor : Option Text := none
  unreadable : Text → Option Text := fun _ => none
  refused : Text → Option Text := fun _ => none
  commit : Option Text := none

abbrev Flushed := List Text × Option ErrorValue

section Loops

variable (lib : Common) (faults : Faults)

-- The loop of leveldb and rocksdb over their snapshot; the iterator's status is that of its last move.
def iterate : List Text → List Text → Flushed
  | [], keys => (keys, none)
  | key :: snapshot, keys =>
    match faults.unreadable key, faults.refused key with
    | some status, _ => (keys, some (printedError lib "Keys function error: %s" status))
    | none, some status => (keys, some (printedError lib "del function error: %s" status))
    | none, none => iterate snapshot (keys.erase key)

def Leveldb.flushdb (keys : List Text) : Flushed := iterate lib faults keys keys

def Rocksdb.flushdb (keys : List Text) : Flushed := iterate lib faults keys keys

-- The status of `mdb_cursor_get` only ends the loop; `sz` counts the deleted entries.
def Lmdb.sweep (keys : List Text) (cursor : Cursor) (sz : Nat) : List Text × Nat × Option ErrorValue :=
  match _found : cursor.next.entry keys with
  | none => (keys, sz, none)
  | some key =>
    match faults.unreadable key, faults.refused key with
    | some _, _ => (keys, sz, none)
    | none, some status => (keys, sz, some (printedError lib "del function error: %s" status))
    | none, none => sweep (keys.erase key) cursor.next.bereft (sz + 1)
termination_by keys.length
decreasing_by
  have member := mem_of_entry _found
  have positive := List.length_pos_of_mem member
  have count := List.length_erase_of_mem member
  omega

/-- An aborted transaction leaves the store as it was. -/
def Lmdb.flushdb (keys : List Text) : Flushed :=
  match faults.cursor with
  | some status => (keys, some (printedError lib "flushdb function error: %s" status))
  | none =>
    match sweep lib faults keys fresh 0 with
    | (_, _, some err) => (keys, some err)
    | (swept, sz, none) =>
      if sz ≠ 0 then
        match faults.commit with
        | some status => (keys, some (printedError lib "commit function error: %s" status))
        | none => (swept, none)
      else (keys, none)

-- The cursor is not valid at the end and at an entry that it cannot read.
def Unqlite.sweep (keys : List Text) (cursor : Cursor) : Flushed :=
  match _found : cursor.entry keys with
  | none => (keys, none)
  | some key =>
    match faults.unreadable key, faults.refused key with
    | some _, _ => (keys, none)
    | none, some status => (keys, some (printedError lib "delete function error: %s" status))
    | none, none => sweep (keys.erase key) cursor.bereft.next
termination_by keys.length
decreasing_by
  have member := mem_of_entry _found
  have positive := List.length_pos_of_mem member
  have count := List.length_erase_of_mem member
  omega

def Unqlite.flushdb (keys : List Text) : Flushed :=
  match faults.cursor with
  | some status => (keys, some (printedError lib "FlushDB function error: %s" status))
  | none => sweep lib faults keys first

-- The index that a move to the next item reaches; from a nil cursor it is the first.
def Upscaledb.nextIndex : Option Nat → Nat
  | none => 0
  | some index => index + 1

-- The status of `ups_db_erase` is not looked at, and past the last item the key is still the last one.
def Upscaledb.sweep (keys : List Text) (cursor : Option Nat) (key : Text) : Flushed :=
  match _found : keys[nextIndex cursor]? with
  | none => (if (faults.refused key).isSome then keys else keys.erase key, none)
  | some next =>
    match faults.unreadable next, faults.refused next with
    | some status, _ => (keys, some (printedError lib "flushdb function error: %s" status))
    | none, some _ => sweep keys (some (nextIndex cursor)) next
    | none, none => sweep (keys.erase next) none next
termination_by (keys.length, keys.length - nextIndex cursor)
decreasing_by
  · have bound := (List.getElem?_eq_some_iff.mp _found).1
    apply Prod.Lex.right
    show keys.length - (nextIndex cursor + 1) < keys.length - nextIndex cursor
    omega
  · have member := List.mem_of_getElem? _found
    have positive := List.length_pos_of_mem member
    have count := List.length_erase_of_mem member
    apply Prod.Lex.left
    omega

def Upscaledb.flushdb (keys : List Text) : Flushed :=
  match faults.cursor with
  | some status => (keys, some (printedError lib "Keys function error: %s" status))
  | none =>
    match keys with
    | [] => (keys, none)
    | key :: _ =>
      match faults.unreadable key with
      | some status => (keys, some (printedError lib "flushdb function error: %s" status))
      | none => sweep lib faults keys (some 0) key

def flushdb : Library → List Text → Flushed
  | .leveldb => Leveldb.flushdb lib faults
  | .rocksdb => Rocksdb.flushdb lib faults
  | .lmdb => Lmdb.flushdb lib faults
  | .unqlite => Unqlite.flushdb lib faults
  | .upscaledb => Upscaledb.flushdb lib faults

end Loops

section Faults

variable (faults : Faults) (keys : List Text)

-- An entry that is read and deleted.
def Faults.takes (key : Text) : Bool := (faults.unreadable key).isNone && (faults.refused key).isNone

def Faults.Nothing : Prop :=
  faults.cursor = none ∧ faults.commit = none ∧ ∀ key ∈ keys, faults.takes key = true

-- The first entry that makes trouble cannot be read.
def Faults.Unnoticed : Prop :=
  ∃ key rest, keys.dropWhile faults.takes = key :: rest ∧ (faults.unreadable key).isSome = true

-- Nothing fails and the store is emptied with success, and whenever there is success it is empty.
def Empties (lib : Common) (library : Library) : Prop :=
  (faults.Nothing keys → flushdb lib faults library keys = ([], none)) ∧
    ((flushdb lib faults library keys).2 = none → (flushdb lib faults library keys).1 = [])

/-- Where a failure shows: lmdb and unqlite do not see an entry that cannot be read, unless the commit
fails after a deletion, and upscaledb does not see a refused deletion. -/
def Noticed : Library → Prop
  | .leveldb | .rocksdb => True
  | .lmdb => faults.cursor.isSome = true ∨ ¬ faults.Unnoticed keys ∨
      faults.commit.isSome = true ∧ keys.head?.any faults.takes = true
  | .unqlite => faults.cursor.isSome = true ∨ ¬ faults.Unnoticed keys
  | .upscaledb => faults.cursor.isSome = true ∨ (∃ key ∈ keys, (faults.unreadable key).isSome = true) ∨
      ∀ key ∈ keys, faults.refused key = none

theorem takes_iff (key : Text) :
    faults.takes key = true ↔ faults.unreadable key = none ∧ faults.refused key = none := by
  simp [Faults.takes]

-- The first troublesome entry stops the loops of lmdb and unqlite with an error if it is refused.
def Faults.refusal : Option Text :=
  match keys.dropWhile faults.takes with
  | [] => none
  | key :: _ => if (faults.unreadable key).isSome then none else faults.refused key

variable {faults keys}

theorem dropWhile_of_nothing (nothing : faults.Nothing keys) : keys.dropWhile faults.takes = [] :=
  List.dropWhile_eq_nil_iff.mpr nothing.2.2

theorem not_unnoticed_of_done (done : keys.dropWhile faults.takes = []) : ¬ faults.Unnoticed keys := by
  rintro ⟨key, rest, trouble, _⟩
  rw [done] at trouble
  cases trouble

theorem refusal_eq_none_iff :
    faults.refusal keys = none ↔ keys.dropWhile faults.takes = [] ∨ faults.Unnoticed keys := by
  unfold Faults.refusal Faults.Unnoticed
  cases trouble : keys.dropWhile faults.takes with
  | nil => simp
  | cons key rest =>
      have stays : faults.takes key = false := by
        have head := List.head?_dropWhile_not faults.takes keys
        rw [trouble] at head
        simpa using head
      cases readable : faults.unreadable key with
      | some status => simp [readable]
      | none =>
          have refused : faults.refused key ≠ none := by
            intro accepted
            rw [(takes_iff faults key).mpr ⟨readable, accepted⟩] at stays
            cases stays
          simp [readable, refused]

variable (faults keys) (lib : Common)

/-! ## The loops -/

theorem iterate_done (success : (iterate lib faults keys keys).2 = none) :
    (iterate lib faults keys keys).1 = [] := by
  induction keys with
  | nil => rfl
  | cons key rest ih =>
      unfold iterate at success ⊢
      split at success
      · cases success
      · cases success
      next =>
        rw [List.erase_cons_head] at success ⊢
        exact ih success

theorem iterate_takes (all : ∀ key ∈ keys, faults.takes key = true) : iterate lib faults keys keys = ([], none) := by
  induction keys with
  | nil => rfl
  | cons key rest ih =>
      obtain ⟨readable, accepted⟩ := (takes_iff faults key).mp (all key List.mem_cons_self)
      simp only [iterate, readable, accepted, List.erase_cons_head]
      exact ih fun other member => all other (List.mem_cons_of_mem _ member)

theorem lmdb_sweep (sz : Nat) :
    Lmdb.sweep lib faults keys fresh sz =
      (keys.dropWhile faults.takes, sz + (keys.takeWhile faults.takes).length,
        (faults.refusal keys).map (printedError lib "del function error: %s")) := by
  induction keys generalizing sz with
  | nil => simp [Lmdb.sweep, next_fresh, Faults.refusal]
  | cons key rest ih =>
      rw [Lmdb.sweep, next_fresh]
      simp only [entry_first_cons, List.erase_cons_head, bereft_first, Faults.refusal]
      cases readable : faults.unreadable key with
      | some status => simp [Faults.takes, readable]
      | none =>
          cases accepted : faults.refused key with
          | some status => simp [Faults.takes, readable, accepted]
          | none =>
              have goes : faults.takes key = true := (takes_iff faults key).mpr ⟨readable, accepted⟩
              simp only [ih, List.dropWhile_cons_of_pos goes, List.takeWhile_cons_of_pos goes, List.length_cons,
                Nat.add_assoc, Nat.add_comm 1]
              rfl

theorem unqlite_sweep :
    Unqlite.sweep lib faults keys first =
      (keys.dropWhile faults.takes, (faults.refusal keys).map (printedError lib "delete function error: %s")) := by
  induction keys with
  | nil => simp [Unqlite.sweep, Faults.refusal]
  | cons key rest ih =>
      rw [Unqlite.sweep]
      simp only [entry_first_cons, List.erase_cons_head, bereft_first, next_fresh, Faults.refusal]
      cases readable : faults.unreadable key with
      | some status => simp [Faults.takes, readable]
      | none =>
          cases accepted : faults.refused key with
          | some status => simp [Faults.takes, readable, accepted]
          | none =>
              have goes : faults.takes key = true := (takes_iff faults key).mpr ⟨readable, accepted⟩
              simp only [ih, List.dropWhile_cons_of_pos goes]
              rfl

section Upscaledb

variable (cursor : Option Nat) (current : Text)

theorem upscaledb_end (ended : keys[Upscaledb.nextIndex cursor]? = none) :
    Upscaledb.sweep lib faults keys cursor current =
      (if (faults.refused current).isSome then keys else keys.erase current, none) := by
  rw [Upscaledb.sweep]
  split
  next => rfl
  next next found =>
    rw [ended] at found
    cases found

theorem upscaledb_move (next : Text) (found : keys[Upscaledb.nextIndex cursor]? = some next) :
    Upscaledb.sweep lib faults keys cursor current =
      match faults.unreadable next, faults.refused next with
      | some status, _ => (keys, some (printedError lib "flushdb function error: %s" status))
      | none, some _ => Upscaledb.sweep lib faults keys (some (Upscaledb.nextIndex cursor)) next
      | none, none => Upscaledb.sweep lib faults (keys.erase next) none next := by
  rw [Upscaledb.sweep]
  split
  next ended =>
    rw [ended] at found
    cases found
  next other found' =>
    rw [found] at found'
    obtain rfl := Option.some.inj found'
    rfl

theorem upscaledb_keeps (key : Text) (refused : (faults.refused key).isSome = true) (member : key ∈ keys) :
    key ∈ (Upscaledb.sweep lib faults keys cursor current).1 := by
  induction keys, cursor, current using Upscaledb.sweep.induct faults with
  | case1 keys cursor current ended =>
      rw [upscaledb_end faults keys lib cursor current ended]
      by_cases same : key = current
      · rw [← same, if_pos refused]
        exact member
      · split
        · exact member
        · exact (List.mem_erase_of_ne same).mpr member
  | case2 keys cursor current next found status unreadable =>
      rw [upscaledb_move faults keys lib cursor current next found, unreadable]
      exact member
  | case3 keys cursor current next found status refusal readable ih =>
      rw [upscaledb_move faults keys lib cursor current next found, readable, refusal]
      exact ih member
  | case4 keys cursor current next found accepted readable ih =>
      rw [upscaledb_move faults keys lib cursor current next found, readable, accepted]
      have other : key ≠ next := by
        intro same
        rw [same, accepted] at refused
        cases refused
      exact ih ((List.mem_erase_of_ne other).mpr member)

-- The cursor comes to an entry ahead of it that it cannot read.
theorem upscaledb_meets (key : Text) (unreadable : (faults.unreadable key).isSome = true)
    (ahead : key ∈ keys.drop (Upscaledb.nextIndex cursor)) :
    (Upscaledb.sweep lib faults keys cursor current).2.isSome = true := by
  induction keys, cursor, current using Upscaledb.sweep.induct faults with
  | case1 keys cursor current ended =>
      rw [List.drop_eq_nil_of_le (List.getElem?_eq_none_iff.mp ended)] at ahead
      cases ahead
  | case2 keys cursor current next found status stops =>
      rw [upscaledb_move faults keys lib cursor current next found, stops]
      rfl
  | case3 keys cursor current next found status refusal readable ih =>
      rw [upscaledb_move faults keys lib cursor current next found, readable, refusal]
      apply ih
      obtain ⟨bound, here⟩ := List.getElem?_eq_some_iff.mp found
      rw [List.drop_eq_getElem_cons bound, here] at ahead
      rcases List.mem_cons.mp ahead with same | rest
      · rw [same, readable] at unreadable
        cases unreadable
      · exact rest
  | case4 keys cursor current next found accepted readable ih =>
      rw [upscaledb_move faults keys lib cursor current next found, readable, accepted]
      apply ih
      have other : key ≠ next := by
        intro same
        rw [same, readable] at unreadable
        cases unreadable
      exact (List.mem_erase_of_ne other).mpr (List.mem_of_mem_drop ahead)

theorem upscaledb_succeeds (readable : ∀ key ∈ keys, faults.unreadable key = none) :
    (Upscaledb.sweep lib faults keys cursor current).2 = none := by
  induction keys, cursor, current using Upscaledb.sweep.induct faults with
  | case1 keys cursor current ended => rw [upscaledb_end faults keys lib cursor current ended]
  | case2 keys cursor current next found status unreadable =>
      rw [readable next (List.mem_of_getElem? found)] at unreadable
      cases unreadable
  | case3 keys cursor current next found status refusal free ih =>
      rw [upscaledb_move faults keys lib cursor current next found, free, refusal]
      exact ih readable
  | case4 keys cursor current next found accepted free ih =>
      rw [upscaledb_move faults keys lib cursor current next found, free, accepted]
      exact ih fun key member => readable key (List.mem_of_mem_erase member)

-- From a nil cursor every entry is the first in its turn.
theorem upscaledb_nil (takes : ∀ key ∈ keys, faults.takes key = true) :
    (Upscaledb.sweep lib faults keys none current).1 = [] := by
  induction keys generalizing current with
  | nil =>
      rw [upscaledb_end faults [] lib none current rfl]
      simp
  | cons key rest ih =>
      obtain ⟨readable, accepted⟩ := (takes_iff faults key).mp (takes key List.mem_cons_self)
      rw [upscaledb_move faults (key :: rest) lib none current key rfl, readable, accepted]
      simp only [List.erase_cons_head]
      exact ih key fun other member => takes other (List.mem_cons_of_mem _ member)

-- The first entry is passed over at the start and comes again after the second.
theorem upscaledb_start (key : Text) (rest : List Text) (distinct : (key :: rest).Nodup)
    (takes : ∀ other ∈ key :: rest, faults.takes other = true) :
    (Upscaledb.sweep lib faults (key :: rest) (some 0) key).1 = [] := by
  cases rest with
  | nil =>
      have accepted := ((takes_iff faults key).mp (takes key List.mem_cons_self)).2
      rw [upscaledb_end faults [key] lib (some 0) key rfl, accepted]
      simp
  | cons second rest =>
      obtain ⟨readable, accepted⟩ := (takes_iff faults second).mp (takes second (by simp))
      rw [upscaledb_move faults _ lib (some 0) key second rfl, readable, accepted]
      apply upscaledb_nil
      exact fun other member => takes other (List.mem_of_mem_erase member)

end Upscaledb

/-! ## The five functions -/

theorem leveldb_empties : Empties faults keys lib .leveldb :=
  ⟨fun nothing => iterate_takes faults keys lib nothing.2.2, iterate_done faults keys lib⟩

theorem lmdb_flushdb (opened : faults.cursor = none) :
    Lmdb.flushdb lib faults keys =
      match faults.refusal keys, faults.commit with
      | some status, _ => (keys, some (printedError lib "del function error: %s" status))
      | none, some status =>
        if keys.head?.any faults.takes then (keys, some (printedError lib "commit function error: %s" status))
        else (keys, none)
      | none, none => (keys.dropWhile faults.takes, none) := by
  have counted : (keys.takeWhile faults.takes).length ≠ 0 ↔ keys.head?.any faults.takes = true := by
    cases keys with
    | nil => simp
    | cons first rest => cases goes : faults.takes first <;> simp [goes]
  have whole (none : ¬ keys.head?.any faults.takes = true) : keys.dropWhile faults.takes = keys := by
    cases keys with
    | nil => rfl
    | cons first rest =>
        have stays : faults.takes first = false := by simpa using none
        simp [stays]
  unfold Lmdb.flushdb
  simp only [opened, lmdb_sweep, Nat.zero_add]
  cases refusal : faults.refusal keys with
  | some status => rfl
  | none =>
      by_cases any : keys.head?.any faults.takes = true
      · simp only [Option.map_none, if_pos (counted.mpr any), any, if_true]
        cases faults.commit <;> rfl
      · simp only [Option.map_none, if_neg fun nonzero => any (counted.mp nonzero), if_neg any, whole any]
        cases faults.commit <;> rfl

theorem lmdb_empties_iff : Empties faults keys lib .lmdb ↔ Noticed faults keys .lmdb := by
  simp only [Empties, flushdb, Noticed]
  cases opened : faults.cursor with
  | some status =>
      refine iff_of_true ⟨fun nothing => ?_, fun success => ?_⟩ (Or.inl rfl)
      · exact absurd (opened.symm.trans nothing.1) (Option.some_ne_none status)
      · simp [Lmdb.flushdb, opened] at success
  | none =>
      have done (nothing : faults.Nothing keys) : Lmdb.flushdb lib faults keys = ([], none) := by
        have empty := dropWhile_of_nothing nothing
        rw [lmdb_flushdb faults keys lib opened, refusal_eq_none_iff.mpr (Or.inl empty), nothing.2.1, empty]
      rw [and_iff_right done, lmdb_flushdb faults keys lib opened]
      cases refusal : faults.refusal keys with
      | some status =>
          have noticed : ¬ faults.Unnoticed keys := fun unnoticed => by
            rw [refusal_eq_none_iff.mpr (Or.inr unnoticed)] at refusal
            cases refusal
          simp [noticed]
      | none =>
          have ends := refusal_eq_none_iff.mp refusal
          have left : keys.dropWhile faults.takes = [] ↔ ¬ faults.Unnoticed keys :=
            ⟨not_unnoticed_of_done, fun noticed => ends.resolve_right noticed⟩
          cases commit : faults.commit with
          | none => simp [left]
          | some status =>
              by_cases any : keys.head?.any faults.takes = true
              · simp [any]
              · have same : keys = [] ↔ keys.dropWhile faults.takes = [] := by
                  cases keys with
                  | nil => simp
                  | cons first rest => simp [show faults.takes first = false by simpa using any]
                simp [any, same, left]

theorem unqlite_empties_iff : Empties faults keys lib .unqlite ↔ Noticed faults keys .unqlite := by
  simp only [Empties, flushdb, Noticed, Unqlite.flushdb]
  cases opened : faults.cursor with
  | some status =>
      refine iff_of_true ⟨fun nothing => ?_, fun success => by cases success⟩ (Or.inl rfl)
      exact absurd (opened.symm.trans nothing.1) (Option.some_ne_none status)
  | none =>
      simp only [unqlite_sweep]
      have done (nothing : faults.Nothing keys) : (keys.dropWhile faults.takes,
          (faults.refusal keys).map (printedError lib "delete function error: %s")) = ([], none) := by
        have empty := dropWhile_of_nothing nothing
        rw [refusal_eq_none_iff.mpr (Or.inl empty), empty]
        rfl
      rw [and_iff_right done, Option.map_eq_none_iff, refusal_eq_none_iff]
      constructor
      · intro empties
        exact Or.inr fun unnoticed => not_unnoticed_of_done (empties (Or.inr unnoticed)) unnoticed
      · rintro (never | noticed) ends
        · cases never
        · exact ends.resolve_right noticed

theorem upscaledb_empties_iff (distinct : keys.Nodup) :
    Empties faults keys lib .upscaledb ↔ Noticed faults keys .upscaledb := by
  simp only [Empties, flushdb, Noticed, Upscaledb.flushdb]
  cases opened : faults.cursor with
  | some status =>
      refine iff_of_true ⟨fun nothing => ?_, fun success => by cases success⟩ (Or.inl rfl)
      exact absurd (opened.symm.trans nothing.1) (Option.some_ne_none status)
  | none =>
      cases keys with
      | nil => simp
      | cons first rest =>
          by_cases unreadable : ∃ key ∈ first :: rest, (faults.unreadable key).isSome = true
          · refine iff_of_true ⟨fun nothing => ?_, fun success => ?_⟩ (Or.inr (Or.inl unreadable))
            · obtain ⟨key, member, stops⟩ := unreadable
              rw [((takes_iff faults key).mp (nothing.2.2 key member)).1] at stops
              cases stops
            · exfalso
              obtain ⟨key, member, stops⟩ := unreadable
              cases readable : faults.unreadable first with
              | some status => simp [readable] at success
              | none =>
                  simp only [readable] at success
                  have ahead : key ∈ rest := (List.mem_cons.mp member).resolve_left fun same => by
                    rw [same, readable] at stops
                    cases stops
                  have meets := upscaledb_meets faults (first :: rest) lib (some 0) first key stops ahead
                  rw [success] at meets
                  cases meets
          · have readable : ∀ key ∈ first :: rest, faults.unreadable key = none := fun key member => by
              cases free : faults.unreadable key with
              | none => rfl
              | some status => exact absurd ⟨key, member, by rw [free]; rfl⟩ unreadable
            have succeeds := upscaledb_succeeds faults (first :: rest) lib (some 0) first readable
            simp only [readable first List.mem_cons_self, succeeds, true_implies, unreadable, false_or]
            have start (accepted : ∀ key ∈ first :: rest, faults.refused key = none) :
                (Upscaledb.sweep lib faults (first :: rest) (some 0) first).1 = [] :=
              upscaledb_start faults lib first rest distinct fun key member =>
                (takes_iff faults key).mpr ⟨readable key member, accepted key member⟩
            constructor
            · intro ⟨_, empty⟩
              refine Or.inr fun key member => ?_
              cases refusal : faults.refused key with
              | none => rfl
              | some status =>
                  have kept := upscaledb_keeps faults (first :: rest) lib (some 0) first key (by rw [refusal]; rfl) member
                  rw [empty] at kept
                  cases kept
            · rintro (never | accepted)
              · cases never
              · exact ⟨fun _ => Prod.ext (start accepted) succeeds, start accepted⟩

/-- `Flushdb` empties the store, and has success only then, exactly when no failure goes unnoticed. -/
theorem flushdb_empties_iff (library : Library) (distinct : keys.Nodup) :
    Empties faults keys lib library ↔ Noticed faults keys library := by
  cases library with
  | leveldb => exact iff_of_true (leveldb_empties faults keys lib) trivial
  | rocksdb => exact iff_of_true (leveldb_empties faults keys lib) trivial
  | lmdb => exact lmdb_empties_iff faults keys lib
  | unqlite => exact unqlite_empties_iff faults keys lib
  | upscaledb => exact upscaledb_empties_iff faults keys lib distinct

end Faults

theorem upscaledb_emptied : Empties {} [ascii "a", ascii "b", ascii "c"] .std .upscaledb :=
  (flushdb_empties_iff {} [ascii "a", ascii "b", ascii "c"] .std .upscaledb (by decide)).mpr
    (Or.inr (Or.inr fun _ _ => rfl))

-- A store that was opened for reading only.
def readOnly : Faults := { refused := fun _ => some (ascii "Tried to modify a read-only Database") }

/-- upscaledb reports success and has deleted nothing. -/
theorem read_only_not_empty :
    flushdb .std readOnly .upscaledb [ascii "a", ascii "b"] = ([ascii "a", ascii "b"], none) ∧
      ¬ Empties readOnly [ascii "a", ascii "b"] .std .upscaledb := by
  have flushed : flushdb .std readOnly .upscaledb [ascii "a", ascii "b"] = ([ascii "a", ascii "b"], none) := by
    show Upscaledb.sweep .std readOnly [ascii "a", ascii "b"] (some 0) (ascii "a") = _
    rw [upscaledb_move readOnly _ .std (some 0) (ascii "a") (ascii "b") rfl]
    exact upscaledb_end readOnly _ .std (some 1) (ascii "b") rfl
  refine ⟨flushed, fun empties => ?_⟩
  have empty := empties.2 (by rw [flushed])
  rw [flushed] at empty
  cases empty

end FastoNoSQL.Flush
