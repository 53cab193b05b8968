import FastoNoSQL.Store.Connection

set_option autoImplicit false

/-!
# Renaming a key

A rename is a get, a delete and a set. It is all or nothing except when the set
fails after the other two: the value is then in no key.
-/

namespace FastoNoSQL.Store

open Bytes

-- The old key's value is under the new key, and nothing else has changed.
def Moved (key newKey : Text) (before after : Content) : Prop :=
  before key ≠ none ∧ after newKey = before key ∧ (key ≠ newKey → after key = none) ∧
    ∀ other, other ≠ key → other ≠ newKey → after other = before other

def Atomic (library : Library) (key : NKey) (newKey : Text) (connection : Connection) : Prop :=
  let answer := rename library key newKey connection
  match answer.result with
  | .error _ => answer.connection.content = connection.content
  | .ok _ => Moved key.key newKey connection.content answer.connection.content

-- The set is the first call that fails: key found, fetched and deleted.
def LosesValue (library : Library) (key : NKey) (connection : Connection) : Prop :=
  connection.connected = true ∧ connection.content key.key ≠ none ∧
    library.faults connection.calls = none ∧ library.faults (connection.calls + 1) = none ∧
    library.faults (connection.calls + 2) ≠ none

theorem moved_put_erase (key newKey value : Text) (content : Content) (found : content key = some value) :
    Moved key newKey content ((content.erase key).put newKey value) := by
  refine ⟨by simp [found], by simp [Content.put, found], ?_, ?_⟩
  · intro other
    simp [Content.put, Content.erase, other]
  · intro other notKey notNew
    simp [Content.put, Content.erase, notKey, notNew]

theorem erase_ne (key value : Text) (content : Content) (found : content key = some value) :
    content.erase key ≠ content := by
  intro same
  have gone := congrFun same key
  simp [Content.erase, found] at gone

section Rename

variable (library : Library) (key : NKey) (newKey : Text) (connection : Connection)

theorem atomic_of_disconnected (closed : connection.connected = false) :
    Atomic library key newKey connection := by
  simp [Atomic, rename, guarded, closed]

theorem atomic_of_get_error (live : connection.connected = true)
    (failed : library.faults connection.calls ≠ none ∨ connection.content key.key = none) :
    Atomic library key newKey connection := by
  simp only [Atomic, rename, guarded, live, if_true, renameImpl, getInner_live library connection live]
  cases fault : library.faults connection.calls with
  | some message => rfl
  | none =>
      rw [fault] at failed
      rw [failed.resolve_left (by simp)]

theorem renameImpl_found (content : Content) (calls : Nat) (value : Text) (found : content key.key = some value)
    (fetched : library.faults calls = none) :
    renameImpl library key newKey ⟨true, content, calls⟩ =
      match library.faults (calls + 1), library.faults (calls + 2) with
      | some message, _ => (.error ⟨ascii library.delError ++ message, true⟩, ⟨true, content, calls + 2⟩)
      | none, some message =>
        (.error ⟨ascii library.setError ++ message, true⟩, ⟨true, content.erase key.key, calls + 3⟩)
      | none, none => (.ok (), ⟨true, (content.erase key.key).put newKey value, calls + 3⟩) := by
  simp only [renameImpl, getInner_live library ⟨true, content, calls⟩ rfl, fetched, found,
    delInner_live library ⟨true, content, calls + 1⟩ rfl, Option.isSome_some, Bool.true_or]
  cases library.faults (calls + 1) with
  | some message => rfl
  | none =>
      simp only [setInner_live library ⟨true, content.erase key.key, calls + 1 + 1⟩ rfl]
      cases library.faults (calls + 2) with
      | some message => rfl
      | none => rfl

theorem atomic_of_found (content : Content) (calls : Nat) (value : Text) (found : content key.key = some value)
    (fetched : library.faults calls = none) :
    Atomic library key newKey ⟨true, content, calls⟩ ↔
      library.faults (calls + 1) ≠ none ∨ library.faults (calls + 2) = none := by
  simp only [Atomic, rename, guarded, if_true, renameImpl_found library key newKey content calls value found fetched]
  cases library.faults (calls + 1) with
  | some message => simp
  | none =>
      cases library.faults (calls + 2) with
      | some message => simpa using erase_ne key.key value content found
      | none => simpa using moved_put_erase key.key newKey value content found

theorem atomic_iff : Atomic library key newKey connection ↔ ¬ LosesValue library key connection := by
  obtain ⟨connected, content, calls⟩ := connection
  cases connected with
  | false => exact iff_of_true (atomic_of_disconnected library key newKey _ rfl) (by simp [LosesValue])
  | true =>
      cases found : content key.key with
      | none =>
          exact iff_of_true (atomic_of_get_error library key newKey _ rfl (Or.inr found))
            (by simp [LosesValue, found])
      | some value =>
          cases fetched : library.faults calls with
          | some message =>
              exact iff_of_true (atomic_of_get_error library key newKey _ rfl (Or.inl (by simp [fetched])))
                (by simp [LosesValue, fetched])
          | none =>
              rw [atomic_of_found library key newKey content calls value found fetched]
              simp [LosesValue, found, fetched, Decidable.imp_iff_not_or]

end Rename

/-- On every store a rename is all or nothing exactly when the set does not fail alone. -/
theorem rename_atomic_iff (notFound : Text) (faults : Nat → Option Text) (type : ConnectionType)
    (store : type ≠ .redis) (key : NKey) (newKey : Text) (connection : Connection) :
    Atomic (.ofType notFound faults type store) key newKey connection ↔
      ¬ LosesValue (.ofType notFound faults type store) key connection :=
  atomic_iff _ key newKey connection

def oneKey : Connection := ⟨true, fun key => if key = ascii "a" then some (ascii "1") else none, 0⟩

theorem rename_oneKey_atomic :
    Atomic (.ofType (ascii "NotFound: ") (fun _ => none) .leveldb (by decide)) ⟨ascii "a", -1⟩ (ascii "b") oneKey :=
  (rename_atomic_iff (ascii "NotFound: ") (fun _ => none) .leveldb (by decide) ⟨ascii "a", -1⟩ (ascii "b")
    oneKey).mpr (by simp [LosesValue, Library.ofType])

/-- A full disk at the third call of a rename: an error, and the value is gone. -/
theorem rename_loses_value :
    let library := Library.ofType (ascii "NotFound: ")
      (fun call => if call = 2 then some (ascii "IO error: No space left on device") else none) .leveldb (by decide)
    let answer := rename library ⟨ascii "a", -1⟩ (ascii "b") oneKey
    answer.result.isOk = false ∧ oneKey.content (ascii "a") = some (ascii "1") ∧
      answer.connection.content (ascii "a") = none ∧ answer.connection.content (ascii "b") = none ∧
      ¬ Atomic library ⟨ascii "a", -1⟩ (ascii "b") oneKey := by
  refine ⟨by decide, by decide, by decide, by decide, ?_⟩
  rw [atomic_iff]
  simp only [not_not]
  exact ⟨rfl, by decide, by decide, by decide, by decide⟩

end FastoNoSQL.Store
