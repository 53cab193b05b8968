import FastoNoSQL.Runs
import FastoNoSQL.Types
import Mathlib.Data.List.Induction
import Mathlib.Data.List.Nodup

set_option autoImplicit false

/-!
# The databases of a server

`IServer::databases_` and the handlers of the responses that read or change it.
The list holds shared pointers: a response may bring the very object of an
entry or a copy of it, and the handlers write to the object they are given.
-/

namespace FastoNoSQL.Server

open Bytes

structure DataBaseInfo where
  name : Text
  isDefault : Bool
  dbKeysCount : UInt64
  keys : List NDbKValue

abbrev Ref := Nat

/-- The objects that responses point to, and the entries of `databases_`. -/
structure State where
  heap : Ref → DataBaseInfo
  databases : List Ref

/-- The responses, with the error that they carry if any. -/
inductive Response where
  | loadDatabases (error : Option ErrorValue) (databases : List Ref)
  | loadContent (error : Option ErrorValue) (inf : Ref) (keys : List NDbKValue) (dbKeysCount : UInt64)
  | clearDatabase (error : Option ErrorValue) (inf : Ref)
  | setDefault (error : Option ErrorValue) (inf : Ref)

-- `er && er->isError()`
def failed (error : Option ErrorValue) : Bool := error.any (·.isError)

namespace State

variable (state : State)

def nameOf (db : Ref) : Text := (state.heap db).name

def isDefault (db : Ref) : Bool := (state.heap db).isDefault

def names : List Text := state.databases.map state.nameOf

def containsDatabase (inf : Ref) : Bool := state.databases.any fun db => state.nameOf db = state.nameOf inf

def write (db : Ref) (change : DataBaseInfo → DataBaseInfo) : State :=
  { state with heap := Function.update state.heap db (change (state.heap db)) }

def setIsDefault (isDefault : Bool) (state : State) (db : Ref) : State :=
  state.write db fun info => { info with isDefault := isDefault }

def addDatabase (db : Ref) : State :=
  if state.containsDatabase db then state else { state with databases := state.databases ++ [db] }

/-- The handlers of `IServer`, without the signals they emit. -/
def handle (state : State) : Response → State
  | .loadDatabases error databases =>
    if failed error then { state with databases := [] } else databases.foldl addDatabase state
  | .loadContent error inf keys dbKeysCount =>
    if failed error || !state.containsDatabase inf then state
    else state.write inf fun info => { info with keys := keys, dbKeysCount := dbKeysCount }
  | .clearDatabase error inf =>
    if failed error || !state.containsDatabase inf then state
    else state.write inf fun info => { info with keys := [] }
  | .setDefault error inf =>
    if failed error then state else setIsDefault true (state.databases.foldl (setIsDefault false) state) inf

/-- No name twice, and at most one entry marked. -/
structure Consistent : Prop where
  distinct : state.names.Nodup
  single : state.databases.countP state.isDefault ≤ 1

-- The entry with the name of `inf` is the one that is marked.
def IsTheDefault (inf : Ref) : Prop :=
  ∀ db ∈ state.databases, state.nameOf db = state.nameOf inf ↔ state.isDefault db = true

def Kept (state : State) (response : Response) : Prop :=
  (state.handle response).Consistent ∧
    match response with
    | .setDefault error inf =>
      failed error = false → state.containsDatabase inf = true → (state.handle response).IsTheDefault inf
    | _ => True

-- The databases of a response that are new to a list of names, the first of each name.
def newcomers (nameOf : Ref → Text) (names : List Text) : List Ref → List Ref
  | [] => []
  | db :: rest =>
    if nameOf db ∈ names then newcomers nameOf names rest
    else db :: newcomers nameOf (names ++ [nameOf db]) rest

-- New databases bring at most one mark in all, and a copy of an entry is not made the default.
def Fits (state : State) : Response → Prop
  | .loadDatabases error databases =>
    failed error = true ∨ (state.databases ++ newcomers state.nameOf state.names databases).countP state.isDefault ≤ 1
  | .setDefault error inf =>
    failed error = true ∨ inf ∈ state.databases ∨ state.nameOf inf ∉ state.names
  | _ => True

/-! ## Writing to one object -/

section Write

variable {state} (db : Ref) (change : DataBaseInfo → DataBaseInfo)

theorem containsDatabase_iff (inf : Ref) : state.containsDatabase inf = true ↔ state.nameOf inf ∈ state.names := by
  simp [containsDatabase, names]

theorem nameOf_write (named : ∀ info, (change info).name = info.name) (other : Ref) :
    (state.write db change).nameOf other = state.nameOf other := by
  by_cases same : other = db
  · subst same
    simp [nameOf, write, named]
  · simp [nameOf, write, same]

theorem names_write (named : ∀ info, (change info).name = info.name) :
    (state.write db change).names = state.names := by
  simp only [names]
  exact List.map_congr_left fun other _ => nameOf_write db change named other

theorem nameOf_setIsDefault (isDefault : Bool) (other : Ref) :
    (setIsDefault isDefault state db).nameOf other = state.nameOf other := by
  rw [setIsDefault, nameOf_write]
  intro info
  rfl

theorem isDefault_write_ne (other : Ref) (distinct : other ≠ db) :
    (state.write db change).isDefault other = state.isDefault other := by
  simp [isDefault, write, distinct]

theorem consistent_write_keys (consistent : state.Consistent) (named : ∀ info, (change info).name = info.name)
    (kept : ∀ info, (change info).isDefault = info.isDefault) : (state.write db change).Consistent := by
  have marks : (state.write db change).isDefault = state.isDefault := by
    funext other
    by_cases same : other = db
    · subst same
      simp [isDefault, write, kept]
    · exact isDefault_write_ne db change other same
  exact ⟨by rw [names_write db change named]; exact consistent.distinct, by
    rw [marks]
    exact consistent.single⟩

end Write

/-! ## Loading the list -/

section Load

variable {state}

theorem newcomers_fresh (nameOf : Ref → Text) (dbs : List Ref) (names : List Text) (distinct : names.Nodup) :
    (names ++ (newcomers nameOf names dbs).map nameOf).Nodup := by
  induction dbs generalizing names with
  | nil => simpa [newcomers] using distinct
  | cons db dbs ih =>
      rw [newcomers]
      split
      · exact ih names distinct
      next fresh =>
        have next := ih (names ++ [nameOf db]) (List.nodup_append.mpr ⟨distinct, by simp, by
          intro name member other single same
          rw [List.mem_singleton] at single
          exact fresh (single ▸ same ▸ member)⟩)
        simpa using next

theorem foldl_addDatabase (dbs : List Ref) :
    dbs.foldl addDatabase state = { state with databases := state.databases ++ newcomers state.nameOf state.names dbs } := by
  induction dbs generalizing state with
  | nil => simp [newcomers]
  | cons db dbs ih =>
      rw [List.foldl_cons, ih, newcomers]
      by_cases known : state.nameOf db ∈ state.names
      · rw [addDatabase, if_pos ((containsDatabase_iff db).mpr known), if_pos known]
      · have absent : state.containsDatabase db = false := by
          rw [Bool.eq_false_iff]
          exact fun contains => known ((containsDatabase_iff db).mp contains)
        have added : state.addDatabase db = { state with databases := state.databases ++ [db] } := by
          simp [addDatabase, absent]
        have names : (state.addDatabase db).names = state.names ++ [state.nameOf db] := by
          rw [added]
          simp [State.names, nameOf]
        have same : (state.addDatabase db).nameOf = state.nameOf := by
          rw [added]
          rfl
        rw [names, same, if_neg known, added]
        simp

theorem loadDatabases_iff (consistent : state.Consistent) (dbs : List Ref) :
    (dbs.foldl addDatabase state).Consistent ↔
      (state.databases ++ newcomers state.nameOf state.names dbs).countP state.isDefault ≤ 1 := by
  have distinct := newcomers_fresh state.nameOf dbs state.names consistent.distinct
  rw [foldl_addDatabase]
  constructor
  · exact fun after => after.single
  · intro single
    refine ⟨?_, single⟩
    show (List.map state.nameOf (state.databases ++ _)).Nodup
    rw [List.map_append]
    exact distinct

end Load

/-! ## Moving the mark -/

section Mark

variable {state}

theorem foldl_clear (dbs : List Ref) :
    (dbs.foldl (setIsDefault false) state).databases = state.databases ∧
      (∀ db, (dbs.foldl (setIsDefault false) state).nameOf db = state.nameOf db) ∧
      ∀ db ∈ dbs, (dbs.foldl (setIsDefault false) state).isDefault db = false := by
  induction dbs using List.reverseRecOn with
  | nil => simp
  | append_singleton dbs last ih =>
      obtain ⟨databases, named, cleared⟩ := ih
      rw [List.foldl_append, List.foldl_cons, List.foldl_nil]
      refine ⟨databases, fun db => ?_, fun db member => ?_⟩
      · rw [nameOf_setIsDefault, named]
      · by_cases same : db = last
        · subst same
          simp [setIsDefault, isDefault, write]
        · have earlier : db ∈ dbs := by simpa [same] using member
          exact (isDefault_write_ne last _ db same).trans (cleared db earlier)

theorem handle_setDefault (error : Option ErrorValue) (passed : failed error = false) (inf : Ref) :
    (state.handle (.setDefault error inf)).databases = state.databases ∧
      (∀ db, (state.handle (.setDefault error inf)).nameOf db = state.nameOf db) ∧
      ∀ db ∈ state.databases, (state.handle (.setDefault error inf)).isDefault db = true ↔ db = inf := by
  obtain ⟨databases, named, cleared⟩ := @foldl_clear state state.databases
  simp only [handle, passed, Bool.false_eq_true, if_false]
  refine ⟨databases, fun db => ?_, fun db member => ?_⟩
  · rw [nameOf_setIsDefault, named]
  by_cases same : db = inf
  · subst same
    simp [setIsDefault, isDefault, write]
  · have unmarked := cleared db member
    rw [setIsDefault, isDefault_write_ne inf _ db same, unmarked]
    simp [same]

theorem consistent_setDefault (consistent : state.Consistent) (error : Option ErrorValue)
    (passed : failed error = false) (inf : Ref) : (state.handle (.setDefault error inf)).Consistent := by
  obtain ⟨databases, named, marked⟩ := @handle_setDefault state error passed inf
  have names : (state.handle (.setDefault error inf)).names = state.names := by
    rw [State.names, databases]
    exact List.map_congr_left fun db _ => named db
  refine ⟨names ▸ consistent.distinct, ?_⟩
  have entries : state.databases.Nodup := consistent.distinct.of_map _
  have count : state.databases.countP (state.handle (.setDefault error inf)).isDefault =
      state.databases.count inf := by
    rw [List.count]
    apply List.countP_congr
    intro db member
    rw [marked db member, beq_iff_eq]
  rw [databases, count]
  exact List.nodup_iff_count_le_one.mp entries inf

theorem isTheDefault_iff (consistent : state.Consistent) (error : Option ErrorValue) (passed : failed error = false)
    (inf : Ref) (contains : state.containsDatabase inf = true) :
    (state.handle (.setDefault error inf)).IsTheDefault inf ↔ inf ∈ state.databases := by
  obtain ⟨databases, named, marked⟩ := @handle_setDefault state error passed inf
  simp only [IsTheDefault, databases, named]
  constructor
  · intro the
    obtain ⟨db, member, same⟩ := List.mem_map.mp ((containsDatabase_iff inf).mp contains)
    obtain rfl := (marked db member).mp ((the db member).mp same)
    exact member
  · intro entry db member
    rw [marked db member]
    constructor
    · intro same
      exact List.inj_on_of_nodup_map consistent.distinct member entry same
    · intro same
      rw [same]

end Mark

/-! ## Runs -/

theorem kept_iff_fits (state : State) (response : Response) (consistent : state.Consistent) :
    state.Kept response ↔ state.Fits response := by
  cases response with
  | loadDatabases error databases =>
      cases outcome : failed error with
      | true =>
          have empty : State.Consistent { state with databases := [] } := ⟨by simp [names], by simp⟩
          simp [Kept, Fits, handle, outcome, empty]
      | false => simp [Kept, Fits, handle, outcome, loadDatabases_iff consistent]
  | loadContent error inf keys dbKeysCount =>
      simp only [Kept, Fits, handle, and_true, iff_true]
      split
      · exact consistent
      · exact consistent_write_keys inf _ consistent (fun _ => rfl) fun _ => rfl
  | clearDatabase error inf =>
      simp only [Kept, Fits, handle, and_true, iff_true]
      split
      · exact consistent
      · exact consistent_write_keys inf _ consistent (fun _ => rfl) fun _ => rfl
  | setDefault error inf =>
      cases outcome : failed error with
      | true => simp [Kept, Fits, handle, outcome, consistent]
      | false =>
          simp only [Kept, Fits, outcome, Bool.false_eq_true, false_or, forall_const,
            consistent_setDefault consistent error outcome inf, true_and]
          constructor
          · intro the
            by_cases contains : state.containsDatabase inf = true
            · exact Or.inl ((isTheDefault_iff consistent error outcome inf contains).mp (the contains))
            · exact Or.inr fun known => contains ((containsDatabase_iff inf).mpr known)
          · intro fits contains
            rw [isTheDefault_iff consistent error outcome inf contains]
            rcases fits with entry | unknown
            · exact entry
            · exact absurd ((containsDatabase_iff inf).mp contains) unknown

/-- The list stays consistent with every response of a run exactly when every response fits the
state that it meets. -/
theorem kept_along_iff (heap : Ref → DataBaseInfo) (responses : List Response) :
    Runs.Along handle Kept ⟨heap, []⟩ responses ↔ Runs.Along handle Fits ⟨heap, []⟩ responses := by
  have start : State.Consistent ⟨heap, []⟩ := ⟨by simp [names], by simp⟩
  apply Runs.along_iff Consistent _ kept_iff_fits start
  intro state response consistent fits
  exact ((kept_iff_fits state response consistent).mpr fits).1

end State

-- Database 0 and a copy of it, as a reconnected driver sends it.
def copied : Ref → DataBaseInfo
  | 0 => ⟨ascii "0", true, 0, []⟩
  | 1 => ⟨ascii "1", false, 0, []⟩
  | _ => ⟨ascii "1", true, 0, []⟩

/-- Setting the default with a copy of an entry leaves no entry marked. -/
theorem copied_not_kept :
    let responses := [.loadDatabases none [0, 1], .setDefault none 2]
    let state := Runs.run State.handle ⟨copied, []⟩ responses
    state.databases = [0, 1] ∧ state.nameOf 2 = state.nameOf 1 ∧ state.isDefault 1 = false ∧
      ¬ Runs.Along State.handle State.Kept ⟨copied, []⟩ responses := by
  refine ⟨by decide, by decide, by decide, ?_⟩
  intro along
  have kept := along [.loadDatabases none [0, 1]] (.setDefault none 2) [] rfl
  have the := kept.2 rfl (by decide) 1 (by decide)
  exact absurd (the.mp (by decide)) (by decide)

end FastoNoSQL.Server
