import FastoNoSQL.Keyed
import FastoNoSQL.Runs
import FastoNoSQL.Settings.Manager

set_option autoImplicit false

/-!
# The lists of the settings manager as sets

Runs of the operations of the settings manager and of merging reloads, against
lists without duplicates. A pointer is told by its address, a recent connection
by its text.
-/

namespace FastoNoSQL.SettingsManager

open Bytes Keyed

def greatestAddress {α : Type} (list : List (Shared α)) : Nat := (list.map (·.address)).foldr max 0

-- Where the objects of a reload are put: above all that are in the lists.
def freshAddress (manager : SettingsManager) : Nat :=
  max (greatestAddress manager.connections)
    (max (greatestAddress manager.sentinels) (greatestAddress manager.clusters)) + 1

inductive Event where
  | operation (operation : Operation)
  | merge (files : Text → Saved) (path : Text)

structure DuplicateFree (manager : SettingsManager) : Prop where
  connections : Distinct Shared.address manager.connections
  sentinels : Distinct Shared.address manager.sentinels
  clusters : Distinct Shared.address manager.clusters
  recent : Distinct id manager.recentConnections

section Behaviour

variable {α : Type}

def Adds (pointer : Option (Shared α)) (list next : List (Shared α)) : Prop :=
  match pointer with
  | none => next = list
  | some pointer => Appends Shared.address pointer list next

def TakesOut (pointer : Option (Shared α)) (list next : List (Shared α)) : Prop :=
  match pointer with
  | none => next = list
  | some pointer => Removes Shared.address pointer list next

-- A null pointer is never removed.
def Present (list : List (Shared α)) (pointer : Option (Shared α)) : Prop :=
  ∀ removed ∈ pointer, Has Shared.address list removed

/-- What an operation makes of a list, and the others stay as they are. -/
def AsSets (manager next : SettingsManager) : Operation → Prop
  | .addConnection pointer =>
    Adds pointer manager.connections next.connections ∧ next = { manager with connections := next.connections }
  | .removeConnection pointer =>
    TakesOut pointer manager.connections next.connections ∧ next = { manager with connections := next.connections }
  | .addSentinel pointer =>
    Adds pointer manager.sentinels next.sentinels ∧ next = { manager with sentinels := next.sentinels }
  | .removeSentinel pointer =>
    TakesOut pointer manager.sentinels next.sentinels ∧ next = { manager with sentinels := next.sentinels }
  | .addCluster pointer =>
    Adds pointer manager.clusters next.clusters ∧ next = { manager with clusters := next.clusters }
  | .removeCluster pointer =>
    TakesOut pointer manager.clusters next.clusters ∧ next = { manager with clusters := next.clusters }
  | .addRConnection connection =>
    (if connection = [] then next.recentConnections = manager.recentConnections
      else Prepends id connection manager.recentConnections next.recentConnections) ∧
      next.connections = manager.connections ∧ next.sentinels = manager.sentinels ∧ next.clusters = manager.clusters
  | .removeRConnection connection =>
    Removes id connection manager.recentConnections next.recentConnections ∧
      next.connections = manager.connections ∧ next.sentinels = manager.sentinels ∧ next.clusters = manager.clusters
  | .clearRConnections => next = manager.clearRConnections

-- A merge adds to what is there.
structure Keeps (manager next : SettingsManager) : Prop where
  connections : manager.connections <+: next.connections
  sentinels : manager.sentinels <+: next.sentinels
  clusters : manager.clusters <+: next.clusters
  recent : manager.recentConnections <+: next.recentConnections

end Behaviour

section Runs

variable (lib : Common) (decode64 : Text → Text)

-- `erase(end())` is undefined, and so is all that follows.
def step (state : Option SettingsManager) (event : Event) : Option SettingsManager :=
  state.bind fun manager =>
    match event with
    | .operation operation => manager.apply operation
    | .merge files path => some (reloadFromPath lib decode64 files manager.freshAddress path true manager)

def recentTexts (files : Text → Saved) (path : Text) : List Text :=
  ((files (lib.preparePath path)).rconnections.map decode64).filter (· ≠ [])

/-- The event is handled as for sets, and leaves no element twice in a list. -/
def HandledAsSets (state : Option SettingsManager) (event : Event) : Prop :=
  ∃ manager next, state = some manager ∧ step lib decode64 state event = some next ∧ next.DuplicateFree ∧
    match event with
    | .operation operation => AsSets manager next operation
    | .merge _ _ => Keeps manager next

-- What is removed is there, and the recent connections of a file are new.
def Allowed (state : Option SettingsManager) (event : Event) : Prop :=
  ∀ manager ∈ state,
    match event with
    | .operation (.removeConnection pointer) => Present manager.connections pointer
    | .operation (.removeSentinel pointer) => Present manager.sentinels pointer
    | .operation (.removeCluster pointer) => Present manager.clusters pointer
    | .operation _ => True
    | .merge files path =>
      path = [] ∨ (recentTexts lib decode64 files path).Nodup ∧
        ∀ text ∈ recentTexts lib decode64 files path, text ∉ manager.recentConnections

end Runs

/-! ## One list -/

section List

variable {α : Type} (list : List (Shared α)) (pointer : Option (Shared α))

theorem pushShared_adds : Adds pointer list (pushShared list pointer) := by
  cases pointer with
  | none => rfl
  | some pointer =>
      have found : list.any (·.address = pointer.address) = true ↔ Has Shared.address list pointer := by
        simp [Has, List.any_eq_true]
      constructor
      · intro present
        rw [pushShared, if_pos (found.mpr present)]
      · intro absent
        rw [pushShared, if_neg (fun again => absent (found.mp again))]

theorem Adds.distinct {next : List (Shared α)} (adds : Adds pointer list next)
    (distinct : Distinct Shared.address list) : Distinct Shared.address next := by
  cases pointer with
  | none => exact adds ▸ distinct
  | some pointer => exact Appends.distinct adds distinct

theorem TakesOut.distinct {next : List (Shared α)} (takesOut : TakesOut pointer list next)
    (distinct : Distinct Shared.address list) : Distinct Shared.address next := by
  cases pointer with
  | none => exact takesOut ▸ distinct
  | some pointer => exact Removes.distinct takesOut distinct

-- Without duplicates, `erase` is defined exactly for an element of the list.
theorem eraseShared_eq (distinct : Distinct Shared.address list) (pointer : Shared α) :
    eraseShared list (some pointer) =
      if Has Shared.address list pointer then some (list.filter (·.address ≠ pointer.address)) else none := by
  rw [eraseShared, if_congr (countP_eq_one_iff distinct pointer) rfl rfl]

theorem eraseShared_takesOut (distinct : Distinct Shared.address list) (present : Present list pointer) :
    ∃ next, eraseShared list pointer = some next ∧ TakesOut pointer list next := by
  cases pointer with
  | none => exact ⟨list, rfl, rfl⟩
  | some pointer =>
      rw [eraseShared_eq list distinct, if_pos (present pointer rfl)]
      exact ⟨_, rfl, removes_filter distinct pointer⟩

theorem present_of_eraseShared (distinct : Distinct Shared.address list) {next : List (Shared α)}
    (erased : eraseShared list pointer = some next) : Present list pointer := by
  rintro removed rfl
  rw [eraseShared_eq list distinct] at erased
  by_contra absent
  rw [if_neg absent] at erased
  cases erased

theorem le_greatestAddress (pointer : Shared α) (member : pointer ∈ list) :
    pointer.address ≤ greatestAddress list := by
  induction list with
  | nil => cases member
  | cons head list ih =>
      rw [greatestAddress, List.map_cons, List.foldr_cons]
      rcases List.mem_cons.mp member with rfl | inRest
      · exact Nat.le_max_left _ _
      · exact (ih inRest).trans (Nat.le_max_right _ _)

theorem allocate_addresses (base : Nat) (values : List α) :
    (allocate base values).map (·.address) = List.range' base values.length := by
  induction values generalizing base with
  | nil => rfl
  | cons value values ih =>
      rw [allocate, List.map_cons, ih, List.length_cons, List.range'_succ]

theorem distinct_append_allocate (base : Nat) (values : List α) (distinct : Distinct Shared.address list)
    (above : greatestAddress list < base) : Distinct Shared.address (list ++ allocate base values) := by
  rw [distinct_append_iff]
  refine ⟨distinct, ?_, fun pointer member again => ?_⟩
  · rw [Distinct, allocate_addresses]
    exact List.nodup_range'
  · obtain ⟨other, listed, same⟩ := List.mem_map.mp again
    have low := le_greatestAddress list other listed
    have high : pointer.address ∈ List.range' base values.length := by
      rw [← allocate_addresses]
      exact List.mem_map_of_mem member
    rw [List.mem_range'_1] at high
    omega

end List

/-! ## One event -/

section Events

variable {manager next : SettingsManager}

theorem AsSets.duplicateFree {operation : Operation} (asSets : AsSets manager next operation)
    (free : manager.DuplicateFree) : next.DuplicateFree := by
  obtain ⟨connections, sentinels, clusters, recent⟩ := free
  cases operation with
  | addConnection pointer =>
      obtain ⟨adds, same⟩ := asSets
      rw [same]
      exact ⟨adds.distinct _ _ connections, sentinels, clusters, recent⟩
  | removeConnection pointer =>
      obtain ⟨takesOut, same⟩ := asSets
      rw [same]
      exact ⟨takesOut.distinct _ _ connections, sentinels, clusters, recent⟩
  | addSentinel pointer =>
      obtain ⟨adds, same⟩ := asSets
      rw [same]
      exact ⟨connections, adds.distinct _ _ sentinels, clusters, recent⟩
  | removeSentinel pointer =>
      obtain ⟨takesOut, same⟩ := asSets
      rw [same]
      exact ⟨connections, takesOut.distinct _ _ sentinels, clusters, recent⟩
  | addCluster pointer =>
      obtain ⟨adds, same⟩ := asSets
      rw [same]
      exact ⟨connections, sentinels, adds.distinct _ _ clusters, recent⟩
  | removeCluster pointer =>
      obtain ⟨takesOut, same⟩ := asSets
      rw [same]
      exact ⟨connections, sentinels, takesOut.distinct _ _ clusters, recent⟩
  | addRConnection connection =>
      obtain ⟨prepends, sameConnections, sameSentinels, sameClusters⟩ := asSets
      refine ⟨sameConnections ▸ connections, sameSentinels ▸ sentinels, sameClusters ▸ clusters, ?_⟩
      split at prepends
      next => exact prepends ▸ recent
      next => exact prepends.distinct recent
  | removeRConnection connection =>
      obtain ⟨removes, sameConnections, sameSentinels, sameClusters⟩ := asSets
      exact ⟨sameConnections ▸ connections, sameSentinels ▸ sentinels, sameClusters ▸ clusters,
        removes.distinct recent⟩
  | clearRConnections =>
      rw [show next = manager.clearRConnections from asSets]
      exact ⟨connections, sentinels, clusters, List.nodup_nil⟩

theorem addRConnection_asSets (manager : SettingsManager) (connection : Text) :
    AsSets manager (manager.addRConnection connection) (.addRConnection connection) := by
  rw [addRConnection]
  split
  next added =>
    refine ⟨?_, rfl, rfl, rfl⟩
    rw [if_neg added.1]
    refine ⟨fun present => ?_, fun _ => rfl⟩
    simp [Has, added.2] at present
  next kept =>
    refine ⟨?_, rfl, rfl, rfl⟩
    split
    next => rfl
    next nonempty =>
      refine ⟨fun _ => rfl, fun absent => ?_⟩
      have present : connection ∈ manager.recentConnections := by
        by_contra missing
        exact kept ⟨nonempty, missing⟩
      simp [Has, present] at absent

theorem removeRConnection_asSets (free : manager.DuplicateFree) (connection : Text) :
    AsSets manager (manager.removeRConnection connection) (.removeRConnection connection) := by
  have distinct : manager.recentConnections.Nodup := by simpa [Distinct] using free.recent
  exact ⟨removes_erase manager.recentConnections distinct connection, rfl, rfl, rfl⟩

variable (lib : Common) (decode64 : Text → Text)

theorem apply_asSets (free : manager.DuplicateFree) (operation : Operation)
    (allowed : Allowed lib decode64 (some manager) (.operation operation)) :
    ∃ next, manager.apply operation = some next ∧ AsSets manager next operation := by
  have here := allowed manager rfl
  cases operation with
  | addConnection pointer => exact ⟨_, rfl, pushShared_adds _ pointer, rfl⟩
  | addSentinel pointer => exact ⟨_, rfl, pushShared_adds _ pointer, rfl⟩
  | addCluster pointer => exact ⟨_, rfl, pushShared_adds _ pointer, rfl⟩
  | addRConnection connection => exact ⟨_, rfl, addRConnection_asSets manager connection⟩
  | removeRConnection connection => exact ⟨_, rfl, removeRConnection_asSets free connection⟩
  | clearRConnections => exact ⟨_, rfl, rfl⟩
  | removeConnection pointer =>
      obtain ⟨next, erased, takesOut⟩ := eraseShared_takesOut manager.connections pointer free.connections here
      exact ⟨_, by rw [apply, erased, Option.map_some], takesOut, rfl⟩
  | removeSentinel pointer =>
      obtain ⟨next, erased, takesOut⟩ := eraseShared_takesOut manager.sentinels pointer free.sentinels here
      exact ⟨_, by rw [apply, erased, Option.map_some], takesOut, rfl⟩
  | removeCluster pointer =>
      obtain ⟨next, erased, takesOut⟩ := eraseShared_takesOut manager.clusters pointer free.clusters here
      exact ⟨_, by rw [apply, erased, Option.map_some], takesOut, rfl⟩

theorem allowed_of_apply (free : manager.DuplicateFree) (operation : Operation)
    (applied : manager.apply operation = some next) :
    Allowed lib decode64 (some manager) (.operation operation) := by
  rintro manager' ⟨⟩
  cases operation with
  | removeConnection pointer =>
      obtain ⟨_, erased, _⟩ := Option.map_eq_some_iff.mp applied
      exact present_of_eraseShared _ pointer free.connections erased
  | removeSentinel pointer =>
      obtain ⟨_, erased, _⟩ := Option.map_eq_some_iff.mp applied
      exact present_of_eraseShared _ pointer free.sentinels erased
  | removeCluster pointer =>
      obtain ⟨_, erased, _⟩ := Option.map_eq_some_iff.mp applied
      exact present_of_eraseShared _ pointer free.clusters erased
  | _ => trivial

theorem recent_reload (manager : SettingsManager) (files : Text → Saved) (base : Nat) (path : Text)
    (nonempty : path ≠ []) :
    (reloadFromPath lib decode64 files base path true manager).recentConnections =
      manager.recentConnections ++ recentTexts lib decode64 files path := by
  rw [reloadFromPath, if_neg nonempty]
  rfl

theorem reload_keeps (files : Text → Saved) (base : Nat) (path : Text) :
    Keeps manager (reloadFromPath lib decode64 files base path true manager) := by
  rw [reloadFromPath]
  split
  next => exact ⟨List.prefix_rfl, List.prefix_rfl, List.prefix_rfl, List.prefix_rfl⟩
  next => exact ⟨List.prefix_append _ _, List.prefix_append _ _, List.prefix_append _ _, List.prefix_append _ _⟩

theorem reload_duplicateFree_iff (free : manager.DuplicateFree) (files : Text → Saved) (path : Text) :
    (reloadFromPath lib decode64 files manager.freshAddress path true manager).DuplicateFree ↔
      Allowed lib decode64 (some manager) (.merge files path) := by
  by_cases empty : path = []
  · have kept : reloadFromPath lib decode64 files manager.freshAddress path true manager = manager := by
      rw [reloadFromPath, if_pos empty]
    rw [kept]
    refine iff_of_true free ?_
    rintro manager' ⟨⟩
    exact .inl empty
  · have recent := recent_reload lib decode64 manager files manager.freshAddress path empty
    have before : manager.recentConnections.Nodup := by simpa [Distinct] using free.recent
    have texts : Distinct id (manager.recentConnections ++ recentTexts lib decode64 files path) ↔
        (recentTexts lib decode64 files path).Nodup ∧
          ∀ text ∈ recentTexts lib decode64 files path, text ∉ manager.recentConnections := by
      rw [distinct_append_iff]
      simp [Distinct, Has, before]
    constructor
    · rintro ⟨_, _, _, distinct⟩ manager' ⟨⟩
      rw [recent] at distinct
      exact .inr (texts.mp distinct)
    · intro allowed
      have new := (allowed manager rfl).resolve_left empty
      refine ⟨?_, ?_, ?_, recent ▸ texts.mpr new⟩
      all_goals rw [reloadFromPath, if_neg empty]
      · exact distinct_append_allocate _ _ _ free.connections (Nat.lt_succ_of_le (Nat.le_max_left _ _))
      · exact distinct_append_allocate _ _ _ free.sentinels
          (Nat.lt_succ_of_le ((Nat.le_max_left _ _).trans (Nat.le_max_right _ _)))
      · exact distinct_append_allocate _ _ _ free.clusters
          (Nat.lt_succ_of_le ((Nat.le_max_right _ _).trans (Nat.le_max_right _ _)))

end Events

/-! ## Runs -/

def Free (state : Option SettingsManager) : Prop := ∃ manager, state = some manager ∧ manager.DuplicateFree

section Runs

variable (lib : Common) (decode64 : Text → Text)

theorem handledAsSets_iff (state : Option SettingsManager) (event : Event) (free : Free state) :
    HandledAsSets lib decode64 state event ↔ Allowed lib decode64 state event := by
  obtain ⟨manager, rfl, free⟩ := free
  cases event with
  | operation operation =>
      constructor
      · rintro ⟨manager', next, ⟨⟩, applied, _, _⟩
        exact allowed_of_apply lib decode64 free operation applied
      · intro allowed
        obtain ⟨next, applied, asSets⟩ := apply_asSets lib decode64 free operation allowed
        exact ⟨manager, next, rfl, applied, asSets.duplicateFree free, asSets⟩
  | merge files path =>
      rw [← reload_duplicateFree_iff lib decode64 free files path]
      constructor
      · rintro ⟨manager', next, ⟨⟩, ⟨⟩, distinct, _⟩
        exact distinct
      · intro distinct
        exact ⟨manager, _, rfl, rfl, distinct, reload_keeps lib decode64 files _ path⟩

theorem free_step (state : Option SettingsManager) (event : Event) (free : Free state)
    (allowed : Allowed lib decode64 state event) : Free (step lib decode64 state event) := by
  obtain ⟨_, next, _, stepped, distinct, _⟩ := (handledAsSets_iff lib decode64 state event free).mpr allowed
  exact ⟨next, stepped, distinct⟩

/-- The lists are handled as sets throughout a run exactly when only what is there is removed, and the recent
connections of each file that is merged are distinct and not yet there. -/
theorem lists_are_sets_iff (manager : SettingsManager) (free : manager.DuplicateFree) (events : List Event) :
    Runs.Along (step lib decode64) (HandledAsSets lib decode64) (some manager) events ↔
      Runs.Along (step lib decode64) (Allowed lib decode64) (some manager) events :=
  Runs.along_iff Free (free_step lib decode64) (handledAsSets_iff lib decode64) ⟨manager, rfl, free⟩ events

end Runs

theorem savedManager_duplicateFree : savedManager.DuplicateFree where
  connections := by decide
  sentinels := by decide
  clusters := by decide
  recent := by decide

theorem lists_are_sets_savedManager :
    Runs.Along (step Common.std Base64.decode) (HandledAsSets Common.std Base64.decode) (some savedManager)
      [.operation (.removeConnection (some ⟨1, ClusterSettings.localNode .password⟩)),
        .operation (.removeRConnection (ascii "/other")), .merge (fun _ => {}) iniPath] := by
  refine (lists_are_sets_iff Common.std Base64.decode savedManager savedManager_duplicateFree _).mpr ?_
  simp only [Runs.along_cons, Runs.along_nil, and_true]
  refine ⟨?_, ?_, ?_⟩
  · rintro manager ⟨⟩ pointer ⟨⟩
    exact List.mem_cons_self
  · rintro manager ⟨⟩
    trivial
  · rintro manager _
    exact .inr ⟨List.nodup_nil, by simp [recentTexts]⟩

theorem recentTexts_save (lib : Common) (encode64 decode64 : Text → Text)
    (undoes : ∀ text, decode64 (encode64 text) = text) (files : Text → Saved) (manager : SettingsManager) :
    recentTexts lib decode64 (save lib encode64 files manager) iniPath = manager.recentConnections := by
  rw [recentTexts, save, Function.update_self]
  exact recent_restored lib encode64 decode64 undoes manager

/-- A connection that is not in the list cannot be removed, and a merge of the manager's own file repeats the recent
connection. -/
theorem savedManager_not_sets :
    step Common.std Base64.decode (some savedManager)
        (.operation (.removeConnection (some ⟨2, ClusterSettings.localNode .password⟩))) = none ∧
      (∃ next, step Common.std Base64.decode (some savedManager)
          (.merge (save Common.std Base64.encode (fun _ => {}) savedManager) iniPath) = some next ∧
        next.recentConnections = [ascii "/node", ascii "/node"]) ∧
      ¬ Runs.Along (step Common.std Base64.decode) (HandledAsSets Common.std Base64.decode) (some savedManager)
        [.merge (save Common.std Base64.encode (fun _ => {}) savedManager) iniPath] := by
  have texts := recentTexts_save Common.std Base64.encode Base64.decode Base64.decode_encode (fun _ => {}) savedManager
  refine ⟨rfl, ⟨_, rfl, ?_⟩, ?_⟩
  · rw [recent_reload _ _ _ _ _ _ (by decide), texts]
    rfl
  · rw [Runs.along_cons, handledAsSets_iff _ _ _ _ ⟨_, rfl, savedManager_duplicateFree⟩]
    rintro ⟨allowed, _⟩
    obtain ⟨_, new⟩ := (allowed savedManager rfl).resolve_left (by decide)
    rw [texts] at new
    exact new (ascii "/node") List.mem_cons_self List.mem_cons_self

end FastoNoSQL.SettingsManager
