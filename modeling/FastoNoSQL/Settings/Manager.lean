import Mathlib.Logic.Function.Basic
import FastoNoSQL.Settings.Sentinel

set_option autoImplicit false

/-!
# The settings manager

`core/settings_manager.cpp`: the lists of saved connections, clusters,
sentinels and recent connections, the operations on them, `Save` and
`ReloadFromPath`. Of the settings file only the keys of these lists are kept.
-/

namespace FastoNoSQL

open Bytes

/-- What a `shared_ptr` points to, with the address by which two pointers are compared. -/
structure Shared (α : Type) where
  address : Nat
  settings : α

structure SettingsManager where
  connections : List (Shared ConnectionSettings) := []
  sentinels : List (Shared SentinelSettings) := []
  clusters : List (Shared ClusterSettings) := []
  recentConnections : List Text := []
  recentNonempty : ∀ text ∈ recentConnections, text ≠ [] := by simp

/-- The lists under `settings/clusters`, `sentinels`, `connections` and `rconnections`. -/
structure Saved where
  clusters : List Text := []
  sentinels : List Text := []
  connections : List Text := []
  rconnections : List Text := []

namespace SettingsManager

variable {α : Type}

def pushShared (list : List (Shared α)) : Option (Shared α) → List (Shared α)
  | none => list
  | some pointer => if list.any (·.address = pointer.address) then list else list ++ [pointer]

-- `erase(std::remove(..))` takes one element from the new end: of a list without the pointer that is
-- `erase(end())`, which is undefined, and no list holds a pointer twice.
def eraseShared (list : List (Shared α)) : Option (Shared α) → Option (List (Shared α))
  | none => some list
  | some pointer =>
    if list.countP (·.address = pointer.address) = 1 then
      some (list.filter (·.address ≠ pointer.address))
    else none

def addRConnection (manager : SettingsManager) (connection : Text) : SettingsManager :=
  if nonempty : connection ≠ [] ∧ connection ∉ manager.recentConnections then
    { manager with
      recentConnections := connection :: manager.recentConnections
      recentNonempty := by
        intro text member
        rcases List.mem_cons.mp member with rfl | old
        · exact nonempty.1
        · exact manager.recentNonempty text old }
  else manager

def removeRConnection (manager : SettingsManager) (connection : Text) : SettingsManager :=
  { manager with
    recentConnections := manager.recentConnections.erase connection
    recentNonempty := fun text member => manager.recentNonempty text (List.mem_of_mem_erase member) }

def clearRConnections (manager : SettingsManager) : SettingsManager :=
  { manager with recentConnections := [], recentNonempty := by simp }

inductive Operation where
  | addConnection (connection : Option (Shared ConnectionSettings))
  | removeConnection (connection : Option (Shared ConnectionSettings))
  | addSentinel (sentinel : Option (Shared SentinelSettings))
  | removeSentinel (sentinel : Option (Shared SentinelSettings))
  | addCluster (cluster : Option (Shared ClusterSettings))
  | removeCluster (cluster : Option (Shared ClusterSettings))
  | addRConnection (connection : Text)
  | removeRConnection (connection : Text)
  | clearRConnections

def apply (manager : SettingsManager) : Operation → Option SettingsManager
  | .addConnection pointer => some { manager with connections := pushShared manager.connections pointer }
  | .removeConnection pointer =>
    (eraseShared manager.connections pointer).map fun connections => { manager with connections }
  | .addSentinel pointer => some { manager with sentinels := pushShared manager.sentinels pointer }
  | .removeSentinel pointer =>
    (eraseShared manager.sentinels pointer).map fun sentinels => { manager with sentinels }
  | .addCluster pointer => some { manager with clusters := pushShared manager.clusters pointer }
  | .removeCluster pointer =>
    (eraseShared manager.clusters pointer).map fun clusters => { manager with clusters }
  | .addRConnection connection => some (manager.addRConnection connection)
  | .removeRConnection connection => some (manager.removeRConnection connection)
  | .clearRConnections => some manager.clearRConnections

def run (manager : SettingsManager) : List Operation → Option SettingsManager
  | [] => some manager
  | operation :: rest => (manager.apply operation).bind fun manager => run manager rest

variable (lib : Common) (encode64 decode64 : Text → Text)

-- The texts that `Save` hands to `QSettings`.
def saved (manager : SettingsManager) : Saved where
  clusters := manager.clusters.map fun pointer => encode64 (ClusterSettings.toString lib pointer.settings)
  sentinels := manager.sentinels.map fun pointer =>
    encode64 (SentinelSettings.toString lib encode64 pointer.settings)
  connections := manager.connections.map fun pointer => encode64 (pointer.settings.toString lib)
  rconnections := (manager.recentConnections.filter (· ≠ [])).map encode64

def iniPath : Text := ascii "~/.config/FastoNoSQL/conf.ini"

-- The settings files by their prepared paths.
def save (files : Text → Saved) (manager : SettingsManager) : Text → Saved :=
  Function.update files (lib.preparePath iniPath) (manager.saved lib encode64)

def allocate (base : Nat) : List α → List (Shared α)
  | [] => []
  | value :: rest => ⟨base, value⟩ :: allocate (base + 1) rest

def reloadFromPath (files : Text → Saved) (base : Nat) (path : Text) (merge : Bool)
    (manager : SettingsManager) : SettingsManager :=
  if path = [] then manager
  else
    let settings := files (lib.preparePath path)
    let recent := (settings.rconnections.map decode64).filter (· ≠ [])
    { clusters := (if merge then manager.clusters else []) ++ allocate base
        (settings.clusters.filterMap fun encoded => ClusterSettings.createFromString lib (decode64 encoded))
      -- The sentinels are not cleared with the other lists.
      sentinels := manager.sentinels ++ allocate base
        (settings.sentinels.filterMap fun encoded =>
          SentinelSettings.createFromString lib decode64 (decode64 encoded))
      connections := (if merge then manager.connections else []) ++ allocate base
        (settings.connections.filterMap fun encoded =>
          ConnectionSettings.createFromString lib (decode64 encoded))
      recentConnections := (if merge then manager.recentConnections else []) ++ recent
      recentNonempty := by
        intro text member
        rcases List.mem_append.mp member with old | new
        · split at old
          · exact manager.recentNonempty text old
          · cases old
        · simpa using (List.mem_filter.mp new).2 }

/-- Every entry survives its own round trip. -/
structure Survives (manager : SettingsManager) : Prop where
  connections : ∀ pointer ∈ manager.connections, pointer.settings.RoundTrips lib
  clusters : ∀ pointer ∈ manager.clusters, ClusterSettings.RoundTrips lib pointer.settings
  sentinels : ∀ pointer ∈ manager.sentinels,
    SentinelSettings.RoundTrips lib encode64 decode64 pointer.settings

structure SameLists (manager restored : SettingsManager) : Prop where
  connections : List.Forall₂ (fun a b => a.settings.Same lib b.settings) manager.connections restored.connections
  clusters : List.Forall₂ (fun a b => a.settings.Same (ConnectionSettings.Same lib) b.settings)
    manager.clusters restored.clusters
  sentinels : List.Forall₂ (fun a b => a.settings.Same (SentinelSettings.SameEntry lib) b.settings)
    manager.sentinels restored.sentinels
  recent : restored.recentConnections = manager.recentConnections

-- The settings in the four lists, without the addresses of the objects.
def values (manager : SettingsManager) :
    List ConnectionSettings × List ClusterSettings × List SentinelSettings × List Text :=
  (manager.connections.map (·.settings), manager.clusters.map (·.settings), manager.sentinels.map (·.settings),
    manager.recentConnections)

@[simp] theorem map_settings_allocate (base : Nat) (values : List α) :
    (allocate base values).map (·.settings) = values := by
  induction values generalizing base with
  | nil => rfl
  | cons value rest ih => simp [allocate, ih]

@[simp] theorem length_allocate (base : Nat) (values : List α) : (allocate base values).length = values.length := by
  rw [← List.length_map (·.settings), map_settings_allocate]

-- Saved and read back one by one, entries that survive keep their number and their order.
theorem forall₂_restored (write : α → Text) (read : Text → Option α) (same : α → α → Prop)
    (undoes : ∀ text, decode64 (encode64 text) = text) (pointers : List (Shared α))
    (survive : ∀ pointer ∈ pointers, ∃ restored, read (write pointer.settings) = some restored ∧
      same pointer.settings restored) :
    List.Forall₂ (fun a b => same a.settings b) pointers
      ((pointers.map fun pointer => encode64 (write pointer.settings)).filterMap fun encoded =>
        read (decode64 encoded)) := by
  induction pointers with
  | nil => exact List.Forall₂.nil
  | cons pointer pointers ih =>
      obtain ⟨restored, found, agree⟩ := survive pointer (by simp)
      have tail := ih fun other member => survive other (List.mem_cons_of_mem pointer member)
      simp only [List.map_cons, List.filterMap_cons, undoes, found]
      exact List.Forall₂.cons agree tail

theorem forall₂_allocate (same : α → α → Prop) (base : Nat) (pointers : List (Shared α)) (values : List α)
    (agree : List.Forall₂ (fun a b => same a.settings b) pointers values) :
    List.Forall₂ (fun a b => same a.settings b.settings) pointers (allocate base values) := by
  rw [← map_settings_allocate base values, List.forall₂_map_right_iff] at agree
  exact agree

theorem recent_restored (undoes : ∀ text, decode64 (encode64 text) = text) (manager : SettingsManager) :
    ((manager.saved lib encode64).rconnections.map decode64).filter (· ≠ []) = manager.recentConnections := by
  have all : manager.recentConnections.filter (· ≠ []) = manager.recentConnections := by
    rw [List.filter_eq_self]
    intro text member
    simpa using manager.recentNonempty text member
  have identity : decode64 ∘ encode64 = id := funext undoes
  rw [saved, all, List.map_map, identity, List.map_id, all]

-- What the manager holds after its file is read over it: the saved lists, and the sentinels that were there before.
theorem reload_saved (files : Text → Saved) (manager later : SettingsManager) (base : Nat) (path : Text)
    (nonempty : path ≠ []) (file : lib.preparePath path = lib.preparePath iniPath) :
    let reloaded := reloadFromPath lib decode64 (save lib encode64 files manager) base path false later
    let texts := manager.saved lib encode64
    reloaded.connections = allocate base
        (texts.connections.filterMap fun encoded => ConnectionSettings.createFromString lib (decode64 encoded)) ∧
      reloaded.clusters = allocate base
        (texts.clusters.filterMap fun encoded => ClusterSettings.createFromString lib (decode64 encoded)) ∧
      reloaded.sentinels = later.sentinels ++ allocate base
        (texts.sentinels.filterMap fun encoded =>
          SentinelSettings.createFromString lib decode64 (decode64 encoded)) ∧
      reloaded.recentConnections = (texts.rconnections.map decode64).filter (· ≠ []) := by
  simp [reloadFromPath, nonempty, file, save]

section

variable (undoes : ∀ text, decode64 (encode64 text) = text) (manager : SettingsManager)
  (survives : manager.Survives lib encode64 decode64)
include undoes survives

theorem length_restored_sentinels :
    ((manager.saved lib encode64).sentinels.filterMap fun encoded =>
      SentinelSettings.createFromString lib decode64 (decode64 encoded)).length = manager.sentinels.length :=
  (forall₂_restored encode64 decode64 (SentinelSettings.toString lib encode64)
    (SentinelSettings.createFromString lib decode64) _ undoes manager.sentinels survives.sentinels).length_eq.symm

theorem sameLists_reload_iff (files : Text → Saved) (later : SettingsManager) (base : Nat) (path : Text)
    (nonempty : path ≠ []) (file : lib.preparePath path = lib.preparePath iniPath) :
    manager.SameLists lib (reloadFromPath lib decode64 (save lib encode64 files manager) base path false later) ↔
      later.sentinels = [] := by
  obtain ⟨connections, clusters, sentinels, recent⟩ :=
    reload_saved lib encode64 decode64 files manager later base path nonempty file
  have restored := forall₂_restored encode64 decode64 (SentinelSettings.toString lib encode64)
    (SentinelSettings.createFromString lib decode64) _ undoes manager.sentinels survives.sentinels
  constructor
  · intro same
    have count := same.sentinels.length_eq
    rw [sentinels, List.length_append, length_allocate,
      length_restored_sentinels lib encode64 decode64 undoes manager survives] at count
    exact List.length_eq_zero_iff.mp (by omega)
  · intro empty
    constructor
    · rw [connections]
      exact forall₂_allocate _ base _ _ (forall₂_restored encode64 decode64 (ConnectionSettings.toString lib)
        (ConnectionSettings.createFromString lib) _ undoes manager.connections survives.connections)
    · rw [clusters]
      exact forall₂_allocate _ base _ _ (forall₂_restored encode64 decode64 (ClusterSettings.toString lib)
        (ClusterSettings.createFromString lib) _ undoes manager.clusters survives.clusters)
    · rw [sentinels, empty, List.nil_append]
      exact forall₂_allocate _ base _ _ restored
    · rw [recent, recent_restored lib encode64 decode64 undoes manager]

theorem values_reload_twice_iff (files : Text → Saved) (later : SettingsManager) (base again : Nat) (path : Text)
    (nonempty : path ≠ []) (file : lib.preparePath path = lib.preparePath iniPath) :
    let reload := fun base => reloadFromPath lib decode64 (save lib encode64 files manager) base path false
    (reload again (reload base later)).values = (reload base later).values ↔ manager.sentinels = [] := by
  intro reload
  obtain ⟨connections, clusters, sentinels, recent⟩ :=
    reload_saved lib encode64 decode64 files manager later base path nonempty file
  obtain ⟨connections', clusters', sentinels', recent'⟩ :=
    reload_saved lib encode64 decode64 files manager (reload base later) again path nonempty file
  have count := length_restored_sentinels lib encode64 decode64 undoes manager survives
  have onceSentinels : (reload base later).sentinels.length = later.sentinels.length + manager.sentinels.length := by
    rw [sentinels, List.length_append, length_allocate, count]
  have twiceSentinels : (reload again (reload base later)).sentinels.length =
      (reload base later).sentinels.length + manager.sentinels.length := by
    rw [sentinels', List.length_append, length_allocate, count]
  constructor
  · intro same
    have lengths := congrArg (fun values => values.2.2.1.length) same
    simp only [values, List.length_map] at lengths
    exact List.length_eq_zero_iff.mp (by omega)
  · intro empty
    have none : (manager.saved lib encode64).sentinels = [] := by simp [saved, empty]
    simp only [values, Prod.mk.injEq]
    refine ⟨?_, ?_, ?_, recent'.trans recent.symm⟩
    · rw [connections', connections, map_settings_allocate, map_settings_allocate]
    · rw [clusters', clusters, map_settings_allocate, map_settings_allocate]
    · rw [sentinels', none]
      simp [allocate]

end

/-- After any run of operations on the saved manager, a reload restores the saved lists exactly when no
sentinel is left in it, and a second reload changes nothing exactly when none was saved. -/
theorem reload_restores_iff (undoes : ∀ text, decode64 (encode64 text) = text) (files : Text → Saved)
    (manager : SettingsManager) (survives : manager.Survives lib encode64 decode64) (base again : Nat) (path : Text)
    (nonempty : path ≠ []) (file : lib.preparePath path = lib.preparePath iniPath)
    (operations : List Operation) :
    let reload := fun base => reloadFromPath lib decode64 (save lib encode64 files manager) base path false
    ∀ later, manager.run operations = some later →
      (manager.SameLists lib (reload base later) ↔ later.sentinels = []) ∧
        (manager.SameLists lib (reload base later) ∧
            (reload again (reload base later)).values = (reload base later).values ↔
          later.sentinels = [] ∧ manager.sentinels = []) := by
  intro reload later _
  have first := sameLists_reload_iff lib encode64 decode64 undoes manager survives files later base path nonempty file
  have second := values_reload_twice_iff lib encode64 decode64 undoes manager survives files later base again path
    nonempty file
  exact ⟨first, and_congr first second⟩

def savedManager : SettingsManager where
  connections := [⟨1, ClusterSettings.localNode .password⟩]
  recentConnections := [ascii "/node"]
  recentNonempty := by decide

theorem savedManager_survives : savedManager.Survives Common.std Base64.encode Base64.decode where
  connections := by
    rintro pointer member
    obtain rfl := List.mem_singleton.mp member
    exact (ClusterSettings.localNode_survives .password).roundTrips
  clusters := by simp [savedManager]
  sentinels := by simp [savedManager]

theorem reload_savedManager :
    savedManager.run [.clearRConnections, .addRConnection (ascii "/other")] ≠ none ∧
      ∀ later, savedManager.run [.clearRConnections, .addRConnection (ascii "/other")] = some later →
        savedManager.SameLists Common.std
          (reloadFromPath Common.std Base64.decode
            (save Common.std Base64.encode (fun _ => {}) savedManager) 7 iniPath false later) := by
  refine ⟨by simp [run, apply], fun later reached => ?_⟩
  refine (reload_restores_iff Common.std Base64.encode Base64.decode Base64.decode_encode _ savedManager
    savedManager_survives 7 8 iniPath (by decide) rfl _ later reached).1.mpr ?_
  obtain rfl := Option.some.inj reached
  rfl

/-- A sentinel that is added after the save is still there after the reload. -/
theorem reload_keeps_new_sentinel :
    savedManager.Survives Common.std Base64.encode Base64.decode ∧
      ∃ later, savedManager.run [.addSentinel (some ⟨5, SentinelSettings.emptySentinel⟩)] = some later ∧
        ¬ savedManager.SameLists Common.std
          (reloadFromPath Common.std Base64.decode
            (save Common.std Base64.encode (fun _ => {}) savedManager) 7 iniPath false later) := by
  refine ⟨savedManager_survives, _, rfl, ?_⟩
  rw [sameLists_reload_iff Common.std Base64.encode Base64.decode Base64.decode_encode savedManager
    savedManager_survives _ _ 7 iniPath (by decide) rfl]
  simp [savedManager, pushShared]

end SettingsManager

end FastoNoSQL
