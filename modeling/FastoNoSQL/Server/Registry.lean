import FastoNoSQL.Runs
import Mathlib.Data.Finset.SDiff
import Mathlib.Data.List.Nodup
import Mathlib.Data.List.Pairwise

set_option autoImplicit false

/-!
# The registry of servers

`ServersManager` of `core/servers_manager.cpp`: the list of the servers of all
open connections, clusters and sentinels. A server is known by its object, and
of the settings only the number of nodes matters.
-/

namespace FastoNoSQL.Registry

abbrev Ref := Nat

structure Cluster where
  nodes : List Ref

structure SentinelEntry where
  sentinel : Ref
  sentinelNodes : List Ref

structure Sentinel where
  sentinels : List SentinelEntry

/-- `servers_`; objects from `next` on are not made yet. -/
structure ServersManager where
  servers : List Ref
  next : Ref

namespace ServersManager

variable (manager : ServersManager)

def createServer : ServersManager × Ref := (⟨manager.servers ++ [manager.next], manager.next + 1⟩, manager.next)

-- The loops over the nodes of a cluster, or of one entry of a sentinel.
def createServers : Nat → ServersManager → ServersManager × List Ref
  | 0, manager => (manager, [])
  | count + 1, manager =>
    let (manager, server) := manager.createServer
    let (manager, servers) := createServers count manager
    (manager, server :: servers)

def createCluster (nodes : Nat) : ServersManager × Cluster :=
  let (manager, servers) := createServers nodes manager
  (manager, ⟨servers⟩)

def createEntries : List Nat → ServersManager → ServersManager × List SentinelEntry
  | [], manager => (manager, [])
  | nodes :: settings, manager =>
    let (manager, sentinel) := manager.createServer
    let (manager, servers) := createServers nodes manager
    let (manager, entries) := createEntries settings manager
    (manager, ⟨sentinel, servers⟩ :: entries)

-- The settings are the numbers of nodes of the entries.
def createSentinel (settings : List Nat) : ServersManager × Sentinel :=
  let (manager, entries) := createEntries settings manager
  (manager, ⟨entries⟩)

-- `servers_.erase(std::remove(..))`: the erased element is the first after those that are kept, and erasing the end
-- is undefined.
def closeServer (server : Ref) : Option ServersManager :=
  let kept := manager.servers.filter (· ≠ server)
  if kept.length = manager.servers.length then none
  else some { manager with servers := kept ++ manager.servers.drop (kept.length + 1) }

def closeServers (servers : List Ref) : Option ServersManager := servers.foldlM closeServer manager

def closeCluster (cluster : Cluster) : Option ServersManager := manager.closeServers cluster.nodes

-- The nodes of the entries are closed, the sentinels of the entries are not.
def closeSentinel (sentinel : Sentinel) : Option ServersManager :=
  manager.closeServers (sentinel.sentinels.flatMap (·.sentinelNodes))

end ServersManager

/-! ## What opening and closing is meant to do -/

inductive Opened where
  | connection (server : Ref)
  | cluster (cluster : Cluster)
  | sentinel (sentinel : Sentinel)

namespace Opened

-- All servers of an opened object.
def servers : Opened → List Ref
  | .connection one => [one]
  | .cluster group => group.nodes
  | .sentinel group => group.sentinels.flatMap fun entry => entry.sentinel :: entry.sentinelNodes

-- Those that its close function closes.
def closed : Opened → List Ref
  | .connection one => [one]
  | .cluster group => group.nodes
  | .sentinel group => group.sentinels.flatMap (·.sentinelNodes)

def close (manager : ServersManager) : Opened → Option ServersManager
  | .connection one => manager.closeServer one
  | .cluster group => manager.closeCluster group
  | .sentinel group => manager.closeSentinel group

end Opened

inductive Settings where
  | connection
  | cluster (nodes : Nat)
  | sentinel (nodes : List Nat)

def Settings.create (manager : ServersManager) : Settings → ServersManager × Opened
  | .connection => (manager.createServer.1, .connection manager.createServer.2)
  | .cluster nodes => ((manager.createCluster nodes).1, .cluster (manager.createCluster nodes).2)
  | .sentinel nodes => ((manager.createSentinel nodes).1, .sentinel (manager.createSentinel nodes).2)

/-- Something is created, or something, possibly not open, is closed. -/
inductive Op where
  | create (settings : Settings)
  | close (opened : Opened) (distinct : opened.servers.Nodup)

/-- The manager, gone after undefined behaviour, and the servers opened and not yet closed. -/
structure State where
  manager : Option ServersManager
  opened : Finset Ref

def step (state : State) : Op → State
  | .create settings =>
    match state.manager with
    | none => state
    | some manager =>
      let (manager, created) := settings.create manager
      ⟨some manager, state.opened ∪ created.servers.toFinset⟩
  | .close opened _ => ⟨state.manager.bind opened.close, state.opened \ opened.servers.toFinset⟩

-- The registered servers are the open ones, each once.
def State.Exact (state : State) : Prop :=
  ∃ manager, state.manager = some manager ∧ manager.servers.Nodup ∧
    (∀ server, server ∈ manager.servers ↔ server ∈ state.opened) ∧ ∀ server ∈ manager.servers, server < manager.next

-- A close finds what it closes registered, and a sentinel is closed after the servers of its entries were.
def Closable (state : State) : Op → Prop
  | .create _ => True
  | .close (.connection server) _ => server ∈ state.opened
  | .close (.cluster cluster) _ => ∀ node ∈ cluster.nodes, node ∈ state.opened
  | .close (.sentinel sentinel) _ => ∀ entry ∈ sentinel.sentinels,
      entry.sentinel ∉ state.opened ∧ ∀ node ∈ entry.sentinelNodes, node ∈ state.opened

/-! ## Creating -/

namespace ServersManager

-- The second manager has the fresh servers of the list on top of the first.
def Extends (before after : ServersManager) (fresh : List Ref) : Prop :=
  ∃ count, fresh = List.range' before.next count ∧ after = ⟨before.servers ++ fresh, before.next + count⟩

theorem Extends.trans {first second third : ServersManager} {early late : List Ref}
    (start : Extends first second early) (rest : Extends second third late) : Extends first third (early ++ late) := by
  obtain ⟨count, rfl, rfl⟩ := start
  obtain ⟨more, rfl, rfl⟩ := rest
  refine ⟨count + more, ?_, ?_⟩
  · simp [List.range'_append_1]
  · simp [Nat.add_assoc]

theorem createServer_extends (manager : ServersManager) :
    Extends manager manager.createServer.1 [manager.createServer.2] :=
  ⟨1, rfl, rfl⟩

theorem createServers_extends (count : Nat) (manager : ServersManager) :
    Extends manager (createServers count manager).1 (createServers count manager).2 := by
  induction count generalizing manager with
  | zero => exact ⟨0, rfl, by simp [createServers]⟩
  | succ count ih => exact (createServer_extends manager).trans (ih manager.createServer.1)

theorem createEntries_extends (settings : List Nat) (manager : ServersManager) :
    Extends manager (createEntries settings manager).1
      ((createEntries settings manager).2.flatMap fun entry => entry.sentinel :: entry.sentinelNodes) := by
  induction settings generalizing manager with
  | nil => exact ⟨0, rfl, by simp [createEntries]⟩
  | cons nodes settings ih =>
      have entry := (createServer_extends manager).trans (createServers_extends nodes manager.createServer.1)
      exact entry.trans (ih (createServers nodes manager.createServer.1).1)

theorem create_extends (settings : Settings) (manager : ServersManager) :
    Extends manager (settings.create manager).1 (settings.create manager).2.servers := by
  cases settings with
  | connection => exact createServer_extends manager
  | cluster nodes => exact createServers_extends nodes manager
  | sentinel nodes => exact createEntries_extends nodes manager

/-! ## Closing -/

variable (manager : ServersManager) (once : manager.servers.Nodup)
include once

theorem closeServer_eq (server : Ref) :
    manager.closeServer server =
      if server ∈ manager.servers then some { manager with servers := manager.servers.filter (· ≠ server) } else none := by
  unfold closeServer
  have erased : manager.servers.filter (· ≠ server) = manager.servers.erase server := by
    rw [once.erase_eq_filter]
    apply List.filter_congr
    intro other _
    by_cases same : other = server <;> simp [same]
  rw [erased]
  by_cases member : server ∈ manager.servers
  · have count := List.length_erase_of_mem member
    have positive := List.length_pos_of_mem member
    rw [if_neg (by omega), if_pos member, List.drop_of_length_le (by omega), List.append_nil]
  · rw [List.erase_of_not_mem member, if_pos rfl, if_neg member]

theorem closeServers_eq (servers : List Ref) (distinct : servers.Nodup) :
    manager.closeServers servers =
      if ∀ server ∈ servers, server ∈ manager.servers then
        some { manager with servers := manager.servers.filter (· ∉ servers) }
      else none := by
  induction servers generalizing manager with
  | nil => simp [closeServers]
  | cons server servers ih =>
      obtain ⟨fresh, distinct⟩ := List.nodup_cons.mp distinct
      rw [closeServers, List.foldlM_cons, closeServer_eq manager once]
      by_cases member : server ∈ manager.servers
      · have rest := ih { manager with servers := manager.servers.filter (· ≠ server) } (once.filter _) distinct
        have found : (∀ other ∈ servers, other ∈ manager.servers.filter (· ≠ server)) ↔
            ∀ other ∈ servers, other ∈ manager.servers := by
          apply forall₂_congr
          intro other listed
          have differs : other ≠ server := fun same => fresh (same ▸ listed)
          simp [differs]
        rw [if_pos member]
        refine rest.trans ?_
        simp only [found, List.forall_mem_cons, member, true_and, List.filter_filter]
        congr 3
        apply List.filter_congr
        intro other _
        simp [Bool.and_comm]
      · rw [if_neg member, if_neg fun all => member (all server List.mem_cons_self)]
        rfl

end ServersManager

/-! ## Runs -/

theorem close_eq (manager : ServersManager) (opened : Opened) :
    opened.close manager = manager.closeServers opened.closed := by
  cases opened with
  | connection server =>
      show manager.closeServer server = [server].foldlM ServersManager.closeServer manager
      simp
  | cluster cluster => rfl
  | sentinel sentinel => rfl

theorem closed_sublist (opened : Opened) : opened.closed.Sublist opened.servers := by
  cases opened with
  | connection server => exact List.Sublist.refl _
  | cluster cluster => exact List.Sublist.refl _
  | sentinel sentinel =>
      obtain ⟨sentinels⟩ := sentinel
      show (sentinels.flatMap _).Sublist (sentinels.flatMap _)
      induction sentinels with
      | nil => exact List.Sublist.refl _
      | cons entry sentinels ih =>
          simp only [List.flatMap_cons]
          exact (List.sublist_cons_self _ _).append ih

theorem sentinel_not_node (entries : List SentinelEntry)
    (distinct : (entries.flatMap fun entry => entry.sentinel :: entry.sentinelNodes).Nodup) :
    ∀ entry ∈ entries, ∀ other ∈ entries, entry.sentinel ∉ other.sentinelNodes := by
  rw [List.nodup_flatMap] at distinct
  intro entry member other member' listed
  by_cases same : entry = other
  · subst same
    exact (List.nodup_cons.mp (distinct.1 entry member)).1 listed
  · have symm : Std.Symm (Function.onFun List.Disjoint
        fun entry : SentinelEntry => entry.sentinel :: entry.sentinelNodes) := ⟨fun _ _ disjoint => disjoint.symm⟩
    have disjoint := distinct.2.forall member member' same
    exact disjoint List.mem_cons_self (List.mem_cons_of_mem _ listed)

-- Of the servers of an opened object, those that its close function closes and the sentinels.
theorem mem_closed_iff (opened : Opened) (distinct : opened.servers.Nodup) (state : State) :
    (∀ server ∈ opened.servers, (server ∈ state.opened ↔ server ∈ opened.closed)) ↔
      Closable state (.close opened distinct) := by
  cases opened with
  | connection server => simp [Opened.servers, Opened.closed, Closable]
  | cluster cluster =>
      apply forall₂_congr
      intro node member
      exact iff_true_right member
  | sentinel sentinel =>
      have apart := sentinel_not_node sentinel.sentinels distinct
      simp only [Opened.servers, Opened.closed, Closable, List.mem_flatMap, List.mem_cons]
      constructor
      · intro all entry member
        constructor
        · intro registered
          obtain ⟨other, member', listed⟩ := (all entry.sentinel ⟨entry, member, Or.inl rfl⟩).mp registered
          exact apart entry member other member' listed
        · intro node listed
          exact (all node ⟨entry, member, Or.inr listed⟩).mpr ⟨entry, member, listed⟩
      · rintro all server ⟨entry, member, rfl | listed⟩
        · refine iff_of_false (all entry member).1 ?_
          rintro ⟨other, member', listed⟩
          exact apart entry member other member' listed
        · exact iff_of_true ((all entry member).2 server listed) ⟨entry, member, listed⟩

section Step

variable (state : State) (exact : state.Exact)
include exact

theorem exact_create (settings : Settings) : (step state (.create settings)).Exact := by
  obtain ⟨manager, present, once, same, fresh⟩ := exact
  obtain ⟨count, servers, after⟩ := ServersManager.create_extends settings manager
  refine ⟨(settings.create manager).1, by rw [step, present], ?_, fun server => ?_, fun server => ?_⟩
  · rw [after, servers]
    refine once.append List.nodup_range' fun server old new => ?_
    exact absurd (fresh server old) (Nat.not_lt.mpr (List.mem_range'_1.mp new).1)
  · rw [step, present, after]
    simp [same]
  · rw [after, servers]
    intro member
    rcases List.mem_append.mp member with old | new
    · exact Nat.lt_add_right count (fresh server old)
    · exact (List.mem_range'_1.mp new).2

theorem exact_close_iff (opened : Opened) (distinct : opened.servers.Nodup) :
    (step state (.close opened distinct)).Exact ↔ Closable state (.close opened distinct) := by
  rw [← mem_closed_iff]
  obtain ⟨manager, present, once, same, fresh⟩ := exact
  have closing := manager.closeServers_eq once opened.closed (distinct.sublist (closed_sublist opened))
  have inside := (closed_sublist opened).subset
  have result : (step state (.close opened distinct)).manager = manager.closeServers opened.closed := by
    rw [← close_eq, step, present]
    rfl
  constructor
  · rintro ⟨after, defined, _, same', _⟩ server listed
    rw [result, closing] at defined
    split at defined
    next registered =>
      obtain rfl := Option.some.inj defined
      have kept := same' server
      simp only [step, List.mem_filter, Finset.mem_sdiff, List.mem_toFinset, listed, decide_eq_true_eq,
        not_true_eq_false, and_false, iff_false, not_and, not_not] at kept
      rw [← same]
      exact ⟨kept, registered server⟩
    next => cases defined
  · intro all
    have registered : ∀ server ∈ opened.closed, server ∈ manager.servers := fun server listed =>
      (same server).mpr ((all server (inside listed)).mpr listed)
    rw [if_pos registered] at closing
    refine ⟨_, result.trans closing, once.filter _, fun server => ?_, fun server member => ?_⟩
    · simp only [step, List.mem_filter, Finset.mem_sdiff, List.mem_toFinset, decide_eq_true_eq, ← same]
      apply and_congr_right
      intro member
      constructor
      · intro other listed
        exact other ((all server listed).mp ((same server).mp member))
      · intro other listed
        exact other (inside listed)
    · exact fresh server (List.mem_of_mem_filter member)

theorem exact_step_iff (op : Op) : (step state op).Exact ↔ Closable state op := by
  cases op with
  | create settings => exact iff_of_true (exact_create state exact settings) trivial
  | close opened distinct => exact exact_close_iff state exact opened distinct

end Step

/-- The registry is the open servers after every call exactly when every close is closable. -/
theorem exact_along_iff (state : State) (exact : state.Exact) (ops : List Op) :
    Runs.Along step (fun state op => (step state op).Exact) state ops ↔ Runs.Along step Closable state ops :=
  Runs.along_iff State.Exact (fun state op exact closable => (exact_step_iff state exact op).mpr closable)
    (fun state op exact => exact_step_iff state exact op) exact ops

def State.init : State := ⟨some ⟨[], 0⟩, ∅⟩

theorem exact_init : State.init.Exact := ⟨⟨[], 0⟩, rfl, List.nodup_nil, by simp [State.init], by simp⟩

/-- A cluster between two connections is closed. -/
theorem cluster_closed_exact :
    Runs.Along step (fun state op => (step state op).Exact) State.init
      [.create .connection, .create (.cluster 2), .create .connection, .close (.cluster ⟨[1, 2]⟩) (by decide)] := by
  apply (exact_along_iff State.init exact_init _).mpr
  simp only [Runs.along_cons]
  refine ⟨trivial, trivial, trivial, ?_, Runs.along_nil⟩
  simp only [Closable]
  decide

/-- The server of a sentinel stays registered after the sentinel is closed, and closing a connection
twice erases the end of the list. -/
theorem sentinel_stays_close_twice :
    (Runs.run step State.init [.create (.sentinel [1]), .close (.sentinel ⟨[⟨0, [1]⟩]⟩) (by decide)]).manager.map
        (·.servers) = some [0] ∧
      (Runs.run step State.init [.create .connection, .create .connection, .close (.connection 0) (by decide),
        .close (.connection 0) (by decide)]).manager.isNone = true ∧
      ¬ Runs.Along step (fun state op => (step state op).Exact) State.init
        [.create (.sentinel [1]), .close (.sentinel ⟨[⟨0, [1]⟩]⟩) (by decide)] := by
  refine ⟨rfl, rfl, fun along => ?_⟩
  simp only [Runs.along_cons] at along
  obtain ⟨manager, present, _, same, _⟩ := along.2.1
  have servers : manager.servers = [0] := congrArg ServersManager.servers (Option.some.inj present.symm)
  have stale := (same 0).mp (by simp [servers])
  revert stale
  decide

end FastoNoSQL.Registry
