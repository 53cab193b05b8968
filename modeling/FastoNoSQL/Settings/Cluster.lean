import Mathlib.Data.List.Forall2
import FastoNoSQL.Bytes.Pieces
import FastoNoSQL.Settings.Connection

set_option autoImplicit false

/-!
# Clusters

`core/connection_settings/icluster_connection_settings.cpp` and
`core/cluster_connection_settings_factory.cpp`. A cluster and a sentinel keep
their entries behind the same header; the factories differ in how they read an
entry.
-/

namespace FastoNoSQL

open Bytes

def magicNumber : UInt8 := 0x1E

structure GroupSettings (α : Type) where
  path : Text := []
  msinterval : UInt32 := 0
  entries : List α := []

namespace GroupSettings

variable {α : Type}

def toString (entryText : α → Text) (settings : GroupSettings α) : Text :=
  headerText .redis settings.path settings.msinterval ++
    byte ',' :: separated magicNumber (settings.entries.map entryText)

structure Same (same : α → α → Prop) (settings restored : GroupSettings α) : Prop where
  path : restored.path = settings.path
  msinterval : restored.msinterval = settings.msinterval
  entries : List.Forall₂ same settings.entries restored.entries

/-- How many commas the factory has met, with the object made at the first. -/
inductive Reading (α : Type) where
  | type
  | path (result : GroupSettings α)
  | interval (result : GroupSettings α)

def Reading.result : Reading α → Option (GroupSettings α)
  | .type => none
  | .path result | .interval result => some result

-- Only redis has clusters and sentinels. The entries start one byte behind the comma.
def onComma (lib : Common) (readEntry : Text → Option α) (elText rest : Text) :
    Reading α → Reading α ⊕ Option (GroupSettings α)
  | .type => if ConnectionType.ofDigit elText = some .redis then .inl (.path {}) else .inr none
  | .path result => .inl (.interval { result with path := elText })
  | .interval result =>
    .inr (some { result with
      msinterval := lib.toUInt32 elText, entries := (pieces magicNumber rest.tail).filterMap readEntry })

def createFrom (lib : Common) (readEntry : Text → Option α) (reading : Reading α) (elText : Text) :
    Text → Option (GroupSettings α)
  | [] => reading.result
  | ch :: rest =>
    if ch = byte ',' then
      match onComma lib readEntry elText rest reading with
      | .inl reading => createFrom lib readEntry reading [] rest
      | .inr result => result
    else createFrom lib readEntry reading (elText ++ [ch]) rest

def createFromString (lib : Common) (readEntry : Text → Option α) (val : Text) : Option (GroupSettings α) :=
  if val = [] then none else createFrom lib readEntry .type [] val

variable (lib : Common) (readEntry : Text → Option α)

theorem createFrom_comma (reading : Reading α) (elText field rest : Text) (clean : byte ',' ∉ field) :
    createFrom lib readEntry reading elText (field ++ byte ',' :: rest) =
      match onComma lib readEntry (elText ++ field) rest reading with
      | .inl reading => createFrom lib readEntry reading [] rest
      | .inr result => result := by
  induction field generalizing elText with
  | nil => simp [createFrom]
  | cons c field ih =>
      have head : c ≠ byte ',' := fun comma => clean (by simp [comma])
      have next := ih (elText ++ [c]) fun member => clean (List.mem_cons_of_mem c member)
      simpa [createFrom, head] using next

theorem createFromString_header (lawful : lib.Lawful) (path : Text) (clean : byte ',' ∉ path)
    (msinterval : UInt32) (rest : Text) :
    createFromString lib readEntry (headerText .redis path msinterval ++ byte ',' :: rest) =
      some { path, msinterval, entries := (pieces magicNumber rest.tail).filterMap readEntry } := by
  have nonempty : headerText .redis path msinterval ++ byte ',' :: rest ≠ [] := by simp
  have digit : ConnectionType.ofDigit (natText ConnectionType.redis.index) = some .redis := rfl
  rw [createFromString, if_neg nonempty, headerText]
  simp only [List.append_assoc, List.cons_append]
  rw [createFrom_comma lib _ .type [] _ _ (ConnectionSettings.comma_not_mem_natText _)]
  simp only [List.nil_append, onComma, digit, if_true]
  rw [createFrom_comma lib _ _ [] _ _ clean]
  simp only [List.nil_append, onComma]
  rw [createFrom_comma lib _ _ [] _ _ (ConnectionSettings.comma_not_mem_natText _)]
  simp only [List.nil_append, onComma, lawful.toUInt32_natText]

def Reading.CommaFree : Reading α → Prop
  | .type => True
  | .path result | .interval result => byte ',' ∉ result.path

theorem onComma_commaFree (reading : Reading α) (elText rest : Text) (free : reading.CommaFree)
    (text : byte ',' ∉ elText) :
    match onComma lib readEntry elText rest reading with
    | .inl reading => reading.CommaFree
    | .inr result => ∀ settings ∈ result, byte ',' ∉ settings.path := by
  cases reading with
  | type =>
      by_cases digit : ConnectionType.ofDigit elText = some .redis
      · simp [onComma, digit, Reading.CommaFree]
      · simp [onComma, digit]
  | path result => exact text
  | interval result =>
      rintro settings ⟨rfl⟩
      exact free

-- A path that was read has no comma.
theorem createFrom_commaFree (val : Text) (reading : Reading α) (elText : Text) (free : reading.CommaFree)
    (text : byte ',' ∉ elText) (settings : GroupSettings α)
    (created : createFrom lib readEntry reading elText val = some settings) : byte ',' ∉ settings.path := by
  induction val generalizing reading elText with
  | nil =>
      cases reading with
      | type => simp [createFrom, Reading.result] at created
      | path result | interval result =>
          obtain rfl : result = settings := by simpa [createFrom, Reading.result] using created
          exact free
  | cons ch rest ih =>
      by_cases comma : ch = byte ','
      · have step := onComma_commaFree lib readEntry reading elText rest free text
        simp only [createFrom, comma, if_true] at created
        split at created
        next reading' next =>
          rw [next] at step
          exact ih reading' [] step (by simp) created
        next result next =>
          rw [next] at step
          exact step settings created
      · simp only [createFrom, comma, if_false] at created
        exact ih reading _ free (by simp [text, Ne.symm comma]) created

theorem createFromString_commaFree (val : Text) (settings : GroupSettings α)
    (created : createFromString lib readEntry val = some settings) : byte ',' ∉ settings.path := by
  rw [createFromString] at created
  split at created
  · cases created
  · exact createFrom_commaFree lib readEntry val .type [] trivial (by simp) settings created

-- The entries of a saved text: all but the last as written, the last without its last byte.
theorem createFromString_toString (lawful : lib.Lawful) (entryText : α → Text) (settings : GroupSettings α)
    (clean : byte ',' ∉ settings.path) (entries : List α) (last : α) (shape : settings.entries = entries ++ [last])
    (separators : ∀ entry ∈ settings.entries, magicNumber ∉ entryText entry) (nonempty : entryText last ≠ []) :
    createFromString lib readEntry (settings.toString entryText) =
      some { settings with
        entries := (entries.map entryText ++ [(entryText last).dropLast]).filterMap readEntry } := by
  rw [toString, createFromString_header lib readEntry lawful _ clean, shape, List.map_append, List.map_singleton,
    pieces_separated magicNumber _ _ ?_ (separators last (by simp [shape])) nonempty]
  intro item member
  obtain ⟨entry, inEntries, rfl⟩ := List.mem_map.mp member
  exact separators entry (by simp [shape, inEntries])

theorem createFromString_toString_nil (lawful : lib.Lawful) (entryText : α → Text) (settings : GroupSettings α)
    (clean : byte ',' ∉ settings.path) (empty : settings.entries = []) :
    createFromString lib readEntry (settings.toString entryText) = some settings := by
  rw [toString, createFromString_header lib readEntry lawful _ clean, empty]
  obtain ⟨path, msinterval, entries⟩ := settings
  obtain rfl : entries = [] := empty
  rfl

end GroupSettings

/-! ## Cluster nodes -/

abbrev ClusterSettings := GroupSettings ConnectionSettings

namespace ClusterSettings

def toString (lib : Common) (cluster : ClusterSettings) : Text :=
  GroupSettings.toString (ConnectionSettings.toString lib) cluster

-- `AddNode` ignores the null pointer of a node that cannot be read.
def createFromString (lib : Common) (val : Text) : Option ClusterSettings :=
  GroupSettings.createFromString lib (ConnectionSettings.createFromString lib) val

def RoundTrips (lib : Common) (cluster : ClusterSettings) : Prop :=
  ∃ restored, createFromString lib (cluster.toString lib) = some restored ∧
    cluster.Same (ConnectionSettings.Same lib) restored

/-- A redis node that is saved and restored on its own, and has no separator in its text. -/
structure NodeSurvives (lib : Common) (node : ConnectionSettings) : Prop where
  redis : node.type = .redis
  savable : node.Savable lib
  roundTrips : node.RoundTrips lib
  separator : magicNumber ∉ node.toString lib

def sshMethod (node : ConnectionSettings) : Option SshMethod := node.info.sshInfo.map (·.currentMethod)

-- The reader cuts the last byte of the text, on which the method of the last node hangs.
def Restorable (cluster : ClusterSettings) : Prop :=
  byte ',' ∉ cluster.path ∧ ∀ node ∈ cluster.entries.getLast?, sshMethod node = some .unknown

variable (lib : Common)

theorem toString_ne_nil (node : ConnectionSettings) : node.toString lib ≠ [] := by
  cases ssh : node.info.sshInfo <;> simp [ConnectionSettings.toString, ssh]

theorem same_of_roundTrips (lawful : lib.Lawful) (node : ConnectionSettings) (survives : NodeSurvives lib node) :
    node.Same lib { node with info := node.restoredInfo lib } := by
  obtain ⟨restored, created, same⟩ := survives.roundTrips
  rw [ConnectionSettings.createFromString_toString lib lawful node survives.savable] at created
  obtain rfl := Option.some.inj created
  exact same

theorem toString_redis_dropLast (path : Text) (msinterval : UInt32) (config : Redis.Config) (ssh : SshInfo) :
    let node : ConnectionSettings := ⟨path, msinterval, .redis config ssh⟩
    (node.toString lib).dropLast =
      node.header ++ byte ',' :: (node.commandLine lib ++ byte ',' :: ssh.text.dropLast) := by
  have nonempty : ssh.text ≠ [] := by simp [SshInfo.text, SshInfo.fields, SshInfo.fieldLine]
  simp only [ConnectionSettings.toString, Info.sshInfo, List.append_assoc, List.cons_append]
  rw [List.dropLast_append_of_ne_nil (by simp), List.dropLast_cons_of_ne_nil (by simp),
    List.dropLast_append_of_ne_nil (by simp), List.dropLast_cons_of_ne_nil nonempty]

-- The last node, read without the last byte of its text.
theorem createFromString_dropLast (lawful : lib.Lawful) (node : ConnectionSettings)
    (survives : NodeSurvives lib node) :
    ∃ restored, ConnectionSettings.createFromString lib (node.toString lib).dropLast = some restored ∧
      (node.Same lib restored ↔ sshMethod node = some .unknown) := by
  obtain ⟨path, msinterval, info⟩ := node
  have whole := same_of_roundTrips lib lawful _ survives
  cases info with
  | redis config ssh =>
      have savable := survives.savable
      have cut := ConnectionSettings.createFromString_redis lib lawful ⟨path, msinterval, .redis config ssh⟩ rfl
        savable.path savable.line ssh.text.dropLast
      rw [SshInfo.ofText_dropLast lib ssh (savable.ssh ssh rfl), ← toString_redis_dropLast] at cut
      refine ⟨_, cut, ?_⟩
      constructor
      · intro same
        have ssh' := Option.some.inj same.sshInfo
        simp [sshMethod, Info.sshInfo, ← congrArg SshInfo.currentMethod ssh']
      · intro method
        have unknown : ssh.currentMethod = .unknown := by simpa [sshMethod, Info.sshInfo] using method
        refine ⟨rfl, rfl, rfl, whole.commandLine, ?_⟩
        simp [Info.sshInfo, ← unknown]
  | memcached | ssdb | leveldb | rocksdb | unqlite | lmdb | upscaledb => cases survives.redis

theorem filterMap_survives (lawful : lib.Lawful) (nodes : List ConnectionSettings)
    (survive : ∀ node ∈ nodes, NodeSurvives lib node) :
    (nodes.map (ConnectionSettings.toString lib)).filterMap (ConnectionSettings.createFromString lib) =
      nodes.map fun node => { node with info := node.restoredInfo lib } := by
  induction nodes with
  | nil => rfl
  | cons node nodes ih =>
      have head := ConnectionSettings.createFromString_toString lib lawful node (survive node (by simp)).savable
      have tail := ih fun other member => survive other (List.mem_cons_of_mem node member)
      rw [List.map_cons, List.filterMap_cons_some head, tail, List.map_cons]

theorem forall₂_same (lawful : lib.Lawful) (nodes : List ConnectionSettings)
    (survive : ∀ node ∈ nodes, NodeSurvives lib node) :
    List.Forall₂ (ConnectionSettings.Same lib) nodes
      (nodes.map fun node => { node with info := node.restoredInfo lib }) := by
  rw [List.forall₂_map_right_iff, List.forall₂_same]
  exact fun node member => same_of_roundTrips lib lawful node (survive node member)

theorem same_last (nodes : List ConnectionSettings) (last restored : ConnectionSettings)
    (same : List.Forall₂ (ConnectionSettings.Same lib) (nodes ++ [last])
      ((nodes.map fun node => { node with info := node.restoredInfo lib }) ++ [restored])) :
    last.Same lib restored := by
  have tail := List.forall₂_drop_append _ _ _ same
  rw [List.length_map, List.drop_left] at tail
  exact (List.forall₂_cons.mp tail).1

-- What the factory makes of a cluster that has a last node.
theorem createFromString_concat (lawful : lib.Lawful) (cluster : ClusterSettings) (clean : byte ',' ∉ cluster.path)
    (survive : ∀ node ∈ cluster.entries, NodeSurvives lib node) (nodes : List ConnectionSettings)
    (last : ConnectionSettings) (shape : cluster.entries = nodes ++ [last]) :
    ∃ restored, (last.Same lib restored ↔ sshMethod last = some .unknown) ∧
      createFromString lib (cluster.toString lib) =
        some { cluster with
          entries := (nodes.map fun node => { node with info := node.restoredInfo lib }) ++ [restored] } := by
  obtain ⟨restored, read, same⟩ := createFromString_dropLast lib lawful last (survive last (by simp [shape]))
  refine ⟨restored, same, ?_⟩
  rw [createFromString, toString,
    GroupSettings.createFromString_toString lib _ lawful _ cluster clean nodes last shape
      (fun node member => (survive node member).separator) (toString_ne_nil lib last),
    List.filterMap_append, List.filterMap_cons_some read, List.filterMap_nil,
    filterMap_survives lib lawful nodes fun node member => survive node (by simp [shape, member])]

theorem cluster_roundTrips_iff (lawful : lib.Lawful) (cluster : ClusterSettings)
    (survive : ∀ node ∈ cluster.entries, NodeSurvives lib node) :
    cluster.RoundTrips lib ↔ cluster.Restorable := by
  constructor
  · rintro ⟨restored, created, ⟨path, -, same⟩⟩
    have clean : byte ',' ∉ cluster.path :=
      path ▸ GroupSettings.createFromString_commaFree lib _ _ restored created
    refine ⟨clean, fun last isLast => ?_⟩
    obtain ⟨nodes, shape⟩ := List.getLast?_eq_some_iff.mp isLast
    obtain ⟨restoredLast, method, read⟩ := createFromString_concat lib lawful cluster clean survive nodes last shape
    obtain rfl := Option.some.inj (read.symm.trans created)
    rw [shape] at same
    exact method.mp (same_last lib nodes last restoredLast same)
  · rintro ⟨clean, method⟩
    rcases List.eq_nil_or_concat cluster.entries with empty | ⟨nodes, last, shape⟩
    · refine ⟨cluster, GroupSettings.createFromString_toString_nil lib _ lawful _ cluster clean empty, rfl, rfl, ?_⟩
      rw [empty]
      exact List.Forall₂.nil
    · rw [List.concat_eq_append] at shape
      obtain ⟨restored, same, read⟩ := createFromString_concat lib lawful cluster clean survive nodes last shape
      refine ⟨_, read, rfl, rfl, ?_⟩
      have others := forall₂_same lib lawful nodes fun node member => survive node (by simp [shape, member])
      have lastSame := same.mpr (method last (by simp [shape]))
      rw [shape]
      exact List.rel_append others (List.Forall₂.cons lastSame List.Forall₂.nil)

theorem sshMethods_of_same (nodes restored : List ConnectionSettings)
    (same : List.Forall₂ (ConnectionSettings.Same lib) nodes restored) :
    restored.map sshMethod = nodes.map sshMethod := by
  induction same with
  | nil => rfl
  | cons head _ ih => rw [List.map_cons, List.map_cons, ih, sshMethod, sshMethod, head.sshInfo]

-- A default redis node on the local host, with the given way into its SSH tunnel.
def localNode (method : SshMethod) : ConnectionSettings where
  path := ascii "/node"
  info := .redis (.init Common.std) { SshInfo.init Common.std with currentMethod := method }

theorem localNode_survives (method : SshMethod) : NodeSurvives Common.std (localNode method) := by
  have savable : (localNode method).Savable Common.std := by
    refine ⟨by cases method <;> decide, by cases method <;> decide, ?_⟩
    rintro ssh ⟨rfl⟩
    cases method <;> exact ⟨by decide, by decide⟩
  refine ⟨rfl, savable, ?_, by cases method <;> decide⟩
  refine ⟨_, ConnectionSettings.createFromString_toString _ Common.std_lawful _ savable, rfl, rfl, rfl, ?_, rfl⟩
  cases method <;> decide

def openCluster : ClusterSettings where
  path := ascii "/cluster"
  entries := [localNode .password, localNode .unknown]

theorem roundTrips_openCluster : openCluster.RoundTrips Common.std := by
  refine (cluster_roundTrips_iff _ Common.std_lawful openCluster ?_).mpr ⟨by decide, ?_⟩
  · intro node member
    rcases List.mem_pair.mp member with rfl | rfl
    · exact localNode_survives .password
    · exact localNode_survives .unknown
  · rintro node ⟨rfl⟩
    rfl

-- The last node is reached with a password, which the restored one no longer knows.
def tunnelledCluster : ClusterSettings where
  path := ascii "/cluster"
  entries := [localNode .unknown, localNode .password]

theorem tunnelledCluster_not_roundTrips :
    (∀ node ∈ tunnelledCluster.entries, NodeSurvives Common.std node) ∧
      ¬ tunnelledCluster.RoundTrips Common.std := by
  constructor
  · intro node member
    rcases List.mem_pair.mp member with rfl | rfl
    · exact localNode_survives .unknown
    · exact localNode_survives .password
  · rintro ⟨restored, created, ⟨-, -, same⟩⟩
    have methods : (createFromString Common.std (tunnelledCluster.toString Common.std)).map
        (fun cluster => cluster.entries.map sshMethod) = some [some .unknown, some .unknown] := by
      decide +kernel
    rw [created, Option.map_some, sshMethods_of_same Common.std _ _ same] at methods
    revert methods
    decide

end ClusterSettings

end FastoNoSQL
