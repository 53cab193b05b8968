import FastoNoSQL.Server.StateField

set_option autoImplicit false

/-!
# The redis server info

`core/redis/server_info.cpp`: the answer of `INFO` as it is shown, written to the
history and read back from it.
-/

namespace FastoNoSQL.Redis

open Bytes

namespace ServerInfo

structure Server where
  redisVersion : Text := []
  redisGitSha1 : Text := []
  redisGitDirty : Text := []
  redisBuildId : Text := []
  redisMode : Text := []
  os : Text := []
  archBits : UInt32 := 0
  multiplexingApi : Text := []
  gccVersion : Text := []
  processId : UInt32 := 0
  runId : Text := []
  tcpPort : UInt32 := 0
  uptimeInSeconds : UInt32 := 0
  uptimeInDays : UInt32 := 0
  hz : UInt32 := 0
  lruClock : UInt32 := 0
deriving DecidableEq

def Server.fields (server : Server) : List (Text × Text) :=
  [(ascii "redis_version", server.redisVersion),
    (ascii "redis_git_sha1", server.redisGitSha1),
    (ascii "redis_git_dirty", server.redisGitDirty),
    (ascii "redis_mode", server.redisMode),
    (ascii "os", server.os),
    (ascii "arch_bits", natText server.archBits.toNat),
    (ascii "multiplexing_api", server.multiplexingApi),
    (ascii "gcc_version", server.gccVersion),
    (ascii "process_id", natText server.processId.toNat),
    (ascii "run_id", server.runId),
    (ascii "tcp_port", natText server.tcpPort.toNat),
    (ascii "uptime_in_seconds", natText server.uptimeInSeconds.toNat),
    (ascii "uptime_in_days", natText server.uptimeInDays.toNat),
    (ascii "hz", natText server.hz.toNat),
    (ascii "lru_clock", natText server.lruClock.toNat)]

def Server.setters : List (Setter Library Server) :=
  [textField "redis_version" fun value server => { server with redisVersion := value },
    textField "redis_git_sha1" fun value server => { server with redisGitSha1 := value },
    textField "redis_git_dirty" fun value server => { server with redisGitDirty := value },
    textField "redis_mode" fun value server => { server with redisMode := value },
    textField "os" fun value server => { server with os := value },
    uint32Field "arch_bits" fun value server => { server with archBits := value },
    textField "multiplexing_api" fun value server => { server with multiplexingApi := value },
    textField "gcc_version" fun value server => { server with gccVersion := value },
    uint32Field "process_id" fun value server => { server with processId := value },
    textField "run_id" fun value server => { server with runId := value },
    uint32Field "tcp_port" fun value server => { server with tcpPort := value },
    uint32Field "uptime_in_seconds" fun value server => { server with uptimeInSeconds := value },
    uint32Field "uptime_in_days" fun value server => { server with uptimeInDays := value },
    uint32Field "hz" fun value server => { server with hz := value },
    uint32Field "lru_clock" fun value server => { server with lruClock := value }]

def Server.strings : List (Server → Text) :=
  [Server.redisVersion, Server.redisGitSha1, Server.redisGitDirty, Server.redisBuildId, Server.redisMode,
    Server.os, Server.multiplexingApi, Server.gccVersion, Server.runId]

def Server.format : StateField Server where
  fields _ server := server.fields
  table := ⟨Server.setters, by decide +kernel, by decide +kernel⟩
  strings := Server.strings
  names _ _ := rfl
  written lib lawful server := by
    simp [Server.fields, Server.strings, quiet_natText]
  sets := by simp [Server.strings, Server.setters]

structure Clients where
  connectedClients : UInt32 := 0
  clientLongestOutputList : UInt32 := 0
  clientBiggestInputBuf : UInt32 := 0
  blockedClients : UInt32 := 0
deriving DecidableEq

def Clients.fields (clients : Clients) : List (Text × Text) :=
  [(ascii "connected_clients", natText clients.connectedClients.toNat),
    (ascii "client_longest_output_list", natText clients.clientLongestOutputList.toNat),
    (ascii "client_biggest_input_buf", natText clients.clientBiggestInputBuf.toNat),
    (ascii "blocked_clients", natText clients.blockedClients.toNat)]

def Clients.setters : List (Setter Library Clients) :=
  [uint32Field "connected_clients" fun value clients => { clients with connectedClients := value },
    uint32Field "client_longest_output_list" fun value clients =>
    { clients with clientLongestOutputList := value },
    uint32Field "client_biggest_input_buf" fun value clients => { clients with clientBiggestInputBuf := value },
    uint32Field "blocked_clients" fun value clients => { clients with blockedClients := value }]

def Clients.format : StateField Clients where
  fields _ clients := clients.fields
  table := ⟨Clients.setters, by decide +kernel, by decide +kernel⟩
  strings := []
  names _ _ := rfl
  written lib lawful clients := by
    simp [Clients.fields, quiet_natText]
  sets := by simp

structure Memory where
  usedMemory : UInt32 := 0
  usedMemoryHuman : Text := []
  usedMemoryRss : UInt32 := 0
  usedMemoryPeak : UInt32 := 0
  usedMemoryPeakHuman : Text := []
  usedMemoryLua : UInt32 := 0
  memFragmentationRatio : UInt32 := 0
  memAllocator : Text := []
deriving DecidableEq

def Memory.fields (lib : Library) (memory : Memory) : List (Text × Text) :=
  [(ascii "used_memory", natText memory.usedMemory.toNat),
    (ascii "used_memory_human", memory.usedMemoryHuman),
    (ascii "used_memory_rss", natText memory.usedMemoryRss.toNat),
    (ascii "used_memory_peak", natText memory.usedMemoryPeak.toNat),
    (ascii "used_memory_peak_human", memory.usedMemoryPeakHuman),
    (ascii "used_memory_lua", natText memory.usedMemoryLua.toNat),
    (ascii "mem_fragmentation_ratio", lib.printFloat memory.memFragmentationRatio),
    (ascii "mem_allocator", memory.memAllocator)]

def Memory.setters : List (Setter Library Memory) :=
  [uint32Field "used_memory" fun value memory => { memory with usedMemory := value },
    textField "used_memory_human" fun value memory => { memory with usedMemoryHuman := value },
    uint32Field "used_memory_rss" fun value memory => { memory with usedMemoryRss := value },
    uint32Field "used_memory_peak" fun value memory => { memory with usedMemoryPeak := value },
    textField "used_memory_peak_human" fun value memory => { memory with usedMemoryPeakHuman := value },
    uint32Field "used_memory_lua" fun value memory => { memory with usedMemoryLua := value },
    floatField "mem_fragmentation_ratio" fun value memory => { memory with memFragmentationRatio := value },
    textField "mem_allocator" fun value memory => { memory with memAllocator := value }]

def Memory.strings : List (Memory → Text) := [Memory.usedMemoryHuman, Memory.usedMemoryPeakHuman, Memory.memAllocator]

def Memory.format : StateField Memory where
  fields lib memory := Memory.fields lib memory
  table := ⟨Memory.setters, by decide +kernel, by decide +kernel⟩
  strings := Memory.strings
  names _ _ := rfl
  written lib lawful memory := by
    simp [Memory.fields, Memory.strings, quiet_natText, lawful.quiet_printFloat]
  sets := by simp [Memory.strings, Memory.setters]

structure Persistence where
  loading : UInt32 := 0
  rdbChangesSinceLastSave : UInt32 := 0
  rdbBgsaveInProgress : UInt32 := 0
  rdbLastSaveTime : UInt32 := 0
  rdbLastBgsaveStatus : Text := []
  rdbLastBgsaveTimeSec : Int32 := 0
  rdbCurrentBgsaveTimeSec : Int32 := 0
  aofEnabled : UInt32 := 0
  aofRewriteInProgress : UInt32 := 0
  aofRewriteScheduled : UInt32 := 0
  aofLastRewriteTimeSec : Int32 := 0
  aofCurrentRewriteTimeSec : Int32 := 0
  aofLastBgrewriteStatus : Text := []
  aofLastWriteStatus : Text := []
deriving DecidableEq

def Persistence.fields (persistence : Persistence) : List (Text × Text) :=
  [(ascii "loading", natText persistence.loading.toNat),
    (ascii "rdb_changes_since_last_save", natText persistence.rdbChangesSinceLastSave.toNat),
    (ascii "rdb_bgsave_in_progress", natText persistence.rdbBgsaveInProgress.toNat),
    (ascii "rdb_last_save_time", natText persistence.rdbLastSaveTime.toNat),
    (ascii "rdb_last_bgsave_status", persistence.rdbLastBgsaveStatus),
    (ascii "rdb_last_bgsave_time_sec", intText persistence.rdbLastBgsaveTimeSec.toInt),
    (ascii "rdb_current_bgsave_time_sec", intText persistence.rdbCurrentBgsaveTimeSec.toInt),
    (ascii "aof_enabled", natText persistence.aofEnabled.toNat),
    (ascii "aof_rewrite_in_progress", natText persistence.aofRewriteInProgress.toNat),
    (ascii "aof_rewrite_scheduled", natText persistence.aofRewriteScheduled.toNat),
    (ascii "aof_last_rewrite_time_sec", intText persistence.aofLastRewriteTimeSec.toInt),
    (ascii "aof_current_rewrite_time_sec", intText persistence.aofCurrentRewriteTimeSec.toInt),
    (ascii "aof_last_bgrewrite_status", persistence.aofLastBgrewriteStatus),
    (ascii "aof_last_write_status", persistence.aofLastWriteStatus)]

def Persistence.setters : List (Setter Library Persistence) :=
  [uint32Field "loading" fun value persistence => { persistence with loading := value },
    uint32Field "rdb_changes_since_last_save" fun value persistence =>
    { persistence with rdbChangesSinceLastSave := value },
    uint32Field "rdb_bgsave_in_progress" fun value persistence =>
    { persistence with rdbBgsaveInProgress := value },
    uint32Field "rdb_last_save_time" fun value persistence => { persistence with rdbLastSaveTime := value },
    textField "rdb_last_bgsave_status" fun value persistence => { persistence with rdbLastBgsaveStatus := value },
    intField "rdb_last_bgsave_time_sec" fun value persistence =>
    { persistence with rdbLastBgsaveTimeSec := value },
    intField "rdb_current_bgsave_time_sec" fun value persistence =>
    { persistence with rdbCurrentBgsaveTimeSec := value },
    uint32Field "aof_enabled" fun value persistence => { persistence with aofEnabled := value },
    uint32Field "aof_rewrite_in_progress" fun value persistence =>
    { persistence with aofRewriteInProgress := value },
    uint32Field "aof_rewrite_scheduled" fun value persistence => { persistence with aofRewriteScheduled := value },
    intField "aof_last_rewrite_time_sec" fun value persistence =>
    { persistence with aofLastRewriteTimeSec := value },
    intField "aof_current_rewrite_time_sec" fun value persistence =>
    { persistence with aofCurrentRewriteTimeSec := value },
    textField "aof_last_bgrewrite_status" fun value persistence =>
    { persistence with aofLastBgrewriteStatus := value },
    textField "aof_last_write_status" fun value persistence => { persistence with aofLastWriteStatus := value }]

def Persistence.strings : List (Persistence → Text) :=
  [Persistence.rdbLastBgsaveStatus, Persistence.aofLastBgrewriteStatus, Persistence.aofLastWriteStatus]

def Persistence.format : StateField Persistence where
  fields _ persistence := persistence.fields
  table := ⟨Persistence.setters, by decide +kernel, by decide +kernel⟩
  strings := Persistence.strings
  names _ _ := rfl
  written lib lawful persistence := by
    simp [Persistence.fields, Persistence.strings, quiet_natText, quiet_intText]
  sets := by simp [Persistence.strings, Persistence.setters]

structure Stats where
  totalConnectionsReceived : UInt32 := 0
  totalCommandsProcessed : UInt32 := 0
  instantaneousOpsPerSec : UInt32 := 0
  rejectedConnections : UInt32 := 0
  syncFull : UInt32 := 0
  syncPartialOk : UInt32 := 0
  syncPartialErr : UInt32 := 0
  expiredKeys : UInt32 := 0
  evictedKeys : UInt32 := 0
  keyspaceHits : UInt32 := 0
  keyspaceMisses : UInt32 := 0
  pubsubChannels : UInt32 := 0
  pubsubPatterns : UInt32 := 0
  latestForkUsec : UInt32 := 0
deriving DecidableEq

def Stats.fields (stats : Stats) : List (Text × Text) :=
  [(ascii "total_connections_received", natText stats.totalConnectionsReceived.toNat),
    (ascii "total_commands_processed", natText stats.totalCommandsProcessed.toNat),
    (ascii "instantaneous_ops_per_sec", natText stats.instantaneousOpsPerSec.toNat),
    (ascii "rejected_connections", natText stats.rejectedConnections.toNat),
    (ascii "sync_full", natText stats.syncFull.toNat),
    (ascii "sync_partial_ok", natText stats.syncPartialOk.toNat),
    (ascii "sync_partial_err", natText stats.syncPartialErr.toNat),
    (ascii "expired_keys", natText stats.expiredKeys.toNat),
    (ascii "evicted_keys", natText stats.evictedKeys.toNat),
    (ascii "keyspace_hits", natText stats.keyspaceHits.toNat),
    (ascii "keyspace_misses", natText stats.keyspaceMisses.toNat),
    (ascii "pubsub_channels", natText stats.pubsubChannels.toNat),
    (ascii "pubsub_patterns", natText stats.pubsubPatterns.toNat),
    (ascii "latest_fork_usec", natText stats.latestForkUsec.toNat)]

def Stats.setters : List (Setter Library Stats) :=
  [uint32Field "total_connections_received" fun value stats => { stats with totalConnectionsReceived := value },
    uint32Field "total_commands_processed" fun value stats => { stats with totalCommandsProcessed := value },
    uint32Field "instantaneous_ops_per_sec" fun value stats => { stats with instantaneousOpsPerSec := value },
    uint32Field "rejected_connections" fun value stats => { stats with rejectedConnections := value },
    uint32Field "sync_full" fun value stats => { stats with syncFull := value },
    uint32Field "sync_partial_ok" fun value stats => { stats with syncPartialOk := value },
    uint32Field "sync_partial_err" fun value stats => { stats with syncPartialErr := value },
    uint32Field "expired_keys" fun value stats => { stats with expiredKeys := value },
    uint32Field "evicted_keys" fun value stats => { stats with evictedKeys := value },
    uint32Field "keyspace_hits" fun value stats => { stats with keyspaceHits := value },
    uint32Field "keyspace_misses" fun value stats => { stats with keyspaceMisses := value },
    uint32Field "pubsub_channels" fun value stats => { stats with pubsubChannels := value },
    uint32Field "pubsub_patterns" fun value stats => { stats with pubsubPatterns := value },
    uint32Field "latest_fork_usec" fun value stats => { stats with latestForkUsec := value }]

def Stats.format : StateField Stats where
  fields _ stats := stats.fields
  table := ⟨Stats.setters, by decide +kernel, by decide +kernel⟩
  strings := []
  names _ _ := rfl
  written lib lawful stats := by
    simp [Stats.fields, quiet_natText]
  sets := by simp

structure Replication where
  role : Text := []
  connectedSlaves : UInt32 := 0
  masterReplOffset : UInt32 := 0
  backlogActive : UInt32 := 0
  backlogSize : UInt32 := 0
  backlogFirstByteOffset : UInt32 := 0
  backlogHisten : UInt32 := 0
deriving DecidableEq

def Replication.fields (replication : Replication) : List (Text × Text) :=
  [(ascii "role", replication.role),
    (ascii "connected_slaves", natText replication.connectedSlaves.toNat),
    (ascii "master_repl_offset", natText replication.masterReplOffset.toNat),
    (ascii "repl_backlog_active", natText replication.backlogActive.toNat),
    (ascii "repl_backlog_size", natText replication.backlogSize.toNat),
    (ascii "repl_backlog_first_byte_offset", natText replication.backlogFirstByteOffset.toNat),
    (ascii "repl_backlog_histlen", natText replication.backlogHisten.toNat)]

def Replication.setters : List (Setter Library Replication) :=
  [textField "role" fun value replication => { replication with role := value },
    uint32Field "connected_slaves" fun value replication => { replication with connectedSlaves := value },
    uint32Field "master_repl_offset" fun value replication => { replication with masterReplOffset := value },
    uint32Field "repl_backlog_active" fun value replication => { replication with backlogActive := value },
    uint32Field "repl_backlog_size" fun value replication => { replication with backlogSize := value },
    uint32Field "repl_backlog_first_byte_offset" fun value replication =>
    { replication with backlogFirstByteOffset := value },
    uint32Field "repl_backlog_histlen" fun value replication => { replication with backlogHisten := value }]

def Replication.strings : List (Replication → Text) := [Replication.role]

def Replication.format : StateField Replication where
  fields _ replication := replication.fields
  table := ⟨Replication.setters, by decide +kernel, by decide +kernel⟩
  strings := Replication.strings
  names _ _ := rfl
  written lib lawful replication := by
    simp [Replication.fields, Replication.strings, quiet_natText]
  sets := by simp [Replication.strings, Replication.setters]

structure Cpu where
  usedCpuSys : UInt32 := 0
  usedCpuUser : UInt32 := 0
  usedCpuSysChildren : UInt32 := 0
  usedCpuUserChildren : UInt32 := 0
deriving DecidableEq

def Cpu.fields (lib : Library) (cpu : Cpu) : List (Text × Text) :=
  [(ascii "used_cpu_sys", lib.printFloat cpu.usedCpuSys),
    (ascii "used_cpu_user", lib.printFloat cpu.usedCpuUser),
    (ascii "used_cpu_sys_children", lib.printFloat cpu.usedCpuSysChildren),
    (ascii "used_cpu_user_children", lib.printFloat cpu.usedCpuUserChildren)]

def Cpu.setters : List (Setter Library Cpu) :=
  [floatField "used_cpu_sys" fun value cpu => { cpu with usedCpuSys := value },
    floatField "used_cpu_user" fun value cpu => { cpu with usedCpuUser := value },
    floatField "used_cpu_sys_children" fun value cpu => { cpu with usedCpuSysChildren := value },
    floatField "used_cpu_user_children" fun value cpu => { cpu with usedCpuUserChildren := value }]

def Cpu.format : StateField Cpu where
  fields lib cpu := Cpu.fields lib cpu
  table := ⟨Cpu.setters, by decide +kernel, by decide +kernel⟩
  strings := []
  names _ _ := rfl
  written lib lawful cpu := by
    simp [Cpu.fields, lawful.quiet_printFloat]
  sets := by simp

structure Keyspace where
deriving DecidableEq

end ServerInfo

structure ServerInfo where
  server : ServerInfo.Server := {}
  clients : ServerInfo.Clients := {}
  memory : ServerInfo.Memory := {}
  persistence : ServerInfo.Persistence := {}
  stats : ServerInfo.Stats := {}
  replication : ServerInfo.Replication := {}
  cpu : ServerInfo.Cpu := {}
  keySp : ServerInfo.Keyspace := {}
deriving DecidableEq

namespace ServerInfo

-- The headers of `DBTraits<REDIS>::InfoFields()`; the last section has no fields.
def serverLabel : Text := ascii "# Server"
def clientsLabel : Text := ascii "# Clients"
def memoryLabel : Text := ascii "# Memory"
def persistenceLabel : Text := ascii "# Persistence"
def statsLabel : Text := ascii "# Stats"
def replicationLabel : Text := ascii "# Replication"
def cpuLabel : Text := ascii "# CPU"
def keyspaceLabel : Text := ascii "# Keyspace"

def infoFields : List Text :=
  [serverLabel, clientsLabel, memoryLabel, persistenceLabel, statsLabel, replicationLabel, cpuLabel, keyspaceLabel]

variable (lib : Library)

def parts (info : ServerInfo) : List (Text × Text) :=
  [(serverLabel, crlf ++ Server.format.text lib info.server),
    (clientsLabel, crlf ++ Clients.format.text lib info.clients),
    (memoryLabel, crlf ++ Memory.format.text lib info.memory),
    (persistenceLabel, crlf ++ Persistence.format.text lib info.persistence),
    (statsLabel, crlf ++ Stats.format.text lib info.stats),
    (replicationLabel, crlf ++ Replication.format.text lib info.replication),
    (cpuLabel, crlf ++ Cpu.format.text lib info.cpu)]

def text (info : ServerInfo) : Text := writeSections (info.parts lib) ++ (keyspaceLabel ++ crlf)

def makeRedisServerInfo (content : Text) : Option ServerInfo :=
  if content = [] then none
  else
    let found := sections infoFields content
    some
      { server := Server.format.readSection lib {} {} found[0]?
        clients := Clients.format.readSection lib {} {} found[1]?
        memory := Memory.format.readSection lib {} {} found[2]?
        persistence := Persistence.format.readSection lib {} {} found[3]?
        stats := Stats.format.readSection lib {} {} found[4]?
        replication := Replication.format.readSection lib {} {} found[5]?
        cpu := Cpu.format.readSection lib {} {} found[6]? }

-- The string fields of all sections.
def strings (info : ServerInfo) : List Text :=
  Server.format.strings.map (· info.server) ++ Memory.format.strings.map (· info.memory) ++
    Persistence.format.strings.map (· info.persistence) ++ Replication.format.strings.map (· info.replication)

def floats (info : ServerInfo) : List UInt32 :=
  [info.memory.memFragmentationRatio, info.cpu.usedCpuSys, info.cpu.usedCpuUser, info.cpu.usedCpuSysChildren,
    info.cpu.usedCpuUserChildren]

/-- No string of a section holds the header that ends the section, and the build id, which is
neither written nor read, is empty. -/
structure Kept (info : ServerInfo) : Prop where
  buildId : info.server.redisBuildId = []
  server : ∀ string ∈ Server.format.strings, ¬ clientsLabel <:+: string info.server
  memory : ∀ string ∈ Memory.format.strings, ¬ persistenceLabel <:+: string info.memory
  persistence : ∀ string ∈ Persistence.format.strings, ¬ statsLabel <:+: string info.persistence
  replication : ∀ string ∈ Replication.format.strings, ¬ cpuLabel <:+: string info.replication

/-! ## Each section reads back -/

section ReadBack

variable (lawful : lib.Lawful)
include lawful

theorem Server.ofText_text (server : Server) (clean : ∀ string ∈ Server.format.strings, OneLine (string server)) :
    Server.format.ofText lib {} (crlf ++ Server.format.text lib server) = { server with redisBuildId := [] } := by
  rw [StateField.ofText_text _ _ lawful _ _ clean]
  show setAll lib Server.setters (server.fields.map Prod.snd) {} = _
  simp [Server.setters, Server.fields, lawful.common.toUInt32_natText]

theorem Clients.ofText_text (clients : Clients) :
    Clients.format.ofText lib {} (crlf ++ Clients.format.text lib clients) = clients := by
  rw [StateField.ofText_text _ _ lawful _ _ (by simp [Clients.format])]
  show setAll lib Clients.setters (clients.fields.map Prod.snd) {} = _
  simp [Clients.setters, Clients.fields, lawful.common.toUInt32_natText]

theorem Memory.ofText_text (memory : Memory) (clean : ∀ string ∈ Memory.format.strings, OneLine (string memory))
    (exact : lib.readFloat (lib.printFloat memory.memFragmentationRatio) = memory.memFragmentationRatio) :
    Memory.format.ofText lib {} (crlf ++ Memory.format.text lib memory) = memory := by
  rw [StateField.ofText_text _ _ lawful _ _ clean]
  show setAll lib Memory.setters ((Memory.fields lib memory).map Prod.snd) {} = _
  simp [Memory.setters, Memory.fields, lawful.common.toUInt32_natText, exact]

theorem Persistence.ofText_text (persistence : Persistence)
    (clean : ∀ string ∈ Persistence.format.strings, OneLine (string persistence)) :
    Persistence.format.ofText lib {} (crlf ++ Persistence.format.text lib persistence) = persistence := by
  rw [StateField.ofText_text _ _ lawful _ _ clean]
  show setAll lib Persistence.setters (persistence.fields.map Prod.snd) {} = _
  simp [Persistence.setters, Persistence.fields, lawful.common.toUInt32_natText, lawful.common.toInt_intText]

theorem Stats.ofText_text (stats : Stats) :
    Stats.format.ofText lib {} (crlf ++ Stats.format.text lib stats) = stats := by
  rw [StateField.ofText_text _ _ lawful _ _ (by simp [Stats.format])]
  show setAll lib Stats.setters (stats.fields.map Prod.snd) {} = _
  simp [Stats.setters, Stats.fields, lawful.common.toUInt32_natText]

theorem Replication.ofText_text (replication : Replication)
    (clean : ∀ string ∈ Replication.format.strings, OneLine (string replication)) :
    Replication.format.ofText lib {} (crlf ++ Replication.format.text lib replication) = replication := by
  rw [StateField.ofText_text _ _ lawful _ _ clean]
  show setAll lib Replication.setters (replication.fields.map Prod.snd) {} = _
  simp [Replication.setters, Replication.fields, lawful.common.toUInt32_natText]

theorem Cpu.ofText_text (cpu : Cpu)
    (exact : ∀ f ∈ [cpu.usedCpuSys, cpu.usedCpuUser, cpu.usedCpuSysChildren, cpu.usedCpuUserChildren],
      lib.readFloat (lib.printFloat f) = f) :
    Cpu.format.ofText lib {} (crlf ++ Cpu.format.text lib cpu) = cpu := by
  simp only [List.forall_mem_cons] at exact
  rw [StateField.ofText_text _ _ lawful _ _ (by simp [Cpu.format])]
  show setAll lib Cpu.setters ((Cpu.fields lib cpu).map Prod.snd) {} = _
  simp [Cpu.setters, Cpu.fields, exact]

theorem separated (info : ServerInfo) (kept : info.Kept) : Separated keyspaceLabel (info.parts lib) := by
  refine ⟨?server, ?clients, ?memory, ?persistence, ?stats, ?replication, ?cpu, trivial⟩
  case server =>
    exact Server.format.endsAt_text lib lawful info.server serverLabel clientsLabel (by decide) (by decide) (by decide)
      kept.server
  case clients =>
    exact Clients.format.endsAt_text lib lawful info.clients clientsLabel memoryLabel (by decide) (by decide) (by decide)
      nofun
  case memory =>
    exact Memory.format.endsAt_text lib lawful info.memory memoryLabel persistenceLabel (by decide) (by decide) (by decide)
      kept.memory
  case persistence =>
    exact Persistence.format.endsAt_text lib lawful info.persistence persistenceLabel statsLabel (by decide) (by decide) (by decide)
      kept.persistence
  case stats =>
    exact Stats.format.endsAt_text lib lawful info.stats statsLabel replicationLabel (by decide) (by decide) (by decide)
      nofun
  case replication =>
    exact Replication.format.endsAt_text lib lawful info.replication replicationLabel cpuLabel (by decide) (by decide) (by decide)
      kept.replication
  case cpu =>
    exact Cpu.format.endsAt_text lib lawful info.cpu cpuLabel keyspaceLabel (by decide) (by decide) (by decide)
      nofun

theorem makeRedisServerInfo_text (info : ServerInfo) (clean : ∀ string ∈ info.strings, OneLine string)
    (exact : ∀ f ∈ info.floats, lib.readFloat (lib.printFloat f) = f) (kept : info.Kept) :
    makeRedisServerInfo lib (info.text lib) = some info := by
  have found : sections infoFields (info.text lib) = (info.parts lib).map Prod.snd :=
    sections_writeSections (info.parts lib) keyspaceLabel crlf (separated lib lawful info kept)
  have nonempty : info.text lib ≠ [] := by
    have starts : serverLabel <+: info.text lib := firstHeader_prefix (info.parts lib) keyspaceLabel crlf
    exact fun empty => absurd (List.prefix_nil.mp (empty ▸ starts)) (by decide)
  simp only [strings, List.forall_mem_append, List.forall_mem_map] at clean
  simp only [floats, List.forall_mem_cons] at exact
  obtain ⟨⟨⟨server, memory⟩, persistence⟩, replication⟩ := clean
  rw [makeRedisServerInfo, if_neg nonempty, found]
  simp only [parts, List.map_cons, List.getElem?_cons_zero, List.getElem?_cons_succ, StateField.readSection]
  rw [Server.ofText_text lib lawful _ server, Clients.ofText_text lib lawful,
    Memory.ofText_text lib lawful _ memory exact.1, Persistence.ofText_text lib lawful _ persistence,
    Stats.ofText_text lib lawful, Replication.ofText_text lib lawful _ replication,
    Cpu.ofText_text lib lawful _ (by simpa only [List.forall_mem_cons] using exact.2), ← kept.buildId]

end ReadBack

/-! ## What is read is never cut -/

theorem readSection_ends {σ : Type} (format : StateField σ) (start : σ) (content next : Text) (k : Nat)
    (follows : infoFields[k + 1]? = some next) (string : σ → Text) (member : string ∈ format.strings)
    (initial : string start = []) :
    ¬ next <:+: string (format.readSection lib start start (sections infoFields content)[k]?) := by
  have headers : ∀ header ∈ infoFields, header ≠ [] := by decide
  have nonempty : next ≠ [] := headers next (List.mem_of_getElem? follows)
  have empty : ¬ next <:+: string start := by
    rw [initial]
    exact fun inside => nonempty (List.infix_nil.mp inside)
  cases found : (sections infoFields content)[k]? with
  | none => exact empty
  | some part =>
      have absent := sectionsFrom_ends content infoFields headers _ 0 (some 0) [] (by simp) k part next found follows
      exact format.not_infix_ofText lib start part next absent string member empty

theorem kept_of_makeRedisServerInfo (content : Text) (info : ServerInfo)
    (made : makeRedisServerInfo lib content = some info) : info.Kept := by
  unfold makeRedisServerInfo at made
  split at made
  · cases made
  · obtain rfl := Option.some.inj made
    refine ⟨?buildId, ?server, ?memory, ?persistence, ?replication⟩
    case buildId =>
      cases found : (sections infoFields content)[0]? with
      | none => rfl
      | some part =>
          exact readFields_keeps Server.format.table lib Server.redisBuildId {} part
            (by simp [Server.format, Server.setters])
    case server =>
      intro string member
      exact readSection_ends lib Server.format {} content _ 0 rfl string member
        (by revert string; simp [Server.format, Server.strings])
    case memory =>
      intro string member
      exact readSection_ends lib Memory.format {} content _ 2 rfl string member
        (by revert string; simp [Memory.format, Memory.strings])
    case persistence =>
      intro string member
      exact readSection_ends lib Persistence.format {} content _ 3 rfl string member
        (by revert string; simp [Persistence.format, Persistence.strings])
    case replication =>
      intro string member
      exact readSection_ends lib Replication.format {} content _ 5 rfl string member
        (by revert string; simp [Replication.format, Replication.strings])

/-- The round trip through the text holds of exactly the infos that nothing cuts. -/
theorem makeRedisServerInfo_text_iff (lawful : lib.Lawful) (info : ServerInfo)
    (clean : ∀ string ∈ info.strings, OneLine string)
    (exact : ∀ f ∈ info.floats, lib.readFloat (lib.printFloat f) = f) :
    makeRedisServerInfo lib (info.text lib) = some info ↔ info.Kept := by
  constructor
  · exact kept_of_makeRedisServerInfo lib _ info
  · exact makeRedisServerInfo_text lib lawful info clean exact

def loaded : ServerInfo where
  server := { redisVersion := ascii "4.0.1", redisMode := ascii "standalone", archBits := 64, tcpPort := 6379 }
  memory := { usedMemory := 4294967295, usedMemoryHuman := ascii "4.00G", memFragmentationRatio := 0x3F800000 }
  persistence := { rdbLastBgsaveStatus := ascii "ok", rdbLastBgsaveTimeSec := -1 }
  replication := { role := ascii "# master" }

theorem loaded_reads_back :
    makeRedisServerInfo Library.std (loaded.text Library.std) = some loaded := by
  have exact : ∀ f ∈ loaded.floats, Library.std.readFloat (Library.std.printFloat f) = f := by
    simp only [floats, List.forall_mem_cons, List.not_mem_nil, false_implies, implies_true, and_true]
    decide
  exact (makeRedisServerInfo_text_iff Library.std Library.std_lawful loaded (by decide) exact).mpr
    ⟨rfl, by decide, by decide, by decide, by decide⟩

-- A build id is shown as a field of the section, but neither written nor read.
theorem build_id_lost :
    let built : ServerInfo := { server := { redisBuildId := ascii "9435c3c2879311f3" } }
    (∀ string ∈ built.strings, OneLine string) ∧
      (∀ f ∈ built.floats, Library.std.readFloat (Library.std.printFloat f) = f) ∧
      makeRedisServerInfo Library.std (built.text Library.std) ≠ some built := by
  refine ⟨by decide, ?_, ?_⟩
  · simp only [floats, List.forall_mem_cons, List.not_mem_nil, false_implies, implies_true, and_true]
    decide
  intro made
  have empty := (kept_of_makeRedisServerInfo Library.std _ _ made).buildId
  revert empty
  decide

end ServerInfo

end FastoNoSQL.Redis
