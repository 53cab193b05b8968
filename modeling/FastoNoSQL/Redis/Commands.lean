import FastoNoSQL.Command.Holder

set_option autoImplicit false

/-!
# The command table of redis

`redisCommands` of `core/redis/internal/commands_api.h`.
-/

namespace FastoNoSQL.Redis

open Bytes

inductive Handler where
  | commonExec
  | commonExecOff2
  | auth
  | quit
  | select
  | del
  | set
  | get
  | lrange
  | smembers
  | zrange
  | hgetall
  | rename
  | persist
  | expire
  | help
  | monitor
  | subscribe
  | sync
deriving DecidableEq

def commands : List (CommandHolder Handler) :=
  [⟨ascii "APPEND", 2, 0, .commonExec⟩,
   ⟨ascii "AUTH", 1, 0, .auth⟩,
   ⟨ascii "BGREWRITEAOF", 0, 0, .commonExec⟩,
   ⟨ascii "BGSAVE", 0, 0, .commonExec⟩,
   ⟨ascii "BITCOUNT", 1, 2, .commonExec⟩,
   ⟨ascii "BITOP", 1, 2, .commonExec⟩,
   ⟨ascii "BITPOS", 2, 2, .commonExec⟩,
   ⟨ascii "BLPOP", 1, infiniteArgs, .commonExec⟩,
   ⟨ascii "BRPOP", 1, infiniteArgs, .commonExec⟩,
   ⟨ascii "BRPOPLPUSH", 0, 0, .commonExec⟩,
   ⟨ascii "CLIENT GETNAME", 0, 0, .commonExecOff2⟩,
   ⟨ascii "CLIENT KILL", 0, 9, .commonExecOff2⟩,
   ⟨ascii "CLIENT LIST", 0, 0, .commonExecOff2⟩,
   ⟨ascii "CLIENT PAUSE", 1, 0, .commonExecOff2⟩,
   ⟨ascii "CLIENT REPLY", 1, 0, .commonExecOff2⟩,
   ⟨ascii "CLIENT SETNAME", 1, 0, .commonExecOff2⟩,
   ⟨ascii "CLUSTER ADDSLOTS", 1, infiniteArgs, .commonExecOff2⟩,
   ⟨ascii "CLUSTER COUNT-FAILURE-REPORTS", 1, 0, .commonExecOff2⟩,
   ⟨ascii "CLUSTER COUNTKEYSINSLOT", 1, 0, .commonExecOff2⟩,
   ⟨ascii "CLUSTER DELSLOTS", 1, infiniteArgs, .commonExecOff2⟩,
   ⟨ascii "CLUSTER FAILOVER", 0, 1, .commonExecOff2⟩,
   ⟨ascii "CLUSTER FORGET", 1, 0, .commonExecOff2⟩,
   ⟨ascii "CLUSTER GETKEYSINSLOT", 2, 0, .commonExecOff2⟩,
   ⟨ascii "CLUSTER INFO", 0, 0, .commonExecOff2⟩,
   ⟨ascii "CLUSTER KEYSLOT", 1, 0, .commonExecOff2⟩,
   ⟨ascii "CLUSTER MEET", 2, 0, .commonExecOff2⟩,
   ⟨ascii "CLUSTER NODES", 0, 0, .commonExecOff2⟩,
   ⟨ascii "CLUSTER REPLICATE", 1, 0, .commonExecOff2⟩,
   ⟨ascii "CLUSTER RESET", 0, 1, .commonExecOff2⟩,
   ⟨ascii "CLUSTER SAVECONFIG", 0, 0, .commonExecOff2⟩,
   ⟨ascii "CLUSTER SET-CONFIG-EPOCH", 1, 0, .commonExecOff2⟩,
   ⟨ascii "CLUSTER SETSLOT", 2, 2, .commonExecOff2⟩,
   ⟨ascii "CLUSTER SLAVES", 1, 0, .commonExecOff2⟩,
   ⟨ascii "CLUSTER SLOTS", 0, 0, .commonExecOff2⟩,
   ⟨ascii "COMMAND COUNT", 0, 0, .commonExecOff2⟩,
   ⟨ascii "COMMAND GETKEYS", 0, 0, .commonExecOff2⟩,
   ⟨ascii "COMMAND INFO", 1, infiniteArgs, .commonExecOff2⟩,
   ⟨ascii "COMMAND", 0, 0, .commonExec⟩,
   ⟨ascii "CONFIG GET", 1, 0, .commonExecOff2⟩,
   ⟨ascii "CONFIG RESETSTAT", 0, 0, .commonExecOff2⟩,
   ⟨ascii "CONFIG REWRITE", 0, 0, .commonExecOff2⟩,
   ⟨ascii "CONFIG SET", 2, 0, .commonExecOff2⟩,
   ⟨ascii "DBSIZE", 0, 0, .commonExec⟩,
   ⟨ascii "DEBUG OBJECT", 1, 0, .commonExecOff2⟩,
   ⟨ascii "DEBUG SEGFAULT", 0, 0, .commonExecOff2⟩,
   ⟨ascii "DECR", 1, 0, .commonExec⟩,
   ⟨ascii "DECRBY", 2, 0, .commonExec⟩,
   ⟨ascii "DEL", 1, infiniteArgs, .del⟩,
   ⟨ascii "DISCARD", 0, 0, .commonExec⟩,
   ⟨ascii "DUMP", 1, 0, .commonExec⟩,
   ⟨ascii "ECHO", 1, 0, .commonExec⟩,
   ⟨ascii "EVAL", 2, infiniteArgs, .commonExec⟩,
   ⟨ascii "EVALSHA", 2, infiniteArgs, .commonExec⟩,
   ⟨ascii "EXEC", 0, 0, .commonExec⟩,
   ⟨ascii "EXISTS", 1, infiniteArgs, .commonExec⟩,
   ⟨ascii "EXPIRE", 2, 0, .expire⟩,
   ⟨ascii "EXPIREAT", 2, 0, .commonExec⟩,
   ⟨ascii "FLUSHALL", 0, 0, .commonExec⟩,
   ⟨ascii "FLUSHDB", 0, 0, .commonExec⟩,
   ⟨ascii "GEOADD", 4, 0, .commonExec⟩,
   ⟨ascii "GEODIST", 3, 1, .commonExec⟩,
   ⟨ascii "GEOHASH", 2, infiniteArgs, .commonExec⟩,
   ⟨ascii "GEOPOS", 2, infiniteArgs, .commonExec⟩,
   ⟨ascii "GEORADIUS", 5, 6, .commonExec⟩,
   ⟨ascii "GEORADIUSBYMEMBER", 4, 6, .commonExec⟩,
   ⟨ascii "GET", 1, 0, .get⟩,
   ⟨ascii "GETBIT", 2, 0, .commonExec⟩,
   ⟨ascii "GETRANGE", 3, 0, .commonExec⟩,
   ⟨ascii "GETSET", 2, 0, .commonExec⟩,
   ⟨ascii "HDEL", 2, infiniteArgs, .commonExec⟩,
   ⟨ascii "HEXISTS", 2, 0, .commonExec⟩,
   ⟨ascii "HGET", 2, 0, .commonExec⟩,
   ⟨ascii "HGETALL", 1, 0, .hgetall⟩,
   ⟨ascii "HINCRBY", 3, 0, .commonExec⟩,
   ⟨ascii "HINCRBYFLOAT", 3, 0, .commonExec⟩,
   ⟨ascii "HKEYS", 1, 0, .commonExec⟩,
   ⟨ascii "HLEN", 1, 0, .commonExec⟩,
   ⟨ascii "HMGET", 2, infiniteArgs, .commonExec⟩,
   ⟨ascii "HMSET", 3, infiniteArgs, .commonExec⟩,
   ⟨ascii "HSCAN", 2, 4, .commonExec⟩,
   ⟨ascii "HSET", 3, 0, .commonExec⟩,
   ⟨ascii "HSETNX", 3, 0, .commonExec⟩,
   ⟨ascii "HSTRLEN", 2, 0, .commonExec⟩,
   ⟨ascii "HVALS", 1, 0, .commonExec⟩,
   ⟨ascii "INCR", 1, 0, .commonExec⟩,
   ⟨ascii "INCRBY", 2, 0, .commonExec⟩,
   ⟨ascii "INCRBYFLOAT", 2, 0, .commonExec⟩,
   ⟨ascii "INFO", 0, 1, .commonExec⟩,
   ⟨ascii "KEYS", 1, 0, .commonExec⟩,
   ⟨ascii "LASTSAVE", 0, 0, .commonExec⟩,
   ⟨ascii "LINDEX", 2, 0, .commonExec⟩,
   ⟨ascii "LINSERT", 3, 0, .commonExec⟩,
   ⟨ascii "LLEN", 1, 0, .commonExec⟩,
   ⟨ascii "LPOP", 1, 0, .commonExec⟩,
   ⟨ascii "LPUSH", 2, infiniteArgs, .commonExec⟩,
   ⟨ascii "LPUSHX", 2, 0, .commonExec⟩,
   ⟨ascii "LRANGE", 3, 0, .lrange⟩,
   ⟨ascii "LREM", 3, 0, .commonExec⟩,
   ⟨ascii "LSET", 3, 0, .commonExec⟩,
   ⟨ascii "LTRIM", 3, 0, .commonExec⟩,
   ⟨ascii "MGET", 1, infiniteArgs, .commonExec⟩,
   ⟨ascii "MIGRATE", 5, 2, .commonExec⟩,
   ⟨ascii "MONITOR", 0, 0, .monitor⟩,
   ⟨ascii "MOVE", 2, 0, .commonExec⟩,
   ⟨ascii "MSET", 2, infiniteArgs, .commonExec⟩,
   ⟨ascii "MSETNX", 2, infiniteArgs, .commonExec⟩,
   ⟨ascii "MULTI", 0, 0, .commonExec⟩,
   ⟨ascii "OBJECT", 1, infiniteArgs, .commonExec⟩,
   ⟨ascii "PERSIST", 1, 0, .persist⟩,
   ⟨ascii "PEXPIRE", 2, 0, .commonExec⟩,
   ⟨ascii "PEXPIREAT", 2, 0, .commonExec⟩,
   ⟨ascii "PFADD", 2, infiniteArgs, .commonExec⟩,
   ⟨ascii "PFCOUNT", 1, infiniteArgs, .commonExec⟩,
   ⟨ascii "PFMERGE", 2, infiniteArgs, .commonExec⟩,
   ⟨ascii "PING", 0, 1, .commonExec⟩,
   ⟨ascii "PSETEX", 3, 0, .commonExec⟩,
   ⟨ascii "PSUBSCRIBE", 1, infiniteArgs, .subscribe⟩,
   ⟨ascii "PTTL", 1, 0, .commonExec⟩,
   ⟨ascii "PUBLISH", 2, 0, .commonExec⟩,
   ⟨ascii "PUBSUB", 1, infiniteArgs, .commonExec⟩,
   ⟨ascii "PUNSUBSCRIBE", 0, infiniteArgs, .commonExec⟩,
   ⟨ascii "QUIT", 0, 0, .quit⟩,
   ⟨ascii "RANDOMKEY", 0, 0, .commonExec⟩,
   ⟨ascii "READONLY", 0, 0, .commonExec⟩,
   ⟨ascii "READWRITE", 0, 0, .commonExec⟩,
   ⟨ascii "RENAME", 2, 0, .rename⟩,
   ⟨ascii "RENAMENX", 2, 0, .commonExec⟩,
   ⟨ascii "RESTORE", 3, 1, .commonExec⟩,
   ⟨ascii "ROLE", 0, 0, .commonExec⟩,
   ⟨ascii "RPOP", 1, 0, .commonExec⟩,
   ⟨ascii "RPOPLPUSH", 2, 0, .commonExec⟩,
   ⟨ascii "RPUSH", 2, infiniteArgs, .commonExec⟩,
   ⟨ascii "RPUSHX", 2, 0, .commonExec⟩,
   ⟨ascii "SADD", 2, infiniteArgs, .commonExec⟩,
   ⟨ascii "SAVE", 0, 0, .commonExec⟩,
   ⟨ascii "SCAN", 1, 4, .commonExec⟩,
   ⟨ascii "SCARD", 1, 0, .commonExec⟩,
   ⟨ascii "SCRIPT DEBUG", 1, 0, .commonExecOff2⟩,
   ⟨ascii "SCRIPT EXISTS", 1, infiniteArgs, .commonExecOff2⟩,
   ⟨ascii "SCRIPT FLUSH", 0, 0, .commonExecOff2⟩,
   ⟨ascii "SCRIPT KILL", 0, 0, .commonExecOff2⟩,
   ⟨ascii "SCRIPT LOAD", 1, 0, .commonExecOff2⟩,
   ⟨ascii "SDIFF", 1, infiniteArgs, .commonExec⟩,
   ⟨ascii "SDIFFSTORE", 2, infiniteArgs, .commonExec⟩,
   ⟨ascii "SELECT", 1, 0, .select⟩,
   ⟨ascii "SET", 2, 5, .set⟩,
   ⟨ascii "SETBIT", 3, 0, .commonExec⟩,
   ⟨ascii "SETEX", 3, 0, .commonExec⟩,
   ⟨ascii "SETNX", 2, 0, .commonExec⟩,
   ⟨ascii "SETRANGE", 3, 0, .commonExec⟩,
   ⟨ascii "SHUTDOWN", 0, 1, .commonExec⟩,
   ⟨ascii "SINTER", 1, infiniteArgs, .commonExec⟩,
   ⟨ascii "SINTERSTORE", 2, infiniteArgs, .commonExec⟩,
   ⟨ascii "SISMEMBER", 2, 0, .commonExec⟩,
   ⟨ascii "SLAVEOF", 2, 0, .commonExec⟩,
   ⟨ascii "SLOWLOG", 1, 1, .commonExec⟩,
   ⟨ascii "SMEMBERS", 1, 0, .smembers⟩,
   ⟨ascii "SMOVE", 3, 0, .commonExec⟩,
   ⟨ascii "SORT", 1, infiniteArgs, .commonExec⟩,
   ⟨ascii "SPOP", 1, 1, .commonExec⟩,
   ⟨ascii "SRANDMEMBER", 1, 1, .commonExec⟩,
   ⟨ascii "SREM", 2, infiniteArgs, .commonExec⟩,
   ⟨ascii "SSCAN", 2, 4, .commonExec⟩,
   ⟨ascii "STRLEN", 1, 0, .commonExec⟩,
   ⟨ascii "SUBSCRIBE", 1, infiniteArgs, .subscribe⟩,
   ⟨ascii "SUNION", 1, infiniteArgs, .commonExec⟩,
   ⟨ascii "SUNIONSTORE", 2, infiniteArgs, .commonExec⟩,
   ⟨ascii "SYNC", 0, 0, .sync⟩,
   ⟨ascii "PSYNC", 0, 0, .sync⟩,
   ⟨ascii "TIME", 0, 0, .commonExec⟩,
   ⟨ascii "TTL", 1, 0, .commonExec⟩,
   ⟨ascii "TYPE", 1, 0, .commonExec⟩,
   ⟨ascii "UNSUBSCRIBE", 0, infiniteArgs, .commonExec⟩,
   ⟨ascii "UNWATCH", 0, 0, .commonExec⟩,
   ⟨ascii "WAIT", 2, 0, .commonExec⟩,
   ⟨ascii "WATCH", 1, infiniteArgs, .commonExec⟩,
   ⟨ascii "ZADD", 3, infiniteArgs, .commonExec⟩,
   ⟨ascii "ZCARD", 1, 0, .commonExec⟩,
   ⟨ascii "ZCOUNT", 3, 0, .commonExec⟩,
   ⟨ascii "ZINCRBY", 3, 0, .commonExec⟩,
   ⟨ascii "ZINTERSTORE", 3, infiniteArgs, .commonExec⟩,
   ⟨ascii "ZLEXCOUNT", 3, 0, .commonExec⟩,
   ⟨ascii "ZRANGE", 3, 1, .zrange⟩,
   ⟨ascii "ZRANGEBYLEX", 3, 3, .commonExec⟩,
   ⟨ascii "ZRANGEBYSCORE", 3, 4, .commonExec⟩,
   ⟨ascii "ZRANK", 2, 0, .commonExec⟩,
   ⟨ascii "ZREM", 2, infiniteArgs, .commonExec⟩,
   ⟨ascii "ZREMRANGEBYLEX", 3, 0, .commonExec⟩,
   ⟨ascii "ZREMRANGEBYRANK", 3, 0, .commonExec⟩,
   ⟨ascii "ZREMRANGEBYSCORE", 3, 0, .commonExec⟩,
   ⟨ascii "ZREVRANGE", 3, 1, .commonExec⟩,
   ⟨ascii "ZREVRANGEBYLEX", 3, 3, .commonExec⟩,
   ⟨ascii "ZREVRANGEBYSCORE", 3, 4, .commonExec⟩,
   ⟨ascii "ZREVRANK", 2, 0, .commonExec⟩,
   ⟨ascii "ZSCAN", 2, 4, .commonExec⟩,
   ⟨ascii "ZSCORE", 2, 0, .commonExec⟩,
   ⟨ascii "ZUNIONSTORE", 3, infiniteArgs, .commonExec⟩,
   ⟨ascii "SENTINEL MASTERS", 0, 0, .commonExecOff2⟩,
   ⟨ascii "SENTINEL MASTER", 1, 0, .commonExecOff2⟩,
   ⟨ascii "SENTINEL SLAVES", 1, 0, .commonExecOff2⟩,
   ⟨ascii "SENTINEL SENTINELS", 1, 0, .commonExecOff2⟩,
   ⟨ascii "SENTINEL GET-MASTER-ADDR-BY-NAME", 1, 0, .commonExecOff2⟩,
   ⟨ascii "SENTINEL RESET", 1, 0, .commonExecOff2⟩,
   ⟨ascii "SENTINEL FAILOVER", 1, 0, .commonExecOff2⟩,
   ⟨ascii "SENTINEL CKQUORUM", 1, 0, .commonExecOff2⟩,
   ⟨ascii "SENTINEL FLUSHCONFIG", 0, 0, .commonExecOff2⟩,
   ⟨ascii "SENTINEL MONITOR", 4, 0, .commonExecOff2⟩,
   ⟨ascii "SENTINEL REMOVE", 1, 0, .commonExecOff2⟩,
   ⟨ascii "SENTINEL SET", 3, 0, .commonExecOff2⟩,
   ⟨ascii "HELP", 0, 2, .help⟩]

-- The commands that the driver writes itself. No other entry starts with their words.
def writtenCommands : List (String × Nat × Nat × Handler) :=
  [("SET", 2, 5, .set), ("LPUSH", 2, infiniteArgs, .commonExec), ("SADD", 2, infiniteArgs, .commonExec),
    ("ZADD", 3, infiniteArgs, .commonExec), ("HMSET", 3, infiniteArgs, .commonExec), ("GET", 1, 0, .get),
    ("LRANGE", 3, 0, .lrange), ("SMEMBERS", 1, 0, .smembers), ("ZRANGE", 3, 1, .zrange),
    ("HGETALL", 1, 0, .hgetall), ("DEL", 1, infiniteArgs, .del), ("RENAME", 2, 0, .rename),
    ("EXPIRE", 2, 0, .expire), ("PERSIST", 1, 0, .persist)]

-- Both facts need every name of the table, so it is evaluated once for the two.
theorem commands_names :
    (∀ holder ∈ commands, holder.whiteSpacesCount = if holder.func = .commonExecOff2 then 1 else 0) ∧
      ∀ known ∈ writtenCommands, commands.filter (startsWith (ascii known.1)) =
        [⟨ascii known.1, known.2.1, known.2.2.1, known.2.2.2⟩] := by
  decide +kernel

-- `common_exec` steps back one word and `common_exec_off2` two, as many as their names have.
theorem commands_spaces : ∀ holder ∈ commands,
    holder.whiteSpacesCount = if holder.func = .commonExecOff2 then 1 else 0 :=
  commands_names.1

theorem commands_short : ∀ holder ∈ commands, holder.whiteSpacesCount ≤ 1 := by
  intro holder member
  rw [commands_spaces holder member]
  split <;> omega

section Written

variable {word : String} {required optional : Nat} {func : Handler}
variable (known : (word, required, optional, func) ∈ writtenCommands)
include known

theorem commands_filter :
    commands.filter (startsWith (ascii word)) = [⟨ascii word, required, optional, func⟩] :=
  commands_names.2 (word, required, optional, func) known

theorem written_spaces : (⟨ascii word, required, optional, func⟩ : CommandHolder Handler).whiteSpacesCount = 0 := by
  have listed : (⟨ascii word, required, optional, func⟩ : CommandHolder Handler) ∈
      commands.filter (startsWith (ascii word)) := by
    rw [commands_filter known]
    exact List.mem_singleton_self _
  have spaces := commands_spaces _ (List.mem_filter.mp listed).1
  have other : func ≠ .commonExecOff2 := by
    intro off
    subst off
    simp [writtenCommands] at known
  rw [spaces, if_neg other]

theorem arity_written : arity (ascii word) commands = some (required, required + optional) := by
  unfold arity
  rw [commands_filter known]
  exact if_pos ⟨written_spaces known, rfl⟩

theorem dispatch_written (written : Text) (args : List Text) (plain : isCommandWord written = true)
    (same : lower written = lower (ascii word)) :
    dispatch commands (written :: args) =
      if (⟨ascii word, required, optional, func⟩ : CommandHolder Handler).accepts args.length then
        .call ⟨ascii word, required, optional, func⟩ args
      else .invalidArguments ⟨ascii word, required, optional, func⟩ args.length := by
  have alike : @startsWith Handler written = startsWith (ascii word) := by
    funext holder
    simp only [startsWith, same]
  have only : commands.filter (startsWith written) = [⟨ascii word, required, optional, func⟩] := by
    rw [alike, commands_filter known]
  exact dispatch_known _ written args plain commands commands_short only (written_spaces known) same

end Written

end FastoNoSQL.Redis
