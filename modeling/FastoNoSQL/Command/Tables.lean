import FastoNoSQL.Command.Holder
import FastoNoSQL.Types

set_option autoImplicit false

/-!
# Handlers of the stores

`core/*/internal/commands_api.{h,cpp}` for every back-end but redis: the tables,
and for each handler the connection function it calls and the arguments it
reads for that. A handler that reads past its arguments has no result.
-/

namespace FastoNoSQL

open Bytes

/-- The functions of the connections that the handlers call. -/
inductive Function where
  | set | get | delete | rename | setTTL | keys | info | quit | dbkcount | flushdb
  | addIfNotExist | replace | append | prepend | incr | decr | versionServer
  | mget | merge
  | auth | setx | scan | rscan | multiGet | multiSet | multiDel
  | hget | hgetall | hset | hdel | hincr | hsize | hclear | hkeys | hscan | hrscan | multiHget | multiHset
  | zget | zset | zdel | zincr | zsize | zclear | zrank | zrrank | zrange | zrrange | zkeys | zscan | zrscan
  | multiZget | multiZset | multiZdel
  | qpush | qpop | qslice | qclear | dbsize
deriving DecidableEq

/-- How a handler indexes `argv`, in the order in which it passes the arguments on. -/
inductive Reads where
  | positions (indices : List Nat)
  -- `for (i = start; i < argc; ++i)`, beside fixed positions
  | rest (indices : List Nat) (start : Nat)
  -- `for (i = start; i < argc; i += 2)` with `argv[i]` and `argv[i + 1]`
  | pairs (indices : List Nat) (start : Nat)
  -- `argc == 1 ? argv[0] : nullptr`
  | single
deriving DecidableEq

def Reads.indices : Reads → Nat → List Nat
  | positions indices, _ => indices
  | rest indices start, argc => indices ++ List.range' start (argc - start)
  | pairs indices start, argc =>
    indices ++ (List.range' start ((argc - start + 1) / 2) 2).flatMap fun i => [i, i + 1]
  | single, argc => if argc = 1 then [0] else []

inductive Handler where
  | call (function : Function) (reads : Reads)
  -- `stats` of memcached: `STATS items` lists keys
  | stats
  -- `Help(argc - 1, argv + 1)`
  | help
deriving DecidableEq

inductive Call where
  | function (function : Function) (arguments : List Text)
  | help (argc : Int) (arguments : List Text)
deriving DecidableEq

def Call.argc : Call → Int
  | function _ arguments => arguments.length
  | help argc _ => argc

-- The C strings at the indices, unless one of them is outside of `argv`.
def readAll (argv : List Text) : List Nat → Option (List Text)
  | [] => some []
  | i :: indices => do
    let argument ← argv[i]?
    let arguments ← readAll argv indices
    return cString argument :: arguments

def Handler.run : Handler → List Text → Option Call
  | call function reads, argv => (readAll argv (reads.indices argv.length)).map (.function function)
  | stats, argv => do
    let args ← readAll argv (Reads.single.indices argv.length)
    if args.map lower = [ascii "items"] then return .function .keys [ascii "a", ascii "z", ascii "100"]
    else return .function .info args
  | help, argv => some (.help (argv.length - 1) (argv.drop 1))

namespace Memcached

def versionServer : Handler := .call .versionServer (.positions [])
def keys : Handler := .call .keys (.positions [0, 1, 2])
def stats : Handler := .stats
def flushdb : Handler := .call .flushdb .single
def del : Handler := .call .delete (.rest [] 0)
def incr : Handler := .call .incr (.positions [0, 1])
def decr : Handler := .call .decr (.positions [0, 1])
def prepend : Handler := .call .prepend (.positions [0, 3, 2, 1])
def append : Handler := .call .append (.positions [0, 3, 2, 1])
def replace : Handler := .call .replace (.positions [0, 3, 2, 1])
def add : Handler := .call .addIfNotExist (.positions [0, 3, 2, 1])
def set : Handler := .call .set (.positions [0, 1])
def get : Handler := .call .get (.positions [0])
def rename : Handler := .call .rename (.positions [0, 1])
def quit : Handler := .call .quit (.positions [])
def dbkcount : Handler := .call .dbkcount (.positions [])
def help : Handler := .help
def expire : Handler := .call .setTTL (.positions [0, 1])

def commands : List (CommandHolder Handler) :=
  [⟨ascii "VERSION", 0, 0, versionServer⟩,
   ⟨ascii "KEYS", 3, 0, keys⟩,
   ⟨ascii "STATS", 0, 1, stats⟩,
   ⟨ascii "FLUSHDB", 0, 1, flushdb⟩,
   ⟨ascii "DEL", 1, infiniteArgs, del⟩,
   ⟨ascii "INCR", 2, 0, incr⟩,
   ⟨ascii "DECR", 2, 0, decr⟩,
   ⟨ascii "PREPEND", 4, 0, prepend⟩,
   ⟨ascii "APPEND", 4, 0, append⟩,
   ⟨ascii "REPLACE", 4, 0, replace⟩,
   ⟨ascii "ADD", 4, 0, add⟩,
   ⟨ascii "SET", 4, 0, set⟩,
   ⟨ascii "GET", 1, 0, get⟩,
   ⟨ascii "RENAME", 2, 0, rename⟩,
   ⟨ascii "QUIT", 0, 0, quit⟩,
   ⟨ascii "DBKCOUNT", 0, 0, dbkcount⟩,
   ⟨ascii "HELP", 0, 1, help⟩,
   ⟨ascii "EXPIRE", 2, 0, expire⟩]

end Memcached

namespace Ssdb

def auth : Handler := .call .auth (.positions [0])
def set : Handler := .call .set (.positions [0, 1])
def get : Handler := .call .get (.positions [0])
def rename : Handler := .call .rename (.positions [0, 1])
def setx : Handler := .call .setx (.positions [0, 1, 2])
def del : Handler := .call .delete (.rest [] 0)
def incr : Handler := .call .incr (.positions [0, 1])
def keys : Handler := .call .keys (.positions [0, 1, 2])
def scan : Handler := .call .scan (.positions [0, 1, 2])
def rscan : Handler := .call .rscan (.positions [0, 1, 2])
def multiGet : Handler := .call .multiGet (.rest [] 0)
def multiSet : Handler := .call .multiSet (.pairs [] 0)
def multiDel : Handler := .call .multiDel (.rest [] 0)
def hset : Handler := .call .hset (.positions [0, 1, 2])
def hget : Handler := .call .hget (.positions [0, 1])
def hdel : Handler := .call .hdel (.positions [0, 1])
def hincr : Handler := .call .hincr (.positions [0, 1, 2])
def hsize : Handler := .call .hsize (.positions [0])
def hclear : Handler := .call .hclear (.positions [0])
def hkeys : Handler := .call .hkeys (.positions [0, 1, 2, 3])
def hgetall : Handler := .call .hgetall (.positions [0])
def hscan : Handler := .call .hscan (.positions [0, 1, 2, 3])
def hrscan : Handler := .call .hrscan (.positions [0, 1, 2, 3])
def multiHget : Handler := .call .multiHget (.rest [0] 1)
def multiHset : Handler := .call .multiHset (.pairs [0] 1)
def zset : Handler := .call .zset (.positions [0, 1, 2])
def zget : Handler := .call .zget (.positions [0, 1])
def zdel : Handler := .call .zdel (.positions [0, 1])
def zincr : Handler := .call .zincr (.positions [0, 1, 2])
def zsize : Handler := .call .zsize (.positions [0])
def zclear : Handler := .call .zclear (.positions [0])
def zrank : Handler := .call .zrank (.positions [0, 1])
def zrrank : Handler := .call .zrrank (.positions [0, 1])
def zrange : Handler := .call .zrange (.positions [0, 1, 2])
def zrrange : Handler := .call .zrrange (.positions [0, 1, 2])
def zkeys : Handler := .call .zkeys (.positions [0, 1, 2, 3, 5])
def zscan : Handler := .call .zscan (.positions [0, 1, 2, 3, 4])
def zrscan : Handler := .call .zrscan (.positions [0, 1, 2, 3, 4])
def multiZget : Handler := .call .multiZget (.rest [0] 1)
def multiZset : Handler := .call .multiZset (.pairs [0] 1)
def multiZdel : Handler := .call .multiZdel (.rest [0] 1)
def info : Handler := .call .info .single
def qpush : Handler := .call .qpush (.positions [0, 1])
def qpop : Handler := .call .qpop (.positions [0])
def qslice : Handler := .call .qslice (.positions [0, 1, 2])
def qclear : Handler := .call .qclear (.positions [0])
def dbsize : Handler := .call .dbsize (.positions [])
def quit : Handler := .call .quit (.positions [])
def dbkcount : Handler := .call .dbkcount (.positions [])
def help : Handler := .help
def flushdb : Handler := .call .flushdb (.positions [])

def commands : List (CommandHolder Handler) :=
  [⟨ascii "AUTH", 1, 0, auth⟩,
   ⟨ascii "SET", 2, 0, set⟩,
   ⟨ascii "GET", 1, 0, get⟩,
   ⟨ascii "RENAME", 2, 0, rename⟩,
   ⟨ascii "SETX", 3, 0, setx⟩,
   ⟨ascii "DEL", 1, infiniteArgs, del⟩,
   ⟨ascii "INCR", 1, 1, incr⟩,
   ⟨ascii "KEYS", 3, 0, keys⟩,
   ⟨ascii "SCAN", 3, 0, scan⟩,
   ⟨ascii "RSCAN", 3, 0, rscan⟩,
   ⟨ascii "MULTI_GET", 1, 0, multiGet⟩,
   ⟨ascii "MULTI_SET", 2, infiniteArgs, multiSet⟩,
   ⟨ascii "MULTI_DEL", 1, infiniteArgs, multiDel⟩,
   ⟨ascii "HSET", 3, 0, hset⟩,
   ⟨ascii "HGET", 2, 0, hget⟩,
   ⟨ascii "HDEL", 2, 0, hdel⟩,
   ⟨ascii "HINCR", 3, 0, hincr⟩,
   ⟨ascii "HSIZE", 1, 0, hsize⟩,
   ⟨ascii "HCLEAR", 1, 0, hclear⟩,
   ⟨ascii "HKEYS", 4, 0, hkeys⟩,
   ⟨ascii "HGETALL", 1, 0, hgetall⟩,
   ⟨ascii "HSCAN", 4, 0, hscan⟩,
   ⟨ascii "HRSCAN", 4, 0, hrscan⟩,
   ⟨ascii "MULTI_HGET", 2, 0, multiHget⟩,
   ⟨ascii "MULTI_HSET", 3, infiniteArgs, multiHset⟩,
   ⟨ascii "ZSET", 4, 0, zset⟩,
   ⟨ascii "ZGET", 2, 0, zget⟩,
   ⟨ascii "ZDEL", 2, 0, zdel⟩,
   ⟨ascii "ZINCR", 3, 0, zincr⟩,
   ⟨ascii "ZSIZE", 1, 0, zsize⟩,
   ⟨ascii "ZCLEAR", 1, 0, zclear⟩,
   ⟨ascii "ZRANK", 2, 0, zrank⟩,
   ⟨ascii "ZRRANK", 2, 0, zrrank⟩,
   ⟨ascii "ZRANGE", 3, 0, zrange⟩,
   ⟨ascii "ZRRANGE", 3, 0, zrrange⟩,
   ⟨ascii "ZKEYS", 4, 0, zkeys⟩,
   ⟨ascii "ZSCAN", 5, 0, zscan⟩,
   ⟨ascii "ZRSCAN", 5, 0, zrscan⟩,
   ⟨ascii "MULTI_ZGET", 2, 0, multiZget⟩,
   ⟨ascii "MULTI_ZSET", 3, infiniteArgs, multiZset⟩,
   ⟨ascii "MULTI_ZDEL", 2, 0, multiZdel⟩,
   ⟨ascii "INFO", 0, 1, info⟩,
   ⟨ascii "QPUSH", 2, 0, qpush⟩,
   ⟨ascii "QPOP", 2, 0, qpop⟩,
   ⟨ascii "QSLICE", 3, 0, qslice⟩,
   ⟨ascii "QCLEAR", 1, 0, qclear⟩,
   ⟨ascii "DBSIZE", 0, 0, dbsize⟩,
   ⟨ascii "QUIT", 0, 0, quit⟩,
   ⟨ascii "DBKCOUNT", 0, 0, dbkcount⟩,
   ⟨ascii "HELP", 0, 1, help⟩,
   ⟨ascii "FLUSHDB", 0, 1, flushdb⟩]

end Ssdb

namespace Rocksdb

def set : Handler := .call .set (.positions [0, 1])
def get : Handler := .call .get (.positions [0])
def mget : Handler := .call .mget (.rest [] 0)
def merge : Handler := .call .merge (.positions [0, 1])
def del : Handler := .call .delete (.rest [] 0)
def rename : Handler := .call .rename (.positions [0, 1])
def keys : Handler := .call .keys (.positions [0, 1, 2])
def info : Handler := .call .info .single
def quit : Handler := .call .quit (.positions [])
def dbkcount : Handler := .call .dbkcount (.positions [])
def help : Handler := .help
def flushdb : Handler := .call .flushdb (.positions [])

def commands : List (CommandHolder Handler) :=
  [⟨ascii "SET", 2, 0, set⟩,
   ⟨ascii "GET", 1, 0, get⟩,
   ⟨ascii "MGET", 1, infiniteArgs, mget⟩,
   ⟨ascii "MERGE", 2, 0, merge⟩,
   ⟨ascii "DEL", 1, infiniteArgs, del⟩,
   ⟨ascii "RENAME", 2, 0, rename⟩,
   ⟨ascii "KEYS", 3, 0, keys⟩,
   ⟨ascii "INFO", 1, 0, info⟩,
   ⟨ascii "QUIT", 0, 0, quit⟩,
   ⟨ascii "DBKCOUNT", 0, 0, dbkcount⟩,
   ⟨ascii "HELP", 0, 1, help⟩,
   ⟨ascii "FLUSHDB", 0, 1, flushdb⟩]

end Rocksdb

-- The handlers and tables of the other four embedded stores are the same.
namespace Embedded

def set : Handler := .call .set (.positions [0, 1])
def get : Handler := .call .get (.positions [0])
def del : Handler := .call .delete (.rest [] 0)
def rename : Handler := .call .rename (.positions [0, 1])
def keys : Handler := .call .keys (.positions [0, 1, 2])
def info : Handler := .call .info .single
def quit : Handler := .call .quit (.positions [])
def dbkcount : Handler := .call .dbkcount (.positions [])
def help : Handler := .help
def flushdb : Handler := .call .flushdb (.positions [])

def commands : List (CommandHolder Handler) :=
  [⟨ascii "SET", 2, 0, set⟩,
   ⟨ascii "GET", 1, 0, get⟩,
   ⟨ascii "DEL", 1, infiniteArgs, del⟩,
   ⟨ascii "RENAME", 2, 0, rename⟩,
   ⟨ascii "KEYS", 3, 0, keys⟩,
   ⟨ascii "INFO", 1, 0, info⟩,
   ⟨ascii "QUIT", 0, 0, quit⟩,
   ⟨ascii "DBKCOUNT", 0, 0, dbkcount⟩,
   ⟨ascii "HELP", 0, 1, help⟩,
   ⟨ascii "FLUSHDB", 0, 1, flushdb⟩]

end Embedded

-- The table of redis has handlers of its own, which forward to the server.
def commandsOf : (type : ConnectionType) → type ≠ .redis → List (CommandHolder Handler)
  | .memcached, _ => Memcached.commands
  | .ssdb, _ => Ssdb.commands
  | .rocksdb, _ => Rocksdb.commands
  | .leveldb, _ | .lmdb, _ | .unqlite, _ | .upscaledb, _ => Embedded.commands

/-! ## Which handlers stay inside their arguments -/

theorem readAll_isSome (argv : List Text) (indices : List Nat) :
    (readAll argv indices).isSome = true ↔ ∀ i ∈ indices, i < argv.length := by
  induction indices with
  | nil => simp [readAll]
  | cons i indices ih =>
      by_cases inside : i < argv.length
      · simp only [readAll, List.getElem?_eq_getElem inside, Option.bind_eq_bind, Option.bind_some,
          List.forall_mem_cons, inside, true_and, ← ih]
        cases readAll argv indices <;> simp
      · simp [readAll, inside]

-- Every read of the handler is inside of its arguments and no count is negative.
def Handler.Safe (handler : Handler) (argv : List Text) : Prop :=
  ∃ call, handler.run argv = some call ∧ 0 ≤ call.argc

-- What `Safe` comes to for each way of indexing.
def Reads.Within : Reads → Nat → Prop
  | positions indices, argc | rest indices _, argc => ∀ i ∈ indices, i < argc
  | pairs indices start, argc => (∀ i ∈ indices, i < argc) ∧ (argc ≤ start ∨ (argc - start) % 2 = 0)
  | single, _ => True

instance (reads : Reads) (argc : Nat) : Decidable (reads.Within argc) :=
  match reads with
  | .positions indices | .rest indices _ => inferInstanceAs (Decidable (∀ i ∈ indices, i < argc))
  | .pairs _ _ => inferInstanceAs (Decidable (_ ∧ _))
  | .single => inferInstanceAs (Decidable True)

theorem pairs_inside (start argc : Nat) :
    (∀ i ∈ (List.range' start ((argc - start + 1) / 2) 2).flatMap fun i => [i, i + 1], i < argc) ↔
      argc ≤ start ∨ (argc - start) % 2 = 0 := by
  simp only [List.mem_flatMap, List.mem_range', List.mem_cons, List.not_mem_nil, or_false]
  constructor
  · intro inside
    by_contra odd
    -- The last pair of an odd number of arguments starts at the last argument.
    have last := inside (argc - 1 + 1) ⟨argc - 1, ⟨(argc - start - 1) / 2, by omega, by omega⟩, by simp⟩
    omega
  · rintro even i ⟨first, ⟨index, bound, rfl⟩, rfl | rfl⟩
    · omega
    · omega

theorem indices_inside (reads : Reads) (argc : Nat) :
    (∀ i ∈ reads.indices argc, i < argc) ↔ reads.Within argc := by
  cases reads with
  | positions indices => exact Iff.rfl
  | rest indices start =>
      have inside : ∀ i ∈ List.range' start (argc - start), i < argc := by
        intro i member
        have bounds := List.mem_range'_1.mp member
        omega
      simp only [Reads.indices, List.forall_mem_append, Reads.Within]
      exact and_iff_left inside
  | pairs indices start =>
      rw [Reads.indices, List.forall_mem_append, pairs_inside]
      rfl
  | single =>
      simp only [Reads.indices, Reads.Within, iff_true]
      split
      next one => simp [one]
      next => simp

def Handler.Within : Handler → Nat → Prop
  | call _ reads, argc => reads.Within argc
  | stats, _ => True
  | help, argc => argc ≠ 0

instance (handler : Handler) (argc : Nat) : Decidable (handler.Within argc) :=
  match handler with
  | .call _ reads => inferInstanceAs (Decidable (reads.Within argc))
  | .stats => inferInstanceAs (Decidable True)
  | .help => inferInstanceAs (Decidable (argc ≠ 0))

theorem safe_iff_within (handler : Handler) (argv : List Text) :
    handler.Safe argv ↔ handler.Within argv.length := by
  cases handler with
  | call function reads =>
      rw [Handler.Within, ← indices_inside, ← readAll_isSome, Option.isSome_iff_exists]
      constructor
      · rintro ⟨call, ran, -⟩
        obtain ⟨arguments, read, -⟩ := Option.map_eq_some_iff.mp ran
        exact ⟨arguments, read⟩
      · rintro ⟨arguments, read⟩
        exact ⟨.function function arguments, by simp [Handler.run, read], by simp [Call.argc]⟩
  | stats =>
      have read : (readAll argv (Reads.single.indices argv.length)).isSome = true := by
        rw [readAll_isSome, indices_inside]
        trivial
      obtain ⟨arguments, read⟩ := Option.isSome_iff_exists.mp read
      refine iff_of_true ?_ trivial
      simp only [Handler.Safe, Handler.run, read, Option.bind_eq_bind, Option.bind_some]
      split
      · exact ⟨_, rfl, by simp [Call.argc]⟩
      · exact ⟨_, rfl, by simp [Call.argc]⟩
  | help =>
      constructor
      · rintro ⟨call, ran, count⟩
        obtain rfl := Option.some.inj ran
        simp only [Call.argc] at count
        simp only [Handler.Within]
        omega
      · intro some
        refine ⟨_, rfl, ?_⟩
        simp only [Call.argc]
        simp only [Handler.Within] at some
        omega

-- The commands and argument counts at which table and handler disagree.
def Overruns (name : Text) (argc : Nat) : Prop :=
  name = ascii "HELP" ∧ argc = 0 ∨ name = ascii "INCR" ∧ argc = 1 ∨ name = ascii "ZKEYS" ∨
    name = ascii "MULTI_SET" ∧ argc % 2 = 1 ∨
    (name = ascii "MULTI_HSET" ∨ name = ascii "MULTI_ZSET") ∧ argc % 2 = 0

instance (name : Text) (argc : Nat) : Decidable (Overruns name argc) :=
  inferInstanceAs (Decidable (_ ∨ _))

def agrees (holder : CommandHolder Handler) : Bool :=
  (List.range' holder.required (holder.optional + 1)).all fun argc =>
    decide (holder.func.Within argc ↔ ¬ Overruns holder.name argc)

theorem commands_agree (type : ConnectionType) (store : type ≠ .redis) :
    ∀ holder ∈ commandsOf type store, agrees holder = true := by
  cases type with
  | redis => exact absurd rfl store
  | memcached => exact (by decide +kernel : ∀ holder ∈ Memcached.commands, agrees holder = true)
  | ssdb => exact (by decide +kernel : ∀ holder ∈ Ssdb.commands, agrees holder = true)
  | rocksdb => exact (by decide +kernel : ∀ holder ∈ Rocksdb.commands, agrees holder = true)
  | leveldb | lmdb | unqlite | upscaledb =>
      exact (by decide +kernel : ∀ holder ∈ Embedded.commands, agrees holder = true)

/-- An accepted command is index-safe except for the listed counts of five commands. -/
theorem safe_iff_not_overruns (type : ConnectionType) (store : type ≠ .redis)
    (holder : CommandHolder Handler) (member : holder ∈ commandsOf type store) (args : List Text)
    (accepted : holder.accepts args.length) :
    holder.func.Safe args ↔ ¬ Overruns holder.name args.length := by
  have agree := commands_agree type store holder member
  simp only [agrees, List.all_eq_true, decide_eq_true_eq] at agree
  obtain ⟨low, high⟩ := accepted
  simp only [CommandHolder.minArgumentsCount, CommandHolder.maxArgumentsCount] at low high
  rw [safe_iff_within]
  exact agree args.length (List.mem_range'_1.mpr ⟨low, by omega⟩)

theorem multiSet_pair_safe :
    (⟨ascii "MULTI_SET", 2, infiniteArgs, Ssdb.multiSet⟩ : CommandHolder Handler).func.Safe
      [ascii "a", ascii "1", ascii "b", ascii "2"] :=
  (safe_iff_not_overruns .ssdb (by decide) ⟨ascii "MULTI_SET", 2, infiniteArgs, Ssdb.multiSet⟩ (by decide)
    [ascii "a", ascii "1", ascii "b", ascii "2"] (by decide)).mpr (by decide)

/-- `MULTI_SET a 1 b` is accepted and reads a fourth argument. -/
theorem multiSet_odd_unsafe :
    let holder : CommandHolder Handler := ⟨ascii "MULTI_SET", 2, infiniteArgs, Ssdb.multiSet⟩
    holder ∈ Ssdb.commands ∧ holder.accepts 3 ∧ ¬ holder.func.Safe [ascii "a", ascii "1", ascii "b"] := by
  refine ⟨by decide, by decide, ?_⟩
  rw [safe_iff_within]
  decide

end FastoNoSQL
