import FastoNoSQL.Command.Translator
import FastoNoSQL.Ledger
import FastoNoSQL.Redis.Server
import Mathlib.Algebra.Order.Group.Nat

set_option autoImplicit false

/-!
# What a deletion reports

The keys that `Delete` reports to the client against the keys that it took out
of the store, for the stores and for redis.
-/

namespace FastoNoSQL.Store

open Bytes

def reported (notifications : List Notification) : List Text :=
  notifications.flatMap fun
    | .keysRemoved keys => keys.map (·.key)
    | _ => []

-- The keys reported are those that were in the store and no longer are, each once.
def Exact (before : Content) (answer : Answer (List NKey)) : Prop :=
  (reported answer.notifications).Nodup ∧
    ∀ key, key ∈ reported answer.notifications ↔ before key ≠ none ∧ answer.connection.content key = none

theorem eraseAll_nil (content : Content) : content.eraseAll [] = content := by
  funext key
  simp [Content.eraseAll]

theorem eraseAll_cons (content : Content) (key : Text) (keys : List Text) :
    content.eraseAll (key :: keys) = (content.erase key).eraseAll keys := by
  funext other
  by_cases same : other = key
  · simp [Content.eraseAll, Content.erase, same]
  · simp [Content.eraseAll, Content.erase, same]

theorem eraseAll_append (content : Content) (first second : List Text) :
    content.eraseAll (first ++ second) = (content.eraseAll first).eraseAll second := by
  funext key
  by_cases inFirst : key ∈ first
  · simp [Content.eraseAll, inFirst]
  · simp [Content.eraseAll, inFirst]

theorem exact_nothing_iff (before : Content) (answer : Answer (List NKey)) (names : List Text)
    (silent : answer.notifications = []) (erased : answer.connection.content = before.eraseAll names) :
    Exact before answer ↔ ∀ name ∈ names, before name = none := by
  simp only [Exact, silent, erased, reported, List.flatMap_nil, List.nodup_nil, List.not_mem_nil, false_iff,
    true_and, Content.eraseAll]
  constructor
  · intro kept name member
    by_contra present
    exact kept name ⟨present, if_pos member⟩
  · rintro absent key ⟨old, gone⟩
    by_cases member : key ∈ names
    · exact old (absent key member)
    · rw [if_neg member] at gone
      exact old gone

/-! ## The stores -/

section Stores

variable (library : Library)

-- The keys whose library call does not fail.
def served (faults : Nat → Option Text) : List NKey → Nat → List Text
  | [], _ => []
  | key :: keys, calls =>
    if faults calls = none then key.key :: served faults keys (calls + 1) else served faults keys (calls + 1)

-- A store reports the keys it erases; they are all of those served when it deletes absent keys.
theorem deleteImpl_spec (keys : List NKey) (connection : Connection) (live : connection.connected = true) :
    let outcome := deleteImpl library keys connection
    outcome.2.content = connection.content.eraseAll (outcome.1.map (·.key)) ∧
      (library.deletesAbsent = true → outcome.1.map (·.key) = served library.faults keys connection.calls) ∧
      (library.deletesAbsent = false →
        (outcome.1.map (·.key)).Nodup ∧ ∀ key ∈ outcome.1.map (·.key), connection.content key ≠ none) := by
  induction keys generalizing connection with
  | nil => simp [deleteImpl, served, eraseAll_nil]
  | cons key keys ih =>
      cases fault : library.faults connection.calls with
      | some message =>
          have next := ih { connection with calls := connection.calls + 1 } live
          simp only [deleteImpl, delInner_live library connection live, fault, served]
          simpa using next
      | none =>
          cases found : (connection.content key.key).isSome || library.deletesAbsent with
          | true =>
              have next := ih { connection with
                content := connection.content.erase key.key, calls := connection.calls + 1 } live
              obtain ⟨erased, all, some⟩ := next
              simp only [deleteImpl, delInner_live library connection live, fault, found, served, if_true,
                List.map_cons]
              refine ⟨?_, ?_, ?_⟩
              · rw [eraseAll_cons]
                exact erased
              · intro absent
                rw [all absent]
              · intro present
                obtain ⟨distinct, old⟩ := some present
                rw [present, Bool.or_false, Option.isSome_iff_ne_none] at found
                have fresh : key.key ∉ (deleteImpl library keys { connection with
                    content := connection.content.erase key.key, calls := connection.calls + 1 }).1.map (·.key) :=
                  fun member => old _ member (by simp [Content.erase])
                refine ⟨List.nodup_cons.mpr ⟨fresh, distinct⟩, List.forall_mem_cons.mpr ⟨found, ?_⟩⟩
                intro other member gone
                apply old other member
                by_cases same : other = key.key
                · simp [Content.erase, same]
                · simp [Content.erase, same, gone]
          | false =>
              have next := ih { connection with calls := connection.calls + 1 } live
              simp only [Bool.or_eq_false_iff] at found
              simp only [deleteImpl, delInner_live library connection live, fault, found.1, found.2, Bool.or_self]
              refine ⟨next.1, fun absent => by simp at absent, ?_⟩
              simpa [found.2] using next.2.2

-- When what is reported is what was erased, only absent and repeated keys can make it wrong.
theorem exact_erased_iff (before : Content) (answer : Answer (List NKey))
    (erased : answer.connection.content = before.eraseAll (reported answer.notifications)) :
    Exact before answer ↔
      (reported answer.notifications).Nodup ∧ ∀ key ∈ reported answer.notifications, before key ≠ none := by
  simp only [Exact, erased, Content.eraseAll]
  constructor
  · rintro ⟨distinct, same⟩
    exact ⟨distinct, fun key member => ((same key).mp member).1⟩
  · rintro ⟨distinct, present⟩
    refine ⟨distinct, fun key => ⟨fun member => ⟨present key member, if_pos member⟩, ?_⟩⟩
    rintro ⟨old, gone⟩
    by_contra absent
    rw [if_neg absent] at gone
    exact old gone

theorem exact_of_disconnected (keys : List NKey) (connection : Connection) (closed : connection.connected = false) :
    Exact connection.content (delete library keys connection) := by
  have shape : delete library keys connection = ⟨.error notConnected, connection, []⟩ := by
    simp [delete, guarded, closed]
  rw [shape]
  exact (exact_nothing_iff connection.content _ [] rfl (eraseAll_nil _).symm).mpr (by simp)

theorem delete_exact_iff (keys : List NKey) (connection : Connection) :
    Exact connection.content (delete library keys connection) ↔
      (connection.connected = true → library.deletesAbsent = true →
        (served library.faults keys connection.calls).Nodup ∧
          ∀ key ∈ served library.faults keys connection.calls, connection.content key ≠ none) := by
  cases live : connection.connected with
  | false => simp [exact_of_disconnected library keys connection live]
  | true =>
      obtain ⟨erased, all, some⟩ := deleteImpl_spec library keys connection live
      have shape : delete library keys connection =
          ⟨.ok (deleteImpl library keys connection).1, (deleteImpl library keys connection).2,
            [.keysRemoved (deleteImpl library keys connection).1]⟩ := by
        simp [delete, guarded, live]
      rw [shape, exact_erased_iff _ _ (by simpa [reported] using erased)]
      simp only [reported, List.flatMap_cons, List.flatMap_nil, List.append_nil, forall_const]
      cases absent : library.deletesAbsent with
      | true =>
          rw [all absent]
          simp
      | false => exact iff_of_true (some absent) (by simp)

end Stores

/-! ## Redis -/

/-- How one command fares: it is answered, refused by the server, or its reply is lost, and then the
server has run it or not. -/
inductive Fate where
  | served
  | refused (text : Text)
  | lost (ran : Bool) (message : Text)

section Redis

variable (lib : Common) (server : Redis.Server) (fates : Nat → Fate)

def Fate.answer : Fate → Content → List Text → Except Text Redis.Reply × Content
  | served, content, argv =>
    let (reply, content) := server.serve content argv
    (.ok reply, content)
  | refused text, content, _ => (.ok (.error text), content)
  | lost ran message, content, argv =>
    (.error message, if ran then (server.serve content argv).2 else content)

def countsOne : Redis.Reply → Bool
  | .integer 1 => true
  | _ => false

/-- `DeleteImpl` of redis; none when the command text asks `redisCommand` for an argument. -/
def redisDeleteImpl : List NKey → Connection → Option (Except ErrorValue (List NKey) × Connection)
  | [], connection => some (.ok [], connection)
  | key :: keys, connection =>
    match (CommandTranslator.redis lib).deleteKeyCommand key with
    | .error err => some (.error err, connection)
    | .ok text =>
      match Redis.redisFormatCommand text [] with
      | none => none
      | some argv =>
        let (reply, content) := (fates connection.calls).answer server connection.content argv
        let connection := { connection with content := content, calls := connection.calls + 1 }
        match reply with
        | .error message => some (.error ⟨lib.memSPrintf (ascii "Error: %s") [.s message], true⟩, connection)
        | .ok reply =>
          (redisDeleteImpl keys connection).map fun (result, connection) =>
            (result.map fun deleted => if countsOne reply then key :: deleted else deleted, connection)

def redisDelete (keys : List NKey) (connection : Connection) : Option (Answer (List NKey)) :=
  if connection.connected then
    (redisDeleteImpl lib server fates keys connection).map fun outcome =>
      guarded connection (fun _ => outcome) .keysRemoved
  else some ⟨.error notConnected, connection, []⟩

-- The keys that the command for `key` names.
def named (key : Text) : Option (List Text) := Redis.formatFrom [] false (cString key) []

/-- The commands that the server runs, each with its key and the keys it names, and whether every
reply arrives. -/
def sent : List NKey → Nat → Option (List (Text × List Text) × Bool)
  | [], _ => some ([], true)
  | key :: keys, calls =>
    match named key.key, fates calls with
    | none, _ => none
    | some names, .served => (sent keys (calls + 1)).map fun (steps, arrived) => ((key.key, names) :: steps, arrived)
    | some _, .refused _ => sent keys (calls + 1)
    | some names, .lost ran _ => some (if ran then [(key.key, names)] else [], false)

-- Of the keys that are still in the store, every command names at most its own.
def OwnOnly : Content → List (Text × List Text) → Prop
  | _, [] => True
  | content, (key, names) :: steps =>
    (∀ name ∈ names, content name ≠ none → name = key) ∧ OwnOnly (content.eraseAll names) steps

-- What each command takes out of the store.
def lines : Content → List (Text × List Text) → Ledger.Lines Text
  | _, [] => []
  | content, (key, names) :: steps => (key, content.taken names) :: lines (content.eraseAll names) steps

end Redis

/-! ### The keys that a command names -/

theorem format_del (key : Text) :
    Redis.redisFormatCommand (ascii "DEL" ++ byte ' ' :: key) [] = (named key).map (ascii "DEL" :: ·) :=
  Redis.format_line (ascii "DEL") key (by decide) (by decide) (by decide)

theorem named_lighter (key : Text) (names : List Text) (formatted : named key = some names) (name : Text)
    (member : name ∈ names) : name = key ∨ name.length < key.length := by
  have cut := Redis.formatFrom_cut (cString key) [] false names (by simp) (by simp) (by simp) formatted
  have bytes := cut.bytes
  have part : name.length ≤ total names := List.le_sum_of_mem (List.mem_map_of_mem member)
  have shorter : (cString key).length ≤ key.length := (List.takeWhile_prefix _).length_le
  simp only [List.length_nil, Nat.zero_add] at bytes
  by_cases same : name.length = key.length
  · left
    -- Nothing was lost, so the text had no blank, no directive and no NUL byte.
    have whole : cString key = key := (List.takeWhile_prefix _).eq_of_length (by simp only [cString] at *; omega)
    have percent := cut.whole (by simp only [List.length_nil]; omega)
    have blank : (cString key).count (byte ' ') = 0 := by omega
    rw [List.count_eq_zero] at blank
    rw [named, whole] at formatted
    rw [whole] at percent blank
    have nonempty : key ≠ [] := by
      intro empty
      apply (cut.words name member).1
      rw [empty, List.length_nil, List.length_eq_zero_iff] at same
      exact same
    have copied : Redis.isCopiedLast key = true := by
      simp only [Redis.isCopiedLast, Bool.and_eq_true, decide_eq_true_eq, Redis.isCopied_iff]
      refine ⟨⟨percent, fun inside => blank (List.dropLast_subset key inside)⟩, ?_⟩
      exact fun ends => blank (List.mem_of_getLast? ends)
    rw [Redis.formatFrom_last key copied nonempty] at formatted
    obtain rfl := Option.some.inj formatted
    simpa using member
  · right
    omega

theorem mem_taken (content : Content) (names : List Text) (key : Text) :
    key ∈ content.taken names ↔ key ∈ names ∧ content key ≠ none := by
  simp [Content.taken, Option.isSome_iff_ne_none]

theorem nodup_taken (content : Content) (names : List Text) : (content.taken names).Nodup :=
  (List.nodup_dedup names).filter _

theorem taken_own_iff (content : Content) (names : List Text) (key : Text) :
    (content.taken names = [] ∨ content.taken names = [key]) ↔
      ∀ name ∈ names, content name ≠ none → name = key := by
  constructor
  · intro own name member present
    have inside := (mem_taken content names name).mpr ⟨member, present⟩
    rcases own with nothing | own
    · simp [nothing] at inside
    · simpa [own] using inside
  · intro own
    have all : ∀ name ∈ content.taken names, name = key := fun name member =>
      own name ((mem_taken content names name).mp member).1 ((mem_taken content names name).mp member).2
    have distinct := nodup_taken content names
    match taken : content.taken names with
    | [] => exact Or.inl rfl
    | [name] =>
        rw [taken] at all
        exact Or.inr (by rw [all name (by simp)])
    | first :: second :: rest =>
        rw [taken] at all distinct
        have same : first = second := (all first (by simp)).trans (all second (by simp)).symm
        simp [same] at distinct

theorem right_lines_iff (content : Content) (steps : List (Text × List Text)) :
    Ledger.Right (lines content steps) ↔ OwnOnly content steps := by
  induction steps generalizing content with
  | nil => simp [lines, OwnOnly, Ledger.Right]
  | cons step steps ih =>
      obtain ⟨key, names⟩ := step
      rw [OwnOnly, ← ih, ← taken_own_iff]
      exact List.forall_mem_cons

theorem mem_takenOf_lines (content : Content) (steps : List (Text × List Text)) (key : Text) :
    key ∈ Ledger.takenOf (lines content steps) ↔
      content key ≠ none ∧ content.eraseAll (steps.flatMap (·.2)) key = none := by
  induction steps generalizing content with
  | nil => simp [lines, Ledger.takenOf, eraseAll_nil]
  | cons step steps ih =>
      obtain ⟨own, names⟩ := step
      have rest := ih (content.eraseAll names)
      simp only [Ledger.takenOf] at rest
      simp only [lines, Ledger.takenOf, List.flatMap_cons, List.mem_append, rest, mem_taken, eraseAll_append]
      by_cases here : key ∈ names
      · simp [Content.eraseAll, here]
      · simp [Content.eraseAll, here]

theorem nodup_takenOf_lines (content : Content) (steps : List (Text × List Text)) :
    (Ledger.takenOf (lines content steps)).Nodup := by
  induction steps generalizing content with
  | nil => simp [lines, Ledger.takenOf]
  | cons step steps ih =>
      obtain ⟨own, names⟩ := step
      refine List.Nodup.append (nodup_taken content names) (ih _) ?_
      intro key now later
      have gone := ((mem_takenOf_lines _ steps key).mp later).1
      apply gone
      simp [Content.eraseAll, ((mem_taken content names key).mp now).1]

/-! ### The whole loop -/

section Loop

variable (lib : Common) (lawful : lib.Lawful) (server : Redis.Server) (fates : Nat → Fate)

theorem sent_named (keys : List NKey) (calls : Nat) (steps : List (Text × List Text)) (arrived : Bool)
    (run : sent fates keys calls = some (steps, arrived)) : ∀ step ∈ steps, named step.1 = some step.2 := by
  induction keys generalizing calls steps arrived with
  | nil =>
      simp only [sent, Option.some.injEq, Prod.mk.injEq] at run
      simp [← run.1]
  | cons key keys ih =>
      unfold sent at run
      split at run
      · cases run
      next names formatted _ =>
        simp only [Option.map_eq_some_iff, Prod.mk.injEq] at run
        obtain ⟨⟨rest, last⟩, run, rfl, rfl⟩ := run
        exact List.forall_mem_cons.mpr ⟨formatted, ih (calls + 1) rest last run⟩
      next => exact ih (calls + 1) steps arrived run
      next names ran message formatted _ =>
        simp only [Option.some.injEq, Prod.mk.injEq] at run
        rw [← run.1]
        cases ran <;> simp [formatted]

theorem lighter_lines (content : Content) (steps : List (Text × List Text))
    (formatted : ∀ step ∈ steps, named step.1 = some step.2) :
    Ledger.Lighter List.length (lines content steps) := by
  induction steps generalizing content with
  | nil => simp [lines, Ledger.Lighter]
  | cons step steps ih =>
      obtain ⟨key, names⟩ := step
      rw [List.forall_mem_cons] at formatted
      refine List.forall_mem_cons.mpr ⟨?_, ih (content.eraseAll names) formatted.2⟩
      intro name member
      exact named_lighter key names formatted.1 name ((mem_taken content names name).mp member).1

/-- The outcome of the loop, from what was sent. -/
def LoopOutcome (content : Content) (sent : Option (List (Text × List Text) × Bool))
    (outcome : Option (Except ErrorValue (List NKey) × Connection)) : Prop :=
  match sent, outcome with
  | none, outcome => outcome = none
  | some (steps, true), some (.ok deleted, connection) =>
    connection.content = content.eraseAll (steps.flatMap (·.2)) ∧
      deleted.map (·.key) = Ledger.entries (lines content steps)
  | some (steps, false), some (.error _, connection) =>
    connection.content = content.eraseAll (steps.flatMap (·.2))
  | _, _ => False

include lawful in
theorem redisDeleteImpl_cons (key : NKey) (keys : List NKey) (connection : Connection) :
    redisDeleteImpl lib server fates (key :: keys) connection =
      match named key.key with
      | none => none
      | some names =>
        let (reply, content) := (fates connection.calls).answer server connection.content (ascii "DEL" :: names)
        let connection := { connection with content := content, calls := connection.calls + 1 }
        match reply with
        | .error message => some (.error ⟨lib.memSPrintf (ascii "Error: %s") [.s message], true⟩, connection)
        | .ok reply =>
          (redisDeleteImpl lib server fates keys connection).map fun (result, connection) =>
            (result.map fun deleted => if countsOne reply then key :: deleted else deleted, connection) := by
  have translated : (CommandTranslator.redis lib).deleteKeyCommand key = .ok (ascii "DEL" ++ byte ' ' :: key.key) := by
    show CommandTranslator.print lib "DEL %s" [.s key.key] = _
    rw [CommandTranslator.print, lawful.memSPrintf_eq]
    simp [format, ascii, byte]
  simp only [redisDeleteImpl, translated, format_del]
  cases named key.key <;> rfl

variable (served : server.Lawful)
include served

-- The server erases what is named, and a key is counted as deleted when just one key was.
theorem serve_names (content : Content) (names : List Text) :
    ∃ reply, server.serve content (ascii "DEL" :: names) = (reply, content.eraseAll names) ∧
      (countsOne reply = true ↔ (content.taken names).length = 1) := by
  by_cases empty : names = []
  · obtain ⟨text, refused⟩ := served.serve_del_nothing content
    subst empty
    exact ⟨.error text, by rw [refused, eraseAll_nil], by simp [countsOne, Content.taken]⟩
  · refine ⟨_, served.serve_del content names empty, ?_⟩
    unfold countsOne
    split
    next one =>
      have value := Redis.Reply.integer.inj one
      simp only [true_iff]
      omega
    next other =>
      simp only [Bool.false_eq_true, false_iff]
      intro single
      exact other (by rw [single]; rfl)

include lawful

theorem redisDeleteImpl_outcome (keys : List NKey) (connection : Connection) :
    LoopOutcome connection.content (sent fates keys connection.calls)
      (redisDeleteImpl lib server fates keys connection) := by
  induction keys generalizing connection with
  | nil => simp [LoopOutcome, sent, redisDeleteImpl, eraseAll_nil, lines, Ledger.entries]
  | cons key keys ih =>
      rw [redisDeleteImpl_cons lib lawful, sent]
      cases formatted : named key.key with
      | none => rfl
      | some names =>
          obtain ⟨reply, done, counted⟩ := serve_names server served connection.content names
          cases fate : fates connection.calls with
          | served =>
              have next := ih { connection with
                content := connection.content.eraseAll names, calls := connection.calls + 1 }
              simp only [Fate.answer, done, counted]
              revert next
              cases sent fates keys (connection.calls + 1) with
              | none =>
                  intro next
                  simp only [LoopOutcome] at next
                  simp [LoopOutcome, next]
              | some run =>
                  obtain ⟨steps, arrived⟩ := run
                  intro next
                  unfold LoopOutcome at next
                  split at next
                  next => contradiction
                  next steps' deleted after same result =>
                    obtain ⟨rfl, rfl⟩ := Prod.mk.inj (Option.some.inj same)
                    rw [result]
                    simp only [Option.map_some, LoopOutcome, Except.map, List.flatMap_cons, eraseAll_append, lines,
                      Ledger.entries]
                    refine ⟨next.1, ?_⟩
                    split
                    · rw [List.map_cons, next.2]
                    · exact next.2
                  next steps' err after same result =>
                    obtain ⟨rfl, rfl⟩ := Prod.mk.inj (Option.some.inj same)
                    rw [result]
                    simpa only [Option.map_some, LoopOutcome, Except.map, List.flatMap_cons, eraseAll_append]
                      using next
                  next => exact absurd next id
          | refused text =>
              have next := ih { connection with calls := connection.calls + 1 }
              have same (outcome : Option (Except ErrorValue (List NKey) × Connection)) :
                  (outcome.map fun (result, connection) =>
                    (result.map fun deleted : List NKey => deleted, connection)) = outcome := by
                have whole (result : Except ErrorValue (List NKey)) : result.map (fun deleted => deleted) = result := by
                  cases result <;> rfl
                simp [whole]
              simpa only [Fate.answer, countsOne, Bool.false_eq_true, if_false, same] using next
          | lost ran message =>
              cases ran with
              | true => simp [Fate.answer, done, LoopOutcome]
              | false => simp [Fate.answer, LoopOutcome, eraseAll_nil]

-- Redis reports exactly what it deletes when every command text can be formatted, each command names at most its own
-- of the keys still there, and a reply is lost only before anything is deleted.
def RedisReports (keys : List NKey) (connection : Connection) : Prop :=
  match sent fates keys connection.calls with
  | none => False
  | some (steps, true) => OwnOnly connection.content steps
  | some (steps, false) => ∀ name ∈ steps.flatMap (·.2), connection.content name = none

theorem redisDelete_exact_iff (keys : List NKey) (connection : Connection) :
    (∃ answer, redisDelete lib server fates keys connection = some answer ∧ Exact connection.content answer) ↔
      (connection.connected = true → RedisReports fates keys connection) := by
  cases live : connection.connected with
  | false =>
      have exact := (exact_nothing_iff connection.content ⟨.error notConnected, connection, []⟩ [] rfl
        (eraseAll_nil _).symm).mpr (by simp)
      simp [redisDelete, live, exact]
  | true =>
      have outcome := redisDeleteImpl_outcome lib lawful server fates served keys connection
      unfold LoopOutcome at outcome
      unfold RedisReports
      simp only [redisDelete, live, if_true, forall_const]
      split at outcome
      next run => simp [run, outcome]
      next steps deleted after run result =>
        obtain ⟨erased, entries⟩ := outcome
        rw [run, result]
        simp only [guarded, live, if_true, Option.map_some, Option.some.injEq, exists_eq_left', Exact, reported,
          List.flatMap_cons, List.flatMap_nil, List.append_nil, entries, erased, ← mem_takenOf_lines]
        rw [← right_lines_iff, ← Ledger.perm_iff_right List.length _
          (lighter_lines connection.content steps (sent_named fates keys _ steps true run))]
        have distinct := nodup_takenOf_lines connection.content steps
        constructor
        · intro ⟨once, same⟩
          exact (List.perm_ext_iff_of_nodup once distinct).mpr same
        · intro perm
          exact ⟨perm.nodup_iff.mpr distinct, fun key => perm.mem_iff⟩
      next steps err after run result =>
        rw [run, result]
        simp only [guarded, live, if_true, Option.map_some, Option.some.injEq, exists_eq_left']
        exact exact_nothing_iff connection.content _ _ rfl outcome
      next => exact absurd outcome id

end Loop

/-! ## Every back-end -/

section Backends

variable (lib : Common) (notFound : Text) (faults : Nat → Option Text) (server : Redis.Server) (fates : Nat → Fate)
variable (type : ConnectionType) (keys : List NKey) (connection : Connection)

def deleteOf : Option (Answer (List NKey)) :=
  if redis : type = .redis then redisDelete lib server fates keys connection
  else some (delete (.ofType notFound faults type redis) keys connection)

def ReportsExactly : Prop :=
  ∃ answer, deleteOf lib notFound faults server fates type keys connection = some answer ∧
    Exact connection.content answer

def Reportable : Prop :=
  match type with
  | .redis => RedisReports fates keys connection
  | .leveldb | .rocksdb | .ssdb =>
    (served faults keys connection.calls).Nodup ∧
      ∀ key ∈ served faults keys connection.calls, connection.content key ≠ none
  | .lmdb | .unqlite | .upscaledb | .memcached => True

/-- The report of a deletion is exact exactly when leveldb, rocksdb and ssdb get no absent or
repeated key and redis can tell its keys apart and loses no reply after a deletion. -/
theorem delete_reports_iff (lawful : lib.Lawful) (serverLawful : server.Lawful) :
    ReportsExactly lib notFound faults server fates type keys connection ↔
      (connection.connected = true → Reportable faults fates type keys connection) := by
  unfold ReportsExactly deleteOf
  split
  next redis =>
    subst redis
    exact redisDelete_exact_iff lib lawful server fates serverLawful keys connection
  next store =>
    simp only [Option.some.injEq, exists_eq_left', delete_exact_iff]
    cases type with
    | redis => exact absurd rfl store
    | leveldb | rocksdb | ssdb => simp [Library.ofType, Reportable]
    | lmdb | unqlite | upscaledb | memcached => simp [Library.ofType, Reportable]

end Backends

def twoKeys : Content := fun key => if key = ascii "a" ∨ key = ascii "b" then some (ascii "1") else none

theorem lmdb_reports_absent_key :
    ReportsExactly .std (ascii "not found") (fun _ => none) .std (fun _ => .served) .lmdb
      [⟨ascii "a", -1⟩, ⟨ascii "c", -1⟩, ⟨ascii "a", -1⟩] ⟨true, twoKeys, 0⟩ :=
  (delete_reports_iff .std (ascii "not found") (fun _ => none) .std (fun _ => .served) .lmdb _ _
    Common.std_lawful Redis.Server.std_lawful).mpr fun _ => trivial

/-- leveldb reports a key that was never there. -/
theorem leveldb_reports_absent_key :
    ¬ ReportsExactly .std (ascii "not found") (fun _ => none) .std (fun _ => .served) .leveldb
      [⟨ascii "c", -1⟩] ⟨true, twoKeys, 0⟩ := by
  intro ⟨answer, same, _, reports⟩
  obtain rfl := Option.some.inj same
  have member := (reports (ascii "c")).mp (by decide)
  exact member.1 (by decide)

end FastoNoSQL.Store
