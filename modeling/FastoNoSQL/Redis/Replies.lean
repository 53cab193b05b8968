import FastoNoSQL.Redis.Pipeline

set_option autoImplicit false

/-!
# Replies and their commands

Which batches read every reply that they asked for, and which give each reply
to the command it answers.
-/

namespace FastoNoSQL.Redis

open Bytes

section Reading

variable (lib : Common) (clusterMode : Bool) (answer : List (List Text) → Reply)

-- The argument vectors of a batch that are sent.
def sentOf (cmds : List Text) : List (List Text) :=
  cmds.filterMap fun input =>
    match plan input with
    | .sent argv => some argv
    | _ => none

def isSent (input : Text) : Bool :=
  match plan input with
  | .sent _ => true
  | _ => false

theorem sentOf_cons (input : Text) (cmds : List Text) :
    sentOf (input :: cmds) =
      match plan input with
      | .sent argv => argv :: sentOf cmds
      | _ => sentOf cmds := by
  unfold sentOf
  cases planned : plan input <;> simp [planned]

theorem sendAll_spec (cmds : List Text) (link : Link) :
    sendAll answer cmds link =
      if ∀ input ∈ cmds, plan input ≠ .undefined then
        some ((sentOf cmds).length, (sentOf cmds).foldl (Link.append answer) link)
      else none := by
  induction cmds generalizing link with
  | nil => rfl
  | cons input cmds ih =>
      rw [sendAll, sentOf_cons]
      simp only [List.forall_mem_cons]
      cases planned : plan input with
      | undefined => simp
      | skipped => simp [ih]
      | sent argv =>
          simp only [ih, ne_eq, reduceCtorEq, not_false_eq_true, true_and]
          split
          next => rfl
          next => rfl

def isError (reply : Reply) : Bool :=
  match formatReply lib clusterMode reply with
  | some (.ok _) => false
  | _ => true

theorem readChildren_cons (count : Nat) (sent : List (List Text)) (reply : Reply) (queue : List Reply) :
    readChildren lib clusterMode (count + 1) ⟨sent, reply :: queue⟩ =
      match formatReply lib clusterMode reply with
      | none => none
      | some (.error err) => some (some err, [], ⟨sent, queue⟩)
      | some (.ok child) =>
        (readChildren lib clusterMode count ⟨sent, queue⟩).map fun (err, children, link) =>
          (err, child :: children, link) := by
  simp only [readChildren, cliReadReply, Link.getReply, Option.bind_eq_bind, Option.bind_some]
  cases formatReply lib clusterMode reply with
  | none => rfl
  | some child =>
      cases child with
      | error err => rfl
      | ok child =>
          simp only [Option.pure_def, Option.bind_some]
          cases readChildren lib clusterMode count ⟨sent, queue⟩ <;> rfl

-- Every reply is read exactly when none but the last stops the loop and none crashes it.
theorem readChildren_empties_iff (sent : List (List Text)) (queue : List Reply) :
    (∃ err children link, readChildren lib clusterMode queue.length ⟨sent, queue⟩ = some (err, children, link) ∧
        link.queue = []) ↔
      (∀ reply ∈ queue.dropLast, isError lib clusterMode reply = false) ∧
        ∀ reply ∈ queue, formatReply lib clusterMode reply ≠ none := by
  induction queue with
  | nil => simp [readChildren]
  | cons reply queue ih =>
      rw [List.length_cons, readChildren_cons, List.forall_mem_cons]
      cases shown : formatReply lib clusterMode reply with
      | none => simp
      | some child =>
          cases child with
          | error err =>
              have stop : isError lib clusterMode reply = true := by simp [isError, shown]
              cases queue with
              | nil => simp
              | cons second queue => simp [stop]
          | ok child =>
              have next : isError lib clusterMode reply = false := by simp [isError, shown]
              have front : (∀ other ∈ (reply :: queue).dropLast, isError lib clusterMode other = false) ↔
                  ∀ other ∈ queue.dropLast, isError lib clusterMode other = false := by
                cases queue with
                | nil => simp
                | cons second queue => simp [next]
              rw [front]
              simp only [ne_eq, reduceCtorEq, not_false_eq_true, true_and, Option.map_eq_some_iff]
              rw [← ih]
              constructor
              · intro ⟨err, children, link, ⟨rest, done, same⟩, empty⟩
                obtain ⟨-, -, rfl⟩ : rest.1 = err ∧ child :: rest.2.1 = children ∧ rest.2.2 = link := by
                  simpa using same
                exact ⟨rest.1, rest.2.1, rest.2.2, done, empty⟩
              · intro ⟨err, children, link, done, empty⟩
                exact ⟨err, child :: children, link, ⟨_, done, rfl⟩, empty⟩

-- Replies that are no errors are all read, and become the children in their order.
theorem readChildren_all (sent : List (List Text)) (queue : List Reply)
    (fine : ∀ reply ∈ queue, ∀ text, reply ≠ .error text) :
    readChildren lib clusterMode queue.length ⟨sent, queue⟩ = some (none, queue, ⟨sent, []⟩) := by
  induction queue with
  | nil => rfl
  | cons reply queue ih =>
      rw [List.forall_mem_cons] at fine
      have shown : formatReply lib clusterMode reply = some (.ok reply) := by
        cases reply with
        | error text => exact absurd rfl (fine.1 text)
        | _ => rfl
      rw [List.length_cons, readChildren_cons, shown, ih fine.2]
      rfl

/-! ## No reply is left behind -/

inductive Call where
  | getKeyTypes (keys : List Text)
  | getKeySizes (keys : List (Text × KeyType))
  | executeAsPipeline (cmds : List Text)
  | commonExec (argv : List Text)

-- One call on the connection; none when it does not return.
def Call.perform : Call → Link → Option Link
  | getKeyTypes keys, link => (Redis.getKeyTypes lib answer keys link).map (·.2)
  | getKeySizes keys, link => (Redis.getKeySizes answer keys link).map (·.2)
  | executeAsPipeline cmds, link => (Redis.executeAsPipeline lib clusterMode answer cmds link).map (·.2.2)
  | commonExec argv, link => (Redis.commonExec lib clusterMode answer argv link).map (·.2)

def performNext (link : Option Link) (call : Call) : Option Link :=
  link.bind (call.perform lib clusterMode answer)

-- The call returns, and nothing is outstanding then.
def ReadsAll (link : Option Link) (call : Call) : Prop :=
  ∃ after, performNext lib clusterMode answer link call = some after ∧ after.queue = []

/-- The replies that a batch reads to its end: only the last one may be an error. -/
def Call.Readable (link : Link) : Call → Prop
  | getKeyTypes keys =>
    ∀ entry ∈ (keys.zip (replies answer link.sent (typeCommands keys))).dropLast, isUnknownType lib entry = false
  | getKeySizes _ => True
  | executeAsPipeline cmds =>
    cmds = [] ∨ (∀ input ∈ cmds, plan input ≠ .undefined) ∧
      (∀ reply ∈ (replies answer link.sent (sentOf cmds)).dropLast, isError lib clusterMode reply = false) ∧
        ∀ reply ∈ replies answer link.sent (sentOf cmds), formatReply lib clusterMode reply ≠ none
  | commonExec argv => formatReply lib clusterMode (answer (link.sent ++ [argv])) ≠ none

def NextReadable (link : Option Link) (call : Call) : Prop :=
  ∃ now, link = some now ∧ call.Readable lib clusterMode answer now

def Idle (link : Option Link) : Prop := ∃ now, link = some now ∧ now.queue = []

theorem executeAsPipeline_empties_iff (cmds : List Text) (link : Link) (idle : link.queue = []) :
    (∃ after, (executeAsPipeline lib clusterMode answer cmds link).map (·.2.2) = some after ∧ after.queue = []) ↔
      (Call.executeAsPipeline cmds).Readable lib clusterMode answer link := by
  by_cases empty : cmds = []
  · simp [executeAsPipeline, Call.Readable, empty, idle]
  · simp only [executeAsPipeline, empty, if_false, sendAll_spec, Call.Readable, false_or]
    by_cases defined : ∀ input ∈ cmds, plan input ≠ .undefined
    · rw [if_pos defined]
      have count := length_replies answer link.sent (sentOf cmds)
      have batch := readChildren_empties_iff lib clusterMode (link.sent ++ sentOf cmds)
        (replies answer link.sent (sentOf cmds))
      rw [count] at batch
      rw [foldl_append, idle, List.nil_append]
      simp only [Option.bind_eq_bind, Option.bind_some, Option.map_eq_some_iff]
      rw [and_iff_right defined, ← batch]
      constructor
      · intro ⟨after, ⟨outcome, done, same⟩, nothing⟩
        exact ⟨outcome.1, outcome.2.1, outcome.2.2, done, same ▸ nothing⟩
      · intro ⟨err, children, after, done, nothing⟩
        exact ⟨after, ⟨_, done, rfl⟩, nothing⟩
    · rw [if_neg defined]
      simp [defined]

theorem readsAll_iff (link : Option Link) (call : Call) (idle : Idle link) :
    ReadsAll lib clusterMode answer link call ↔ NextReadable lib clusterMode answer link call := by
  obtain ⟨now, rfl, nothing⟩ := idle
  simp only [ReadsAll, performNext, NextReadable, Option.bind_some, Option.some.injEq, exists_eq_left']
  cases call with
  | getKeyTypes keys =>
      obtain ⟨result, done⟩ := getKeyTypes_spec lib answer keys now nothing
      simp only [Call.perform, done, Option.map_some, Option.some.injEq, exists_eq_left', List.map_eq_nil_iff,
        leftover_eq_nil_iff, Call.Readable]
  | getKeySizes keys =>
      obtain ⟨sizes, done⟩ := getKeySizes_spec answer keys now nothing
      simp [Call.perform, done, Call.Readable]
  | executeAsPipeline cmds => exact executeAsPipeline_empties_iff lib clusterMode answer cmds now nothing
  | commonExec argv =>
      simp only [Call.perform, commonExec, cliReadReply, Link.append, Link.getReply, nothing, List.nil_append,
        Option.bind_eq_bind, Option.bind_some, Call.Readable]
      cases formatReply lib clusterMode (answer (now.sent ++ [argv])) <;> simp

/-- In a run of calls on an idle connection every call reads all of its replies exactly when every
batch can be read to its end. -/
theorem readsAll_along_iff (calls : List Call) :
    Runs.Along (performNext lib clusterMode answer) (ReadsAll lib clusterMode answer) (some {}) calls ↔
      Runs.Along (performNext lib clusterMode answer) (NextReadable lib clusterMode answer) (some {}) calls := by
  have start : Idle (some {}) := ⟨{}, rfl, rfl⟩
  apply Runs.along_iff Idle _ (readsAll_iff lib clusterMode answer) start
  intro link call idle readable
  exact (readsAll_iff lib clusterMode answer link call idle).mpr readable

/-! ## Every reply to its own command -/

-- The reply to each command of a batch, none for those that are not sent.
def ownReplies (sent : List (List Text)) : List Text → List (Option Reply)
  | [] => []
  | input :: cmds =>
    match plan input with
    | .sent argv => some (answer (sent ++ [argv])) :: ownReplies (sent ++ [argv]) cmds
    | _ => none :: ownReplies sent cmds

-- Each command object has its own reply, and no other.
def RepliesReachOwn (cmds : List Text) (link : Link) : Prop :=
  ∃ outcome, executeAsPipeline lib clusterMode answer cmds link = some outcome ∧
    ∀ i, i < cmds.length → some outcome.2.1[i]? = (ownReplies answer link.sent cmds)[i]?

-- No skipped command stands before a sent one.
def SentFirst (cmds : List Text) : Prop :=
  (∀ input ∈ cmds, plan input ≠ .undefined) ∧
    cmds.Pairwise fun earlier later => isSent later = true → isSent earlier = true

theorem isSent_iff (input : Text) : isSent input = true ↔ ∃ argv, plan input = .sent argv := by
  unfold isSent
  cases plan input <;> simp

-- Without a sent command there is nothing to attach.
theorem sentOf_eq_nil (cmds : List Text) (none : ∀ input ∈ cmds, isSent input = false) : sentOf cmds = [] := by
  induction cmds with
  | nil => rfl
  | cons input cmds ih =>
      rw [List.forall_mem_cons] at none
      have rest := ih none.2
      rw [sentOf_cons, rest]
      have skipped := none.1
      unfold isSent at skipped
      split
      next argv planned => simp [planned] at skipped
      next => rfl

-- The replies in order are the own replies exactly when the sent commands come first.
theorem replies_own_iff (cmds : List Text) (sent : List (List Text)) :
    (∀ i, i < cmds.length → some (replies answer sent (sentOf cmds))[i]? = (ownReplies answer sent cmds)[i]?) ↔
      cmds.Pairwise fun earlier later => isSent later = true → isSent earlier = true := by
  induction cmds generalizing sent with
  | nil => simp
  | cons input cmds ih =>
      rw [sentOf_cons, ownReplies, List.pairwise_cons]
      cases planned : plan input with
      | sent argv =>
          have first : isSent input = true := (isSent_iff input).mpr ⟨argv, planned⟩
          simp only [first, implies_true, true_and, ← ih (sent ++ [argv]), replies]
          constructor
          · intro all i inside
            simpa using all (i + 1) (by simpa using inside)
          · intro rest i inside
            cases i with
            | zero => rfl
            | succ i => simpa using rest i (by simpa using inside)
      | skipped | undefined =>
          have first : isSent input = false := by simp [isSent, planned]
          simp only [first, Bool.false_eq_true, imp_false, Bool.not_eq_true]
          constructor
          · intro all
            -- The object of a skipped command must not get the first reply, so there is none.
            have head := all 0 (by simp)
            have nothing : sentOf cmds = [] := by
              cases batch : sentOf cmds with
              | nil => rfl
              | cons argv rest => simp [batch, replies] at head
            have unsent : ∀ later ∈ cmds, isSent later = false := by
              intro later member
              rw [Bool.eq_false_iff]
              intro isSent'
              obtain ⟨argv, planned'⟩ := (isSent_iff later).mp isSent'
              have found : argv ∈ sentOf cmds := List.mem_filterMap.mpr ⟨later, member, by simp [planned']⟩
              simp [nothing] at found
            refine ⟨unsent, List.Pairwise.imp_of_mem ?_ (List.pairwise_of_forall fun _ _ => trivial)⟩
            intro earlier later _ inLater _ isSent'
            rw [unsent later inLater] at isSent'
            cases isSent'
          · rintro ⟨unsent, rest⟩ i inside
            have nothing := sentOf_eq_nil cmds unsent
            rw [nothing]
            cases i with
            | zero => rfl
            | succ i =>
                have later := (ih sent).mpr rest i (by simpa using inside)
                rw [nothing] at later
                simpa [replies] using later

/-- With a server that answers every command in order and without errors, the replies of a pipeline
reach their own commands exactly when the sent commands come first. -/
theorem repliesReachOwn_iff (fine : ∀ sent text, answer sent ≠ .error text) (cmds : List Text) (link : Link)
    (idle : link.queue = []) :
    RepliesReachOwn lib clusterMode answer cmds link ↔ SentFirst cmds := by
  by_cases empty : cmds = []
  · simp [RepliesReachOwn, SentFirst, executeAsPipeline, empty]
  · simp only [RepliesReachOwn, SentFirst, executeAsPipeline, empty, if_false, sendAll_spec]
    by_cases defined : ∀ input ∈ cmds, plan input ≠ .undefined
    · have good (batch : List (List Text)) (sent : List (List Text)) :
          ∀ reply ∈ replies answer sent batch, ∀ text, reply ≠ .error text := by
        induction batch generalizing sent with
        | nil => simp [replies]
        | cons argv batch ih =>
            rw [replies, List.forall_mem_cons]
            exact ⟨fun text => fine _ text, ih _⟩
      have all := readChildren_all lib clusterMode (link.sent ++ sentOf cmds) _ (good (sentOf cmds) link.sent)
      rw [length_replies] at all
      rw [if_pos defined, foldl_append, idle, List.nil_append]
      simp only [Option.bind_eq_bind, Option.bind_some, all, Option.some.injEq, exists_eq_left']
      rw [replies_own_iff]
      exact (and_iff_right defined).symm
    · rw [if_neg defined]
      simp [defined]

end Reading

-- A server with one key that is not a string.
def wrongTypeServer (sent : List (List Text)) : Reply :=
  if sent.getLast? = some [ascii "GET", ascii "a"] then .error (ascii "WRONGTYPE") else .status (ascii "OK")

/-- An error reply to the first command of a pipeline leaves the reply to the second one behind. -/
theorem pipeline_leaves_reply :
    ((Call.executeAsPipeline [ascii "GET a", ascii "GET b"]).perform .std false wrongTypeServer {}).map
        (fun link => link.queue.length) = some 1 ∧
      ¬ Runs.Along (performNext .std false wrongTypeServer) (ReadsAll .std false wrongTypeServer) (some {})
        [.executeAsPipeline [ascii "GET a", ascii "GET b"]] := by
  have left : ((Call.executeAsPipeline [ascii "GET a", ascii "GET b"]).perform .std false wrongTypeServer {}).map
      (fun link => link.queue.length) = some 1 := by decide
  refine ⟨left, ?_⟩
  intro along
  obtain ⟨after, done, nothing⟩ := along [] _ [] rfl
  simp only [Runs.run_nil, performNext, Option.bind_some] at done
  rw [done] at left
  simp [nothing] at left

def echoServer (sent : List (List Text)) : Reply := .string (unwords (sent.getLast?.getD []))

theorem sent_first_reach_own :
    RepliesReachOwn .std false echoServer [ascii "GET a", ascii "GET b", ascii "QUIT"] {} :=
  (repliesReachOwn_iff .std false echoServer (fun _ _ => by simp [echoServer]) _ {} rfl).mpr
    ⟨by decide, by decide⟩

/-- The reply to `GET a` is attached to the `QUIT` before it, which was never sent. -/
theorem skipped_first_gets_reply :
    (executeAsPipeline .std false echoServer [ascii "QUIT", ascii "GET a"] {}).map (fun outcome => outcome.2.1.length) =
        some 1 ∧
      ownReplies echoServer [] [ascii "QUIT", ascii "GET a"] = [none, some (.string (ascii "GET a"))] ∧
      ¬ RepliesReachOwn .std false echoServer [ascii "QUIT", ascii "GET a"] {} := by
  have count : (executeAsPipeline .std false echoServer [ascii "QUIT", ascii "GET a"] {}).map
      (fun outcome => outcome.2.1.length) = some 1 := by decide
  have own : ownReplies echoServer [] [ascii "QUIT", ascii "GET a"] = [none, some (.string (ascii "GET a"))] := rfl
  refine ⟨count, own, ?_⟩
  intro ⟨outcome, done, reach⟩
  rw [done] at count
  have first := reach 0 (by decide)
  rw [own] at first
  simp only [Option.map_some, Option.some.injEq, List.getElem?_cons_zero, List.getElem?_eq_none_iff] at count first
  omega

end FastoNoSQL.Redis
