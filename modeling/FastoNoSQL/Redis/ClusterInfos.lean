import Mathlib.Data.List.Basic
import FastoNoSQL.Bytes.Pieces
import FastoNoSQL.Runs
import FastoNoSQL.Types

set_option autoImplicit false

/-!
# Cluster discovery

`core/redis/cluster_infos.cpp`: the scanners that read the reply to
`CLUSTER NODES`, and the reply as its server writes it.
-/

namespace FastoNoSQL.Redis.ClusterInfos

open Bytes

inductive ServerTypes where
  | master | slave
deriving DecidableEq

inductive ServerState where
  | up | down
deriving DecidableEq

/-- What the discovery uses of the addresses of the `common` library. -/
structure Addresses (Host : Type) where
  nowhere : Host
  ofText : Text → Host
  host : Host → Text
  setHost : Host → Text → Host
  isLocalHost : Text → Bool

structure ServerCommonInfo (Host : Type) where
  name : Text
  type : ServerTypes
  state : ServerState
  host : Host

structure DiscoveryClusterInfo (Host : Type) where
  info : ServerCommonInfo Host
  self : Bool

inductive LineResult (Host : Type) where
  | error
  | notReached
  | info (entry : DiscoveryClusterInfo Host)

inductive Outcome (Host : Type) where
  | invalidArguments
  | notReached
  | found (infos : List (DiscoveryClusterInfo Host))

section Scanners

variable {Host : Type} (lib : Common) (addresses : Addresses Host)

-- A field is closed by a space and by the last character of the line.
def fieldsFrom (word : Text) : Text → List Text
  | [] => []
  | ch :: rest =>
    let word := if ch = byte ' ' then word else word ++ [ch]
    if ch = byte ' ' ∨ rest = [] then word :: fieldsFrom [] rest else fieldsFrom word rest

def setFlag (entry : DiscoveryClusterInfo Host) (flag : Text) : Option (DiscoveryClusterInfo Host) :=
  if flag = ascii "master" then some { entry with info.type := .master }
  else if flag = ascii "slave" then some { entry with info.type := .slave }
  else if flag = ascii "myself" then some { entry with self := true }
  else if flag = ascii "fail" then some entry
  else none

def setField (entry : DiscoveryClusterInfo Host) (fieldpos : Nat) (word : Text) :
    Option (DiscoveryClusterInfo Host) :=
  match fieldpos with
  | 0 => some { entry with info.name := word }
  | 1 => some { entry with info.host := addresses.ofText word }
  | 2 => (lib.tokenize word (ascii ",")).foldlM setFlag entry
  | 7 =>
    if word = ascii "connected" then some { entry with info.state := .up }
    else if word = ascii "disconnected" then some { entry with info.state := .down }
    else none
  | _ => some entry

def setFields (entry : DiscoveryClusterInfo Host) (fieldpos : Nat) : List Text → Option (DiscoveryClusterInfo Host)
  | [] => some entry
  | word :: words => (setField lib addresses entry fieldpos word).bind fun entry => setFields entry (fieldpos + 1) words

def makeServerCommonInfoFromLine (line : Text) : LineResult Host :=
  if line = [] then .error
  else
    match setFields lib addresses ⟨⟨[], .master, .up, addresses.nowhere⟩, false⟩ 0 (fieldsFrom [] line) with
    | none => .notReached
    | some entry => .info entry

-- The parent host for direct connections.
def substitute (parentHost : Text) (entry : DiscoveryClusterInfo Host) : DiscoveryClusterInfo Host :=
  if addresses.isLocalHost (addresses.host entry.info.host) then
    { entry with info.host := addresses.setHost entry.info.host parentHost }
  else entry

-- The text from `start` on; a line that is refused leaves `start` where it was.
def scanLines (parentHost : Text) : Nat → Text → List (DiscoveryClusterInfo Host) → Option (Outcome Host)
  | 0, _, _ => none
  | fuel + 1, text, infos =>
    if byte '\n' ∈ text then
      match makeServerCommonInfoFromLine lib addresses (text.takeWhile (· ≠ byte '\n')) with
      | .error => scanLines parentHost fuel text infos
      | .notReached => some .notReached
      | .info entry =>
        scanLines parentHost fuel ((text.dropWhile (· ≠ byte '\n')).drop 1)
          (infos ++ [substitute addresses parentHost entry])
    else some (.found infos)

def makeDiscoveryClusterInfo (parentHost : Text) (fuel : Nat) (text : Text) : Option (Outcome Host) :=
  if text = [] then some .invalidArguments else scanLines lib addresses parentHost fuel text []

def EndsWith (parentHost : Text) (text : Text) (outcome : Outcome Host) : Prop :=
  ∃ fuel, makeDiscoveryClusterInfo lib addresses parentHost fuel text = some outcome

end Scanners

/-! ## Lines -/

section Lines

variable {Host : Type} (lib : Common) (addresses : Addresses Host) (parentHost : Text)

def joinLines (closed : List Text) (last : Text) : Text := closed.flatMap (fun line => line ++ [byte '\n']) ++ last

-- What the scan makes of the lines that are closed; none when it stays at one for good.
def outcomeOf : List Text → List (DiscoveryClusterInfo Host) → Option (Outcome Host)
  | [], infos => some (.found infos)
  | line :: lines, infos =>
    match makeServerCommonInfoFromLine lib addresses line with
    | .error => none
    | .notReached => some .notReached
    | .info entry => outcomeOf lines (infos ++ [substitute addresses parentHost entry])

theorem makeServerCommonInfoFromLine_nil : makeServerCommonInfoFromLine lib addresses [] = .error := rfl

theorem makeServerCommonInfoFromLine_ne_error (line : Text) (more : line ≠ []) :
    makeServerCommonInfoFromLine lib addresses line ≠ .error := by
  rw [makeServerCommonInfoFromLine, if_neg more]
  split <;> nofun

theorem takeWhile_line (line rest : Text) (clean : byte '\n' ∉ line) :
    (line ++ byte '\n' :: rest).takeWhile (· ≠ byte '\n') = line := by
  rw [List.takeWhile_append_of_pos]
  · simp
  · intro c member
    simpa using fun same : c = byte '\n' => clean (same ▸ member)

theorem dropWhile_line (line rest : Text) (clean : byte '\n' ∉ line) :
    ((line ++ byte '\n' :: rest).dropWhile (· ≠ byte '\n')).drop 1 = rest := by
  rw [List.dropWhile_append_of_pos]
  · simp
  · intro c member
    simpa using fun same : c = byte '\n' => clean (same ▸ member)

theorem scanLines_join (closed : List Text) (last : Text) (clean : ∀ line ∈ closed, byte '\n' ∉ line)
    (cleanLast : byte '\n' ∉ last) (infos : List (DiscoveryClusterInfo Host)) (outcome : Outcome Host) :
    (∃ fuel, scanLines lib addresses parentHost fuel (joinLines closed last) infos = some outcome) ↔
      outcomeOf lib addresses parentHost closed infos = some outcome := by
  induction closed generalizing infos with
  | nil =>
      have shape : joinLines [] last = last := rfl
      rw [shape, outcomeOf]
      constructor
      · intro ⟨fuel, ended⟩
        cases fuel with
        | zero => cases ended
        | succ fuel => simpa [scanLines, cleanLast] using ended
      · intro same
        exact ⟨1, by simpa [scanLines, cleanLast] using same⟩
  | cons line closed ih =>
      have ⟨own, others⟩ := List.forall_mem_cons.mp clean
      have shape : joinLines (line :: closed) last = line ++ byte '\n' :: joinLines closed last := by
        simp [joinLines]
      have step (fuel : Nat) :
          scanLines lib addresses parentHost (fuel + 1) (line ++ byte '\n' :: joinLines closed last) infos =
          match makeServerCommonInfoFromLine lib addresses line with
          | .error => scanLines lib addresses parentHost fuel (line ++ byte '\n' :: joinLines closed last) infos
          | .notReached => some .notReached
          | .info entry =>
            scanLines lib addresses parentHost fuel (joinLines closed last)
              (infos ++ [substitute addresses parentHost entry]) := by
        rw [scanLines, takeWhile_line _ _ own, dropWhile_line _ _ own]
        simp
      rw [shape, outcomeOf]
      cases parsed : makeServerCommonInfoFromLine lib addresses line with
      | error =>
          have never (fuel : Nat) :
              scanLines lib addresses parentHost fuel (line ++ byte '\n' :: joinLines closed last) infos = none := by
            induction fuel with
            | zero => rfl
            | succ fuel ih => rw [step, parsed, ih]
          simp [never]
      | notReached =>
          constructor
          · intro ⟨fuel, ended⟩
            cases fuel with
            | zero => cases ended
            | succ fuel => rwa [step, parsed] at ended
          · intro same
            exact ⟨1, by rwa [step, parsed]⟩
      | info entry =>
          simp only
          rw [← ih others]
          constructor
          · intro ⟨fuel, ended⟩
            cases fuel with
            | zero => cases ended
            | succ fuel => exact ⟨fuel, by rwa [step, parsed] at ended⟩
          · intro ⟨fuel, ended⟩
            exact ⟨fuel + 1, by rwa [step, parsed]⟩

end Lines

/-! ## The reply to `CLUSTER NODES` -/

/-- The flags of a node, as redis documents them. -/
inductive Flag where
  | myself | master | slave | pfail | fail | handshake | noaddr | noflags
deriving DecidableEq

def Flag.text : Flag → Text
  | myself => ascii "myself"
  | master => ascii "master"
  | slave => ascii "slave"
  | pfail => ascii "fail?"
  | fail => ascii "fail"
  | handshake => ascii "handshake"
  | noaddr => ascii "noaddr"
  | noflags => ascii "noflags"

-- The flags that the scanner knows.
def Flag.isKnown : Flag → Bool
  | myself | master | slave | fail => true
  | pfail | handshake | noaddr | noflags => false

def isField (word : Text) : Bool := word ≠ [] && word.all fun c => c ≠ byte ' ' && c ≠ byte '\n'

abbrev Field := { word : Text // isField word = true }

structure Node where
  name : Field
  address : Field
  flags : List Flag
  upstream : Field
  ping : Field
  pong : Field
  epoch : Field
  connected : Bool
  slots : List Field
  flagged : flags ≠ []
  oneRole : .master ∈ flags → .slave ∉ flags

namespace Node

variable (node : Node)

def flagsText : Text := [byte ','].intercalate (node.flags.map Flag.text)

def linkText : Text := if node.connected then ascii "connected" else ascii "disconnected"

def fields : List Text :=
  [node.name.val, node.address.val, node.flagsText, node.upstream.val, node.ping.val, node.pong.val, node.epoch.val,
    node.linkText] ++ node.slots.map Subtype.val

def text : Text := unwords node.fields

def role : ServerTypes := if .slave ∈ node.flags then .slave else .master

def isKnown : Prop := ∀ flag ∈ node.flags, flag.isKnown = true

instance : Decidable node.isKnown := inferInstanceAs (Decidable (∀ _ ∈ _, _))

def entry {Host : Type} (addresses : Addresses Host) (parentHost : Text) : DiscoveryClusterInfo Host :=
  let host := addresses.ofText node.address.val
  { info :=
      { name := node.name.val
        type := node.role
        state := if node.connected then .up else .down
        host := if addresses.isLocalHost (addresses.host host) then addresses.setHost host parentHost else host }
    self := .myself ∈ node.flags }

end Node

-- A line of the reply; `none` is a blank line.
def lineText : Option Node → Text
  | none => []
  | some node => node.text

/-- A reply: the lines that a line break ends, and the rest behind the last one. -/
structure Reply where
  closed : List (Option Node)
  last : Option Node

def Reply.text (reply : Reply) : Text := joinLines (reply.closed.map lineText) (lineText reply.last)

def Reply.nodes (reply : Reply) : List Node := reply.closed.filterMap id ++ reply.last.toList

section Fields

theorem isField_spec (word : Text) (field : isField word = true) :
    word ≠ [] ∧ byte ' ' ∉ word ∧ byte '\n' ∉ word := by
  simp only [isField, Bool.and_eq_true, List.all_eq_true, decide_eq_true_eq] at field
  exact ⟨field.1, fun blank => (field.2 _ blank).1 rfl, fun newline => (field.2 _ newline).2 rfl⟩

theorem fieldsFrom_blank (word field rest : Text) (clean : byte ' ' ∉ field) :
    fieldsFrom word (field ++ byte ' ' :: rest) = (word ++ field) :: fieldsFrom [] rest := by
  induction field generalizing word with
  | nil => simp [fieldsFrom]
  | cons c field ih =>
      have other : c ≠ byte ' ' := fun same => clean (by simp [same])
      have later := ih (word ++ [c]) fun member => clean (List.mem_cons_of_mem c member)
      simpa [fieldsFrom, other] using later

theorem fieldsFrom_last (word field : Text) (more : field ≠ []) (clean : byte ' ' ∉ field) :
    fieldsFrom word field = [word ++ field] := by
  induction field generalizing word with
  | nil => exact absurd rfl more
  | cons c field ih =>
      have other : c ≠ byte ' ' := fun same => clean (by simp [same])
      cases field with
      | nil => simp [fieldsFrom, other]
      | cons d field =>
          have later := ih (word ++ [c]) (by simp) fun member => clean (List.mem_cons_of_mem c member)
          simpa [fieldsFrom, other] using later

theorem fieldsFrom_unwords (words : List Text) (fields : ∀ word ∈ words, isField word = true) :
    fieldsFrom [] (unwords words) = words := by
  induction words with
  | nil => rfl
  | cons first rest ih =>
      have ⟨own, others⟩ := List.forall_mem_cons.mp fields
      obtain ⟨nonempty, clean, _⟩ := isField_spec first own
      cases rest with
      | nil => simpa using fieldsFrom_last [] first nonempty clean
      | cons second rest => rw [unwords_cons_cons, fieldsFrom_blank [] first _ clean, ih others, List.nil_append]

theorem isField_intercalate (flags : List Flag) (more : flags ≠ []) :
    isField ([byte ','].intercalate (flags.map Flag.text)) = true := by
  have own (flag : Flag) : isField flag.text = true := by cases flag <;> decide
  induction flags with
  | nil => exact absurd rfl more
  | cons first rest ih =>
      cases rest with
      | nil => simpa using own first
      | cons second rest =>
          have later := ih (by simp)
          have first' := own first
          rw [List.map_cons, List.map_cons, List.intercalate_cons_cons]
          simp only [isField, List.map_cons, Bool.and_eq_true, List.all_eq_true, decide_eq_true_eq] at later first' ⊢
          refine ⟨by simp, ?_⟩
          simp only [List.append_assoc, List.singleton_append, List.forall_mem_append, List.forall_mem_cons]
          exact ⟨first'.2, by decide, later.2⟩

theorem fields_fields (node : Node) : ∀ word ∈ node.fields, isField word = true := by
  have link : isField node.linkText = true := by
    unfold Node.linkText
    split <;> decide
  simp only [Node.fields, List.cons_append, List.nil_append, List.forall_mem_cons, List.forall_mem_map]
  exact ⟨node.name.2, node.address.2, isField_intercalate node.flags node.flagged, node.upstream.2, node.ping.2,
    node.pong.2, node.epoch.2, link, fun slot _ => slot.2⟩

theorem text_spec (node : Node) : node.text ≠ [] ∧ byte '\n' ∉ node.text := by
  have fields := fields_fields node
  constructor
  · intro empty
    have read := fieldsFrom_unwords node.fields fields
    rw [show unwords node.fields = [] from empty] at read
    cases read
  · rw [Node.text, mem_unwords _ _ (by decide)]
    intro ⟨word, member, newline⟩
    exact (isField_spec word (fields word member)).2.2 newline

end Fields

section Nodes

variable {Host : Type} (lib : Common) (addresses : Addresses Host) (parentHost : Text)

def roleAfter (type : ServerTypes) : Flag → ServerTypes
  | .master => .master
  | .slave => .slave
  | _ => type

theorem setFlag_text (entry : DiscoveryClusterInfo Host) (flag : Flag) :
    setFlag entry flag.text =
      if flag.isKnown = true then
        some { info := { entry.info with type := roleAfter entry.info.type flag }, self := entry.self || flag = .myself }
      else none := by
  have apart : ascii "slave" ≠ ascii "master" ∧ ascii "myself" ≠ ascii "master" ∧ ascii "myself" ≠ ascii "slave" ∧
      ascii "fail" ≠ ascii "master" ∧ ascii "fail" ≠ ascii "slave" ∧ ascii "fail" ≠ ascii "myself" := by decide
  obtain ⟨slaveMaster, myselfMaster, myselfSlave, failMaster, failSlave, failMyself⟩ := apart
  cases flag with
  | myself => simp [setFlag, Flag.text, Flag.isKnown, roleAfter, myselfMaster, myselfSlave]
  | master => simp [setFlag, Flag.text, Flag.isKnown, roleAfter]
  | slave => simp [setFlag, Flag.text, Flag.isKnown, roleAfter, slaveMaster]
  | fail => simp [setFlag, Flag.text, Flag.isKnown, roleAfter, failMaster, failSlave, failMyself]
  | pfail | handshake | noaddr | noflags =>
      simp only [setFlag, Flag.text, Flag.isKnown]
      rfl

theorem foldlM_setFlag (flags : List Flag) (entry : DiscoveryClusterInfo Host) :
    (flags.map Flag.text).foldlM setFlag entry =
      if ∀ flag ∈ flags, flag.isKnown = true then
        some { info := { entry.info with type := flags.foldl roleAfter entry.info.type },
               self := entry.self || decide (.myself ∈ flags) }
      else none := by
  rw [List.foldlM_map, Runs.foldlM_guarded _ setFlag_text]
  congr 2
  induction flags generalizing entry with
  | nil => simp
  | cons flag flags ih =>
      have self : (decide (flag = .myself) || decide (.myself ∈ flags)) = decide (.myself ∈ flag :: flags) := by
        simp [eq_comm]
      simp only [Runs.run_cons, ih, List.foldl_cons, Bool.or_assoc, self]

theorem foldl_roleAfter (flags : List Flag) (oneRole : .master ∈ flags → .slave ∉ flags) :
    flags.foldl roleAfter .master = if .slave ∈ flags then .slave else .master := by
  have masters (flags : List Flag) (none : .slave ∉ flags) : flags.foldl roleAfter .master = .master := by
    induction flags with
    | nil => rfl
    | cons flag flags ih =>
        have later := ih fun member => none (List.mem_cons_of_mem flag member)
        cases flag <;> first | exact later | exact absurd List.mem_cons_self none
  have slaves (flags : List Flag) (none : .master ∉ flags) : flags.foldl roleAfter .slave = .slave := by
    induction flags with
    | nil => rfl
    | cons flag flags ih =>
        have later := ih fun member => none (List.mem_cons_of_mem flag member)
        cases flag <;> first | exact later | exact absurd List.mem_cons_self none
  by_cases slave : .slave ∈ flags
  · have noMaster : .master ∉ flags := fun master => oneRole master slave
    rw [if_pos slave]
    obtain ⟨before, after, rfl⟩ := List.append_of_mem slave
    rw [List.foldl_append, List.foldl_cons]
    exact slaves after fun member => noMaster (List.mem_append_right _ (List.mem_cons_of_mem _ member))
  · rw [if_neg slave, masters flags slave]

-- The entry before the parent host is put in.
def Node.read (node : Node) : DiscoveryClusterInfo Host :=
  { info :=
      { name := node.name.val
        type := node.role
        state := if node.connected then .up else .down
        host := addresses.ofText node.address.val }
    self := .myself ∈ node.flags }

theorem substitute_read (node : Node) :
    substitute addresses parentHost (node.read addresses) = node.entry addresses parentHost := by
  by_cases isLocal : addresses.isLocalHost (addresses.host (addresses.ofText node.address.val)) = true
  · simp [substitute, Node.read, Node.entry, isLocal]
  · simp [substitute, Node.read, Node.entry, isLocal]

variable (lawful : lib.Lawful)
include lawful

theorem tokenize_flags (node : Node) : lib.tokenize node.flagsText (ascii ",") = node.flags.map Flag.text := by
  have comma : ascii "," = [byte ','] := rfl
  have pieces (flag : Flag) : byte ',' ∉ flag.text ∧ flag.text ≠ [] := by cases flag <;> decide
  have more : node.flags.map Flag.text ≠ [] := by simpa using node.flagged
  rw [comma, lawful.tokenize_eq, Node.flagsText, List.splitOn_intercalate _ _ more]
  · rw [List.filter_eq_self, List.forall_mem_map]
    exact fun flag _ => by simpa using (pieces flag).2
  · rw [List.forall_mem_map]
    exact fun flag _ => (pieces flag).1

theorem makeServerCommonInfoFromLine_node (node : Node) :
    makeServerCommonInfoFromLine lib addresses node.text =
      if node.isKnown then .info (node.read addresses) else .notReached := by
  have rest (words : List Text) (pos : Nat) (late : 8 ≤ pos) (entry : DiscoveryClusterInfo Host) :
      setFields lib addresses entry pos words = some entry := by
    induction words generalizing pos with
    | nil => rfl
    | cons word words ih =>
        have same : setField lib addresses entry pos word = some entry := by
          unfold setField
          split <;> first | rfl | omega
        rw [setFields, same, Option.bind_some, ih (pos + 1) (by omega)]
  rw [makeServerCommonInfoFromLine, if_neg (text_spec node).1, Node.text, fieldsFrom_unwords _ (fields_fields node),
    Node.fields]
  simp only [List.cons_append, List.nil_append, setFields, setField, Option.bind_some, Nat.reduceAdd,
    tokenize_flags lib lawful node, foldlM_setFlag, foldl_roleAfter node.flags node.oneRole]
  by_cases known : node.isKnown
  · have apart : ascii "disconnected" ≠ ascii "connected" := by decide
    have known' : ∀ flag ∈ node.flags, flag.isKnown = true := known
    simp only [if_pos known', if_pos known, Option.bind_some, Node.linkText]
    by_cases link : node.connected = true
    · simp [link, rest, Node.role, Node.read]
    · simp [link, apart, rest, Node.role, Node.read]
  · have known' : ¬ ∀ flag ∈ node.flags, flag.isKnown = true := known
    simp only [if_neg known', if_neg known, Option.bind_none]

end Nodes

/-! ## The whole reply -/

def closedLines (text : Text) : List Text := (text.splitOn (byte '\n')).dropLast

def LineResult.isNotReached {Host : Type} : LineResult Host → Bool
  | .notReached => true
  | _ => false

section Replies

variable {Host : Type} (lib : Common) (addresses : Addresses Host) (parentHost : Text)

theorem exists_joinLines (text : Text) :
    ∃ last, byte '\n' ∉ last ∧ (∀ line ∈ closedLines text, byte '\n' ∉ line) ∧
      text = joinLines (closedLines text) last := by
  obtain ⟨lines, last, pieces⟩ :=
    (List.eq_nil_or_concat' (text.splitOn (byte '\n'))).resolve_left (List.splitOn_ne_nil _ text)
  have clean : ∀ piece ∈ lines ++ [last], byte '\n' ∉ piece := fun piece member =>
    (mem_splitOn (byte '\n') text piece (pieces ▸ member)).1
  have closed : closedLines text = lines := by rw [closedLines, pieces, List.dropLast_concat]
  rw [List.forall_mem_append, List.forall_mem_singleton] at clean
  refine ⟨last, clean.2, by rw [closed]; exact clean.1, ?_⟩
  rw [joinLines, closed, ← intercalate_concat, ← pieces, List.intercalate_splitOn]

theorem outcomeOf_isSome_iff (lines : List Text) (infos : List (DiscoveryClusterInfo Host)) :
    (∃ outcome, outcomeOf lib addresses parentHost lines infos = some outcome) ↔
      [] ∉ lines.takeWhile fun line => !(makeServerCommonInfoFromLine lib addresses line).isNotReached := by
  induction lines generalizing infos with
  | nil => simp [outcomeOf]
  | cons line lines ih =>
      rw [outcomeOf, List.takeWhile_cons]
      cases parsed : makeServerCommonInfoFromLine lib addresses line with
      | error =>
          have blank : line = [] := by
            by_contra more
            exact makeServerCommonInfoFromLine_ne_error lib addresses line more parsed
          simp [LineResult.isNotReached, blank]
      | notReached => simp [LineResult.isNotReached]
      | info entry =>
          have more : line ≠ [] := by
            rintro rfl
            cases parsed
          simp only [LineResult.isNotReached, Bool.not_false, if_true, List.mem_cons, more.symm, false_or]
          exact ih _

variable (lawful : lib.Lawful)
include lawful

theorem outcomeOf_lines (lines : List (Option Node)) (infos found : List (DiscoveryClusterInfo Host)) :
    outcomeOf lib addresses parentHost (lines.map lineText) infos = some (.found found) ↔
      (∀ line ∈ lines, ∃ node, line = some node ∧ node.isKnown) ∧
        found = infos ++ (lines.filterMap id).map fun node => node.entry addresses parentHost := by
  induction lines generalizing infos with
  | nil => simp [outcomeOf, eq_comm]
  | cons line lines ih =>
      rw [List.map_cons, outcomeOf]
      cases line with
      | none => simp [lineText, makeServerCommonInfoFromLine_nil]
      | some node =>
          rw [lineText, makeServerCommonInfoFromLine_node lib addresses lawful node]
          by_cases known : node.isKnown
          · simp only [if_pos known, substitute_read, ih]
            simp [known]
          · simp [known]

/-- The loop ends unless it meets a blank line before it aborts; and a reply is read line by line exactly
when it ends in a line break, has no blank line and no flag but those that are expected. -/
theorem discovery_iff :
    (∀ text, (∃ outcome, EndsWith lib addresses parentHost text outcome) ↔
      [] ∉ (closedLines text).takeWhile fun line => !(makeServerCommonInfoFromLine lib addresses line).isNotReached) ∧
    ∀ reply : Reply, reply.text ≠ [] →
      (EndsWith lib addresses parentHost reply.text
          (.found (reply.nodes.map fun node => node.entry addresses parentHost)) ↔
        reply.last = none ∧ ∀ line ∈ reply.closed, ∃ node, line = some node ∧ node.isKnown) := by
  have scan (text : Text) (more : text ≠ []) (closed : List Text) (last : Text)
      (clean : ∀ line ∈ closed, byte '\n' ∉ line)
      (cleanLast : byte '\n' ∉ last) (shape : text = joinLines closed last) (outcome : Outcome Host) :
      EndsWith lib addresses parentHost text outcome ↔
        outcomeOf lib addresses parentHost closed [] = some outcome := by
    rw [← scanLines_join lib addresses parentHost closed last clean cleanLast, ← shape]
    simp only [EndsWith, makeDiscoveryClusterInfo, if_neg more]
  constructor
  · intro text
    by_cases empty : text = []
    · subst empty
      have none : closedLines [] = [] := by simp [closedLines]
      simp [EndsWith, makeDiscoveryClusterInfo, none]
    · obtain ⟨last, cleanLast, clean, shape⟩ := exists_joinLines text
      simp only [scan text empty _ last clean cleanLast shape, outcomeOf_isSome_iff]
  · intro reply more
    have clean (line : Option Node) : byte '\n' ∉ lineText line := by
      cases line with
      | none => simp [lineText]
      | some node => exact (text_spec node).2
    rw [scan reply.text more (reply.closed.map lineText) (lineText reply.last)
      (List.forall_mem_map.mpr fun line _ => clean line)
      (clean _) rfl, outcomeOf_lines lib addresses parentHost lawful]
    cases last : reply.last with
    | none => simp [Reply.nodes, last, and_comm]
    | some node =>
        -- The last line has no entry of its own.
        simp [Reply.nodes, last]

end Replies

def sampleAddresses : Addresses HostAndPort where
  nowhere := ⟨[], 0⟩
  ofText := Common.std.toHostAndPort
  host := HostAndPort.host
  setHost address host := { address with host := host }
  isLocalHost host := host = ascii "127.0.0.1"

def sampleField : Field := ⟨ascii "0", by decide⟩

def sampleNode (address : Field) (flags : List Flag) (flagged : flags ≠ [])
    (oneRole : .master ∈ flags → .slave ∉ flags) : Node :=
  ⟨⟨ascii "e7d1", by decide⟩, address, flags, sampleField, sampleField, sampleField, sampleField, true,
    [⟨ascii "0-5460", by decide⟩], flagged, oneRole⟩

def sampleReply : Reply where
  closed :=
    [some (sampleNode ⟨ascii "127.0.0.1:7000", by decide⟩ [.myself, .master] (by decide) (by decide)),
      some (sampleNode ⟨ascii "10.0.0.2:7001", by decide⟩ [.slave, .fail] (by decide) (by decide))]
  last := none

theorem sample_discovered :
    EndsWith Common.std sampleAddresses (ascii "10.0.0.1") sampleReply.text
      (.found (sampleReply.nodes.map fun node => node.entry sampleAddresses (ascii "10.0.0.1"))) := by
  refine ((discovery_iff Common.std sampleAddresses (ascii "10.0.0.1") Common.std_lawful).2 sampleReply ?_).mpr
    ⟨rfl, ?_⟩
  · decide
  · simp only [sampleReply, List.forall_mem_cons, List.not_mem_nil, false_implies, implies_true, and_true,
      Option.some.injEq, exists_eq_left']
    decide

/-- A blank line holds the loop up for good, and a node that may have failed aborts. -/
theorem blank_line_never_ends :
    (¬ ∃ outcome, EndsWith Common.std sampleAddresses (ascii "10.0.0.1") (ascii "\n") outcome) ∧
      EndsWith Common.std sampleAddresses (ascii "10.0.0.1")
        (Reply.text
          ⟨[some (sampleNode ⟨ascii "10.0.0.2:7001", by decide⟩ [.master, .pfail] (by decide) (by decide))], none⟩)
        .notReached := by
  constructor
  · intro ⟨outcome, fuel, ended⟩
    have stays :=
      (scanLines_join Common.std sampleAddresses (ascii "10.0.0.1") [[]] [] (by simp) (by simp) [] outcome).mp
      ⟨fuel, ended⟩
    cases stays
  · exact ⟨1, rfl⟩

end FastoNoSQL.Redis.ClusterInfos
