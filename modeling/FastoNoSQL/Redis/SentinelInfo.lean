import FastoNoSQL.Redis.ClusterInfos
import FastoNoSQL.Redis.Collections

set_option autoImplicit false

/-!
# Sentinel discovery

`MakeServerCommonInfo` of `core/redis/sentinel_info.cpp`: what a sentinel tells
of a server, a list of field names and values.
-/

namespace FastoNoSQL.Redis.SentinelInfo

open Bytes

open ClusterInfos (ServerTypes ServerState)

inductive ServerConnectState where
  | connected | disconnected
deriving DecidableEq

structure ServerCommonInfo where
  name : Text := []
  type : ServerTypes := .master
  state : ServerState := .up
  cstate : ServerConnectState := .connected
  host : HostAndPort
deriving DecidableEq

/-- How the reading of a reply ends; `undefined` when an element past the end or the text of one without is read. -/
inductive Outcome where
  | error
  | undefined
  | notReached
  | info (linf : ServerCommonInfo)

section Model

variable (lib : Common)

-- `element[j]->str`; replies that are no texts have none.
def str : Reply → Option Text
  | .status text | .error text | .string text => some (cString text)
  | _ => none

def setFlag (linf : ServerCommonInfo) (flag : Text) : Option ServerCommonInfo :=
  if flag = ascii "master" then some { linf with type := .master }
  else if flag = ascii "slave" then some { linf with type := .slave }
  else if flag = ascii "s_down" then some { linf with state := .down }
  else if flag = ascii "disconnected" then some { linf with cstate := .disconnected }
  else none

-- The names of the fields that are read.
def isField (name : Text) : Bool :=
  name = ascii "name" || name = ascii "flags" || name = ascii "ip" || name = ascii "port"

def setField (linf : ServerCommonInfo) (name value : Text) : Option ServerCommonInfo :=
  if name = ascii "name" then some { linf with name := value }
  else if name = ascii "flags" then (lib.tokenize value (ascii ",")).foldlM setFlag linf
  else if name = ascii "ip" then some { linf with host.host := value }
  else if name = ascii "port" then some { linf with host.port := lib.toUInt16 value }
  else some linf

/-- The loop over `j` and `j + 1`. -/
def readFields (linf : ServerCommonInfo) : List Reply → Outcome
  | [] => .info linf
  | [field] =>
    match str field with
    | none => .undefined
    | some name => if isField name then .undefined else .info linf
  | field :: value :: rest =>
    match str field with
    | none => .undefined
    | some name =>
      if isField name then
        match str value with
        | none => .undefined
        | some value =>
          match setField lib linf name value with
          | none => .notReached
          | some linf => readFields linf rest
      else readFields linf rest

-- The elements of a reply, if there is a reply, and the address of a new `ServerCommonInfo`.
def makeServerCommonInfo (nowhere : HostAndPort) (replInfo : Option (List Reply)) : Outcome :=
  match replInfo with
  | none => .error
  | some elements => readFields lib { host := nowhere } elements

end Model

/-! ## Replies of a sentinel -/

inductive Flag where
  | master | slave | sentinel | sDown | oDown | disconnected | masterDown | failoverInProgress | promoted | reconfSent
  | reconfInprog | reconfDone
deriving DecidableEq

def Flag.text : Flag → Text
  | master => ascii "master"
  | slave => ascii "slave"
  | sentinel => ascii "sentinel"
  | sDown => ascii "s_down"
  | oDown => ascii "o_down"
  | disconnected => ascii "disconnected"
  | masterDown => ascii "master_down"
  | failoverInProgress => ascii "failover_in_progress"
  | promoted => ascii "promoted"
  | reconfSent => ascii "reconf_sent"
  | reconfInprog => ascii "reconf_inprog"
  | reconfDone => ascii "reconf_done"

-- The flags that are not an abort.
def Flag.isKnown : Flag → Bool
  | master | slave | sDown | disconnected => true
  | _ => false

def flagsText (flags : List Flag) : Text := [byte ','].intercalate (flags.map Flag.text)

/-- A record of fields with different names and any values, but for the flags and the port. -/
structure Record where
  fields : List (Text × Text)
  distinct : (fields.map Prod.fst).Nodup
  named : ∀ field ∈ fields, 0 ∉ field.1
  flagged : ∀ value, (ascii "flags", value) ∈ fields → ∃ flags, value = flagsText flags
  ported : ∀ value, (ascii "port", value) ∈ fields → Decimal value ∧ readNat value < 2 ^ 16

def Record.elements (record : Record) : List Reply := (unpair record.fields).map .string

/-- The information is what the record names; a role, when the flags name just one. -/
structure Tells (record : Record) (linf : ServerCommonInfo) : Prop where
  name : ∀ value, (ascii "name", value) ∈ record.fields → linf.name = value
  address : ∀ value, (ascii "ip", value) ∈ record.fields → linf.host.host = value
  port : ∀ value, (ascii "port", value) ∈ record.fields → linf.host.port.toNat = readNat value
  master : ∀ flags, (ascii "flags", flagsText flags) ∈ record.fields → .master ∈ flags → .slave ∉ flags →
    linf.type = .master
  slave : ∀ flags, (ascii "flags", flagsText flags) ∈ record.fields → .slave ∈ flags → .master ∉ flags →
    linf.type = .slave
  down : ∀ flags, (ascii "flags", flagsText flags) ∈ record.fields → (linf.state = .down ↔ .sDown ∈ flags)
  disconnected : ∀ flags, (ascii "flags", flagsText flags) ∈ record.fields →
    (linf.cstate = .disconnected ↔ .disconnected ∈ flags)

/-! ## One field -/

section Fields

variable {lib : Common} {linf : ServerCommonInfo}

def roleAfter (type : ServerTypes) : Flag → ServerTypes
  | .master => .master
  | .slave => .slave
  | _ => type

theorem setFlag_text (flag : Flag) :
    setFlag linf flag.text =
      if flag.isKnown = true then
        some { linf with
          type := roleAfter linf.type flag
          state := if flag = .sDown then .down else linf.state
          cstate := if flag = .disconnected then .disconnected else linf.cstate }
      else none := by
  have apart : ascii "slave" ≠ ascii "master" ∧ ascii "s_down" ≠ ascii "master" ∧ ascii "s_down" ≠ ascii "slave" ∧
      ascii "disconnected" ≠ ascii "master" ∧ ascii "disconnected" ≠ ascii "slave" ∧
      ascii "disconnected" ≠ ascii "s_down" := by decide
  cases flag with
  | master | slave | sDown | disconnected => simp [setFlag, Flag.text, Flag.isKnown, roleAfter, apart]
  | _ =>
      simp only [setFlag, Flag.text, Flag.isKnown]
      rfl

theorem foldlM_setFlag (flags : List Flag) (linf : ServerCommonInfo) :
    (flags.map Flag.text).foldlM setFlag linf =
      if ∀ flag ∈ flags, flag.isKnown = true then
        some { linf with
          type := flags.foldl roleAfter linf.type
          state := if .sDown ∈ flags then .down else linf.state
          cstate := if .disconnected ∈ flags then .disconnected else linf.cstate }
      else none := by
  rw [List.foldlM_map, Runs.foldlM_guarded _ fun _ flag => setFlag_text flag]
  congr 2
  induction flags generalizing linf with
  | nil => simp
  | cons flag flags ih =>
      have marked {A : Type} (mark : Flag) (value other : A) :
          (if mark ∈ flags then value else if flag = mark then value else other) =
            if mark ∈ flag :: flags then value else other := by
        by_cases first : flag = mark
        · simp [first]
        · simp [first, Ne.symm first]
      simp only [Runs.run_cons, ih, List.foldl_cons, marked]

-- A role that is named alone is the last one.
theorem foldl_roleAfter_slave (flags : List Flag) (type : ServerTypes) (none : .master ∉ flags) :
    flags.foldl roleAfter type = if .slave ∈ flags then .slave else type := by
  induction flags generalizing type with
  | nil => rfl
  | cons flag flags ih =>
      rw [List.mem_cons, not_or] at none
      rw [List.foldl_cons, ih _ none.2]
      cases flag with
      | master => exact absurd rfl none.1
      | slave => simp [roleAfter]
      | _ => simp [roleAfter]

theorem foldl_roleAfter_master (flags : List Flag) (type : ServerTypes) (none : .slave ∉ flags) :
    flags.foldl roleAfter type = if .master ∈ flags then .master else type := by
  induction flags generalizing type with
  | nil => rfl
  | cons flag flags ih =>
      rw [List.mem_cons, not_or] at none
      rw [List.foldl_cons, ih _ none.2]
      cases flag with
      | slave => exact absurd rfl none.1
      | master => simp [roleAfter]
      | _ => simp [roleAfter]

theorem tokenize_flags (lawful : lib.Lawful) (flags : List Flag) :
    lib.tokenize (flagsText flags) (ascii ",") = flags.map Flag.text := by
  have comma : ascii "," = [byte ','] := rfl
  have pieces (flag : Flag) : byte ',' ∉ flag.text ∧ flag.text ≠ [] := by cases flag <;> decide
  rw [comma, lawful.tokenize_eq, flagsText]
  cases flags with
  | nil => rfl
  | cons flag flags =>
      rw [List.splitOn_intercalate _ _ (by simp)]
      · rw [List.filter_eq_self, List.forall_mem_map]
        exact fun flag _ => by simpa using (pieces flag).2
      · rw [List.forall_mem_map]
        exact fun flag _ => (pieces flag).1

theorem nul_not_mem_flagsText (flags : List Flag) : 0 ∉ flagsText flags := by
  have clean (flag : Flag) : (0 : UInt8) ∉ flag.text := by cases flag <;> decide
  induction flags with
  | nil => simp [flagsText]
  | cons flag flags ih =>
      rw [flagsText] at ih ⊢
      cases flags with
      | nil => simpa using clean flag
      | cons second flags =>
          rw [List.map_cons, List.map_cons, List.intercalate_cons_cons]
          have comma : (0 : UInt8) ≠ byte ',' := by decide
          simpa [clean flag, comma] using ih

-- A field that is no abort: its flags are among those that are compared.
def Known (lib : Common) (field : Text × Text) : Prop :=
  field.1 = ascii "flags" → ∀ flag ∈ lib.tokenize (cString field.2) (ascii ","),
    flag = ascii "master" ∨ flag = ascii "slave" ∨ flag = ascii "s_down" ∨ flag = ascii "disconnected"

-- What a field that is read leaves behind.
def applyField (lib : Common) (linf : ServerCommonInfo) (field : Text × Text) : ServerCommonInfo :=
  (setField lib linf field.1 (cString field.2)).getD linf

theorem setFlag_isSome (linf : ServerCommonInfo) (flag : Text) : (setFlag linf flag).isSome = true ↔
    flag = ascii "master" ∨ flag = ascii "slave" ∨ flag = ascii "s_down" ∨ flag = ascii "disconnected" := by
  unfold setFlag
  split_ifs <;> simp_all

theorem foldlM_setFlag_isSome (flags : List Text) (linf : ServerCommonInfo) :
    (flags.foldlM setFlag linf).isSome = true ↔ ∀ flag ∈ flags,
      flag = ascii "master" ∨ flag = ascii "slave" ∨ flag = ascii "s_down" ∨ flag = ascii "disconnected" := by
  induction flags generalizing linf with
  | nil => simp
  | cons flag flags ih =>
      rw [List.foldlM_cons, List.forall_mem_cons, ← setFlag_isSome linf]
      cases set : setFlag linf flag with
      | none => simp
      | some after => simp [ih]

theorem setField_isSome (linf : ServerCommonInfo) (field : Text × Text) :
    (setField lib linf field.1 (cString field.2)).isSome = true ↔ Known lib field := by
  unfold setField Known
  by_cases flags : field.1 = ascii "flags"
  · have other : ascii "flags" ≠ ascii "name" := by decide
    rw [flags, if_neg other, if_pos rfl, foldlM_setFlag_isSome]
    simp
  · simp only [flags, if_false, false_implies, iff_true]
    split_ifs <;> rfl

theorem setField_of_not_isField (linf : ServerCommonInfo) (name value : Text) (other : isField name = false) :
    setField lib linf name value = some linf := by
  simp only [isField, Bool.or_eq_false_iff, decide_eq_false_iff_not] at other
  simp [setField, other]

-- A list of fields is read to its end, or to the first that is an abort.
theorem readFields_unpair (fields : List (Text × Text)) (named : ∀ field ∈ fields, 0 ∉ field.1)
    (linf : ServerCommonInfo) :
    ((∀ field ∈ fields, Known lib field) ∧
        readFields lib linf ((unpair fields).map .string) = .info (fields.foldl (applyField lib) linf)) ∨
      (¬∀ field ∈ fields, Known lib field) ∧
        readFields lib linf ((unpair fields).map .string) = .notReached := by
  induction fields generalizing linf with
  | nil => exact Or.inl ⟨by simp, rfl⟩
  | cons field fields ih =>
      rw [List.forall_mem_cons] at named
      have step : readFields lib linf ((unpair (field :: fields)).map .string) =
          match setField lib linf field.1 (cString field.2) with
          | none => .notReached
          | some linf => readFields lib linf ((unpair fields).map .string) := by
        have shape : (unpair (field :: fields)).map Reply.string =
            .string field.1 :: .string field.2 :: (unpair fields).map .string := rfl
        rw [shape, readFields, str]
        dsimp only
        rw [cString_eq_self field.1 named.1]
        by_cases read : isField field.1 = true
        · rw [if_pos read, str]
        · rw [if_neg read, setField_of_not_isField linf _ _ (by simpa using read)]
      rw [step, List.forall_mem_cons, ← setField_isSome linf field]
      cases set : setField lib linf field.1 (cString field.2) with
      | none => simp
      | some after =>
          have applied : applyField lib linf field = after := by rw [applyField, set, Option.getD_some]
          simpa [applied] using ih named.2 after

/-! ## All fields -/

theorem foldlM_setFlag_frame (flags : List Text) {linf after : ServerCommonInfo}
    (set : flags.foldlM setFlag linf = some after) : after.name = linf.name ∧ after.host = linf.host := by
  induction flags generalizing linf with
  | nil =>
      obtain rfl := Option.some.inj set
      exact ⟨rfl, rfl⟩
  | cons flag flags ih =>
      rw [List.foldlM_cons, Option.bind_eq_bind, Option.bind_eq_some_iff] at set
      obtain ⟨next, first, rest⟩ := set
      obtain ⟨name, host⟩ := ih rest
      have kept : next.name = linf.name ∧ next.host = linf.host := by
        unfold setFlag at first
        split_ifs at first <;> (obtain rfl := Option.some.inj first; exact ⟨rfl, rfl⟩)
      exact ⟨name.trans kept.1, host.trans kept.2⟩

-- What the flags say of a server.
def status (linf : ServerCommonInfo) : ServerTypes × ServerState × ServerConnectState :=
  (linf.type, linf.state, linf.cstate)

/-- A field sets its own part of the information and nothing else. -/
theorem applyField_spec (linf : ServerCommonInfo) (field : Text × Text) :
    (applyField lib linf field).name = (if field.1 = ascii "name" then cString field.2 else linf.name) ∧
      (applyField lib linf field).host.host = (if field.1 = ascii "ip" then cString field.2 else linf.host.host) ∧
      (applyField lib linf field).host.port =
        (if field.1 = ascii "port" then lib.toUInt16 (cString field.2) else linf.host.port) ∧
      (field.1 ≠ ascii "flags" → status (applyField lib linf field) = status linf) := by
  have apart : ascii "flags" ≠ ascii "name" ∧ ascii "flags" ≠ ascii "ip" ∧ ascii "flags" ≠ ascii "port" ∧
      ascii "ip" ≠ ascii "name" ∧ ascii "ip" ≠ ascii "flags" ∧ ascii "port" ≠ ascii "name" ∧
      ascii "port" ≠ ascii "flags" ∧ ascii "port" ≠ ascii "ip" ∧ ascii "name" ≠ ascii "ip" ∧
      ascii "name" ≠ ascii "port" ∧ ascii "name" ≠ ascii "flags" ∧ ascii "ip" ≠ ascii "port" := by decide
  by_cases flags : field.1 = ascii "flags"
  · have kept : (applyField lib linf field).name = linf.name ∧ (applyField lib linf field).host = linf.host := by
      rw [applyField, setField, flags, if_neg apart.1, if_pos rfl]
      cases set : (lib.tokenize (cString field.2) (ascii ",")).foldlM setFlag linf with
      | none => exact ⟨rfl, rfl⟩
      | some after => exact foldlM_setFlag_frame _ set
    simp [flags, apart, kept]
  · by_cases name : field.1 = ascii "name"
    · simp [applyField, setField, name, apart, status]
    · by_cases ip : field.1 = ascii "ip"
      · simp [applyField, setField, ip, apart, status]
      · by_cases port : field.1 = ascii "port"
        · simp [applyField, setField, port, apart, status]
        · simp [applyField, setField, name, flags, ip, port]

section Last

variable (lib) {A : Type} (get : ServerCommonInfo → A) (name : Text)
variable (others : ∀ linf field, field.1 ≠ name → get (applyField lib linf field) = get linf)

include others

theorem foldl_kept (fields : List (Text × Text)) (absent : name ∉ fields.map Prod.fst) (linf : ServerCommonInfo) :
    get (fields.foldl (applyField lib) linf) = get linf := by
  induction fields generalizing linf with
  | nil => rfl
  | cons field fields ih =>
      rw [List.map_cons, List.mem_cons, not_or] at absent
      rw [List.foldl_cons, ih absent.2, others linf field (Ne.symm absent.1)]

-- With different names, a field is as good as the last one.
theorem foldl_field (fields : List (Text × Text)) (distinct : (fields.map Prod.fst).Nodup) (value : Text)
    (member : (name, value) ∈ fields) (linf : ServerCommonInfo) :
    ∃ before, get before = get linf ∧
      get (fields.foldl (applyField lib) linf) = get (applyField lib before (name, value)) := by
  obtain ⟨front, back, rfl⟩ := List.append_of_mem member
  rw [List.map_append, List.map_cons, List.nodup_middle, List.nodup_cons, List.mem_append, not_or] at distinct
  obtain ⟨⟨inFront, inBack⟩, -⟩ := distinct
  refine ⟨front.foldl (applyField lib) linf, foldl_kept lib get name others front inFront linf, ?_⟩
  rw [List.foldl_append, List.foldl_cons, foldl_kept lib get name others back inBack]

end Last

/-! ## Records -/

theorem isKnown_iff (flag : Flag) : (flag.text = ascii "master" ∨ flag.text = ascii "slave" ∨
    flag.text = ascii "s_down" ∨ flag.text = ascii "disconnected") ↔ flag.isKnown = true := by
  cases flag <;> decide

/-- Every flag is one that is compared, and the name and the address are C strings. -/
structure Readable (record : Record) : Prop where
  known : ∀ flags, (ascii "flags", flagsText flags) ∈ record.fields → ∀ flag ∈ flags, flag.isKnown = true
  name : ∀ value, (ascii "name", value) ∈ record.fields → 0 ∉ value
  address : ∀ value, (ascii "ip", value) ∈ record.fields → 0 ∉ value

variable (record : Record)

theorem known_iff (lawful : lib.Lawful) : (∀ field ∈ record.fields, Known lib field) ↔
    ∀ flags, (ascii "flags", flagsText flags) ∈ record.fields → ∀ flag ∈ flags, flag.isKnown = true := by
  have field_iff (flags : List Flag) : Known lib (ascii "flags", flagsText flags) ↔
      ∀ flag ∈ flags, flag.isKnown = true := by
    simp only [Known, true_implies, cString_eq_self _ (nul_not_mem_flagsText flags), tokenize_flags lawful,
      List.forall_mem_map, isKnown_iff]
  constructor
  · intro all flags member
    exact (field_iff flags).mp (all _ member)
  · rintro all ⟨name, value⟩ member rfl
    obtain ⟨flags, rfl⟩ := record.flagged value member
    exact (field_iff flags).mpr (all flags member) rfl

/-- What is read of a record whose flags are compared. -/
theorem read_record (lawful : lib.Lawful) (ports : lib.ReadsPorts) (nowhere : HostAndPort)
    (known : ∀ flags, (ascii "flags", flagsText flags) ∈ record.fields → ∀ flag ∈ flags, flag.isKnown = true) :
    ∃ linf, makeServerCommonInfo lib nowhere (some record.elements) = .info linf ∧
      (∀ value, (ascii "name", value) ∈ record.fields → linf.name = cString value) ∧
      (∀ value, (ascii "ip", value) ∈ record.fields → linf.host.host = cString value) ∧
      (∀ value, (ascii "port", value) ∈ record.fields → linf.host.port.toNat = readNat value) ∧
      ∀ flags, (ascii "flags", flagsText flags) ∈ record.fields →
        status linf = (flags.foldl roleAfter .master, if .sDown ∈ flags then .down else .up,
          if .disconnected ∈ flags then .disconnected else .connected) := by
  have read := (readFields_unpair record.fields record.named { host := nowhere }).resolve_right
    fun abort => abort.1 ((known_iff record lawful).mpr known)
  refine ⟨_, read.2, ?_, ?_, ?_, ?_⟩
  · intro value member
    obtain ⟨before, -, last⟩ := foldl_field lib ServerCommonInfo.name (ascii "name")
      (fun linf field other => by rw [(applyField_spec linf field).1, if_neg other]) record.fields record.distinct value
      member { host := nowhere }
    rw [last, (applyField_spec before _).1, if_pos rfl]
  · intro value member
    obtain ⟨before, -, last⟩ := foldl_field lib (fun linf => linf.host.host) (ascii "ip")
      (fun linf field other => by rw [(applyField_spec linf field).2.1, if_neg other]) record.fields record.distinct
      value member { host := nowhere }
    rw [last, (applyField_spec before _).2.1, if_pos rfl]
  · intro value member
    obtain ⟨decimal, fits⟩ := record.ported value member
    obtain ⟨before, -, last⟩ := foldl_field lib (fun linf => linf.host.port) (ascii "port")
      (fun linf field other => by rw [(applyField_spec linf field).2.2.1, if_neg other]) record.fields record.distinct
      value member { host := nowhere }
    rw [last, (applyField_spec before _).2.2.1, if_pos rfl, cString_eq_self value (decimal.not_mem (by decide)),
      ports value decimal fits]
  · intro flags member
    obtain ⟨before, start, last⟩ := foldl_field lib status (ascii "flags")
      (fun linf field other => (applyField_spec linf field).2.2.2 other) record.fields record.distinct _ member
      { host := nowhere }
    have set : setField lib before (ascii "flags") (flagsText flags) =
        (flags.map Flag.text).foldlM setFlag before := by
      rw [setField, if_neg (by decide), if_pos rfl, tokenize_flags lawful]
    obtain ⟨type, state, cstate⟩ : before.type = .master ∧ before.state = .up ∧ before.cstate = .connected := by
      simpa [status] using start
    rw [last, applyField, cString_eq_self _ (nul_not_mem_flagsText flags), set, foldlM_setFlag,
      if_pos (known flags member), Option.getD_some, status, type, state, cstate]

/-- The record is read without an abort, and the information tells what it names. -/
def ReadsRecord (lib : Common) (nowhere : HostAndPort) (record : Record) : Prop :=
  ∃ linf, makeServerCommonInfo lib nowhere (some record.elements) = .info linf ∧ Tells record linf

/-- The reply is an error, so that nothing past its end was read and the information is left alone. -/
def Refuses (lib : Common) (nowhere : HostAndPort) (elements : List Reply) : Prop :=
  makeServerCommonInfo lib nowhere (some elements) = .error

def Malformed (elements : List Reply) : Prop :=
  elements.length % 2 = 1 ∨ ∃ element ∈ elements, ∀ text, element ≠ .string text

theorem readsRecord_iff (lawful : lib.Lawful) (ports : lib.ReadsPorts) (nowhere : HostAndPort) :
    ReadsRecord lib nowhere record ↔ Readable record := by
  constructor
  · rintro ⟨linf, read, tells⟩
    have known : ∀ field ∈ record.fields, Known lib field := by
      by_contra abort
      rcases readFields_unpair record.fields record.named { host := nowhere } with whole | stopped
      · exact abort whole.1
      · cases read.symm.trans stopped.2
    obtain ⟨same, again, name, address, -, -⟩ :=
      read_record record lawful ports nowhere ((known_iff record lawful).mp known)
    obtain rfl := Outcome.info.inj (read.symm.trans again)
    refine ⟨(known_iff record lawful).mp known, fun value member => ?_, fun value member => ?_⟩
    · rw [← cString_eq_iff, ← name value member]
      exact tells.name value member
    · rw [← cString_eq_iff, ← address value member]
      exact tells.address value member
  · intro readable
    obtain ⟨linf, read, name, address, port, flagged⟩ := read_record record lawful ports nowhere readable.known
    have status_eq (flags : List Flag) (member : (ascii "flags", flagsText flags) ∈ record.fields) :
        linf.type = flags.foldl roleAfter .master ∧ (linf.state = if .sDown ∈ flags then .down else .up) ∧
          linf.cstate = if .disconnected ∈ flags then .disconnected else .connected := by
      simpa [status] using flagged flags member
    refine ⟨linf, read, ?_, ?_, port, ?_, ?_, ?_, ?_⟩
    · intro value member
      rw [name value member, cString_eq_self value (readable.name value member)]
    · intro value member
      rw [address value member, cString_eq_self value (readable.address value member)]
    · intro flags member _ slave
      rw [(status_eq flags member).1, foldl_roleAfter_master flags _ slave]
      simp
    · intro flags member slave master
      rw [(status_eq flags member).1, foldl_roleAfter_slave flags _ master, if_pos slave]
    · intro flags member
      rw [(status_eq flags member).2.1]
      simp
    · intro flags member
      rw [(status_eq flags member).2.2]
      simp

theorem readFields_ne_error (elements : List Reply) (linf : ServerCommonInfo) :
    readFields lib linf elements ≠ .error := by
  fun_induction readFields lib linf elements <;> simp_all

end Fields

/-- A record is read exactly when its flags are compared and its name and address are C strings; a reply that is no
record is never refused. -/
theorem sentinel_reply_iff (lib : Common) (nowhere : HostAndPort) (lawful : lib.Lawful) (ports : lib.ReadsPorts) :
    (∀ record, ReadsRecord lib nowhere record ↔ Readable record) ∧
      ∀ elements, Malformed elements → ¬Refuses lib nowhere elements :=
  ⟨fun record => readsRecord_iff record lawful ports nowhere, fun elements _ => readFields_ne_error elements _⟩

theorem sentinel_reply_iff_std :
    (∀ record, ReadsRecord .std ⟨[], 0⟩ record ↔ Readable record) ∧
      ∀ elements, Malformed elements → ¬Refuses .std ⟨[], 0⟩ elements :=
  sentinel_reply_iff .std ⟨[], 0⟩ Common.std_lawful Common.std_readsPorts

-- `name mymaster flags master,o_down`
def downMaster : Record where
  fields := [(ascii "name", ascii "mymaster"), (ascii "flags", flagsText [.master, .oDown])]
  distinct := by decide
  named := by decide
  flagged value member := by
    have other : ascii "flags" ≠ ascii "name" := by decide
    exact ⟨[.master, .oDown], by simpa [other] using member⟩
  ported value member := by
    have other : ascii "port" ≠ ascii "name" ∧ ascii "port" ≠ ascii "flags" := by decide
    simp [other] at member

theorem downMaster_not_read :
    ¬∀ (lib : Common) (nowhere : HostAndPort), lib.Lawful → lib.ReadsPorts →
      (∀ record, ReadsRecord lib nowhere record) ∧ ∀ elements, Malformed elements → Refuses lib nowhere elements := by
  intro all
  obtain ⟨linf, read, -⟩ := (all .std ⟨[], 0⟩ Common.std_lawful Common.std_readsPorts).1 downMaster
  have abort : makeServerCommonInfo .std ⟨[], 0⟩ (some downMaster.elements) = .notReached := by rfl
  cases read.symm.trans abort

end FastoNoSQL.Redis.SentinelInfo
