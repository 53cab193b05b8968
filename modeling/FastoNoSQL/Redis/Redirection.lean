import FastoNoSQL.Redis.Pipeline

set_option autoImplicit false

/-!
# Redirections

The part of `CliReadReply` of `core/redis/db_connection.cpp` that follows a
cluster to another server: the address is cut out of the text of the reply.
-/

namespace FastoNoSQL.Redis

open Bytes

namespace Redirection

/-- What of the configuration a redirection sets. -/
structure Target where
  host : HostAndPort
  clusterReissueCommand : Bool
deriving DecidableEq

section Reading

variable (lib : Common) (clusterMode : Bool)

/-- `CliReadReply` once the reply was read; none when a separator that is missing is written to. -/
def readReply (reply : Reply) (config : Target) : Option (Except ErrorValue Reply × Target) :=
  match reply with
  | .error text =>
    if isRedirect clusterMode reply then
      (redirection lib (cString text)).map fun (slot, host) =>
        let redir := lib.memSPrintf (ascii "-> Redirected to slot [%d] located at %s") [.d slot.toInt, .s host.text]
        (.ok (.string redir), ⟨host, true⟩)
    else some (.error ⟨text, true⟩, config)
  | reply => some (.ok reply, config)

-- What becomes of the reply itself was modelled before.
theorem readReply_fst (reply : Reply) (config : Target) :
    (readReply lib clusterMode reply config).map Prod.fst = formatReply lib clusterMode reply := by
  cases reply with
  | error text =>
      rw [readReply, formatReply]
      split
      · rw [Option.map_map]
        rfl
      · rfl
  | _ => rfl

end Reading

/-! ## The forms of a redirection -/

/-- `MOVED <slot> <host>:<port>`, or another word; the host may have colons. -/
def Form (word text : Text) (address : HostAndPort) : Prop :=
  ∃ slot port, Decimal slot ∧ Decimal port ∧ readNat port = address.port.toNat ∧ address.host ≠ [] ∧
    byte ' ' ∉ address.host ∧ text = word ++ byte ' ' :: (slot ++ byte ' ' :: (address.host ++ byte ':' :: port))

def IsForm (text : Text) (address : HostAndPort) : Prop :=
  Form (ascii "MOVED") text address ∨ Form (ascii "ASK") text address

/-- A redirection is followed to its address; a text that only begins like one is an error. -/
structure Safe (lib : Common) (text : Text) : Prop where
  follows : ∀ config address, IsForm text address →
    ∃ child, readReply lib true (.error text) config = some (.ok child, ⟨address, true⟩)
  refuses : (ascii "MOVED" <+: text ∨ ascii "ASK" <+: text) → (∀ address, ¬IsForm text address) → ∀ config,
    ∃ err after, readReply lib true (.error text) config = some (.error err, after) ∧ after.host = config.host

section Cutting

variable {lib : Common} {text slot host port : Text} {address : HostAndPort}

theorem dropWhile_append_cons (c : UInt8) (front rest : Text) (clean : c ∉ front) :
    (front ++ c :: rest).dropWhile (· ≠ c) = c :: rest ∧ (front ++ c :: rest).takeWhile (· ≠ c) = front := by
  have all : ∀ b ∈ front, decide (b ≠ c) = true := by
    intro b member
    simpa using fun same : b = c => clean (same ▸ member)
  constructor
  · rw [List.dropWhile_append_of_pos all, List.dropWhile_cons_of_neg (by simp)]
  · rw [List.takeWhile_append_of_pos all, List.takeWhile_cons_of_neg (by simp), List.append_nil]

-- The four searches, one after the other.
theorem redirection_form (word : Text) (cleanWord : byte ' ' ∉ word) (cleanSlot : byte ' ' ∉ slot)
    (cleanHost : byte ':' ∉ host) :
    redirection lib (word ++ byte ' ' :: (slot ++ byte ' ' :: (host ++ byte ':' :: port))) =
      some (lib.toInt slot, ⟨host, lib.toUInt16 port⟩) := by
  obtain ⟨first, -⟩ := dropWhile_append_cons (byte ' ') word (slot ++ byte ' ' :: (host ++ byte ':' :: port)) cleanWord
  obtain ⟨second, slotText⟩ := dropWhile_append_cons (byte ' ') slot (host ++ byte ':' :: port) cleanSlot
  obtain ⟨third, hostText⟩ := dropWhile_append_cons (byte ':') host port cleanHost
  rw [redirection, first]
  dsimp only
  rw [second]
  dsimp only
  rw [third, slotText, hostText]

-- What stands before the first separator, and what stands behind the last.
theorem cut_first {c : UInt8} {first second front back : Text} (cleanFirst : c ∉ first) (cleanSecond : c ∉ second)
    (same : first ++ c :: front = second ++ c :: back) : first = second ∧ front = back := by
  have firstText := (dropWhile_append_cons c first front cleanFirst).2
  have secondText := (dropWhile_append_cons c second back cleanSecond).2
  rw [same, secondText] at firstText
  rw [firstText] at same
  exact ⟨firstText.symm, by simpa using same⟩

theorem cut_last {c : UInt8} {first second front back : Text} (cleanFront : c ∉ front) (cleanBack : c ∉ back)
    (same : first ++ c :: front = second ++ c :: back) : first = second ∧ front = back := by
  have turned : front.reverse ++ c :: first.reverse = back.reverse ++ c :: second.reverse := by
    simpa using congrArg List.reverse same
  obtain ⟨fronts, firsts⟩ := cut_first (by simpa using cleanFront) (by simpa using cleanBack) turned
  exact ⟨List.reverse_injective firsts, List.reverse_injective fronts⟩

theorem Form.address_unique {word : Text} {other : HostAndPort} (form : Form word text address)
    (again : Form word text other) : address = other := by
  obtain ⟨slot, port, decimalSlot, decimalPort, number, -, -, shape⟩ := form
  obtain ⟨otherSlot, otherPort, otherDecimal, otherPorts, otherNumber, -, -, otherShape⟩ := again
  have blank : isDigit (byte ' ') = false ∧ isDigit (byte ':') = false := by decide
  rw [shape] at otherShape
  have slots := (List.cons.inj (List.append_cancel_left otherShape)).2
  have hosts := (cut_first (decimalSlot.not_mem blank.1) (otherDecimal.not_mem blank.1) slots).2
  obtain ⟨host, ports⟩ := cut_last (decimalPort.not_mem blank.2) (otherPorts.not_mem blank.2) hosts
  have port : address.port = other.port := UInt16.toNat_inj.mp (by rw [← number, ← otherNumber, ports])
  cases address
  cases other
  exact congrArg₂ HostAndPort.mk host port

theorem Form.prefix {word : Text} (form : Form word text address) : word ++ [byte ' '] <+: text := by
  obtain ⟨slot, port, -, -, -, -, -, rfl⟩ := form
  exact ⟨_, by simp; rfl⟩

theorem redirection_host {found : Int32 × HostAndPort} (cut : redirection lib text = some found) :
    byte ':' ∉ found.2.host ∧ ∀ c ∈ found.2.host, c ∈ text := by
  rw [redirection] at cut
  split at cut
  · cases cut
  next _ slot first =>
    split at cut
    · cases cut
    next _ address second =>
      split at cut
      · cases cut
      next _ port third =>
        obtain rfl := Option.some.inj cut
        constructor
        · intro member
          simpa using List.mem_takeWhile_imp member
        · intro c member
          have inAddress := (List.takeWhile_prefix _).subset member
          have inSlot := (List.dropWhile_suffix _).subset (second ▸ List.mem_cons_of_mem _ inAddress)
          exact (List.dropWhile_suffix _).subset (first ▸ List.mem_cons_of_mem _ inSlot)

end Cutting

section Safety

variable {lib : Common} {text : Text} {address : HostAndPort}

theorem prefix_cString_iff (word : Text) (clean : (0 : UInt8) ∉ word) : word <+: cString text ↔ word <+: text := by
  constructor
  · exact fun front => front.trans (List.takeWhile_prefix _)
  · rintro ⟨rest, rfl⟩
    rw [cString_append_of_clean word rest clean]
    exact List.prefix_append word _

theorem isRedirect_iff : isRedirect true (.error text) = true ↔
    ascii "MOVED" <+: text ∨ cString text = ascii "ASK" := by
  have moved : (cString text).take 5 = ascii "MOVED" ↔ ascii "MOVED" <+: text := by
    rw [← prefix_cString_iff _ (by decide), List.prefix_iff_eq_take, eq_comm]
    rfl
  simp [isRedirect, moved]

theorem not_moved_and_ask : ¬(ascii "MOVED" <+: text ∧ ascii "ASK" <+: text) := by
  rintro ⟨moved, ask⟩
  have front := List.prefix_of_prefix_length_le ask moved (by decide)
  revert front
  decide

theorem IsForm.begins (form : IsForm text address) : ascii "MOVED" <+: text ∨ ascii "ASK" <+: text := by
  rcases form with moved | ask
  · exact Or.inl ((List.prefix_append _ _).trans moved.prefix)
  · exact Or.inr ((List.prefix_append _ _).trans ask.prefix)

theorem IsForm.moved (form : IsForm text address) (moved : ascii "MOVED" <+: text) :
    Form (ascii "MOVED") text address := by
  refine form.resolve_right fun ask => ?_
  exact not_moved_and_ask ⟨moved, (List.prefix_append _ _).trans ask.prefix⟩

theorem IsForm.ask (form : IsForm text address) (ask : ascii "ASK" <+: text) : Form (ascii "ASK") text address := by
  refine form.resolve_left fun moved => ?_
  exact not_moved_and_ask ⟨(List.prefix_append _ _).trans moved.prefix, ask⟩

-- A redirection that is read goes to an address that was found in the text, up to a colon.
theorem readReply_ok {config after : Target} {child : Reply} (redirect : isRedirect true (.error text) = true)
    (read : readReply lib true (.error text) config = some (.ok child, after)) :
    byte ':' ∉ after.host.host ∧ 0 ∉ after.host.host := by
  rw [readReply, if_pos redirect] at read
  obtain ⟨found, cut, made⟩ := Option.map_eq_some_iff.mp read
  obtain rfl : ⟨found.2, true⟩ = after := (Prod.mk.inj made).2
  obtain ⟨colon, inside⟩ := redirection_host cut
  exact ⟨colon, fun nul => nul_not_mem_cString text (inside 0 nul)⟩

theorem readReply_redirect {config after : Target} {err : ErrorValue}
    (redirect : isRedirect true (.error text) = true) :
    readReply lib true (.error text) config ≠ some (.error err, after) := by
  rw [readReply, if_pos redirect]
  intro read
  obtain ⟨found, -, made⟩ := Option.map_eq_some_iff.mp read
  cases made

theorem readReply_form (ports : lib.ReadsPorts) (form : Form (ascii "MOVED") text address)
    (colon : byte ':' ∉ address.host) (nul : 0 ∉ address.host) (config : Target) :
    ∃ child, readReply lib true (.error text) config = some (.ok child, ⟨address, true⟩) := by
  have redirect := isRedirect_iff.mpr (Or.inl ((List.prefix_append _ _).trans form.prefix))
  obtain ⟨slot, port, decimalSlot, decimalPort, number, -, -, rfl⟩ := form
  have none : isDigit 0 = false ∧ isDigit (byte ' ') = false := by decide
  have whole : cString (ascii "MOVED" ++ byte ' ' :: (slot ++ byte ' ' :: (address.host ++ byte ':' :: port))) =
      ascii "MOVED" ++ byte ' ' :: (slot ++ byte ' ' :: (address.host ++ byte ':' :: port)) := by
    have separators : (0 : UInt8) ≠ byte ' ' ∧ (0 : UInt8) ≠ byte ':' ∧ (0 : UInt8) ∉ ascii "MOVED" := by decide
    apply cString_eq_self
    simp [separators, decimalSlot.not_mem none.1, decimalPort.not_mem none.1, nul]
  have fits : readNat port < 2 ^ 16 := by
    rw [number]
    exact address.port.toNat_lt
  have same : lib.toUInt16 port = address.port := UInt16.toNat_inj.mp (by rw [ports port decimalPort fits, number])
  rw [readReply, if_pos redirect, whole, redirection_form _ (by decide) (decimalSlot.not_mem none.2) colon, same]
  exact ⟨_, rfl⟩

/-- The texts of errors that are read as they should be. -/
def Readable (text : Text) : Prop :=
  (¬ascii "MOVED" <+: text ∧ ¬ascii "ASK" <+: text) ∨
    (∃ address, Form (ascii "MOVED") text address ∧ byte ':' ∉ address.host ∧ 0 ∉ address.host) ∨
    (ascii "ASK" <+: text ∧ (∀ address, ¬Form (ascii "ASK") text address) ∧ cString text ≠ ascii "ASK")

theorem readable_of_safe (safe : Safe lib text) : Readable text := by
  by_cases moved : ascii "MOVED" <+: text
  · have redirect := isRedirect_iff.mpr (Or.inl moved)
    by_cases formed : ∃ address, IsForm text address
    · obtain ⟨address, form⟩ := formed
      obtain ⟨child, read⟩ := safe.follows ⟨⟨[], 0⟩, false⟩ address form
      exact Or.inr (Or.inl ⟨address, form.moved moved, readReply_ok redirect read⟩)
    · obtain ⟨err, after, read, -⟩ := safe.refuses (Or.inl moved) (not_exists.mp formed) ⟨⟨[], 0⟩, false⟩
      exact absurd read (readReply_redirect redirect)
  · by_cases ask : ascii "ASK" <+: text
    · have other : cString text ≠ ascii "ASK" := by
        intro alone
        have undefined : ∀ config, readReply lib true (.error text) config = none := by
          intro config
          rw [readReply, if_pos (isRedirect_iff.mpr (Or.inr alone)), alone]
          rfl
        by_cases formed : ∃ address, IsForm text address
        · obtain ⟨address, form⟩ := formed
          obtain ⟨child, read⟩ := safe.follows ⟨⟨[], 0⟩, false⟩ address form
          rw [undefined] at read
          cases read
        · obtain ⟨err, after, read, -⟩ := safe.refuses (Or.inr ask) (not_exists.mp formed) ⟨⟨[], 0⟩, false⟩
          rw [undefined] at read
          cases read
      refine Or.inr (Or.inr ⟨ask, fun address form => ?_, other⟩)
      obtain ⟨child, read⟩ := safe.follows ⟨⟨[], 0⟩, false⟩ address (Or.inr form)
      rw [readReply, if_neg (by simp [isRedirect_iff, moved, other])] at read
      cases read
    · exact Or.inl ⟨moved, ask⟩

theorem safe_of_readable (ports : lib.ReadsPorts) (readable : Readable text) : Safe lib text := by
  rcases readable with ⟨moved, ask⟩ | ⟨address, form, colon, nul⟩ | ⟨ask, formless, other⟩
  · constructor
    · intro config address form
      exact absurd form.begins (not_or.mpr ⟨moved, ask⟩)
    · intro begins
      exact absurd begins (not_or.mpr ⟨moved, ask⟩)
  · constructor
    · intro config other again
      obtain rfl := form.address_unique (again.moved ((List.prefix_append _ _).trans form.prefix))
      exact readReply_form ports form colon nul config
    · intro _ formless
      exact absurd (Or.inl form) (formless address)
  · constructor
    · intro config address form
      exact absurd (form.ask ask) (formless address)
    · intro _ _ config
      have plain : ¬isRedirect true (.error text) = true := by
        rw [isRedirect_iff, not_or]
        exact ⟨fun moved => not_moved_and_ask ⟨moved, ask⟩, other⟩
      exact ⟨⟨text, true⟩, config, by rw [readReply, if_neg plain], rfl⟩

/-- An error is read as it should be exactly when it is no redirection, a `MOVED` to a host without colons, or begins
with `ASK` and is neither a redirection nor that word alone. -/
theorem safe_iff (lib : Common) (text : Text) (ports : lib.ReadsPorts) : Safe lib text ↔ Readable text :=
  ⟨readable_of_safe, safe_of_readable ports⟩

theorem safe_iff_moved : Safe .std (ascii "MOVED 3999 127.0.0.1:6381") ↔ Readable (ascii "MOVED 3999 127.0.0.1:6381") :=
  safe_iff .std (ascii "MOVED 3999 127.0.0.1:6381") Common.std_readsPorts

theorem not_safe_ask : ¬∀ (lib : Common) (text : Text), lib.Lawful → lib.ReadsPorts → Safe lib text := by
  intro all
  have form : IsForm (ascii "ASK 3999 127.0.0.1:6381") ⟨ascii "127.0.0.1", 6381⟩ := by
    right
    exact ⟨ascii "3999", ascii "6381", ⟨by decide, List.all_eq_true.mp (by decide)⟩,
      ⟨by decide, List.all_eq_true.mp (by decide)⟩, by decide, by decide, by decide, by decide⟩
  obtain ⟨child, read⟩ := (all .std _ Common.std_lawful Common.std_readsPorts).follows ⟨⟨[], 0⟩, false⟩ _ form
  have plain : readReply .std true (.error (ascii "ASK 3999 127.0.0.1:6381")) ⟨⟨[], 0⟩, false⟩ =
      some (.error ⟨ascii "ASK 3999 127.0.0.1:6381", true⟩, ⟨⟨[], 0⟩, false⟩) := by rfl
  rw [plain] at read
  cases read

end Safety

end Redirection

end FastoNoSQL.Redis
