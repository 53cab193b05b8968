import FastoNoSQL.Bytes.Base64
import FastoNoSQL.Settings.Cluster

set_option autoImplicit false

/-!
# Sentinels

`core/connection_settings/isentinel_connection_settings.cpp` and
`core/sentinel_connection_settings_factory.cpp`. An entry is two base64 texts
with a comma between them: the sentinel itself, and the nodes it watches.
-/

namespace FastoNoSQL

open Bytes

structure SentinelEntry where
  sentinel : ConnectionSettings
  sentinelNodes : List ConnectionSettings

abbrev SentinelSettings := GroupSettings SentinelEntry

namespace SentinelSettings

variable (lib : Common) (encode64 decode64 : Text → Text)

def entryText (entry : SentinelEntry) : Text :=
  encode64 (entry.sentinel.toString lib) ++
    byte ',' :: encode64 (separated magicNumber (entry.sentinelNodes.map (ConnectionSettings.toString lib)))

-- The loop of `SentinelSettingsfromString` stops at the first comma or at the last byte, whatever it is.
def cutAtComma (elText : Text) : Text → Text × Text
  | [] => (elText, [])
  | [_] => (elText, [])
  | c :: rest => if c = byte ',' then (elText, rest) else cutAtComma (elText ++ [c]) rest

def entryFromString (text : Text) : Option SentinelEntry :=
  if text = [] then none
  else
    match cutAtComma [] text with
    | (elText, rest) =>
      match ConnectionSettings.createFromString lib (decode64 elText) with
      | none => none
      | some sentinel =>
        some ⟨sentinel,
          (pieces magicNumber (decode64 rest)).filterMap (ConnectionSettings.createFromString lib)⟩

def toString (settings : SentinelSettings) : Text :=
  GroupSettings.toString (entryText lib encode64) settings

def createFromString (val : Text) : Option SentinelSettings :=
  GroupSettings.createFromString lib (entryFromString lib decode64) val

structure SameEntry (entry restored : SentinelEntry) : Prop where
  sentinel : entry.sentinel.Same lib restored.sentinel
  nodes : List.Forall₂ (ConnectionSettings.Same lib) entry.sentinelNodes restored.sentinelNodes

def RoundTrips (settings : SentinelSettings) : Prop :=
  ∃ restored, createFromString lib decode64 (toString lib encode64 settings) = some restored ∧
    settings.Same (SameEntry lib) restored

/-- What is known of base64 encoding: a text of whole groups of four symbols, from which the bytes can be
recovered. -/
structure IsBase64 : Prop where
  injective : Function.Injective encode64
  nil : encode64 [] = []
  length : ∀ text, (encode64 text).length % 4 = 0
  symbols : ∀ text, ∀ c ∈ encode64 text, c ≠ byte ',' ∧ c ≠ magicNumber

theorem isBase64_encode : IsBase64 Base64.encode where
  injective := Function.LeftInverse.injective Base64.decode_encode
  nil := rfl
  length := Base64.length_encode
  symbols := Base64.mem_encode

section

variable (base64 : IsBase64 encode64)
include base64

theorem comma_not_mem_encode64 (text : Text) : byte ',' ∉ encode64 text :=
  fun member => (base64.symbols text _ member).1 rfl

theorem magicNumber_not_mem_entryText (entry : SentinelEntry) : magicNumber ∉ entryText lib encode64 entry := by
  have clean (text : Text) : magicNumber ∉ encode64 text := fun member => (base64.symbols text _ member).2 rfl
  have comma : magicNumber ≠ byte ',' := by decide
  simp [entryText, clean, comma]

theorem encode64_ne_nil (text : Text) (nonempty : text ≠ []) : encode64 text ≠ [] := by
  intro empty
  exact nonempty (base64.injective (empty.trans base64.nil.symm))

-- A decoder that undoes the encoding and gives up on a text cut by one symbol.
theorem exists_strict_decoder :
    ∃ decode : Text → Text, (∀ text, decode (encode64 text) = text) ∧
      ∀ text, text ≠ [] → decode (encode64 text).dropLast = [] := by
  obtain ⟨decode, undoes⟩ := base64.injective.hasLeftInverse
  refine ⟨fun text => if encode64 (decode text) = text then decode text else [], ?_, ?_⟩
  · intro text
    have same : decode (encode64 text) = text := undoes text
    simp [same]
  · intro text nonempty
    apply if_neg
    intro same
    have whole := base64.length (decode (encode64 text).dropLast)
    have cut := base64.length text
    have symbols := List.length_pos_iff.mpr (encode64_ne_nil encode64 base64 text nonempty)
    rw [same, List.length_dropLast] at whole
    omega

theorem dropLast_entryText (entry : SentinelEntry) :
    (entryText lib encode64 entry).dropLast =
      if entry.sentinelNodes = [] then encode64 (entry.sentinel.toString lib)
      else encode64 (entry.sentinel.toString lib) ++ byte ',' ::
        (encode64 (separated magicNumber
          (entry.sentinelNodes.map (ConnectionSettings.toString lib)))).dropLast := by
  split
  next empty => simp [entryText, empty, separated, base64.nil]
  next more =>
    have raw : separated magicNumber (entry.sentinelNodes.map (ConnectionSettings.toString lib)) ≠ [] := by
      rw [separated_eq_cons magicNumber _ (by simpa using more)]
      simp
    rw [entryText, List.dropLast_append_of_ne_nil (by simp),
      List.dropLast_cons_of_ne_nil (encode64_ne_nil encode64 base64 _ raw)]

end

theorem cutAtComma_comma (elText field rest : Text) (clean : byte ',' ∉ field) :
    cutAtComma elText (field ++ byte ',' :: rest) = (elText ++ field, rest) := by
  induction field generalizing elText with
  | nil => cases rest <;> simp [cutAtComma]
  | cons c field ih =>
      have head : c ≠ byte ',' := fun comma => clean (by simp [comma])
      have next := ih (elText ++ [c]) fun member => clean (List.mem_cons_of_mem c member)
      cases field <;> simpa [cutAtComma, head] using next

theorem cutAtComma_end (elText text : Text) (clean : byte ',' ∉ text) :
    cutAtComma elText text = (elText ++ text.dropLast, []) := by
  induction text generalizing elText with
  | nil => simp [cutAtComma]
  | cons c text ih =>
      have head : c ≠ byte ',' := fun comma => clean (by simp [comma])
      have next := ih (elText ++ [c]) fun member => clean (List.mem_cons_of_mem c member)
      cases text with
      | nil => simp [cutAtComma]
      | cons d text => simpa [cutAtComma, head] using next

-- The last entry, cut by one byte, is lost or has lost its nodes.
theorem entryFromString_dropLast (base64 : IsBase64 encode64) (undoes : ∀ text, decode64 (encode64 text) = text)
    (strict : ∀ text, text ≠ [] → decode64 (encode64 text).dropLast = []) (entry restored : SentinelEntry)
    (read : entryFromString lib decode64 (entryText lib encode64 entry).dropLast = some restored) :
    entry.sentinelNodes ≠ [] ∧ restored.sentinelNodes = [] := by
  have clean := comma_not_mem_encode64 encode64 base64 (entry.sentinel.toString lib)
  have sentinelText := ClusterSettings.toString_ne_nil lib entry.sentinel
  rw [dropLast_entryText lib encode64 base64] at read
  by_cases empty : entry.sentinelNodes = []
  · rw [if_pos empty, entryFromString, if_neg (encode64_ne_nil encode64 base64 _ sentinelText),
      cutAtComma_end [] _ clean] at read
    simp [strict _ sentinelText, ConnectionSettings.createFromString] at read
  · rw [if_neg empty, entryFromString, if_neg (by simp), cutAtComma_comma [] _ _ clean] at read
    have raw : separated magicNumber (entry.sentinelNodes.map (ConnectionSettings.toString lib)) ≠ [] := by
      rw [separated_eq_cons magicNumber _ (by simpa using empty)]
      simp
    simp only [List.nil_append, undoes, strict _ raw] at read
    refine ⟨empty, ?_⟩
    split at read
    · cases read
    · rw [← Option.some.inj read]
      rfl

theorem entries_eq_nil_of_strict (lawful : lib.Lawful) (base64 : IsBase64 encode64)
    (undoes : ∀ text, decode64 (encode64 text) = text)
    (strict : ∀ text, text ≠ [] → decode64 (encode64 text).dropLast = []) (settings : SentinelSettings)
    (clean : byte ',' ∉ settings.path) (roundTrips : RoundTrips lib encode64 decode64 settings) :
    settings.entries = [] := by
  rcases List.eq_nil_or_concat settings.entries with empty | ⟨entries, last, shape⟩
  · exact empty
  rw [List.concat_eq_append] at shape
  obtain ⟨restored, created, ⟨-, -, same⟩⟩ := roundTrips
  have read := GroupSettings.createFromString_toString lib (entryFromString lib decode64) lawful
    (entryText lib encode64) settings clean entries last shape
    (fun entry _ => magicNumber_not_mem_entryText lib encode64 base64 entry) (by simp [entryText])
  obtain rfl := Option.some.inj (read.symm.trans created)
  rw [shape, List.filterMap_append] at same
  have count := same.length_eq
  have others := List.length_filterMap_le (entryFromString lib decode64) (entries.map (entryText lib encode64))
  rw [List.length_map] at others
  cases cut : entryFromString lib decode64 (entryText lib encode64 last).dropLast with
  | none =>
      simp only [List.filterMap_cons_none cut, List.filterMap_nil, List.append_nil, List.length_append,
        List.length_singleton] at count
      omega
  | some kept =>
      obtain ⟨more, none⟩ := entryFromString_dropLast lib encode64 decode64 base64 undoes strict last kept cut
      simp only [List.filterMap_cons_some cut, List.filterMap_nil, List.length_append,
        List.length_singleton] at count same
      have tail := List.forall₂_drop_append _ _ _ same
      rw [← Nat.add_right_cancel count, List.drop_left] at tail
      have nodes := (List.forall₂_cons.mp tail).1.nodes
      rw [none] at nodes
      exact absurd (List.forall₂_nil_right_iff.mp nodes) more

/-- Of a decoder that is only known to undo the encoding, nothing more than a sentinel without entries
can be expected back. -/
theorem sentinel_roundTrips_iff (lawful : lib.Lawful) (base64 : IsBase64 encode64) (settings : SentinelSettings) :
    (∀ decode64 : Text → Text, (∀ text, decode64 (encode64 text) = text) →
        RoundTrips lib encode64 decode64 settings) ↔
      byte ',' ∉ settings.path ∧ settings.entries = [] := by
  constructor
  · intro always
    obtain ⟨decode64, undoes, strict⟩ := exists_strict_decoder encode64 base64
    have roundTrips := always decode64 undoes
    obtain ⟨restored, created, ⟨path, -⟩⟩ := roundTrips
    have clean : byte ',' ∉ settings.path :=
      path ▸ GroupSettings.createFromString_commaFree lib _ _ restored created
    exact ⟨clean, entries_eq_nil_of_strict lib encode64 decode64 lawful base64 undoes strict settings clean
      (always decode64 undoes)⟩
  · rintro ⟨clean, empty⟩ decode64 -
    refine ⟨settings, GroupSettings.createFromString_toString_nil lib _ lawful _ settings clean empty, rfl, rfl, ?_⟩
    rw [empty]
    exact List.Forall₂.nil

def emptySentinel : SentinelSettings where
  path := ascii "/sentinel"
  msinterval := 1000

theorem roundTrips_emptySentinel :
    RoundTrips Common.std Base64.encode Base64.decode emptySentinel :=
  (sentinel_roundTrips_iff Common.std Base64.encode Common.std_lawful isBase64_encode emptySentinel).mpr
    ⟨by decide, rfl⟩ Base64.decode Base64.decode_encode

-- One sentinel behind an SSH tunnel, with no nodes.
def tunnelledSentinel : SentinelSettings where
  path := ascii "/sentinel"
  entries := [⟨ClusterSettings.localNode .password, []⟩]

theorem tunnelledSentinel_not_roundTrips :
    ClusterSettings.NodeSurvives Common.std (ClusterSettings.localNode .password) ∧
      ¬ RoundTrips Common.std Base64.encode Base64.decode tunnelledSentinel := by
  refine ⟨ClusterSettings.localNode_survives .password, ?_⟩
  rintro ⟨restored, created, ⟨-, -, same⟩⟩
  have methods : (createFromString Common.std Base64.decode
      (toString Common.std Base64.encode tunnelledSentinel)).map
        (fun settings => settings.entries.map fun entry => ClusterSettings.sshMethod entry.sentinel) =
      some [some .unknown] := by
    decide +kernel
  have sentinels : List.Forall₂ (ConnectionSettings.Same Common.std)
      (tunnelledSentinel.entries.map (·.sentinel)) (restored.entries.map (·.sentinel)) := by
    rw [List.forall₂_map_left_iff, List.forall₂_map_right_iff]
    exact same.imp fun _ _ same => same.sentinel
  have kept := ClusterSettings.sshMethods_of_same Common.std _ _ sentinels
  rw [List.map_map] at kept
  rw [created, Option.map_some, Option.some.injEq] at methods
  exact absurd (methods.symm.trans kept) (by decide)

end SentinelSettings

end FastoNoSQL
