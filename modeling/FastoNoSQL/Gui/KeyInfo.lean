import FastoNoSQL.Bytes.Pieces
import FastoNoSQL.Gui.Explorer

set_option autoImplicit false

/-!
# Keys and their namespaces

`KeyInfo` of `core/db_key.cpp`, for separators of any length: what of a key its
components give back, and which part of it a namespace is.
-/

namespace FastoNoSQL.Explorer

open Bytes

variable {Name : Type}

/-- `Tokenize` splits at every byte of the delimiters and drops what is empty, `JoinString` joins with all of them. -/
structure Toolkit.Splits (lib : Common) (kit : Toolkit Name) : Prop where
  tokenize_eq : ∀ text delimiters, lib.tokenize text delimiters = tokens (delimiters.contains ·) text
  joinString_eq : ∀ parts separator, kit.joinString parts separator = separator.intercalate parts

namespace KeyInfo

def key (kit : Toolkit Name) (info : KeyInfo) : Text :=
  kit.joinString info.splitedNamespacesAndKey info.nsSeparator

/-- A key and its namespaces are told by its components. -/
structure Decomposes (kit : Toolkit Name) (info : KeyInfo) (key : Text) : Prop where
  key_eq : info.key kit = key
  nspace_eq : info.nspace kit = kit.joinString info.splitedNamespacesAndKey.dropLast info.nsSeparator
  hasNamespace_iff : info.hasNamespace = true ↔ info.nspace kit ≠ []
  joinNamespace_eq : ∀ i, i < info.nspaceSize →
    info.joinNamespace kit i = kit.joinString (info.splitedNamespacesAndKey.take (i + 1)) info.nsSeparator
  -- Up to a separator, each namespace begins the next one and the key.
  prefix_next : ∀ i, i + 1 < info.nspaceSize →
    info.joinNamespace kit i ++ info.nsSeparator <+: info.joinNamespace kit (i + 1)
  prefix_key : ∀ i, i < info.nspaceSize → info.joinNamespace kit i ++ info.nsSeparator <+: key

end KeyInfo

section Components

variable {lib : Common} {kit : Toolkit Name} (splits : Toolkit.Splits lib kit) (separator : Text) (key : NKey)

-- The first of some parts and a separator begin what the parts are joined to.
theorem take_prefix (parts : List Text) (n : Nat) (more : n + 1 < parts.length) :
    separator.intercalate (parts.take (n + 1)) ++ separator <+: separator.intercalate parts := by
  induction n generalizing parts with
  | zero =>
      obtain ⟨part, parts, rfl⟩ := List.exists_cons_of_length_pos (Nat.lt_trans Nat.one_pos more)
      obtain ⟨second, parts, rfl⟩ := List.exists_cons_of_length_pos (Nat.lt_of_succ_lt_succ more)
      rw [List.intercalate_cons_cons]
      simp
  | succ n ih =>
      obtain ⟨part, parts, rfl⟩ := List.exists_cons_of_length_pos (Nat.zero_lt_of_lt more)
      have tail := ih parts (Nat.lt_of_succ_lt_succ more)
      obtain ⟨second, parts, rfl⟩ := List.exists_cons_of_length_pos (Nat.zero_lt_of_lt (Nat.lt_of_succ_lt_succ more))
      rw [List.take_succ_cons, List.take_succ_cons, List.intercalate_cons_cons, List.intercalate_cons_cons,
        ← List.take_succ_cons, List.append_assoc]
      exact (List.prefix_append_right_inj _).mpr tail

include splits

theorem joinNamespace_prefix_next (i : Nat) (bound : i + 1 < (keyInfo lib separator key).nspaceSize) :
    (keyInfo lib separator key).joinNamespace kit i ++ separator <+:
      (keyInfo lib separator key).joinNamespace kit (i + 1) := by
  have inside : i + 1 + 1 < (keyInfo lib separator key).splitedNamespacesAndKey.length := by
    rw [KeyInfo.nspaceSize] at bound
    omega
  rw [KeyInfo.joinNamespace, KeyInfo.joinNamespace, if_pos bound, if_pos (by omega), splits.joinString_eq,
    splits.joinString_eq]
  have first := take_prefix separator ((keyInfo lib separator key).splitedNamespacesAndKey.take (i + 1 + 1)) i
    (by rw [List.length_take]; omega)
  rwa [List.take_take, Nat.min_eq_left (by omega)] at first

theorem joinNamespace_prefix_key (i : Nat) (bound : i < (keyInfo lib separator key).nspaceSize) :
    (keyInfo lib separator key).joinNamespace kit i ++ separator <+: (keyInfo lib separator key).key kit := by
  rw [KeyInfo.joinNamespace, if_pos bound, KeyInfo.key, splits.joinString_eq, splits.joinString_eq]
  apply take_prefix
  rw [KeyInfo.nspaceSize] at bound
  omega

/-- The keys that are shown as they are: the components joined again, none of them empty. -/
theorem key_eq_iff (nonempty : separator ≠ []) :
    (keyInfo lib separator key).key kit = key.key ↔
      ∃ parts : List Text, (∀ part ∈ parts, part ≠ [] ∧ ∀ c ∈ part, separator.contains c = false) ∧
        key.key = separator.intercalate parts := by
  rw [KeyInfo.key, keyInfo, splits.joinString_eq, splits.tokenize_eq]
  constructor
  · intro same
    exact ⟨_, fun part member => mem_tokens member, same.symm⟩
  · rintro ⟨parts, clean, same⟩
    rw [same, tokens_intercalate (fun c member => by simpa using member) nonempty parts clean]

/-- The components of a key tell the key and its namespaces exactly when the key has no byte of the separator. -/
theorem decomposes_iff (nonempty : separator ≠ []) :
    (keyInfo lib separator key).Decomposes kit key.key ↔ ∀ c ∈ separator, c ∉ key.key := by
  have components : (keyInfo lib separator key).splitedNamespacesAndKey = tokens (separator.contains ·) key.key :=
    splits.tokenize_eq _ _
  constructor
  · intro decomposes
    -- The namespace is always empty, so there can be but one component, and that is the key.
    have alone : (tokens (separator.contains ·) key.key).dropLast = [] := by
      have joined : [] = separator.intercalate (tokens (separator.contains ·) key.key).dropLast := by
        have joined := decomposes.nspace_eq
        rwa [nspace_eq_nil, splits.joinString_eq, components] at joined
      have again := tokens_intercalate (fun c member => by simpa using member) nonempty
        (tokens (separator.contains ·) key.key).dropLast fun part member => mem_tokens (List.dropLast_subset _ member)
      rw [← again, ← joined]
      rfl
    have key_eq : separator.intercalate (tokens (separator.contains ·) key.key) = key.key := by
      rw [← components, ← splits.joinString_eq]
      exact decomposes.key_eq
    intro c separates member
    rw [← key_eq] at member
    rcases List.eq_nil_or_concat' (tokens (separator.contains ·) key.key) with none | ⟨init, token, shape⟩
    · rw [none] at member
      cases member
    · rw [shape, List.dropLast_concat] at alone
      have clean := (mem_tokens (shape ▸ List.mem_append_right init List.mem_cons_self)).2
      rw [shape, alone, List.nil_append, List.intercalate_singleton] at member
      simpa [separates] using clean c member
  · intro clean
    have alone : tokens (separator.contains ·) key.key = if key.key = [] then [] else [key.key] := by
      apply tokens_clean
      intro c member
      by_contra separates
      exact clean c (by simpa using separates) member
    have size : (keyInfo lib separator key).nspaceSize = 0 := by
      rw [KeyInfo.nspaceSize, components, alone]
      split <;> rfl
    refine ⟨?_, ?_, ?_, ?_, ?_, ?_⟩
    · rw [KeyInfo.key, splits.joinString_eq, components, alone]
      split
      next empty => simp [empty]
      next => simp
    · rw [nspace_eq_nil, splits.joinString_eq, components, alone]
      split <;> rfl
    · simp [KeyInfo.hasNamespace, size, nspace_eq_nil]
    all_goals
      intro i bound
      rw [size] at bound
      omega

end Components

theorem Toolkit.std_splits : Toolkit.Splits .std Toolkit.std := ⟨fun _ _ => rfl, fun _ _ => rfl⟩

theorem decomposes_iff_plain :
    (keyInfo .std (ascii ":") (plain "key").key).Decomposes Toolkit.std (plain "key").key.key ↔
      ∀ c ∈ ascii ":", c ∉ (plain "key").key.key :=
  decomposes_iff Toolkit.std_splits (ascii ":") (plain "key").key (by decide)

-- `ns:key`
theorem not_decomposes :
    ¬∀ (lib : Common) (kit : Toolkit Text), Toolkit.Splits lib kit → ∀ (separator : Text) (key : NKey), separator ≠ [] →
      (keyInfo lib separator key).Decomposes kit key.key := by
  intro all
  have namespaces := (all .std .std Toolkit.std_splits (ascii ":") (plain "ns:key").key (by decide)).nspace_eq
  revert namespaces
  decide

end FastoNoSQL.Explorer
