import Mathlib.Tactic.Common
import FastoNoSQL.Bytes.Text

set_option autoImplicit false

/-!
# Base64

The standard alphabet with padding, in groups of three bytes and four symbols.
-/

namespace Bytes.Base64

def symbol (n : Nat) : UInt8 :=
  if n < 26 then UInt8.ofNat (65 + n)
  else if n < 52 then UInt8.ofNat (71 + n)
  else if n < 62 then UInt8.ofNat (n - 4)
  else if n = 62 then byte '+'
  else byte '/'

def value (c : UInt8) : Nat :=
  let n := c.toNat
  if 65 ≤ n ∧ n ≤ 90 then n - 65
  else if 97 ≤ n ∧ n ≤ 122 then n - 71
  else if 48 ≤ n ∧ n ≤ 57 then n + 4
  else if n = 43 then 62
  else 63

def pad : UInt8 := byte '='

def encode : Text → Text
  | [] => []
  | [a] => [symbol (a.toNat / 4), symbol (a.toNat % 4 * 16), pad, pad]
  | [a, b] =>
    [symbol (a.toNat / 4), symbol (a.toNat % 4 * 16 + b.toNat / 16), symbol (b.toNat % 16 * 4), pad]
  | a :: b :: c :: rest =>
    symbol (a.toNat / 4) :: symbol (a.toNat % 4 * 16 + b.toNat / 16) ::
      symbol (b.toNat % 16 * 4 + c.toNat / 64) :: symbol (c.toNat % 64) :: encode rest

-- A group that is not complete is dropped.
def decode : Text → Text
  | p :: q :: r :: s :: rest =>
    let a := UInt8.ofNat (value p * 4 + value q / 16)
    let b := UInt8.ofNat (value q % 16 * 16 + value r / 4)
    let c := UInt8.ofNat (value r % 4 * 64 + value s)
    if r = pad then [a] else if s = pad then [a, b] else a :: b :: c :: decode rest
  | _ => []

theorem symbol_correct (n : Nat) (bound : n < 64) :
    value (symbol n) = n ∧ symbol n ≠ pad ∧ symbol n ≠ byte ',' ∧ symbol n ≠ 0x1E := by
  have table : ∀ n : Fin 64, value (symbol n) = n ∧ symbol n ≠ pad ∧ symbol n ≠ byte ',' ∧ symbol n ≠ 0x1E := by
    decide
  exact table ⟨n, bound⟩

theorem decode_encode (text : Text) : decode (encode text) = text := by
  have byteBound (c : UInt8) : c.toNat < 256 := c.toNat_lt
  fun_induction encode text with
  | case1 => rfl
  | case2 a =>
      have bound := byteBound a
      have first := symbol_correct (a.toNat / 4) (by omega)
      have second := symbol_correct (a.toNat % 4 * 16) (by omega)
      have whole : a.toNat / 4 * 4 + a.toNat % 4 * 16 / 16 = a.toNat := by omega
      simp only [decode, first.1, second.1, whole, UInt8.ofNat_toNat, if_true]
  | case3 a b =>
      have boundA := byteBound a
      have boundB := byteBound b
      have first := symbol_correct (a.toNat / 4) (by omega)
      have second := symbol_correct (a.toNat % 4 * 16 + b.toNat / 16) (by omega)
      have third := symbol_correct (b.toNat % 16 * 4) (by omega)
      have wholeA : a.toNat / 4 * 4 + (a.toNat % 4 * 16 + b.toNat / 16) / 16 = a.toNat := by omega
      have wholeB : (a.toNat % 4 * 16 + b.toNat / 16) % 16 * 16 + b.toNat % 16 * 4 / 4 = b.toNat := by omega
      simp only [decode, first.1, second.1, third.1, third.2.1, wholeA, wholeB, UInt8.ofNat_toNat, if_false, if_true]
  | case4 a b c rest ih =>
      have boundA := byteBound a
      have boundB := byteBound b
      have boundC := byteBound c
      have first := symbol_correct (a.toNat / 4) (by omega)
      have second := symbol_correct (a.toNat % 4 * 16 + b.toNat / 16) (by omega)
      have third := symbol_correct (b.toNat % 16 * 4 + c.toNat / 64) (by omega)
      have fourth := symbol_correct (c.toNat % 64) (by omega)
      have wholeA : a.toNat / 4 * 4 + (a.toNat % 4 * 16 + b.toNat / 16) / 16 = a.toNat := by omega
      have wholeB : (a.toNat % 4 * 16 + b.toNat / 16) % 16 * 16 + (b.toNat % 16 * 4 + c.toNat / 64) / 4 = b.toNat := by
        omega
      have wholeC : (b.toNat % 16 * 4 + c.toNat / 64) % 4 * 64 + c.toNat % 64 = c.toNat := by omega
      simp only [decode, first.1, second.1, third.1, third.2.1, fourth.1, fourth.2.1, wholeA, wholeB, wholeC,
        UInt8.ofNat_toNat, if_false, ih]

theorem length_encode (text : Text) : (encode text).length % 4 = 0 := by
  fun_induction encode text with
  | case1 | case2 | case3 => simp
  | case4 a b c rest ih =>
      simp only [List.length_cons]
      omega

theorem mem_encode (text : Text) : ∀ c ∈ encode text, c ≠ byte ',' ∧ c ≠ 0x1E := by
  have ofSymbol (n : Nat) (bound : n < 64) : symbol n ≠ byte ',' ∧ symbol n ≠ 0x1E := (symbol_correct n bound).2.2
  have padding : pad ≠ byte ',' ∧ pad ≠ 0x1E := by decide
  have byteBound (c : UInt8) : c.toNat < 256 := c.toNat_lt
  fun_induction encode text with
  | case1 => simp
  | case2 a =>
      have bound := byteBound a
      simp only [List.forall_mem_cons]
      exact ⟨ofSymbol _ (by omega), ofSymbol _ (by omega), padding, padding, by simp⟩
  | case3 a b =>
      have boundA := byteBound a
      have boundB := byteBound b
      simp only [List.forall_mem_cons]
      exact ⟨ofSymbol _ (by omega), ofSymbol _ (by omega), ofSymbol _ (by omega), padding, by simp⟩
  | case4 a b c rest ih =>
      have boundA := byteBound a
      have boundB := byteBound b
      have boundC := byteBound c
      simp only [List.forall_mem_cons]
      exact ⟨ofSymbol _ (by omega), ofSymbol _ (by omega), ofSymbol _ (by omega), ofSymbol _ (by omega), ih⟩

end Bytes.Base64
