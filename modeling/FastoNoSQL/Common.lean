import Mathlib.Tactic.Common
import FastoNoSQL.Bytes.Decimal
import FastoNoSQL.Bytes.Double

set_option autoImplicit false

/-!
# The `common` library

The parts of the external `common` library that the core uses. Its sources are
not in this repository, so they are a parameter with the behaviour the core
relies on.
-/

namespace FastoNoSQL

open Bytes

structure HostAndPort where
  host : Text
  port : UInt16
deriving DecidableEq

def HostAndPort.text (address : HostAndPort) : Text :=
  address.host ++ byte ':' :: natText address.port.toNat

inductive Arg where
  | s (text : Text)
  | d (i : Int)
deriving DecidableEq

/-- `printf` on patterns with `%s` and `%d`. -/
def format : Text → List Arg → Text
  | c :: d :: rest, .s text :: args =>
    if c = byte '%' ∧ d = byte 's' then text ++ format rest args
    else c :: format (d :: rest) (.s text :: args)
  | c :: d :: rest, .d i :: args =>
    if c = byte '%' ∧ d = byte 'd' then intText i ++ format rest args
    else c :: format (d :: rest) (.d i :: args)
  | pattern, _ => pattern

structure Common where
  createLocalHost : UInt16 → HostAndPort
  isValid : HostAndPort → Bool
  toHostAndPort : Text → HostAndPort
  preparePath : Text → Text
  toUInt16 : Text → UInt16
  toUInt32 : Text → UInt32
  toInt : Text → Int32
  memSPrintf : Text → List Arg → Text
  tokenize : Text → Text → List Text
  -- What the conversion of an out-of-range `double` to `uint64_t` leaves, undefined in C++.
  outOfRange : Double → UInt64

/-- The conversions undo decimal printing, the local host has a printable name, and `Tokenize`
drops empty pieces. -/
structure Common.Lawful (lib : Common) : Prop where
  toUInt16_natText : ∀ n : UInt16, lib.toUInt16 (natText n.toNat) = n
  toUInt32_natText : ∀ n : UInt32, lib.toUInt32 (natText n.toNat) = n
  toInt_intText : ∀ i : Int32, lib.toInt (intText i.toInt) = i
  memSPrintf_eq : ∀ pattern args, lib.memSPrintf pattern args = format pattern args
  tokenize_eq : ∀ text c, lib.tokenize text [c] = (text.splitOn c).filter (· ≠ [])
  nul_not_mem_localHost : ∀ port, (0 : UInt8) ∉ (lib.createLocalHost port).host
  isValid_localHost : ∀ port, port ≠ 0 → lib.isValid (lib.createLocalHost port) = true

/-- The conversion reads every port that fits. -/
def Common.ReadsPorts (lib : Common) : Prop :=
  ∀ port : Text, Decimal port → readNat port < 2 ^ 16 → (lib.toUInt16 port).toNat = readNat port

namespace Common

/-- The library as documented, on the inputs that the conversions accept. -/
def std : Common where
  createLocalHost port := ⟨ascii "127.0.0.1", port⟩
  isValid address := address.host ≠ [] && address.port ≠ 0
  toHostAndPort text :=
    ⟨text.takeWhile (· ≠ byte ':'), UInt16.ofNat (readNat ((text.dropWhile (· ≠ byte ':')).drop 1))⟩
  preparePath path :=
    match path with
    | c :: rest => if c = byte '~' then ascii "/home/user" ++ rest else path
    | [] => []
  toUInt16 text := UInt16.ofNat (readNat text)
  toUInt32 text := UInt32.ofNat (readNat text)
  toInt text := Int32.ofInt (readInt text)
  memSPrintf := format
  tokenize text delimiters := (text.splitOnP (delimiters.contains ·)).filter (· ≠ [])
  outOfRange _ := 0

theorem std_lawful : std.Lawful where
  toUInt16_natText n := by simp [std]
  toUInt32_natText n := by simp [std]
  toInt_intText i := by simp [std]
  memSPrintf_eq _ _ := rfl
  tokenize_eq text c := by
    have only : (fun x : UInt8 => [c].contains x) = (· == c) := by
      funext x
      rw [Bool.eq_iff_iff]
      simp
    simp only [std, only, List.splitOn_eq_splitOnP]
  nul_not_mem_localHost port := by
    show (0 : UInt8) ∉ ascii "127.0.0.1"
    decide
  isValid_localHost port nonzero := by
    have name : ascii "127.0.0.1" ≠ [] := by decide
    simp [std, name, nonzero]

theorem std_readsPorts : std.ReadsPorts := by
  intro port _ fits
  exact Nat.mod_eq_of_lt fits

end Common

end FastoNoSQL
