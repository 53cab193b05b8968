import Mathlib.Data.List.Basic
import FastoNoSQL.Common

set_option autoImplicit false

/-!
# SSH tunnel settings

`core/ssh_info.cpp`: the fields are kept as `name:value` lines, each closed by
the marker `\r\n`.
-/

namespace FastoNoSQL

open Bytes

inductive SshMethod where
  | unknown
  | password
  | publickey
deriving DecidableEq

structure SshInfo where
  host : HostAndPort
  userName : Text := []
  password : Text := []
  publicKey : Text
  privateKey : Text
  passphrase : Text := []
  currentMethod : SshMethod := .unknown
deriving DecidableEq

def SshMethod.text : SshMethod → Text
  | .unknown => ascii "0"
  | .password => ascii "1"
  | .publickey => ascii "2"

-- Any other text is not reached in the source, which then answers `UNKNOWN`.
def SshMethod.ofText (text : Text) : SshMethod :=
  if text = ascii "1" then .password else if text = ascii "2" then .publickey else .unknown

namespace SshInfo

def init (lib : Common) : SshInfo where
  host := lib.createLocalHost 22
  publicKey := lib.preparePath (ascii "~/.ssh/id_rsa.pub")
  privateKey := lib.preparePath (ascii "~/.ssh/id_rsa")

def marker : Text := ascii "\r\n"

def fields (info : SshInfo) : List (Text × Text) :=
  [(ascii "host", info.host.text), (ascii "user", info.userName), (ascii "password", info.password),
    (ascii "publicKey", info.publicKey), (ascii "privateKey", info.privateKey),
    (ascii "passphrase", info.passphrase), (ascii "currentMethod", info.currentMethod.text)]

def fieldLine (field : Text × Text) : Text := field.1 ++ byte ':' :: field.2

def text (info : SshInfo) : Text := info.fields.flatMap fun field => fieldLine field ++ marker

def setField (lib : Common) (info : SshInfo) (field value : Text) : SshInfo :=
  if field = ascii "host" then { info with host := lib.toHostAndPort value }
  else if field = ascii "user" then { info with userName := value }
  else if field = ascii "password" then { info with password := value }
  else if field = ascii "publicKey" then { info with publicKey := value }
  else if field = ascii "privateKey" then { info with privateKey := value }
  else if field = ascii "passphrase" then { info with passphrase := value }
  else if field = ascii "currentMethod" then { info with currentMethod := SshMethod.ofText value }
  else info

def readLine (lib : Common) (info : SshInfo) (line : Text) : SshInfo :=
  if byte ':' ∈ line then
    setField lib info (line.takeWhile (· ≠ byte ':')) (line.dropWhile (· ≠ byte ':')).tail
  else info

-- The lines that the marker closes; `line` is the one being read, and an unclosed one is dropped.
def markedLines (line : Text) : Text → List Text
  | [] => []
  | [_] => []
  | c :: d :: rest =>
    if c = 13 ∧ d = 10 then line :: markedLines [] rest else markedLines (line ++ [c]) (d :: rest)

def ofText (lib : Common) (text : Text) : SshInfo := (markedLines [] text).foldl (readLine lib) (init lib)

theorem markedLines_marker (line current rest : Text) (clean : (13 : UInt8) ∉ line) :
    markedLines current (line ++ (marker ++ rest)) = (current ++ line) :: markedLines [] rest := by
  have bytes : marker = [13, 10] := rfl
  induction line generalizing current with
  | nil => simp [markedLines, bytes]
  | cons c line ih =>
      have head : c ≠ 13 := fun cr => clean (by simp [cr])
      have next := ih (current ++ [c]) fun member => clean (List.mem_cons_of_mem c member)
      cases line with
      | nil => simp [markedLines, bytes, head]
      | cons d line => simpa [markedLines, head] using next

theorem markedLines_unclosed (line current : Text) (clean : (13 : UInt8) ∉ line) :
    markedLines current (line ++ [13]) = [] := by
  induction line generalizing current with
  | nil => rfl
  | cons c line ih =>
      have head : c ≠ 13 := fun cr => clean (by simp [cr])
      have next := ih (current ++ [c]) fun member => clean (List.mem_cons_of_mem c member)
      cases line with
      | nil => simp [markedLines, head]
      | cons d line => simpa [markedLines, head] using next

theorem markedLines_lines (lines : List Text) (rest : Text) (clean : ∀ line ∈ lines, (13 : UInt8) ∉ line) :
    markedLines [] ((lines.flatMap fun line => line ++ marker) ++ rest) = lines ++ markedLines [] rest := by
  induction lines with
  | nil => rfl
  | cons line lines ih =>
      have head := clean line (by simp)
      have tail := ih fun other member => clean other (List.mem_cons_of_mem line member)
      simp only [List.flatMap_cons, List.append_assoc]
      rw [markedLines_marker line [] _ head, tail]
      simp

theorem readLine_fieldLine (lib : Common) (info : SshInfo) (field : Text × Text) (named : byte ':' ∉ field.1) :
    readLine lib info (fieldLine field) = setField lib info field.1 field.2 := by
  have other : ∀ c ∈ field.1, (c ≠ byte ':') = true := by
    intro c member
    simpa using fun colon : c = byte ':' => named (colon ▸ member)
  have member : byte ':' ∈ fieldLine field := by simp [fieldLine]
  rw [readLine, if_pos member, fieldLine, List.takeWhile_append_of_pos (by simpa using other),
    List.dropWhile_append_of_pos (by simpa using other)]
  simp

def unbroken (text : Text) : Bool := text.all fun c => c ≠ 13 && c ≠ 10

theorem cr_not_mem_of_unbroken (text : Text) (clean : unbroken text = true) : (13 : UInt8) ∉ text := by
  intro member
  have := List.all_eq_true.mp clean 13 member
  simp at this

/-- The values that fit the line format and a host that the library reads back. -/
structure Writable (lib : Common) (info : SshInfo) : Prop where
  unbroken : ∀ field ∈ info.fields, unbroken field.2 = true
  host : lib.toHostAndPort info.host.text = info.host

theorem SshMethod_ofText_text (method : SshMethod) : SshMethod.ofText method.text = method := by
  cases method <;> rfl

theorem colon_not_mem_name (info : SshInfo) : ∀ field ∈ info.fields, byte ':' ∉ field.1 := by
  have names : ∀ name ∈ info.fields.map Prod.fst, byte ':' ∉ name := by
    show ∀ name ∈ [ascii "host", ascii "user", ascii "password", ascii "publicKey", ascii "privateKey",
      ascii "passphrase", ascii "currentMethod"], byte ':' ∉ name
    decide
  exact fun field member => names field.1 (List.mem_map_of_mem member)

theorem cr_not_mem_name (info : SshInfo) : ∀ field ∈ info.fields, (13 : UInt8) ∉ field.1 := by
  have names : ∀ name ∈ info.fields.map Prod.fst, (13 : UInt8) ∉ name := by
    show ∀ name ∈ [ascii "host", ascii "user", ascii "password", ascii "publicKey", ascii "privateKey",
      ascii "passphrase", ascii "currentMethod"], (13 : UInt8) ∉ name
    decide
  exact fun field member => names field.1 (List.mem_map_of_mem member)

theorem foldl_readLine (lib : Common) (start : SshInfo) (fields : List (Text × Text))
    (named : ∀ field ∈ fields, byte ':' ∉ field.1) :
    (fields.map fieldLine).foldl (readLine lib) start =
      fields.foldl (fun start field => setField lib start field.1 field.2) start := by
  rw [List.foldl_map]
  exact List.foldl_ext _ _ start fun start field member => readLine_fieldLine lib start field (named field member)

theorem cr_not_mem_fieldLine (lib : Common) (info : SshInfo) (writable : info.Writable lib)
    (field : Text × Text) (member : field ∈ info.fields) : (13 : UInt8) ∉ fieldLine field := by
  have name := cr_not_mem_name info field member
  have value := cr_not_mem_of_unbroken field.2 (writable.unbroken field member)
  have colon : (13 : UInt8) ≠ byte ':' := by decide
  simp [fieldLine, name, value, colon]

theorem markedLines_fields (lib : Common) (info : SshInfo) (writable : info.Writable lib)
    (fields : List (Text × Text)) (part : ∀ field ∈ fields, field ∈ info.fields) (rest : Text) :
    markedLines [] ((fields.flatMap fun field => fieldLine field ++ marker) ++ rest) =
      fields.map fieldLine ++ markedLines [] rest := by
  have clean : ∀ line ∈ fields.map fieldLine, (13 : UInt8) ∉ line := by
    intro line member
    obtain ⟨field, inFields, rfl⟩ := List.mem_map.mp member
    exact cr_not_mem_fieldLine lib info writable field (part field inFields)
  rw [← markedLines_lines _ rest clean, List.flatMap_map]

theorem ofText_text (lib : Common) (info : SshInfo) (writable : info.Writable lib) :
    ofText lib info.text = info := by
  have lines := markedLines_fields lib info writable info.fields (fun _ member => member) []
  have all : info.fields.foldl (fun start field => setField lib start field.1 field.2) (init lib) =
      { info with
        host := lib.toHostAndPort info.host.text
        currentMethod := SshMethod.ofText info.currentMethod.text } := rfl
  simp only [List.append_nil, markedLines] at lines
  rw [ofText, text, lines, foldl_readLine lib _ _ (colon_not_mem_name info), all, writable.host,
    SshMethod_ofText_text]

-- Without its last byte the text loses the marker of its last line, and with it the method.
theorem ofText_dropLast (lib : Common) (info : SshInfo) (writable : info.Writable lib) :
    ofText lib info.text.dropLast = { info with currentMethod := .unknown } := by
  let method : Text × Text := (ascii "currentMethod", info.currentMethod.text)
  let others := info.fields.take 6
  have whole : info.fields = others ++ [method] := rfl
  have cut : info.text.dropLast =
      (others.flatMap fun field => fieldLine field ++ marker) ++ (fieldLine method ++ [13]) := by
    have ending : marker = [13] ++ [10] := rfl
    rw [text, whole, List.flatMap_append, List.flatMap_cons, List.flatMap_nil, List.append_nil, ending,
      ← List.append_assoc (fieldLine method), ← List.append_assoc, List.dropLast_concat]
  have lines := markedLines_fields lib info writable others (fun _ member => List.mem_of_mem_take member)
    (fieldLine method ++ [13])
  have unclosed := markedLines_unclosed (fieldLine method) []
    (cr_not_mem_fieldLine lib info writable method (by simp [whole]))
  have all : others.foldl (fun start field => setField lib start field.1 field.2) (init lib) =
      { info with host := lib.toHostAndPort info.host.text, currentMethod := .unknown } := rfl
  rw [unclosed, List.append_nil] at lines
  rw [ofText, cut, lines,
    foldl_readLine lib _ _ fun field member => colon_not_mem_name info field (List.mem_of_mem_take member), all,
    writable.host]

end SshInfo

end FastoNoSQL
