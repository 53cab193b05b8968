import FastoNoSQL.Redis.Hiredis
import FastoNoSQL.Store.Connection

set_option autoImplicit false

/-!
# The redis server

Replies, and what the core relies on of a server for commands on string keys.
-/

namespace FastoNoSQL.Redis

open Bytes Store

inductive Reply where
  | status (text : Text)
  | error (text : Text)
  | integer (value : Int)
  | nil
  | string (text : Text)
  | array (elements : List Reply)

structure Server where
  serve : Content → List Text → Reply × Content

/-- `SET`, `GET` and `DEL`, as the server documents them: `DEL` counts the keys it removes. -/
structure Server.Lawful (server : Server) : Prop where
  serve_set : ∀ content key value,
    server.serve content [ascii "SET", key, value] = (.status (ascii "OK"), content.put key value)
  serve_get : ∀ content key,
    server.serve content [ascii "GET", key] =
      (match content key with | some value => .string value | none => .nil, content)
  serve_del : ∀ content keys, keys ≠ [] →
    server.serve content (ascii "DEL" :: keys) =
      (.integer (content.taken keys).length, content.eraseAll keys)
  serve_del_nothing : ∀ content, ∃ text, server.serve content [ascii "DEL"] = (.error text, content)

def Server.std : Server where
  serve content argv :=
    let refused := (.error (ascii "ERR unknown command"), content)
    match argv with
    | [] => refused
    | word :: args =>
      if word = ascii "DEL" then
        if args = [] then (.error (ascii "ERR wrong number of arguments for 'del' command"), content)
        else (.integer (content.taken args).length, content.eraseAll args)
      else
        match args with
        | [key] =>
          if word = ascii "GET" then
            (match content key with | some value => .string value | none => .nil, content)
          else refused
        | [key, value] =>
          if word = ascii "SET" then (.status (ascii "OK"), content.put key value) else refused
        | _ => refused

theorem Server.std_lawful : Server.std.Lawful where
  serve_set content key value := by
    have other : ascii "SET" ≠ ascii "DEL" := by decide
    simp [Server.std, other]
  serve_get content key := by
    have other : ascii "GET" ≠ ascii "DEL" := by decide
    simp [Server.std, other]
  serve_del content keys more := by simp [Server.std, more]
  serve_del_nothing content := ⟨_, rfl⟩

/-! ## Patterns -/

section Patterns

variable (word key : Text) (copied : isCopied word = true) (nonempty : word ≠ []) (wordClean : (0 : UInt8) ∉ word)
variable (keyClean : (0 : UInt8) ∉ key)
include copied nonempty wordClean keyClean

theorem format_key (pattern : Text) (args : List Arg) (clean : (0 : UInt8) ∉ pattern) :
    redisFormatCommand (word ++ ascii " %s" ++ pattern) (.s key :: args) =
      (formatFrom key true pattern args).map (word :: ·) := by
  have cut : cString (word ++ ascii " %s" ++ pattern) = word ++ byte ' ' :: byte '%' :: byte 's' :: pattern := by
    have shape : word ++ ascii " %s" ++ pattern = word ++ byte ' ' :: byte '%' :: byte 's' :: pattern := by
      rw [List.append_assoc]
      rfl
    have other : (0 : UInt8) ≠ byte ' ' ∧ (0 : UInt8) ≠ byte '%' ∧ (0 : UInt8) ≠ byte 's' := by decide
    rw [shape, cString_eq_self]
    simp [wordClean, clean, other]
  rw [redisFormatCommand, cut, formatFrom_word [] false _ _ _ copied nonempty, formatFrom_blank,
    formatFrom_string _ _ key _ _ keyClean]
  rfl

theorem format_key_only : redisFormatCommand (word ++ ascii " %s") [.s key] = some [word, key] := by
  have whole := format_key word key copied nonempty wordClean keyClean [] [] (by simp)
  simpa [formatFrom] using whole

theorem format_pair (value : Text) (valueClean : (0 : UInt8) ∉ value) :
    redisFormatCommand (word ++ ascii " %s" ++ ascii " %s") [.s key, .s value] = some [word, key, value] := by
  have pattern : ascii " %s" = [byte ' ', byte '%', byte 's'] := by decide
  rw [format_key word key copied nonempty wordClean keyClean _ _ (by decide), pattern, formatFrom_blank,
    formatFrom_string _ _ value _ _ valueClean]
  rfl

end Patterns

theorem format_set (key value : Text) (keyClean : (0 : UInt8) ∉ key) (valueClean : (0 : UInt8) ∉ value) :
    redisFormatCommand (ascii "SET %s %s") [.s key, .s value] = some [ascii "SET", key, value] :=
  format_pair (ascii "SET") key (by decide) (by decide) (by decide) keyClean value valueClean

theorem format_get (key : Text) (clean : (0 : UInt8) ∉ key) :
    redisFormatCommand (ascii "GET %s") [.s key] = some [ascii "GET", key] :=
  format_key_only (ascii "GET") key (by decide) (by decide) (by decide) clean

end FastoNoSQL.Redis
