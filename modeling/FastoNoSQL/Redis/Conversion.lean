import FastoNoSQL.Redis.Editing

set_option autoImplicit false

/-!
# Conversion of replies

`valueFromReplay` over the replies that hiredis hands out, of known types and
others, and the loops of `Zrange` and `Hgetall` that pair the elements of an
array.
-/

namespace FastoNoSQL.Redis

open Bytes

/-- `redisReply`. Which of its fields mean something depends on the type. -/
inductive RedisReply where
  | node (type integer : Int) (str : Text) (element : List RedisReply)

namespace RedisReply

def replyString : Int := 1
def replyArray : Int := 2
def replyInteger : Int := 3
def replyNil : Int := 4
def replyStatus : Int := 5
def replyError : Int := 6

def type : RedisReply → Int
  | node type _ _ _ => type

section Conversion

variable (lib : Common) (createIntegerValue : Int → Value)

mutual

def valueFromReplay : RedisReply → Except ErrorValue Value
  | node type integer str element =>
    if type = replyNil then .ok .null
    else if type = replyError then .error ⟨str, true⟩
    else if type = replyStatus ∨ type = replyString then .ok (.string str)
    else if type = replyInteger then .ok (createIntegerValue integer)
    else if type = replyArray then (appendValues element).map .array
    else .error ⟨lib.memSPrintf (ascii "Unknown reply type: %d") [.d type], true⟩

-- The first element with an error ends the loop.
def appendValues : List RedisReply → Except ErrorValue (List Value)
  | [] => .ok []
  | reply :: replies => do
    let val ← valueFromReplay reply
    let values ← appendValues replies
    return val :: values

end

-- The loop over `i += 2`, with both elements asked for by their index.
def pairFrom {A : Type} (arr : List A) (i : Nat) : List (A × A) :=
  if i < arr.length then
    match arr[i]?, arr[i + 1]? with
    | some first, some second => (first, second) :: pairFrom arr (i + 2)
    | _, _ => pairFrom arr (i + 2)
  else []
termination_by arr.length - i

def getAsList : Value → Option (List Value)
  | .array arr => some arr
  | _ => none

/-- What `Zrange` loads of a reply; none where the source asserts that it is not reached. -/
def zrange (withscores : Bool) : RedisReply → Option (Except ErrorValue Value)
  | node type integer str element =>
    if type = replyArray then
      some (do
        let val ← valueFromReplay lib createIntegerValue (node type integer str element)
        if withscores then
          match getAsList val with
          | some arr => return .zset ((pairFrom arr 0).map Prod.swap)
          | none => throw ⟨ascii "Conversion error array to zset", true⟩
        else
          return val)
    else if type = replyError then some (.error ⟨str, true⟩)
    else none

def hgetall : RedisReply → Option (Except ErrorValue Value)
  | node type integer str element =>
    if type = replyArray then
      some (do
        let val ← valueFromReplay lib createIntegerValue (node type integer str element)
        match getAsList val with
        | some arr => return .hash (pairFrom arr 0)
        | none => throw ⟨ascii "Conversion error array to hash", true⟩)
    else if type = replyError then some (.error ⟨str, true⟩)
    else none

end Conversion

/-! ## The nodes of a reply and its shape -/

mutual

-- The elements of a reply that is no array are not looked at.
def nodes : RedisReply → List RedisReply
  | node type integer str element =>
    node type integer str element :: if type = replyArray then nodesOf element else []

def nodesOf : List RedisReply → List RedisReply
  | [] => []
  | reply :: replies => nodes reply ++ nodesOf replies

end

-- Of a type that is known, and no error.
def Convertible (reply : RedisReply) : Prop :=
  reply.type ∈ [replyNil, replyStatus, replyString, replyInteger, replyArray]

inductive SameShape : RedisReply → Value → Prop
  | nil {integer str element} : SameShape (node replyNil integer str element) .null
  | integer {value str element} : SameShape (node replyInteger value str element) (.integer value)
  | status {integer str element} : SameShape (node replyStatus integer str element) (.string str)
  | string {integer str element} : SameShape (node replyString integer str element) (.string str)
  | array {integer str element arr} (size : element.length = arr.length)
      (each : ∀ i (h : i < element.length), SameShape element[i] arr[i]) :
    SameShape (node replyArray integer str element) (.array arr)

section Conversion

variable (lib : Common) (createIntegerValue : Int → Value)

theorem valueFromReplay_array (integer : Int) (str : Text) (element : List RedisReply) :
    valueFromReplay lib createIntegerValue (node replyArray integer str element) =
      (appendValues lib createIntegerValue element).map .array := by
  rw [valueFromReplay, if_neg (by decide), if_neg (by decide), if_neg (by decide), if_neg (by decide), if_pos rfl]

theorem nodes_array (integer : Int) (str : Text) (element : List RedisReply) :
    (node replyArray integer str element).nodes = node replyArray integer str element :: nodesOf element := by
  rw [nodes, if_pos rfl]

-- The only reply that is converted by way of others is an array.
theorem valueFromReplay_leaf_iff (kind integer : Int) (str : Text) (element : List RedisReply)
    (leaf : kind ≠ replyArray) :
    (∃ val, valueFromReplay lib createIntegerValue (node kind integer str element) = .ok val) ↔
      (node kind integer str element).Convertible := by
  rw [valueFromReplay, Convertible, type]
  simp only [List.mem_cons, List.not_mem_nil, or_false, leaf, reduceIte]
  split_ifs with nil error text number
  · simp [nil]
  · simp [error, replyError, replyNil, replyStatus, replyString, replyInteger]
  · simp only [Except.ok.injEq, exists_eq', true_iff]
    exact .inr (text.imp_right .inl)
  · simp [number]
  · simp only [exists_false, false_iff]
    rintro (known | known | known | known)
    · exact nil known
    · exact text (.inl known)
    · exact text (.inr known)
    · exact number known

theorem appendValues_cons_ok_iff (reply : RedisReply) (replies : List RedisReply) (arr : List Value) :
    appendValues lib createIntegerValue (reply :: replies) = .ok arr ↔
      ∃ val values, valueFromReplay lib createIntegerValue reply = .ok val ∧
        appendValues lib createIntegerValue replies = .ok values ∧ val :: values = arr := by
  rw [appendValues]
  cases valueFromReplay lib createIntegerValue reply with
  | error err => simp [bind, Except.bind]
  | ok val =>
      cases appendValues lib createIntegerValue replies with
      | error err => simp [bind, Except.bind]
      | ok values => simp [bind, Except.bind, pure, Except.pure]

theorem map_ok_iff {A B E : Type} (f : A → B) (result : Except E A) (b : B) :
    result.map f = .ok b ↔ ∃ a, result = .ok a ∧ f a = b := by
  cases result <;> simp [Except.map]

mutual

theorem valueFromReplay_ok_iff (reply : RedisReply) :
    (∃ val, valueFromReplay lib createIntegerValue reply = .ok val) ↔ ∀ part ∈ reply.nodes, part.Convertible := by
  cases reply with
  | node kind integer str element =>
      have elements := appendValues_ok_iff element
      by_cases array : kind = replyArray
      next =>
        subst array
        have self : (node replyArray integer str element).Convertible := by simp [Convertible, type]
        rw [nodes_array, List.forall_mem_cons, ← elements, valueFromReplay_array]
        simp only [map_ok_iff, self, true_and]
        constructor
        · rintro ⟨_, arr, done, _⟩
          exact ⟨arr, done⟩
        · rintro ⟨arr, done⟩
          exact ⟨_, arr, done, rfl⟩
      next => rw [valueFromReplay_leaf_iff _ _ _ _ _ _ array, nodes, if_neg array, List.forall_mem_singleton]

theorem appendValues_ok_iff (replies : List RedisReply) :
    (∃ arr, appendValues lib createIntegerValue replies = .ok arr) ↔
      ∀ part ∈ nodesOf replies, part.Convertible := by
  cases replies with
  | nil => simp [appendValues, nodesOf]
  | cons reply replies =>
      rw [nodesOf, List.forall_mem_append, ← valueFromReplay_ok_iff reply, ← appendValues_ok_iff replies]
      simp only [appendValues_cons_ok_iff]
      constructor
      · rintro ⟨arr, val, values, first, rest, _⟩
        exact ⟨⟨val, first⟩, values, rest⟩
      · rintro ⟨⟨val, first⟩, values, rest⟩
        exact ⟨_, val, values, first, rest, rfl⟩

end

theorem sameShape_leaf (holds : ∀ integer, createIntegerValue integer = .integer integer) (kind integer : Int)
    (str : Text) (element : List RedisReply) (val : Value) (leaf : kind ≠ replyArray)
    (done : valueFromReplay lib createIntegerValue (node kind integer str element) = .ok val) :
    SameShape (node kind integer str element) val := by
  rw [valueFromReplay] at done
  split_ifs at done with nil error text number
  · cases done
    subst nil
    exact .nil
  · cases done
    rcases text with rfl | rfl
    · exact .status
    · exact .string
  · cases done
    subst number
    rw [holds]
    exact .integer

mutual

theorem valueFromReplay_sameShape (holds : ∀ integer, createIntegerValue integer = .integer integer)
    (reply : RedisReply) (val : Value)
    (done : valueFromReplay lib createIntegerValue reply = .ok val) : SameShape reply val := by
  cases reply with
  | node kind integer str element =>
      by_cases array : kind = replyArray
      next =>
        subst array
        rw [valueFromReplay_array, map_ok_iff] at done
        obtain ⟨arr, elements, rfl⟩ := done
        obtain ⟨size, each⟩ := appendValues_sameShape holds element arr elements
        exact .array size fun i h => each i h (by omega)
      next => exact sameShape_leaf lib createIntegerValue holds kind integer str element val array done

theorem appendValues_sameShape (holds : ∀ integer, createIntegerValue integer = .integer integer)
    (replies : List RedisReply) (arr : List Value)
    (done : appendValues lib createIntegerValue replies = .ok arr) :
    replies.length = arr.length ∧
      ∀ i (h : i < replies.length) (h' : i < arr.length), SameShape replies[i] arr[i] := by
  cases replies with
  | nil =>
      cases done
      exact ⟨rfl, fun i h => absurd h (Nat.not_lt_zero i)⟩
  | cons reply replies =>
      rw [appendValues_cons_ok_iff] at done
      obtain ⟨val, values, first, rest, rfl⟩ := done
      have head := valueFromReplay_sameShape holds reply val first
      obtain ⟨size, each⟩ := appendValues_sameShape holds replies values rest
      refine ⟨congrArg (· + 1) size, fun i h h' => ?_⟩
      cases i with
      | zero => exact head
      | succ i => exact each i (Nat.lt_of_succ_lt_succ h) (Nat.lt_of_succ_lt_succ h')

end

end Conversion

/-! ## Pairs -/

section Pairs

variable {A : Type}

theorem pairFrom_eq_pairUp (arr : List A) (i : Nat) : pairFrom arr i = pairUp (arr.drop i) := by
  fun_induction pairFrom arr i with
  | case1 i within first second secondAt firstAt ih =>
      obtain ⟨after, rfl⟩ := List.getElem?_eq_some_iff.mp secondAt
      obtain ⟨_, rfl⟩ := List.getElem?_eq_some_iff.mp firstAt
      rw [List.drop_eq_getElem_cons within, List.drop_eq_getElem_cons after, pairUp, ih]
  | case2 i within missing ih =>
      have last : arr.length ≤ i + 1 := by
        by_contra more
        exact missing _ _ (List.getElem?_eq_getElem within) (List.getElem?_eq_getElem (Nat.lt_of_not_le more))
      rw [ih, List.drop_eq_getElem_cons within, List.drop_eq_nil_of_le last, List.drop_eq_nil_of_le (by omega)]
      rfl
  | case3 i outside =>
      rw [List.drop_eq_nil_of_le (Nat.le_of_not_lt outside)]
      rfl

theorem pairFrom_zero (arr : List A) : pairFrom arr 0 = pairUp arr := by
  rw [pairFrom_eq_pairUp, List.drop_zero]

theorem length_of_unpaired (arr : List A) (short : ∀ first second rest, arr = first :: second :: rest → False) :
    arr.length ≤ 1 := by
  rcases arr with _ | ⟨first, _ | ⟨second, rest⟩⟩
  · exact Nat.zero_le 1
  · exact Nat.le_refl 1
  · exact absurd rfl (short first second rest)

theorem length_pairUp (arr : List A) : (pairUp arr).length = arr.length / 2 := by
  fun_induction pairUp arr with
  | case1 first second rest ih =>
      simp only [List.length_cons, ih]
      omega
  | case2 arr short =>
      have few := length_of_unpaired arr short
      rw [List.length_nil]
      omega

theorem getElem?_pairUp (arr : List A) (i : Nat) (within : 2 * i + 1 < arr.length) :
    (pairUp arr)[i]? = some (arr[2 * i], arr[2 * i + 1]) := by
  fun_induction pairUp arr generalizing i with
  | case1 first second rest ih =>
      cases i with
      | zero => rfl
      | succ i =>
          have next : 2 * i + 1 < rest.length := by simp only [List.length_cons] at within; omega
          exact ih i next
  | case2 arr short =>
      have few := length_of_unpaired arr short
      omega

theorem unpair_pairUp (arr : List A) (even : arr.length % 2 = 0) : unpair (pairUp arr) = arr := by
  fun_induction pairUp arr with
  | case1 first second rest ih =>
      have tail : rest.length % 2 = 0 := by simp only [List.length_cons] at even; omega
      exact congrArg (first :: second :: ·) (ih tail)
  | case2 arr short =>
      have few := length_of_unpaired arr short
      have empty : arr.length = 0 := by omega
      rw [List.eq_nil_of_length_eq_zero empty]
      rfl

/-- Element `2i` is paired with element `2i + 1`; of an even number of elements none is left out. -/
structure Paired (arr : List A) (pairs : List (A × A)) : Prop where
  size : pairs.length = arr.length / 2
  pair : ∀ i (h : 2 * i + 1 < arr.length), pairs[i]? = some (arr[2 * i], arr[2 * i + 1])
  whole : arr.length % 2 = 0 → unpair pairs = arr

theorem pairFrom_paired (arr : List A) : Paired arr (pairFrom arr 0) := by
  rw [pairFrom_zero]
  exact ⟨length_pairUp arr, getElem?_pairUp arr, unpair_pairUp arr⟩

end Pairs

section Loaded

variable (lib : Common) (createIntegerValue : Int → Value)

theorem zrange_array (integer : Int) (str : Text) (element : List RedisReply) (arr : List Value)
    (done : valueFromReplay lib createIntegerValue (node replyArray integer str element) = .ok (.array arr)) :
    zrange lib createIntegerValue true (node replyArray integer str element) =
      some (.ok (.zset ((pairFrom arr 0).map Prod.swap))) := by
  rw [zrange, if_pos rfl, done]
  rfl

theorem hgetall_array (integer : Int) (str : Text) (element : List RedisReply) (arr : List Value)
    (done : valueFromReplay lib createIntegerValue (node replyArray integer str element) = .ok (.array arr)) :
    hgetall lib createIntegerValue (node replyArray integer str element) = some (.ok (.hash (pairFrom arr 0))) := by
  rw [hgetall, if_pos rfl, done]
  rfl

/-- A reply is converted when no part of it is an error or unknown, to a value of its shape, and the elements of an
array are then paired: a sorted set gets score and member, a hash field and value. -/
theorem conversion_keeps_shape (holds : ∀ integer, createIntegerValue integer = .integer integer)
    (reply : RedisReply) :
    ((∃ val, valueFromReplay lib createIntegerValue reply = .ok val) ↔ ∀ part ∈ reply.nodes, part.Convertible) ∧
      (∀ val, valueFromReplay lib createIntegerValue reply = .ok val → SameShape reply val) ∧
      ∀ arr, valueFromReplay lib createIntegerValue reply = .ok (.array arr) →
        (∃ entries, zrange lib createIntegerValue true reply = some (.ok (.zset entries)) ∧
            Paired arr (entries.map Prod.swap)) ∧
          ∃ fields, hgetall lib createIntegerValue reply = some (.ok (.hash fields)) ∧ Paired arr fields := by
  refine ⟨valueFromReplay_ok_iff lib createIntegerValue reply,
    valueFromReplay_sameShape lib createIntegerValue holds reply, fun arr done => ?_⟩
  cases valueFromReplay_sameShape lib createIntegerValue holds reply _ done with
  | array _ _ =>
      refine ⟨⟨_, zrange_array lib createIntegerValue _ _ _ arr done, ?_⟩,
        _, hgetall_array lib createIntegerValue _ _ _ arr done, pairFrom_paired arr⟩
      rw [List.map_map, Prod.swap_swap_eq, List.map_id]
      exact pairFrom_paired arr

-- A field with a zero byte and its value, an integer.
def sampleHash : RedisReply :=
  node replyArray 0 [] [node replyString 0 [byte 'a', 0, byte 'b'] [], node replyInteger 7 [] []]

theorem conversion_keeps_shape_sampleHash :
    ∃ fields, hgetall Common.std Value.integer sampleHash = some (.ok (.hash fields)) ∧
      Paired [.string [byte 'a', 0, byte 'b'], .integer 7] fields :=
  ((conversion_keeps_shape Common.std Value.integer (fun _ => rfl) sampleHash).2.2 _ rfl).2

end Loaded

/-! ## The replies of the server model -/

mutual

-- What hiredis makes of a reply.
def ofReply : Reply → RedisReply
  | .status text => node replyStatus 0 text []
  | .error text => node replyError 0 text []
  | .integer value => node replyInteger value [] []
  | .nil => node replyNil 0 [] []
  | .string text => node replyString 0 text []
  | .array elements => node replyArray 0 [] (ofReplies elements)

def ofReplies : List Reply → List RedisReply
  | [] => []
  | reply :: replies => ofReply reply :: ofReplies replies

end

section Loaded

variable (lib : Common)

mutual

theorem valueFromReplay_ofReply (reply : Reply) :
    valueFromReplay lib Value.integer (ofReply reply) = Redis.valueFromReplay reply := by
  cases reply with
  | array elements => rw [ofReply, valueFromReplay_array, appendValues_ofReplies elements, Redis.valueFromReplay]
  | status text | error text | integer value | nil | string text =>
      simp [ofReply, valueFromReplay, Redis.valueFromReplay, replyNil, replyError, replyStatus, replyString,
        replyInteger]

theorem appendValues_ofReplies (replies : List Reply) :
    appendValues lib Value.integer (ofReplies replies) = valuesFromReplay replies := by
  cases replies with
  | nil => rfl
  | cons reply replies =>
      rw [ofReplies, appendValues, valuesFromReplay, valueFromReplay_ofReply reply, appendValues_ofReplies replies]

end

section Handlers

variable (world : World) (clusterMode : Bool) (reply : Reply)

theorem readReply_hgetall (args : List Text) :
    readReply world clusterMode .hgetall args reply =
      (hgetall world.lib Value.integer (ofReply reply)).map fun result => result.map some := by
  cases reply with
  | array elements =>
      rw [ofReply, hgetall, if_pos rfl, valueFromReplay_array, appendValues_ofReplies, readReply]
      cases valuesFromReplay elements with
      | error err => rfl
      | ok values =>
          show some (Except.ok (some (Value.hash (pairUp values)))) = _
          rw [← pairFrom_zero]
          rfl
  | status text | error text | integer value | nil | string text => rfl

theorem readReply_zrange (key start stop : Text) (options : List Text) :
    readReply world clusterMode .zrange (key :: start :: stop :: options) reply =
      (zrange world.lib Value.integer (withScores options) (ofReply reply)).map fun result => result.map some := by
  cases reply with
  | array elements =>
      rw [ofReply, zrange, if_pos rfl, valueFromReplay_array, appendValues_ofReplies, readReply]
      cases valuesFromReplay elements with
      | error err => rfl
      | ok values =>
          show some (Except.ok (some (gather .zrange (key :: start :: stop :: options) values))) = _
          rw [gather]
          cases withScores options with
          | false => rfl
          | true =>
              rw [← pairFrom_zero]
              rfl
  | status text | error text | integer value | nil | string text => rfl

end Handlers

end Loaded

end RedisReply

end FastoNoSQL.Redis
