import FastoNoSQL.Redis.ReaderReplies

set_option autoImplicit false

/-!
# What the reader never does

The task stack always fits the reply that is put together, so that the source's
assertions hold and its writes stay within their arrays, whatever the server
sends, unless the number in a header is one that the source cannot handle.
-/

namespace FastoNoSQL.Redis

open Bytes Sds Framing RedisReply ReplyObject

-- The core can read all of it.
def ReplyObject.Whole (obj : ReplyObject) : Prop := ∃ reply, obj.read = some reply

-- An array without elements can be read only when it was announced so.
def Countable (count : Int) : Prop :=
  count = -1 ∨ 0 < count ∧ 0 < toInt count ∨ count ≤ 0 ∧ toInt count = 0

instance (count : Int) : Decidable (Countable count) := inferInstanceAs (Decidable (_ ∨ _))

/-- The number that the current task reads next fits into a `long long`, as the length of a string into one with the
line end, and as the number of elements into an `int`. -/
def Sane (state : Parse) (text : Text) : Prop :=
  ∀ cur ∈ state.rstack.head?, 0 ≤ cur.type → find crlf text ≠ none →
    (cur.type = replyInteger → readLongLong text ≠ none) ∧
      (cur.type = replyString → ∃ len, readLongLong text = some len ∧ len + 2 < 2 ^ 63) ∧
      (cur.type = replyArray → state.rstack.length ≠ 9 → ∃ count, readLongLong text = some count ∧ Countable count)

/-! ## The stack and the reply -/

/-- The array of a task, with the elements before the one of the next task in their places. -/
structure Holds (task next : ReadTask) (elements : UInt64) (element : List (Option ReplyObject)) : Prop where
  type : task.type = replyArray
  count : task.elements = element.length
  announced : elements.toNat = element.length
  low : 0 ≤ next.idx
  high : next.idx < element.length
  filled : ∀ m < next.idx.toNat, ∃ obj, element[m]? = some (some obj) ∧ obj.Whole

-- Of the tasks, here the root first, each but the last belongs to an array.
def Fits : Option ReplyObject → List ReadTask → Prop
  | _, [] => False
  | _, [_] => True
  | reply, task :: next :: tasks =>
    ∃ integer str elements element, reply = some (node replyArray integer str elements element) ∧
      Holds task next elements element ∧ Fits (element[next.idx.toNat]?.join) (next :: tasks)

theorem whole_array (integer : Int) (str : Text) (elements : UInt64) (element : List (Option ReplyObject))
    (announced : elements.toNat = element.length) (filled : ∀ slot ∈ element, ∃ obj, slot = some obj ∧ obj.Whole) :
    (node replyArray integer str elements element).Whole := by
  obtain ⟨replies, all⟩ : ∃ replies, readSlots element = some replies := by
    clear announced
    induction element with
    | nil => exact ⟨[], rfl⟩
    | cons slot element ih =>
        obtain ⟨obj, rfl, reply, here⟩ := filled slot List.mem_cons_self
        obtain ⟨replies, later⟩ := ih fun slot member => filled slot (List.mem_cons_of_mem _ member)
        exact ⟨reply :: replies, by rw [readSlots, here, later]; rfl⟩
  exact ⟨_, by rw [ReplyObject.read, if_pos rfl, if_pos announced, all, Option.map_some]⟩

section Slots

variable {task next : ReadTask} {elements : UInt64} {element : List (Option ReplyObject)}

theorem Holds.there (holds : Holds task next elements element) : next.idx.toNat < element.length := by
  have low := holds.low
  have high := holds.high
  omega

-- The slot of the next task is written, and the elements before it stay.
theorem Holds.set (holds : Holds task next elements element) (obj : ReplyObject) (other : ReadTask)
    (same : other.idx = next.idx) : Holds task other elements (element.set next.idx.toNat (some obj)) where
  type := holds.type
  count := by rw [List.length_set, holds.count]
  announced := by rw [List.length_set, holds.announced]
  low := same ▸ holds.low
  high := by rw [List.length_set, same]; exact holds.high
  filled m less := by
    rw [same] at less
    rw [List.getElem?_set_ne (by omega)]
    exact holds.filled m less

theorem Holds.place (holds : Holds task next elements element) (integer : Int) (str : Text) {obj made : ReplyObject}
    {path : List Int} (placed : place obj path (element[next.idx.toNat]?.join) = some made) :
    ReplyObject.place obj (next.idx :: path) (some (node replyArray integer str elements element)) =
      some (node replyArray integer str elements (element.set next.idx.toNat (some made))) := by
  have there := holds.there
  rw [List.getElem?_eq_getElem there, Option.join_some] at placed
  rw [ReplyObject.place, if_pos ⟨rfl, holds.low⟩, List.getElem?_eq_getElem there]
  simp only [placed, Option.map_some]

theorem join_set (there : next.idx.toNat < element.length) (obj : ReplyObject) :
    (element.set next.idx.toNat (some obj))[next.idx.toNat]?.join = some obj := by
  rw [List.getElem?_set_self there, Option.join_some]

end Slots

-- The current task may change but for its index.
theorem Fits.top {reply : Option ReplyObject} {tasks : List ReadTask} {cur : ReadTask}
    (fits : Fits reply (tasks ++ [cur])) (other : ReadTask) (same : other.idx = cur.idx) : Fits reply (tasks ++ [other]) := by
  induction tasks generalizing reply with
  | nil => trivial
  | cons task tasks ih =>
      cases tasks with
      | nil =>
          obtain ⟨integer, str, elements, element, rfl, holds, -⟩ := fits
          refine ⟨integer, str, elements, element, rfl, ⟨holds.type, holds.count, holds.announced, ?_, ?_, ?_⟩, trivial⟩
          · rw [same]
            exact holds.low
          · rw [same]
            exact holds.high
          · rw [same]
            exact holds.filled
      | cons next tasks =>
          obtain ⟨integer, str, elements, element, rfl, holds, inner⟩ := fits
          exact ⟨integer, str, elements, element, rfl, holds, ih inner⟩

-- An object with tasks of its own takes the place of the current task.
theorem Fits.splice {reply : Option ReplyObject} {tasks : List ReadTask} {cur : ReadTask}
    (fits : Fits reply (tasks ++ [cur])) (obj : ReplyObject) (other : ReadTask) (more : List ReadTask)
    (same : other.idx = cur.idx) (inner : Fits (some obj) (other :: more)) :
    ∃ root, place obj ((tasks ++ [cur]).tail.map ReadTask.idx) reply = some root ∧
      Fits (some root) (tasks ++ other :: more) := by
  induction tasks generalizing reply with
  | nil => exact ⟨obj, rfl, inner⟩
  | cons task tasks ih =>
      cases tasks with
      | nil =>
          obtain ⟨integer, str, elements, element, rfl, holds, -⟩ := fits
          have placed : place obj [] (element[cur.idx.toNat]?.join) = some obj := rfl
          refine ⟨_, holds.place integer str placed, integer, str, elements, _, rfl, holds.set obj other same, ?_⟩
          rw [same, join_set holds.there]
          exact inner
      | cons next tasks =>
          obtain ⟨integer, str, elements, element, rfl, holds, within⟩ := fits
          obtain ⟨root, placed, spliced⟩ := ih within
          refine ⟨_, holds.place integer str placed, integer, str, elements, _, rfl, holds.set root next rfl, ?_⟩
          rw [join_set holds.there]
          exact spliced

-- The tasks above the last two move on by themselves, until they are done.
theorem moveToNextTask_append (tasks : List ReadTask) (prv bottom : ReadTask) (next : List ReadTask)
    (moves : moveToNextTask (tasks ++ [prv]) = some next) :
    moveToNextTask (tasks ++ [prv, bottom]) =
      if next = [] then moveToNextTask [prv, bottom] else some (next ++ [bottom]) := by
  induction tasks generalizing next with
  | nil =>
      obtain rfl := Option.some.inj moves
      rfl
  | cons cur tasks ih =>
      obtain ⟨second, rest, shape⟩ := List.exists_cons_of_ne_nil (by simp : tasks ++ [prv] ≠ [])
      have longer : tasks ++ [prv, bottom] = second :: (rest ++ [bottom]) := by
        rw [← List.cons_append, ← shape, List.append_assoc]
        rfl
      rw [shape] at ih
      rw [longer] at ih
      rw [List.cons_append, shape, moveToNextTask] at moves
      rw [List.cons_append, longer, moveToNextTask]
      split at moves
      · next array =>
          rw [if_pos array]
          split at moves
          · next last =>
              rw [if_pos last]
              exact ih next moves
          · next more =>
              rw [if_neg more]
              split at moves
              · next inside =>
                  obtain rfl := Option.some.inj moves
                  rw [if_pos inside, if_neg (by simp)]
                  rfl
              · cases moves
      · cases moves

/-- Where the tasks stand when the current one has its object: the reply is complete, or the next task fits it. -/
structure Landing (tasks : List ReadTask) (root : ReplyObject) (next : List ReadTask) : Prop where
  complete : next = [] → root.Whole
  fits : next ≠ [] → Fits (some root) next.reverse
  bottom : next ≠ [] → next.getLast? = tasks.head?
  depth : next.length ≤ tasks.length
  fresh : ∀ cur ∈ next.head?, cur.type < 0

-- By induction on the tasks from the root: the element lands in the array of the task below.
theorem Fits.lands {reply : Option ReplyObject} {tasks : List ReadTask} (fits : Fits reply tasks) {obj : ReplyObject}
    (whole : obj.Whole) :
    ∃ root next, place obj (tasks.tail.map ReadTask.idx) reply = some root ∧
      moveToNextTask tasks.reverse = some next ∧ Landing tasks root next := by
  induction tasks generalizing reply with
  | nil => exact fits.elim
  | cons task tasks ih =>
      cases tasks with
      | nil => exact ⟨obj, [], rfl, rfl, fun _ => whole, by simp, by simp, by simp, by simp⟩
      | cons second tasks =>
          obtain ⟨integer, str, elements, element, rfl, holds, inner⟩ := fits
          obtain ⟨made, rest, placed, moves, lands⟩ := ih inner
          have there := holds.there
          have set := holds.set made second rfl
          have reversed : (task :: second :: tasks).reverse = tasks.reverse ++ [second, task] := by simp
          have moved := moveToNextTask_append tasks.reverse second task rest (by simpa using moves)
          rw [reversed, moved]
          refine ⟨node replyArray integer str elements (element.set second.idx.toNat (some made)), ?_⟩
          by_cases done : rest = []
          · rw [if_pos done]
            -- The element is complete: the array is, too, or its next element is the next task.
            have filled (m : Nat) (less : m < second.idx.toNat + 1) : ∃ obj,
                (element.set second.idx.toNat (some made))[m]? = some (some obj) ∧ obj.Whole := by
              by_cases here : m = second.idx.toNat
              · exact ⟨made, by rw [here, List.getElem?_set_self there], lands.complete done⟩
              · exact set.filled m (by omega)
            have low := holds.low
            have high := holds.high
            rw [moveToNextTask, if_pos holds.type]
            by_cases last : second.idx = task.elements - 1
            · rw [if_pos last]
              refine ⟨[], holds.place integer str placed, rfl, fun _ => ?_, by simp, by simp, by simp, by simp⟩
              refine whole_array _ _ _ _ set.announced fun slot member => ?_
              obtain ⟨m, here⟩ := List.mem_iff_getElem?.mp member
              have inside : m < element.length := by
                have bound := (List.getElem?_eq_some_iff.mp here).1
                rwa [List.length_set] at bound
              rw [holds.count] at last
              obtain ⟨obj, found, readable⟩ := filled m (by omega)
              exact ⟨obj, Option.some.inj (here.symm.trans found), readable⟩
            · rw [holds.count] at last
              rw [holds.count, if_neg last, if_pos high]
              refine ⟨_, holds.place integer str placed, rfl, by simp, fun _ => ?_, fun _ => rfl, by simp, by simp⟩
              refine ⟨integer, str, elements, _, rfl, ⟨set.type, set.count, set.announced, ?_, ?_, ?_⟩, trivial⟩
              · exact Int.le_add_one low
              · rw [List.length_set]
                simp only
                omega
              · intro m less
                have next : (second.idx + 1).toNat = second.idx.toNat + 1 := by omega
                exact filled m (next ▸ less)
          · rw [if_neg done]
            refine ⟨_, holds.place integer str placed, rfl, by simp, fun _ => ?_, fun _ => by simp, ?_, ?_⟩
            · have bottom : rest.reverse.head? = some second := by
                rw [List.head?_reverse]
                exact lands.bottom done
              obtain ⟨later, shape⟩ := List.head?_eq_some_iff.mp bottom
              have fitting := lands.fits done
              rw [shape] at fitting
              rw [List.reverse_append, shape]
              refine ⟨integer, str, elements, _, rfl, set, ?_⟩
              rw [join_set there]
              exact fitting
            · have depth := lands.depth
              simp only [List.length_append, List.length_cons, List.length_nil] at depth ⊢
              omega
            · intro cur member
              rw [List.head?_append_of_ne_nil _ done] at member
              exact lands.fresh cur member

/-! ## One item -/

def known : List Int := [replyError, replyStatus, replyInteger, replyString, replyArray]

structure Sound (state : Parse) : Prop where
  fits : Fits state.reply state.rstack.reverse
  depth : state.rstack.length ≤ 9
  type : ∀ cur ∈ state.rstack.head?, 0 ≤ cur.type → cur.type ∈ known

theorem sound_root : Sound Parse.root := ⟨trivial, by decide, by simp [Parse.root]⟩

-- An item whose verdict keeps the state sound, and makes replies that are whole.
def Fine (verdict : Verdict Parse ReplyObject Fault) : Prop := verdict.Keeps Sound Whole (· ≠ .undefined)

section Items

variable {state : Parse} {cur : ReadTask} {text : Text}

theorem fine_create (sound : Sound state) {obj : ReplyObject} (whole : obj.Whole) (used : Nat) :
    Fine (verdict (state.create obj used)) := by
  obtain ⟨root, next, placed, moves, lands⟩ := sound.fits.lands whole
  rw [List.reverse_reverse] at moves
  have path : state.path = state.rstack.reverse.tail.map ReadTask.idx := by
    rw [List.tail_reverse, List.map_reverse]
    rfl
  rw [verdict_create used (path ▸ placed) moves, landed]
  split
  · next done => exact ⟨sound_root, fun made member => Option.some.inj member ▸ lands.complete done⟩
  · next more =>
      have depth := lands.depth
      rw [List.length_reverse] at depth
      refine ⟨⟨lands.fits more, Nat.le_trans depth sound.depth, fun cur member typed => ?_⟩, nofun⟩
      exact absurd (lands.fresh cur member) (Int.not_lt.mpr typed)

theorem whole_leaf (type integer : Int) (str : Text) (elements : UInt64) (element : List (Option ReplyObject))
    (leaf : type ≠ replyArray) : (node type integer str elements element).Whole :=
  ⟨_, by rw [ReplyObject.read, if_neg leaf]⟩

theorem fine_type (sound : Sound state) : Fine (verdict (processType state text)) := by
  cases text with
  | nil => trivial
  | cons c text =>
      rw [processType]
      cases tasks : state.rstack with
      | nil =>
          have fits := sound.fits
          rw [tasks] at fits
          exact fits.elim
      | cons cur rstack =>
          cases read : typeOfByte c with
          | none => exact fun same => by cases same
          | some type =>
              have fits := sound.fits
              have depth := sound.depth
              rw [tasks, List.reverse_cons] at fits
              rw [tasks] at depth
              refine ⟨⟨?_, depth, fun other member _ => ?_⟩, by simp⟩
              · rw [List.reverse_cons]
                exact fits.top _ rfl
              · obtain rfl := Option.some.inj member
                exact typeOfByte_mem read

theorem fine_line (sound : Sound state) (line : cur.type ≠ replyArray)
    (sane : cur.type = replyInteger → find crlf text ≠ none → readLongLong text ≠ none) :
    Fine (verdict (processLineItem (find crlf) state cur text)) := by
  unfold processLineItem
  cases found : find crlf text with
  | none => trivial
  | some len =>
      by_cases integer : cur.type = replyInteger
      · obtain ⟨value, read⟩ := Option.ne_none_iff_exists'.mp (sane integer (by simp [found]))
        simp only [if_pos integer, read]
        exact fine_create sound (whole_leaf _ _ _ _ _ (by decide)) _
      · simp only [if_neg integer]
        exact fine_create sound (whole_leaf _ _ _ _ _ line) _

theorem fine_bulk (sound : Sound state) (string : cur.type = replyString)
    (sane : find crlf text ≠ none → ∃ len, readLongLong text = some len ∧ len + 2 < 2 ^ 63) :
    Fine (verdict (processBulkItem (find crlf) state cur text)) := by
  unfold processBulkItem
  cases found : find crlf text with
  | none => trivial
  | some line =>
      obtain ⟨len, read, small⟩ := sane (by simp [found])
      simp only [read, if_pos small]
      split_ifs
      · exact fine_create sound (whole_leaf _ _ _ _ _ (by decide)) _
      · exact fine_create sound (whole_leaf _ _ _ _ _ (by rw [string]; decide)) _
      · trivial

-- An array is made with room for its elements, and the first of them is the next task.
theorem fine_push {rstack : List ReadTask} {reply : Option ReplyObject} (sound : Sound ⟨cur :: rstack, reply⟩)
    (array : cur.type = replyArray) (room : rstack.length < 8) (count : Int) (positive : 0 < count) (small : count < 2 ^ 31)
    (used : Nat) :
    ∃ root, place (createArrayObject count) (Parse.path ⟨cur :: rstack, reply⟩) reply = some root ∧
      Fine (verdict (.ok ⟨{ idx := 0 } :: { cur with elements := count } :: rstack, some root⟩ used)) := by
  have fits := sound.fits
  rw [List.reverse_cons] at fits
  have announced : (UInt64.ofInt count).toNat = (List.replicate count.toNat (none : Option ReplyObject)).length := by
    have whole : (count % 2 ^ 64).toNat = count.toNat := by omega
    rw [UInt64.ofInt, whole, UInt64.toNat_ofNat', List.length_replicate]
    exact Nat.mod_eq_of_lt (by omega)
  have inner : Fits (some (createArrayObject count)) [{ cur with elements := count }, { idx := 0 }] := by
    refine ⟨_, _, _, _, rfl, ⟨array, ?_, announced, Int.le_refl 0, ?_, by simp⟩, trivial⟩
    · rw [List.length_replicate]
      exact (Int.toNat_of_nonneg (Int.le_of_lt positive)).symm
    · rw [List.length_replicate, Int.toNat_of_nonneg (Int.le_of_lt positive)]
      exact positive
  obtain ⟨root, placed, spliced⟩ := fits.splice _ { cur with elements := count } [{ idx := 0 }] rfl inner
  have path : Parse.path ⟨cur :: rstack, reply⟩ = (rstack.reverse ++ [cur]).tail.map ReadTask.idx := by
    rw [← List.reverse_cons, List.tail_reverse, List.map_reverse]
    rfl
  refine ⟨root, path ▸ placed, ?_⟩
  rw [verdict, if_neg (List.cons_ne_nil _ _)]
  refine ⟨⟨?_, ?_, fun other member typed => ?_⟩, by simp⟩
  · simpa using spliced
  · simp only [List.length_cons]
    omega
  · obtain rfl := Option.some.inj member
    exact absurd typed (by decide)

theorem fine_array {rstack : List ReadTask} {reply : Option ReplyObject} (sound : Sound ⟨cur :: rstack, reply⟩)
    (array : cur.type = replyArray)
    (sane : find crlf text ≠ none → (cur :: rstack).length ≠ 9 →
      ∃ count, readLongLong text = some count ∧ Countable count) :
    Fine (verdict (processMultiBulkItem (find crlf) ⟨cur :: rstack, reply⟩ cur text)) := by
  unfold processMultiBulkItem
  by_cases deep : (cur :: rstack).length = 9
  · rw [if_pos deep]
    exact nofun
  rw [if_neg deep]
  cases found : find crlf text with
  | none => trivial
  | some len =>
      obtain ⟨count, read, countable⟩ := sane (by simp [found]) deep
      have depth := sound.depth
      simp only [List.length_cons] at depth deep
      simp only [read, List.tail_cons]
      by_cases nil : count = -1
      · rw [if_pos nil]
        exact fine_create sound (whole_leaf _ _ _ _ _ (by decide)) _
      rw [if_neg nil]
      rcases countable with nil' | ⟨positive, counted⟩ | ⟨none', counted⟩
      · exact absurd nil' nil
      · obtain ⟨root, placed, fine⟩ := fine_push sound array (by omega) _ counted (toInt_lt count) (len + 2)
        simp only [if_pos positive, placed]
        exact fine
      · rw [if_neg (Int.not_lt.mpr none'), counted]
        exact fine_create sound (whole_array _ _ _ _ rfl (by simp)) _

theorem fine_look (sound : Sound state) (sane : Sane state text) : Fine (look state text) := by
  obtain ⟨rstack, reply⟩ := state
  unfold look nextItem
  cases rstack with
  | nil => exact sound.fits.elim
  | cons cur rstack =>
      by_cases untyped : cur.type < 0
      · simp only [if_pos untyped]
        exact fine_type sound
      have typed := Int.not_lt.mp untyped
      have type := sound.type cur rfl typed
      simp only [if_neg untyped]
      unfold processTyped
      split_ifs with line bulk array
      · refine fine_line sound ?_ fun integer found => (sane cur rfl typed found).1 integer
        rcases line with error | status | integer
        · rw [error]
          decide
        · rw [status]
          decide
        · rw [integer]
          decide
      · exact fine_bulk sound bulk fun found => (sane cur rfl typed found).2.1 bulk
      · exact fine_array sound array fun found => (sane cur rfl typed found).2.2 array
      · simp only [known, List.mem_cons, List.not_mem_nil, or_false] at type
        tauto

end Items

/-- Nothing that the reader does is undefined, and every reply that it hands out is whole. -/
def SafeResults (ops : List (Op UInt8)) : Prop :=
  ∀ result ∈ results Reader.step (some {}) ops, result.Good Whole (· ≠ .undefined)

def nestedOps : List (Op UInt8) := [.feed (ascii "*1\r\n"), .pull, .feed (ascii ":7\r\n"), .pull]

theorem nested_careful : Careful Sane look Parse.root (fed nestedOps) := by
  have untyped (idx : Int) (rstack : List ReadTask) (reply : Option ReplyObject) (text : Text) :
      Sane ⟨{ idx := idx } :: rstack, reply⟩ text := by
    intro cur member typed
    obtain rfl := Option.some.inj member
    exact absurd typed (Int.not_le.mpr (Int.negSucc_lt_zero 0))
  have array : Sane ⟨[{ type := replyArray, idx := -1 }], none⟩ (ascii "1\r\n:7\r\n") := by
    intro cur member typed found
    obtain rfl := Option.some.inj member
    exact ⟨by decide, by decide, fun _ _ => ⟨1, by decide, by decide⟩⟩
  have header : look ⟨[{ type := replyArray, idx := -1 }], none⟩ (ascii "1\r\n:7\r\n") =
      .next ⟨[{ idx := 0 }, { type := replyArray, elements := 1, idx := -1 }], some (createArrayObject 1)⟩ 3 none := rfl
  have element : Sane ⟨[{ type := replyInteger, idx := 0 }, { type := replyArray, elements := 1, idx := -1 }],
      some (createArrayObject 1)⟩ (ascii "7\r\n") := by
    intro cur member typed found
    obtain rfl := Option.some.inj member
    exact ⟨by decide, by decide, by decide⟩
  refine .of_next (untyped (-1) [] none _) rfl (.of_next array header ?_)
  refine .of_next (untyped 0 _ _ _) rfl (.of_next element rfl ?_)
  exact .of_wait (untyped (-1) [] none _) rfl

end FastoNoSQL.Redis
