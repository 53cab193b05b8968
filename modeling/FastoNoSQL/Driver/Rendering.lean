import FastoNoSQL.Bytes.Pieces
import FastoNoSQL.Driver.Results

set_option autoImplicit false

/-!
# The text of a result

`ConvertToString` of `global/global.cpp`, for the containers of the `common`
library and for the objects that a reply is made into.
-/

namespace FastoNoSQL.Redis.Collection

open Bytes

/-! ## Collections -/

-- The texts of the elements that have no empty part.
def shown : Collection → List Text
  | array elements | set elements => elements.filter (· ≠ [])
  | zset pairs | hash pairs =>
    (pairs.filter fun pair => pair.1 ≠ [] ∧ pair.2 ≠ []).map fun pair => pair.1 ++ ascii " " ++ pair.2

/-- The last element is shown, or no delimiter can be seen. -/
def Tight (delimiter : Text) (collection : Collection) : Prop :=
  delimiter = [] ∨ collection.shown = [] ∨ ∀ last ∈ collection.items.getLast?, last ≠ []

theorem convertItems_concat (delimiter : Text) (items : List Text) (last : Text) :
    convertItems delimiter (items ++ [last]) =
      ((items.filter (· ≠ [])).flatMap fun item => item ++ delimiter) ++ last := by
  induction items with
  | nil => rfl
  | cons item items ih =>
      have step : convertItems delimiter (item :: items ++ [last]) =
          (if item = [] then [] else item ++ delimiter) ++ convertItems delimiter (items ++ [last]) := by
        cases items <;> rfl
      rw [step, ih]
      by_cases empty : item = []
      · simp [empty]
      · simp [empty]

theorem filter_map_pairText (pairs : List (Text × Text)) :
    (pairs.map pairText).filter (· ≠ []) =
      (pairs.filter fun pair => pair.1 ≠ [] ∧ pair.2 ≠ []).map fun pair => pair.1 ++ ascii " " ++ pair.2 := by
  induction pairs with
  | nil => rfl
  | cons pair pairs ih =>
      rw [List.map_cons, List.filter_cons, List.filter_cons, ih]
      by_cases whole : pair.1 ≠ [] ∧ pair.2 ≠ []
      · have text : pairText pair = pair.1 ++ ascii " " ++ pair.2 := by simp [pairText, whole.1, whole.2]
        have nonempty : pairText pair ≠ [] := by simp [text, whole.1]
        rw [if_pos (by simpa using nonempty), if_pos (by simpa using whole), List.map_cons, text]
      · have text : pairText pair = [] := by
          rw [pairText, if_pos]
          simpa only [ne_eq, not_and_or, not_not] using whole
        rw [if_neg (by simp [text]), if_neg (by simpa using whole)]

theorem shown_eq (collection : Collection) : collection.shown = collection.items.filter (· ≠ []) := by
  cases collection with
  | array elements | set elements => rfl
  | zset pairs | hash pairs => exact (filter_map_pairText pairs).symm

theorem convertToString_of_tight (delimiter : Text) (collection : Collection) (more : collection.items ≠ [])
    (tight : collection.Tight delimiter) :
    collection.convertToString delimiter = delimiter.intercalate collection.shown := by
  obtain ⟨items, last, ends⟩ := (List.eq_nil_or_concat' collection.items).resolve_left more
  rw [Tight, shown_eq, ends] at tight
  rw [convertToString, if_neg more, ends, convertItems_concat, shown_eq, ends]
  by_cases skipped : last = []
  · have alone : (items ++ [last]).filter (· ≠ []) = items.filter (· ≠ []) := by simp [skipped]
    rw [alone] at tight ⊢
    rw [skipped, List.append_nil]
    rcases tight with rfl | empty | shown
    · rw [intercalate_empty, List.flatMap]
      simp only [List.append_nil, List.map_id']
    · rw [empty]
      rfl
    · simp [skipped] at shown
  · have kept : (items ++ [last]).filter (· ≠ []) = items.filter (· ≠ []) ++ [last] := by simp [skipped]
    rw [kept, intercalate_concat]

-- After the last element shown there is a delimiter when only skipped ones follow.
theorem convertToString_of_loose (delimiter : Text) (collection : Collection) (loose : ¬collection.Tight delimiter) :
    collection.convertToString delimiter = delimiter.intercalate collection.shown ++ delimiter := by
  simp only [Tight, not_or, not_forall, not_not] at loose
  obtain ⟨-, more, last, ends, rfl⟩ := loose
  obtain ⟨items, ends⟩ := List.getLast?_eq_some_iff.mp ends
  have alone : collection.shown = items.filter (· ≠ []) := by simp [shown_eq, ends]
  rw [convertToString, if_neg (by simp [ends]), ends, convertItems_concat, List.append_nil, ← alone]
  obtain ⟨others, last, shape⟩ := (List.eq_nil_or_concat' collection.shown).resolve_left more
  rw [shape, intercalate_concat, List.flatMap_append]
  simp

/-- A collection's text is the elements shown, joined, exactly when it is tight; then, and when neither is tight, two
collections that show the same have the same text. -/
theorem collection_text_joined_iff (delimiter : Text) :
    (∀ collection : Collection, collection.items ≠ [] →
      (collection.convertToString delimiter = delimiter.intercalate collection.shown ↔ collection.Tight delimiter)) ∧
      ∀ first second : Collection, first.items ≠ [] → second.items ≠ [] → first.shown = second.shown →
        (first.convertToString delimiter = second.convertToString delimiter ↔
          (first.Tight delimiter ↔ second.Tight delimiter)) := by
  have longer (text : Text) (collection : Collection) (loose : ¬collection.Tight delimiter) :
      text ++ delimiter ≠ text := by
    intro same
    exact loose (Or.inl (List.append_right_eq_self.mp same))
  constructor
  · intro collection more
    refine ⟨fun joined => ?_, convertToString_of_tight delimiter collection more⟩
    by_contra loose
    rw [convertToString_of_loose delimiter collection loose] at joined
    exact longer _ collection loose joined
  · intro first second moreFirst moreSecond same
    by_cases tightFirst : first.Tight delimiter <;> by_cases tightSecond : second.Tight delimiter
    · simp [convertToString_of_tight, tightFirst, tightSecond, moreFirst, moreSecond, same]
    · rw [convertToString_of_tight delimiter first moreFirst tightFirst,
        convertToString_of_loose delimiter second tightSecond, same]
      simpa [tightFirst, tightSecond] using Ne.symm (longer (delimiter.intercalate second.shown) second tightSecond)
    · rw [convertToString_of_loose delimiter first tightFirst,
        convertToString_of_tight delimiter second moreSecond tightSecond, same]
      simpa [tightFirst, tightSecond] using longer (delimiter.intercalate second.shown) first tightFirst
    · simp [convertToString_of_loose, tightFirst, tightSecond, same]

-- `["a", ""]` and `["a"]` with a blank between elements.
theorem collection_text_joined_iff_trailing :
    ((array [ascii "a", []]).convertToString (ascii " ") = (array [ascii "a"]).convertToString (ascii " ") ↔
      ((array [ascii "a", []]).Tight (ascii " ") ↔ (array [ascii "a"]).Tight (ascii " "))) :=
  (collection_text_joined_iff (ascii " ")).2 _ _ (by simp [items]) (by simp [items]) (by decide)

theorem collection_text_not_joined :
    ¬∀ (delimiter : Text) (collection : Collection), collection.items ≠ [] →
      collection.convertToString delimiter = delimiter.intercalate collection.shown := by
  intro joined
  have text := joined (ascii " ") (array [ascii "a", []]) (by simp [items])
  revert text
  decide

end FastoNoSQL.Redis.Collection

namespace FastoNoSQL.OutputTree

open Bytes

/-! ## Objects -/

/-- `toString` of the values, which the `common` library has: a string is its own text. -/
structure ValueText where
  toString : ObjectValue → Text
  string : ∀ text, toString (.value (.string text)) = text

section Rendering

variable (lib : ValueText) (delimiter : Text)

-- A container with the texts of what it holds.
def ObjectValue.collection? : ObjectValue → Option Redis.Collection
  | .array elements => some (.array (elements.map lib.toString))
  | .value (.array elements) => some (.array (elements.map fun element => lib.toString (.value element)))
  | .value (.set members) => some (.set (members.map fun member => lib.toString (.value member)))
  | .value (.zset entries) =>
    some (.zset (entries.map fun entry => (lib.toString (.value entry.1), lib.toString (.value entry.2))))
  | .value (.hash fields) =>
    some (.hash (fields.map fun field => (lib.toString (.value field.1), lib.toString (.value field.2))))
  | _ => none

def ObjectValue.convertToString (value : ObjectValue) : Text :=
  match value.collection? lib with
  | some collection => collection.convertToString delimiter
  | none => lib.toString value

-- `ToString` of `FastoObject`, `FastoObjectArray` and `FastoObjectCommand`.
def Objects.toString (objects : Objects) (object : FastoObject) : Text :=
  if object.isCommand then [] else (objects.get (objects.value object)).convertToString lib delimiter

/-- `ConvertToString` of the objects of a row, each with its children. -/
def convertToString (toString : FastoObject → Text) : Rose FastoObject → Text
  | .nil => []
  | .node object childrens rest =>
    let str := toString object
    (if str = [] then [] else str ++ delimiter) ++ convertToString toString childrens ++ convertToString toString rest

def performAll (objects : Objects) (ops : List Op) : Objects :=
  ops.foldl (fun objects op => (op.perform objects).1) objects

-- The objects of a result, each below its parent.
def childrens (out : FastoObject) (ops : List Op) : Rose FastoObject :=
  (added ops).foldl (Rose.grow FastoObject.parent) (.leaf out)

/-- The text of a result object that has no children before a reply is made into it. -/
def replyText (objects : Objects) (out : FastoObject) (number : Nat) (reply : Redis.Reply) : Text :=
  let ops := cliFormatReplyRaw out number reply
  convertToString delimiter ((performAll objects ops).toString lib delimiter) (childrens out ops)

/-! ### What a reply is made into -/

-- The value of a reply that is no array, as an element of an array holds it.
def scalar? : Redis.Reply → Option ObjectValue
  | .nil => some (.value .null)
  | .error text => some (.error text)
  | .status text | .string text => some (.value (.string text))
  | .integer value => some (.value (.integer value))
  | .array _ => none

def closed (text : Text) : Text := if text = [] then [] else text ++ delimiter

mutual

-- The text of the object that an element of an array is made into, if it is one.
def nestedText : Redis.Reply → Text
  | .array elements =>
    closed delimiter ((ObjectValue.array (elements.filterMap scalar?)).convertToString lib delimiter) ++
      nestedTexts elements
  | _ => []

def nestedTexts : List Redis.Reply → Text
  | [] => []
  | element :: elements => nestedText element ++ nestedTexts elements

end

end Rendering

namespace Objects

-- The value of an object is the one that it was made with.
def Holds (objects : Objects) (object : FastoObject) (value : ObjectValue) : Prop :=
  objects.replaced object = none ∧ objects.content (.own object) = value

variable {objects : Objects} {object child array : FastoObject} {value : ObjectValue}

theorem Holds.get (held : objects.Holds object value) : objects.get (objects.value object) = value := by
  rw [Objects.value, held.1]
  exact held.2

theorem holds_addChildren : (objects.addChildren child value).1.Holds child value := by
  rw [Holds, addChildren_replaced, addChildren_content]
  simp

theorem Holds.addChildren (held : objects.Holds object value) (other : object ≠ child) (initial : ObjectValue) :
    (objects.addChildren child initial).1.Holds object value := by
  rw [Holds, addChildren_replaced, addChildren_content, Function.update_of_ne other,
    Function.update_of_ne (by simpa using other)]
  exact held

theorem Holds.append (held : objects.Holds object value) (other : array ≠ object) (element : ObjectValue) :
    (objects.append array element).1.Holds object value := by
  refine ⟨held.1, ?_⟩
  rw [← held.2]
  exact Function.update_of_ne (own_ne_value objects other) _ _

theorem Holds.append_self (held : objects.Holds array value) (element : ObjectValue) :
    (objects.append array element).1.Holds array (value.append element) := by
  refine ⟨held.1, ?_⟩
  have own : objects.value array = .own array := by rw [Objects.value, held.1]
  simp [Objects.append, own, held.2]

end Objects

section Filling

variable (lib : ValueText) (delimiter : Text)

theorem convertToString_append (toString : FastoObject → Text) (first last : Rose FastoObject) :
    convertToString delimiter toString (first.append last) =
      convertToString delimiter toString first ++ convertToString delimiter toString last := by
  induction first with
  | nil => rfl
  | node object childrens rest _ ih => simp only [Rose.append, convertToString, ih, List.append_assoc]

theorem convertToString_congr (toString other : FastoObject → Text) (tree : Rose FastoObject)
    (same : ∀ object ∈ tree.values, toString object = other object) :
    convertToString delimiter toString tree = convertToString delimiter other tree := by
  induction tree with
  | nil => rfl
  | node object childrens rest below ih =>
      simp only [Rose.values, List.forall_mem_cons, List.forall_mem_append] at same
      rw [convertToString, convertToString, same.1, below same.2.1, ih same.2.2]

theorem performAll_append (objects : Objects) (first last : List Op) :
    performAll objects (first ++ last) = performAll (performAll objects first) last := List.foldl_append

/-- Operations append values to an array, make a row of objects with a text, and leave other objects alone. -/
structure Fills (array : FastoObject) (objects : Objects) (ops : List Op) (values : List ObjectValue)
    (tree : Rose FastoObject) (text : Text) : Prop where
  appends : ∀ before, objects.Holds array (.array before) →
    (performAll objects ops).Holds array (.array (before ++ values))
  others : ∀ object value, object ≠ array → object ∉ tree.values → objects.Holds object value →
    (performAll objects ops).Holds object value
  made : ∀ object ∈ tree.values, ∃ value, (performAll objects ops).Holds object value
  text_eq : convertToString delimiter ((performAll objects ops).toString lib delimiter) tree = text

namespace Fills

variable {lib delimiter} {array child : FastoObject} {objects : Objects} {first last ops : List Op}
  {values moreValues : List ObjectValue} {tree more : Rose FastoObject} {text moreText : Text}

theorem nil : Fills lib delimiter array objects [] [] .nil [] where
  appends before held := by
    rw [List.append_nil]
    exact held
  others _ _ _ _ held := held
  made _ member := by simp [Rose.values] at member
  text_eq := rfl

theorem append (fills : Fills lib delimiter array objects first values tree text)
    (next : Fills lib delimiter array (performAll objects first) last moreValues more moreText)
    (apart : ∀ object ∈ tree.values, object ≠ array ∧ object ∉ more.values) :
    Fills lib delimiter array objects (first ++ last) (values ++ moreValues) (tree.append more) (text ++ moreText) where
  appends before held := by
    rw [performAll_append, ← List.append_assoc]
    exact next.appends _ (fills.appends before held)
  others object value other outside held := by
    rw [Rose.values_append, List.mem_append, not_or] at outside
    rw [performAll_append]
    exact next.others object value other outside.2 (fills.others object value other outside.1 held)
  made object member := by
    rw [performAll_append]
    rw [Rose.values_append, List.mem_append] at member
    rcases member with early | late
    · obtain ⟨value, held⟩ := fills.made object early
      exact ⟨value, next.others object value (apart object early).1 (apart object early).2 held⟩
    · exact next.made object late
  text_eq := by
    -- What is made later does not change the texts of the objects made before.
    have kept :
        convertToString delimiter ((performAll objects (first ++ last)).toString lib delimiter) tree = text := by
      rw [← fills.text_eq]
      apply convertToString_congr
      intro object member
      obtain ⟨value, held⟩ := fills.made object member
      have later := next.others object value (apart object member).1 (apart object member).2 held
      rw [performAll_append, Objects.toString, Objects.toString, held.get, later.get]
    rw [convertToString_append, kept, performAll_append, next.text_eq]

-- An array that is a child is filled after it was added.
theorem node (fills : Fills lib delimiter child (objects.addChildren child (.array [])).1 ops values tree text)
    (plain : child.isCommand = false) (other : array ≠ child) (outside : array ∉ tree.values)
    (fresh : child ∉ tree.values) :
    Fills lib delimiter array objects (.addChildren child (.array []) :: ops) [] (.node child tree .nil)
      (closed delimiter ((ObjectValue.array values).convertToString lib delimiter) ++ text) where
  appends before held := by
    rw [List.append_nil]
    exact fills.others _ _ other outside (held.addChildren other _)
  others object value _ absent held := by
    simp only [Rose.values, List.append_nil, List.mem_cons, not_or] at absent
    exact fills.others object value absent.1 absent.2 (held.addChildren absent.1 _)
  made object member := by
    simp only [Rose.values, List.append_nil, List.mem_cons] at member
    rcases member with rfl | inside
    · exact ⟨_, fills.appends [] Objects.holds_addChildren⟩
    · exact fills.made object inside
  text_eq := by
    let after := performAll (objects.addChildren child (.array [])).1 ops
    have filled := fills.appends [] Objects.holds_addChildren
    have str : after.toString lib delimiter child = (ObjectValue.array values).convertToString lib delimiter := by
      rw [Objects.toString, plain, filled.get]
      rfl
    show convertToString delimiter (after.toString lib delimiter) _ = _
    rw [convertToString, fills.text_eq, str, convertToString, List.append_nil, closed]

theorem appended (value : ObjectValue) :
    Fills lib delimiter array objects [.append array value] [value] .nil [] where
  appends _ held := held.append_self value
  others object _ other _ held := held.append other.symm value
  made _ member := by simp [Rose.values] at member
  text_eq := rfl

end Fills

mutual

theorem fills_array (objects : Objects) (owner : FastoObject) (n number : Nat) (before : n < number)
    (reply : Redis.Reply) :
    Fills lib delimiter (.array owner n) objects (cliFormatReplyRawArray (.array owner n) number reply)
      (scalar? reply).toList (nestedArray (.array owner n) number reply) (nestedText lib delimiter reply) := by
  cases reply with
  | array elements =>
      have makes := makes_arrays (.array owner n) number (number + 1) elements
      have later (object : FastoObject)
          (member : object ∈ (nestedArrays (.array (.array owner n) number) (number + 1) elements).values) :
          number + 1 ≤ object.number := by
        rw [← makes.added_eq] at member
        exact (makes.orderly.bounds object member).1
      refine (fills_arrays _ (.array owner n) number (number + 1) number.lt_succ_self elements).node rfl ?_ ?_ ?_
      · intro same
        have numbers : n = number := congrArg FastoObject.number same
        omega
      · intro member
        have bound : number + 1 ≤ n := later _ member
        omega
      · intro member
        have bound : number + 1 ≤ number := later _ member
        omega
  | _ => exact Fills.appended _

theorem fills_arrays (objects : Objects) (owner : FastoObject) (n number : Nat) (before : n < number)
    (elements : List Redis.Reply) :
    Fills lib delimiter (.array owner n) objects (formatElements (.array owner n) number elements)
      (elements.filterMap scalar?) (nestedArrays (.array owner n) number elements)
      (nestedTexts lib delimiter elements) := by
  cases elements with
  | nil => exact Fills.nil
  | cons element elements =>
      have makes := makes_array owner n number element
      have makesRest := makes_arrays owner n
        (number + (added (cliFormatReplyRawArray (.array owner n) number element)).length) elements
      have values :
          (element :: elements).filterMap scalar? = (scalar? element).toList ++ elements.filterMap scalar? := by
        cases element <;> rfl
      rw [formatElements, nestedArrays, nestedTexts, values, ← makes.added_eq]
      refine (fills_array objects owner n number before element).append
        (fills_arrays _ owner n _ (Nat.lt_add_right _ before) elements) ?_
      intro object member
      rw [← makes.added_eq] at member
      have bounds := makes.orderly.bounds object member
      constructor
      · rintro rfl
        have bound : number ≤ n := bounds.1
        omega
      · rw [← makesRest.added_eq]
        intro again
        have late := (makesRest.orderly.bounds object again).1
        omega

end

mutual

theorem anchored_array (ar : FastoObject) (number : Nat) (reply : Redis.Reply) :
    (nestedArray ar number reply).Anchored FastoObject.parent ar := by
  cases reply with
  | array elements => exact ⟨rfl, anchored_arrays _ (number + 1) elements, trivial⟩
  | _ => trivial

theorem anchored_arrays (ar : FastoObject) (number : Nat) (elements : List Redis.Reply) :
    (nestedArrays ar number elements).Anchored FastoObject.parent ar := by
  cases elements with
  | nil => trivial
  | cons element elements =>
      rw [nestedArrays, Rose.anchored_append]
      exact ⟨anchored_array ar number element, anchored_arrays ar _ elements⟩

end

variable (objects : Objects) (owner : FastoObject) (n number : Nat) (input : Text) (reply : Redis.Reply)

theorem childrens_eq : childrens (.command owner n input) (cliFormatReplyRaw (.command owner n input) number reply) =
    .node (.command owner n input) (Output.result (.command owner n input) number (.reply reply)) .nil := by
  have makes := makes_output owner n number input (.reply reply)
  have plain (object : FastoObject)
      (member : object ∈ (Output.result (.command owner n input) number (.reply reply)).values) :
      object ≠ .command owner n input := by
    rintro rfl
    cases not_command_of_anchored makes.anchored member
  have anchored : (Output.result (.command owner n input) number (.reply reply)).Anchored FastoObject.parent
      (.command owner n input) := by
    cases reply with
    | array elements => exact ⟨rfl, anchored_arrays _ (number + 1) elements, trivial⟩
    | error text => trivial
    | _ => exact ⟨rfl, trivial, trivial⟩
  have same : added (cliFormatReplyRaw (.command owner n input) number reply) =
      (Output.result (.command owner n input) number (.reply reply)).values := makes.added_eq
  rw [childrens, same, Rose.foldl_grow anchored]
  · simp [Rose.leaf, Rose.graft, Rose.append]
  · rw [← same]
    exact makes.orderly.nodup
  · simpa using plain
  · exact fun member => plain _ member rfl

/-- The text of a result object: that of the one object that the reply is made into. -/
theorem replyText_eq (accepted : ∀ text, reply ≠ .error text) :
    replyText lib delimiter objects (.command owner n input) number reply =
      match scalar? reply with
      | some value => closed delimiter (value.convertToString lib delimiter)
      | none => nestedText lib delimiter reply := by
  have out : ∀ objects : Objects, objects.toString lib delimiter (.command owner n input) = [] := fun _ => rfl
  have plain (value : ObjectValue) :
      let child := .plain (.command owner n input) number
      convertToString delimiter ((performAll objects [.addChildren child value]).toString lib delimiter) (.leaf child) =
        closed delimiter (value.convertToString lib delimiter) := by
    intro child
    have held : (performAll objects [.addChildren child value]).Holds child value := Objects.holds_addChildren
    have str : (performAll objects [.addChildren child value]).toString lib delimiter child =
        value.convertToString lib delimiter := by
      rw [Objects.toString, held.get]
      rfl
    rw [Rose.leaf, convertToString, str, convertToString, List.append_nil, List.append_nil, closed]
  rw [replyText, childrens_eq]
  simp only [convertToString, out, if_true, List.nil_append, List.append_nil]
  cases reply with
  | error text => exact absurd rfl (accepted text)
  | array elements =>
      have makes := makes_arrays (.command owner n input) number (number + 1) elements
      have fresh : FastoObject.array (.command owner n input) number ∉
          (nestedArrays (.array (.command owner n input) number) (number + 1) elements).values := by
        rw [← makes.added_eq]
        intro member
        have bound : number + 1 ≤ number := (makes.orderly.bounds _ member).1
        omega
      have outside : FastoObject.command owner n input ∉
          (nestedArrays (.array (.command owner n input) number) (number + 1) elements).values := by
        intro member
        cases not_command_of_anchored makes.anchored member
      exact ((fills_arrays lib delimiter _ _ number (number + 1) number.lt_succ_self elements).node rfl (by simp)
        outside fresh).text_eq
  | _ => exact plain _

end Filling

end FastoNoSQL.OutputTree
