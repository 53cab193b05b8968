import FastoNoSQL.Driver.Rendering

set_option autoImplicit false

/-!
# The leaves of a reply

The text of a result against the leaves of the reply it was made of. The
scalars of an array are printed before the arrays in it.
-/

namespace FastoNoSQL.OutputTree

open Bytes

inductive Shape where
  | scalar
  | array (elements : List Shape)

mutual

def shape : Redis.Reply → Shape
  | .array elements => .array (shapes elements)
  | _ => .scalar

def shapes : List Redis.Reply → List Shape
  | [] => []
  | element :: elements => shape element :: shapes elements

end

mutual

/-- In every array the scalars stand before the arrays, and there is one unless the array is empty. -/
def Shape.Ordered : Shape → Prop
  | scalar => True
  | array elements => (elements ≠ [] → scalar ∈ elements) ∧ AllOrdered elements

def Shape.AllOrdered : List Shape → Prop
  | [] => True
  | element :: elements => element.Ordered ∧ (element ≠ scalar → scalar ∉ elements) ∧ AllOrdered elements

end

def emptyList : Text := ascii "(empty list)"

-- The texts one after the other, each followed by the delimiter.
def listed (delimiter : Text) (texts : List Text) : Text := texts.flatMap fun text => text ++ delimiter

/-- The text has these texts in this order, each followed by the delimiter, or with delimiters between them. -/
def Lists (delimiter : Text) (texts : List Text) (text : Text) : Prop :=
  text = listed delimiter texts ∨ text = delimiter.intercalate texts

section Leaves

variable (lib : ValueText) (delimiter : Text)

mutual

-- The texts of the leaves from left to right, an empty array being a leaf.
def leafTexts : Redis.Reply → List Text
  | .array [] => [emptyList]
  | .array (element :: elements) => leafTexts element ++ leafTextsOf elements
  | .nil => [lib.toString (.value .null)]
  | .error text => [lib.toString (.error text)]
  | .status text | .string text => [lib.toString (.value (.string text))]
  | .integer value => [lib.toString (.value (.integer value))]

def leafTextsOf : List Redis.Reply → List Text
  | [] => []
  | element :: elements => leafTexts element ++ leafTextsOf elements

end

def scalarTexts (elements : List Redis.Reply) : List Text := (elements.filterMap scalar?).map lib.toString

theorem leafTexts_scalar {reply : Redis.Reply} {value : ObjectValue} (scalar : scalar? reply = some value) :
    leafTexts lib reply = [lib.toString value] ∧ value.convertToString lib delimiter = lib.toString value := by
  cases reply with
  | array elements => simp [scalar?] at scalar
  | _ =>
      obtain rfl := Option.some.inj scalar
      exact ⟨rfl, rfl⟩

theorem leafTexts_array {elements : List Redis.Reply} (more : elements ≠ []) :
    leafTexts lib (.array elements) = leafTextsOf lib elements := by
  obtain ⟨element, elements, rfl⟩ := List.exists_cons_of_ne_nil more
  rfl

@[simp] theorem listed_nil : listed delimiter [] = [] := rfl

@[simp] theorem listed_cons (text : Text) (texts : List Text) :
    listed delimiter (text :: texts) = text ++ delimiter ++ listed delimiter texts := List.flatMap_cons

@[simp] theorem listed_append (first last : List Text) :
    listed delimiter (first ++ last) = listed delimiter first ++ listed delimiter last := List.flatMap_append

theorem listed_eq_intercalate {texts : List Text} (more : texts ≠ []) :
    listed delimiter texts = delimiter.intercalate texts ++ delimiter := by
  obtain ⟨init, last, rfl⟩ := (List.eq_nil_or_concat' texts).resolve_left more
  rw [intercalate_concat, listed_append]
  simp [listed]

theorem nestedText_array (elements : List Redis.Reply) (nonempty : ∀ text ∈ scalarTexts lib elements, text ≠ []) :
    nestedText lib delimiter (.array elements) =
      (if scalarTexts lib elements = [] then emptyList ++ delimiter else listed delimiter (scalarTexts lib elements)) ++
        nestedTexts lib delimiter elements := by
  rw [nestedText, ObjectValue.convertToString, ObjectValue.collection?]
  dsimp only
  rw [← scalarTexts]
  congr 1
  by_cases none : scalarTexts lib elements = []
  · simp [none, closed, Redis.Collection.convertToString, Redis.Collection.items, Redis.Collection.emptyText, emptyList,
      ascii]
  · have shown : (Redis.Collection.array (scalarTexts lib elements)).shown = scalarTexts lib elements := by
      apply List.filter_eq_self.mpr
      simpa using nonempty
    have tight : (Redis.Collection.array (scalarTexts lib elements)).Tight delimiter :=
      Or.inr (Or.inr fun last member => nonempty last (List.mem_of_mem_getLast? member))
    rw [if_neg none, Redis.Collection.convertToString_of_tight delimiter (.array (scalarTexts lib elements)) none tight,
      shown, closed, if_neg, listed_eq_intercalate delimiter none]
    obtain ⟨init, last, shape⟩ := (List.eq_nil_or_concat' (scalarTexts lib elements)).resolve_left none
    have kept : last ≠ [] := nonempty last (by simp [shape])
    simp [shape, intercalate_concat, kept]

theorem scalarTexts_cons (element : Redis.Reply) (elements : List Redis.Reply) :
    scalarTexts lib (element :: elements) =
      ((scalar? element).map lib.toString).toList ++ scalarTexts lib elements := by
  cases element <;> rfl

theorem scalarTexts_subset (elements : List Redis.Reply) : scalarTexts lib elements ⊆ leafTextsOf lib elements := by
  intro text member
  induction elements with
  | nil => simp [scalarTexts] at member
  | cons element elements ih =>
      rw [scalarTexts_cons, List.mem_append] at member
      rw [leafTextsOf, List.mem_append]
      rcases member with here | later
      · obtain ⟨value, scalar, rfl⟩ : ∃ value, scalar? element = some value ∧ lib.toString value = text := by
          simpa using here
        exact Or.inl (by simp [(leafTexts_scalar lib [] scalar).1])
      · exact Or.inr (ih later)

theorem shape_eq_scalar_iff (reply : Redis.Reply) : shape reply = .scalar ↔ (scalar? reply).isSome := by
  cases reply <;> simp [shape, scalar?]

theorem scalarTexts_eq_nil_iff (elements : List Redis.Reply) :
    scalarTexts lib elements = [] ↔ Shape.scalar ∉ shapes elements := by
  induction elements with
  | nil => simp [scalarTexts, shapes]
  | cons element elements ih =>
      rw [scalarTexts_cons, List.append_eq_nil_iff, ih, shapes, List.mem_cons, not_or, eq_comm (a := Shape.scalar),
        shape_eq_scalar_iff]
      cases scalar? element <;> simp

/-! ## Ordered replies -/

mutual

theorem nestedText_ordered (reply : Redis.Reply) (array : scalar? reply = none)
    (nonempty : ∀ text ∈ leafTexts lib reply, text ≠ []) (ordered : (shape reply).Ordered) :
    nestedText lib delimiter reply = listed delimiter (leafTexts lib reply) := by
  cases reply with
  | array elements =>
      obtain ⟨first, all⟩ := ordered
      cases elements with
      | nil => simp [nestedText_array, scalarTexts, nestedTexts, leafTexts]
      | cons element rest =>
          have some : scalarTexts lib (element :: rest) ≠ [] := by
            rw [ne_eq, scalarTexts_eq_nil_iff, not_not]
            exact first (by simp [shapes])
          rw [leafTexts_array lib (List.cons_ne_nil element rest)] at nonempty ⊢
          rw [nestedText_array lib delimiter _ fun text member => nonempty text (scalarTexts_subset lib _ member),
            if_neg some]
          exact nestedTexts_ordered (element :: rest) nonempty all
  | _ => cases array

theorem nestedTexts_ordered (elements : List Redis.Reply) (nonempty : ∀ text ∈ leafTextsOf lib elements, text ≠ [])
    (ordered : Shape.AllOrdered (shapes elements)) :
    listed delimiter (scalarTexts lib elements) ++ nestedTexts lib delimiter elements =
      listed delimiter (leafTextsOf lib elements) := by
  cases elements with
  | nil => rfl
  | cons element rest =>
      rw [leafTextsOf, List.forall_mem_append] at nonempty
      obtain ⟨here, apart, later⟩ := ordered
      have tail := nestedTexts_ordered rest nonempty.2 later
      rw [scalarTexts_cons, nestedTexts, leafTextsOf, listed_append, listed_append, ← tail]
      cases scalar : scalar? element with
      | some value =>
          have none : nestedText lib delimiter element = [] := by
            cases element with
            | array elements => cases scalar
            | _ => rfl
          simp [none, (leafTexts_scalar lib delimiter scalar).1]
      | none =>
          have array : shape element ≠ .scalar := by simp [shape_eq_scalar_iff, scalar]
          have none : scalarTexts lib rest = [] := (scalarTexts_eq_nil_iff lib rest).mpr (apart array)
          rw [nestedText_ordered element scalar nonempty.1 here]
          simp [none]

end

/-! ## Replies in another order -/

mutual

-- Nothing is lost: the text is at least as long as that of the leaves.
theorem length_nestedText (reply : Redis.Reply) (array : scalar? reply = none)
    (nonempty : ∀ text ∈ leafTexts lib reply, text ≠ []) :
    (listed delimiter (leafTexts lib reply)).length ≤ (nestedText lib delimiter reply).length := by
  cases reply with
  | array elements =>
      cases elements with
      | nil => simp [nestedText_array, scalarTexts, nestedTexts, leafTexts]
      | cons element rest =>
          rw [leafTexts_array lib (List.cons_ne_nil element rest)] at nonempty ⊢
          have bound := length_nestedTexts (element :: rest) nonempty
          rw [nestedText_array lib delimiter _ fun text member => nonempty text (scalarTexts_subset lib _ member),
            List.length_append]
          split
          next none =>
            simp only [none, listed_nil, List.length_nil] at bound
            omega
          next => exact bound
  | _ => cases array

theorem length_nestedTexts (elements : List Redis.Reply) (nonempty : ∀ text ∈ leafTextsOf lib elements, text ≠ []) :
    (listed delimiter (leafTextsOf lib elements)).length ≤
      (listed delimiter (scalarTexts lib elements)).length + (nestedTexts lib delimiter elements).length := by
  cases elements with
  | nil => exact Nat.zero_le _
  | cons element rest =>
      rw [leafTextsOf, List.forall_mem_append] at nonempty
      have tail := length_nestedTexts rest nonempty.2
      rw [scalarTexts_cons, nestedTexts, leafTextsOf, listed_append, listed_append]
      simp only [List.length_append]
      cases scalar : scalar? element with
      | some value =>
          simp only [(leafTexts_scalar lib delimiter scalar).1, Option.map_some,
            Option.toList_some]
          omega
      | none =>
          have head := length_nestedText element scalar nonempty.1
          simp only [Option.map_none, Option.toList_none, listed_nil, List.length_nil]
          omega

end

mutual

-- A reply of a shape with one text for all its scalars.
def fill (text : Text) : Shape → Redis.Reply
  | .scalar => .string text
  | .array elements => .array (fills text elements)

def fills (text : Text) : List Shape → List Redis.Reply
  | [] => []
  | element :: elements => fill text element :: fills text elements

end

mutual

theorem shape_fill (text : Text) (form : Shape) : shape (fill text form) = form := by
  cases form with
  | scalar => rfl
  | array elements => rw [fill, shape, shapes_fills text elements]

theorem shapes_fills (text : Text) (forms : List Shape) : shapes (fills text forms) = forms := by
  cases forms with
  | nil => rfl
  | cons form forms => rw [fills, shapes, shape_fill text form, shapes_fills text forms]

end

mutual

theorem leafTexts_fill (text : Text) (form : Shape) :
    leafTexts lib (fill text form) ≠ [] ∧ ∀ leaf ∈ leafTexts lib (fill text form), leaf = text ∨ leaf = emptyList := by
  cases form with
  | scalar => simp [fill, leafTexts, lib.string]
  | array elements =>
      have all := leafTextsOf_fills text elements
      cases elements with
      | nil => simp [fill, fills, leafTexts]
      | cons element rest =>
          have more : fills text (element :: rest) ≠ [] := List.cons_ne_nil _ _
          rw [fill, leafTexts_array lib more]
          refine ⟨?_, all⟩
          rw [fills, leafTextsOf]
          exact List.append_ne_nil_of_left_ne_nil (leafTexts_fill text element).1 _

theorem leafTextsOf_fills (text : Text) (forms : List Shape) :
    ∀ leaf ∈ leafTextsOf lib (fills text forms), leaf = text ∨ leaf = emptyList := by
  cases forms with
  | nil => simp [fills, leafTextsOf]
  | cons form forms =>
      rw [fills, leafTextsOf, List.forall_mem_append]
      exact ⟨(leafTexts_fill text form).2, leafTextsOf_fills text forms⟩

end

theorem nonempty_fills {text : Text} (more : text ≠ []) (forms : List Shape) :
    ∀ leaf ∈ leafTextsOf lib (fills text forms), leaf ≠ [] := by
  intro leaf member
  rcases leafTextsOf_fills lib text forms leaf member with rfl | rfl
  · exact more
  · decide

theorem scalarTexts_fills (text : Text) {forms : List Shape} (scalar : Shape.scalar ∈ forms) :
    ∃ rest, scalarTexts lib (fills text forms) = text :: rest := by
  induction forms with
  | nil => simp at scalar
  | cons form forms ih =>
      rw [fills, scalarTexts_cons]
      cases form with
      | scalar => exact ⟨_, by simp [fill, scalar?, lib.string]; rfl⟩
      | array elements =>
          obtain ⟨rest, later⟩ := ih (by simpa using scalar)
          exact ⟨rest, by simp [fill, scalar?, later]⟩

-- With one text in an array and another in the scalars after it, the text begins with the wrong one.
theorem scalar_not_after_array (elements : List Shape) (forms : List Shape)
    (same : listed delimiter (scalarTexts lib (fill (ascii "y") (.array elements) :: fills (ascii "x") forms)) ++
        nestedTexts lib delimiter (fill (ascii "y") (.array elements) :: fills (ascii "x") forms) =
      listed delimiter (leafTextsOf lib (fill (ascii "y") (.array elements) :: fills (ascii "x") forms))) :
    Shape.scalar ∉ forms := by
  intro scalar
  obtain ⟨rest, texts⟩ := scalarTexts_fills lib (ascii "x") scalar
  obtain ⟨more, leaves⟩ := leafTexts_fill lib (ascii "y") (.array elements)
  obtain ⟨first, others, shape⟩ := List.exists_cons_of_ne_nil more
  have heads := congrArg List.head? same
  rw [leafTextsOf, scalarTexts_cons, texts, shape, fill, scalar?, Option.map_none, Option.toList_none, List.nil_append,
    List.cons_append, listed_cons, listed_cons] at heads
  rcases leaves first (by simp [shape]) with rfl | rfl
  · have bytes : some (byte 'x') = some (byte 'y') := heads
    revert bytes
    decide
  · have bytes : some (byte 'x') = some (byte '(') := heads
    revert bytes
    decide

mutual

theorem ordered_of_text (form : Shape)
    (all : ∀ reply, shape reply = form → scalar? reply = none → (∀ text ∈ leafTexts lib reply, text ≠ []) →
      nestedText lib delimiter reply = listed delimiter (leafTexts lib reply)) :
    form.Ordered := by
  cases form with
  | scalar => trivial
  | array forms =>
      -- In an array that is not empty there is a scalar, or the text of the empty list would be too much.
      have unmarked (elements : List Redis.Reply) (formed : shapes elements = forms) (more : elements ≠ [])
          (nonempty : ∀ text ∈ leafTextsOf lib elements, text ≠ []) :
          scalarTexts lib elements ≠ [] ∧
            listed delimiter (scalarTexts lib elements) ++ nestedTexts lib delimiter elements =
              listed delimiter (leafTextsOf lib elements) := by
        have whole := all (.array elements) (by rw [shape, formed]) rfl (by rwa [leafTexts_array lib more])
        rw [leafTexts_array lib more, nestedText_array lib delimiter _ fun text member =>
          nonempty text (scalarTexts_subset lib _ member)] at whole
        split at whole
        next none =>
          have bound := length_nestedTexts lib delimiter elements nonempty
          have lengths := congrArg List.length whole
          have marker : emptyList.length = 12 := rfl
          simp only [none, listed_nil, List.length_nil, List.length_append, marker] at bound lengths
          omega
        next some => exact ⟨some, whole⟩
      have text : ascii "x" ≠ [] := by decide
      cases forms with
      | nil => exact ⟨by simp, trivial⟩
      | cons form forms =>
          have more (elements : List Redis.Reply) (formed : shapes elements = form :: forms) : elements ≠ [] := by
            rintro rfl
            cases formed
          constructor
          · intro _
            have scalar := (unmarked _ (shapes_fills (ascii "x") (form :: forms)) (more _ (shapes_fills _ _))
              (nonempty_fills lib text _)).1
            rwa [ne_eq, scalarTexts_eq_nil_iff, not_not, shapes_fills] at scalar
          · apply allOrdered_of_text (form :: forms)
            intro elements formed nonempty
            exact (unmarked elements formed (more elements formed) nonempty).2

theorem allOrdered_of_text (forms : List Shape)
    (all : ∀ elements, shapes elements = forms → (∀ text ∈ leafTextsOf lib elements, text ≠ []) →
      listed delimiter (scalarTexts lib elements) ++ nestedTexts lib delimiter elements =
        listed delimiter (leafTextsOf lib elements)) :
    Shape.AllOrdered forms := by
  have text : ascii "x" ≠ [] := by decide
  cases forms with
  | nil => trivial
  | cons form forms =>
      cases form with
      | scalar =>
          refine ⟨trivial, fun array => absurd rfl array, allOrdered_of_text forms ?_⟩
          intro elements formed nonempty
          have whole := all (.string (ascii "x") :: elements) (by rw [shapes, formed]; rfl) (by
            simpa [leafTextsOf, leafTexts, lib.string, text] using nonempty)
          have alone : nestedText lib delimiter (.string (ascii "x")) = [] := rfl
          simpa [scalarTexts_cons, scalar?, nestedTexts, alone, leafTextsOf, leafTexts, List.append_assoc] using whole
      | array inner =>
          have apart : Shape.scalar ∉ forms := by
            apply scalar_not_after_array lib delimiter inner forms
            apply all
            · rw [shapes, shape_fill, shapes_fills]
            · rw [leafTextsOf, List.forall_mem_append]
              refine ⟨?_, nonempty_fills lib text forms⟩
              simpa [fills, leafTextsOf] using nonempty_fills lib (by decide) [.array inner]
          -- Neither part can be too long, since neither is too short.
          have parts (reply : Redis.Reply) (elements : List Redis.Reply) (formed : shape reply = .array inner)
              (formedRest : shapes elements = forms) (nonempty : ∀ text ∈ leafTexts lib reply, text ≠ [])
              (nonemptyRest : ∀ text ∈ leafTextsOf lib elements, text ≠ []) :
              nestedText lib delimiter reply = listed delimiter (leafTexts lib reply) ∧
                nestedTexts lib delimiter elements = listed delimiter (leafTextsOf lib elements) := by
            have whole := all (reply :: elements) (by rw [shapes, formed, formedRest])
              (by rw [leafTextsOf, List.forall_mem_append]; exact ⟨nonempty, nonemptyRest⟩)
            have array : scalar? reply = none := by
              rw [← Option.not_isSome_iff_eq_none, ← shape_eq_scalar_iff, formed]
              simp
            have none : scalarTexts lib elements = [] := by rwa [scalarTexts_eq_nil_iff, formedRest]
            rw [scalarTexts_cons, array, none, leafTextsOf, nestedTexts] at whole
            simp only [Option.map_none, Option.toList_none, List.nil_append, listed_nil, listed_append] at whole
            have lengths := congrArg List.length whole
            have head := length_nestedText lib delimiter reply array nonempty
            have tail := length_nestedTexts lib delimiter elements nonemptyRest
            simp only [none, listed_nil, List.length_append, List.length_nil, Nat.zero_add] at lengths tail
            exact List.append_inj whole (by omega)
          refine ⟨ordered_of_text (.array inner) ?_, fun _ => apart, allOrdered_of_text forms ?_⟩
          · intro reply formed _ nonempty
            have others := nonempty_fills lib text forms
            exact (parts reply _ formed (shapes_fills _ _) nonempty others).1
          · intro elements formed nonempty
            have filled : ∀ text ∈ leafTexts lib (fill (ascii "x") (.array inner)), text ≠ [] := by
              simpa [fills, leafTextsOf] using nonempty_fills lib text [.array inner]
            rw [(scalarTexts_eq_nil_iff lib elements).mpr (by rwa [formed]), listed_nil, List.nil_append]
            exact (parts _ elements (shape_fill _ _) formed filled nonempty).2

end

variable (objects : Objects) (owner : FastoObject) (n number : Nat) (input : Text)

/-- The text of a result lists the leaves of the reply, whatever their texts, exactly when in every array the scalars
stand before the arrays and only an empty array is without a scalar. -/
theorem reply_leaves_listed_iff (form : Shape) :
    (∀ reply, shape reply = form → (∀ text, reply ≠ .error text) → (∀ text ∈ leafTexts lib reply, text ≠ []) →
      Lists delimiter (leafTexts lib reply) (replyText lib delimiter objects (.command owner n input) number reply)) ↔
      form.Ordered := by
  constructor
  · intro all
    apply ordered_of_text lib delimiter
    intro reply formed array nonempty
    have accepted (text : Text) : reply ≠ .error text := by
      rintro rfl
      cases array
    have lists := all reply formed accepted nonempty
    rw [replyText_eq lib delimiter objects owner n number input reply accepted, array] at lists
    rcases lists with same | between
    · exact same
    · -- The text is no shorter than with a delimiter after each leaf.
      have bound := length_nestedText lib delimiter reply array nonempty
      by_cases none : leafTexts lib reply = []
      · simpa [none] using between
      · have longer := listed_eq_intercalate delimiter none
        have lengths := congrArg List.length longer
        have same : (nestedText lib delimiter reply).length = (delimiter.intercalate (leafTexts lib reply)).length :=
          congrArg List.length between
        rw [List.length_append] at lengths
        have empty : delimiter = [] := List.eq_nil_of_length_eq_zero (by omega)
        have shown : nestedText lib delimiter reply = delimiter.intercalate (leafTexts lib reply) := between
        rw [shown, longer, empty, List.append_nil]
  · intro ordered reply formed accepted nonempty
    left
    rw [replyText_eq lib delimiter objects owner n number input reply accepted]
    cases scalar : scalar? reply with
    | some value =>
        obtain ⟨texts, own⟩ := leafTexts_scalar lib delimiter scalar
        have kept : lib.toString value ≠ [] := nonempty _ (by simp [texts])
        simp [own, texts, closed, kept]
    | none =>
        rw [← formed] at ordered
        exact nestedText_ordered lib delimiter reply scalar nonempty ordered

end Leaves

/-- Values that print themselves as redis does. -/
def ValueText.std : ValueText where
  toString
    | .value (.string text) | .error text => text
    | .value (.integer value) => intText value
    | _ => ascii "(nil)"
  string _ := rfl

-- `[["a"], "b"]`
theorem reply_leaves_not_listed :
    ¬∀ (lib : ValueText) (delimiter : Text) (objects : Objects) (out : FastoObject) (number : Nat)
      (reply : Redis.Reply),
      out.isCommand = true → (∀ text, reply ≠ .error text) → (∀ text ∈ leafTexts lib reply, text ≠ []) →
      Lists delimiter (leafTexts lib reply) (replyText lib delimiter objects out number reply) := by
  intro all
  have lists := all .std (ascii "\n") {} (.command (.root 0) 1 (ascii "GET a")) 2
    (.array [.array [.string (ascii "a")], .string (ascii "b")]) rfl (by simp) (by decide)
  have text : replyText .std (ascii "\n") {} (.command (.root 0) 1 (ascii "GET a")) 2
      (.array [.array [.string (ascii "a")], .string (ascii "b")]) = ascii "b\na\n" := by
    rw [replyText_eq _ _ _ _ _ _ _ _ (by simp)]
    decide
  rw [text] at lists
  revert lists
  rw [Lists]
  decide

end FastoNoSQL.OutputTree
