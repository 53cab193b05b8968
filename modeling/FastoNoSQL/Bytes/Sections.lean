import Mathlib.Data.List.Infix
import Mathlib.Data.List.Nodup
import FastoNoSQL.Bytes.Text

set_option autoImplicit false

/-!
# Sections of labelled lines

A report of several sections: each starts with its header and lists its fields
as `label:value` lines. Headers and line ends are searched for as
`std::string::find` does, and a reader of a section sets what its table says
for each label.
-/

namespace Bytes

/-! ## Searching -/

section Search

variable {α : Type} [BEq α] [LawfulBEq α]

-- The first position at which the pattern occurs.
def find (pattern text : List α) : Option Nat := text.tails.findIdx? pattern.isPrefixOf

theorem find_eq_some_iff (pattern text : List α) (n : Nat) :
    find pattern text = some n ↔
      n ≤ text.length ∧ pattern <+: text.drop n ∧ ∀ m < n, ¬ pattern <+: text.drop m := by
  simp only [find, List.findIdx?_eq_some_iff_getElem, List.length_tails, List.getElem_tails,
    List.isPrefixOf_iff_prefix, Nat.lt_succ_iff, exists_prop]

theorem not_infix_take_of_find (pattern text : List α) (n : Nat) (nonempty : pattern ≠ [])
    (found : find pattern text = some n) : ¬ pattern <:+: text.take n := by
  obtain ⟨-, -, first⟩ := (find_eq_some_iff pattern text n).mp found
  rintro ⟨before, after, split⟩
  have longer : before.length < n := by
    have size := congrArg List.length split
    have some : 0 < pattern.length := List.length_pos_iff.mpr nonempty
    simp only [List.length_append, List.length_take] at size
    omega
  have whole : text = before ++ (pattern ++ (after ++ text.drop n)) := calc
    text = text.take n ++ text.drop n := (List.take_append_drop n text).symm
    _ = before ++ (pattern ++ (after ++ text.drop n)) := by rw [← split]; simp
  have occurs : pattern <+: text.drop before.length := by
    rw [whole, List.drop_left]
    exact List.prefix_append pattern _
  exact first before.length longer occurs

-- A text that does not hold the pattern and ends outside it is skipped.
theorem find_append (pattern before rest : List α) (absent : ¬ pattern <:+: before)
    (ending : ∀ c ∈ before.getLast?, c ∉ pattern) :
    find pattern (before ++ (pattern ++ rest)) = some before.length := by
  rw [find_eq_some_iff]
  refine ⟨by simp, by simp, ?_⟩
  intro m early occurs
  rw [List.drop_append_of_le_length (Nat.le_of_lt early)] at occurs
  rcases List.prefix_or_prefix_of_prefix occurs (List.prefix_append (before.drop m) _) with inside | across
  · exact absent (inside.isInfix.trans (List.drop_suffix m before).isInfix)
  · have nonempty : before.drop m ≠ [] := by simpa using early
    have last : before.getLast? = some ((before.drop m).getLast nonempty) := by
      rw [List.getLast_drop, List.getLast?_eq_some_getLast]
    exact ending _ last (across.mem (List.getLast_mem nonempty))

end Search

-- A pattern without the separator occurs on one side of it.
theorem infix_append_cons_iff {α : Type} (pattern left right : List α) (separator : α)
    (clean : separator ∉ pattern) (nonempty : pattern ≠ []) :
    pattern <:+: left ++ separator :: right ↔ pattern <:+: left ∨ pattern <:+: right := by
  rw [List.infix_append_iff, List.infix_cons_iff]
  constructor
  · rintro (inLeft | (atSeparator | inRight) | ⟨one, two, rfl, inLeft, atSeparator⟩)
    · exact Or.inl inLeft
    · obtain ⟨c, pattern, rfl⟩ := List.exists_cons_of_ne_nil nonempty
      obtain ⟨rfl, -⟩ := List.cons_prefix_cons.mp atSeparator
      simp at clean
    · exact Or.inr inRight
    · cases two with
      | nil => exact Or.inl (by simpa using inLeft.isInfix)
      | cons c two =>
          obtain ⟨rfl, -⟩ := List.cons_prefix_cons.mp atSeparator
          simp at clean
  · rintro (inLeft | inRight)
    · exact Or.inl inLeft
    · exact Or.inr (Or.inl (Or.inr inRight))

/-! ## Lines -/

def crlf : Text := ascii "\r\n"

def OneLine (text : Text) : Prop := (13 : UInt8) ∉ text ∧ (10 : UInt8) ∉ text

instance (text : Text) : Decidable (OneLine text) := inferInstanceAs (Decidable (_ ∧ _))

theorem oneLine_append (left right : Text) : OneLine (left ++ right) ↔ OneLine left ∧ OneLine right := by
  simp only [OneLine, List.mem_append, not_or]
  tauto

def closedLines : Nat → Text → List Text
  | 0, _ => []
  | fuel + 1, text =>
    match find crlf text with
    | some n => text.take n :: closedLines fuel (text.drop (n + 2))
    | none => []

-- The lines of a text that a line end closes; what follows the last one is dropped.
def lines (text : Text) : List Text := closedLines text.length text

theorem closedLines_congr (fuel other : Nat) (text : Text) (enough : text.length ≤ fuel)
    (otherEnough : text.length ≤ other) : closedLines fuel text = closedLines other text := by
  have empty : ∀ fuel, closedLines fuel [] = [] := by
    intro fuel
    cases fuel <;> rfl
  induction fuel generalizing other text with
  | zero =>
      obtain rfl := List.length_eq_zero_iff.mp (Nat.le_zero.mp enough)
      rw [empty, empty]
  | succ fuel ih =>
      cases other with
      | zero =>
          obtain rfl := List.length_eq_zero_iff.mp (Nat.le_zero.mp otherEnough)
          rw [empty, empty]
      | succ other =>
          simp only [closedLines]
          cases find crlf text with
          | none => rfl
          | some n =>
              have shorter : (text.drop (n + 2)).length ≤ fuel ∧ (text.drop (n + 2)).length ≤ other := by
                simp only [List.length_drop]
                omega
              exact congrArg (text.take n :: ·) (ih other _ shorter.1 shorter.2)

theorem lines_eq (text : Text) (n : Nat) (found : find crlf text = some n) :
    lines text = text.take n :: lines (text.drop (n + 2)) := by
  cases size : text.length with
  | zero =>
      obtain rfl := List.length_eq_zero_iff.mp size
      have absent : find crlf [] = none := rfl
      rw [absent] at found
      cases found
  | succ fuel =>
      have shorter : (text.drop (n + 2)).length ≤ fuel := by
        simp only [List.length_drop]
        omega
      rw [lines, size, closedLines, found]
      exact congrArg (text.take n :: ·) (closedLines_congr fuel _ _ shorter le_rfl)

theorem lines_line (line rest : Text) (clean : OneLine line) : lines (line ++ (crlf ++ rest)) = line :: lines rest := by
  have absent : ¬ crlf <:+: line := fun inside => clean.1 (inside.mem (by decide))
  have ending : ∀ c ∈ line.getLast?, c ∉ crlf := by
    intro c last
    have member : c ∈ line := List.mem_of_getLast? last
    have bytes : crlf = [13, 10] := rfl
    simp only [bytes, List.mem_cons, List.not_mem_nil, or_false, not_or]
    exact ⟨fun cr => clean.1 (cr ▸ member), fun lf => clean.2 (lf ▸ member)⟩
  have after : (line ++ (crlf ++ rest)).drop (line.length + 2) = rest := by
    rw [← List.drop_drop, List.drop_left]
    rfl
  rw [lines_eq _ _ (find_append crlf line rest absent ending), after, List.take_left]

theorem lines_flatMap (texts : List Text) (clean : ∀ line ∈ texts, OneLine line) :
    lines (texts.flatMap fun line => line ++ crlf) = texts := by
  induction texts with
  | nil => rfl
  | cons line texts ih =>
      simp only [List.flatMap_cons, List.append_assoc]
      rw [lines_line line _ (clean line (by simp)),
        ih fun other member => clean other (List.mem_cons_of_mem line member)]

theorem infix_of_mem_closedLines (fuel : Nat) (text line : Text) (member : line ∈ closedLines fuel text) :
    line <:+: text := by
  induction fuel generalizing text with
  | zero => simp [closedLines] at member
  | succ fuel ih =>
      simp only [closedLines] at member
      cases found : find crlf text with
      | none => simp [found] at member
      | some n =>
          simp only [found, List.mem_cons] at member
          rcases member with rfl | later
          · exact (List.take_prefix n text).isInfix
          · exact (ih _ later).trans (List.drop_suffix _ text).isInfix

/-! ## Labelled fields -/

def fieldLine (field : Text × Text) : Text := field.1 ++ byte ':' :: field.2

def fieldLines (fields : List (Text × Text)) : Text := fields.flatMap fun field => fieldLine field ++ crlf

-- A line without a colon is its own label and its own value: `find_first_of` is then `npos`.
def splitLine (line : Text) : Text × Text :=
  (line.takeWhile (· ≠ byte ':'),
    if byte ':' ∈ line then (line.dropWhile (· ≠ byte ':')).tail else line)

/-- What a reader does with the value of one label, given the conversions `ε`. -/
structure Setter (ε σ : Type) where
  label : Text
  set : ε → Text → σ → σ

def Plain (label : Text) : Prop := label ≠ [] ∧ byte ':' ∉ label ∧ byte '#' ∉ label ∧ OneLine label

instance (label : Text) : Decidable (Plain label) := inferInstanceAs (Decidable (_ ∧ _))

structure Table (ε σ : Type) where
  setters : List (Setter ε σ)
  distinct : (setters.map Setter.label).Nodup
  plain : ∀ label ∈ setters.map Setter.label, Plain label

section Fields

variable {ε σ : Type} (table : Table ε σ) (env : ε)

def setField (state : σ) (field : Text × Text) : σ :=
  match table.setters.find? (·.label = field.1) with
  | some setter => setter.set env field.2 state
  | none => state

def readFields (start : σ) (text : Text) : σ :=
  (lines text).foldl (fun state line => setField table env state (splitLine line)) start

-- Each setter applied to its value, in order.
def setAll : List (Setter ε σ) → List Text → σ → σ
  | setter :: setters, value :: values, state => setAll setters values (setter.set env value state)
  | _, _, state => state

@[simp] theorem setAll_nil (values : List Text) (state : σ) :
    setAll env ([] : List (Setter ε σ)) values state = state := rfl

@[simp] theorem setAll_cons (setter : Setter ε σ) (setters : List (Setter ε σ)) (value : Text)
    (values : List Text) (state : σ) :
    setAll env (setter :: setters) (value :: values) state =
      setAll env setters values (setter.set env value state) := rfl

theorem splitLine_fieldLine (field : Text × Text) (named : byte ':' ∉ field.1) :
    splitLine (fieldLine field) = field := by
  have other : ∀ c ∈ field.1, (c ≠ byte ':') = true := by
    intro c member
    simpa using fun colon : c = byte ':' => named (colon ▸ member)
  have colon : byte ':' ∈ fieldLine field := by simp [fieldLine]
  rw [splitLine, if_pos colon, fieldLine, List.takeWhile_append_of_pos (by simpa using other),
    List.dropWhile_append_of_pos (by simpa using other)]
  simp

theorem setField_of_mem (state : σ) (setter : Setter ε σ) (value : Text) (member : setter ∈ table.setters) :
    setField table env state (setter.label, value) = setter.set env value state := by
  have same : table.setters.find? (fun other => other.label = setter.label) = some setter := by
    cases found : table.setters.find? (fun other => other.label = setter.label) with
    | none => simpa using List.find?_eq_none.mp found setter member
    | some other =>
        have label : other.label = setter.label := by simpa using List.find?_some found
        rw [List.inj_on_of_nodup_map table.distinct (List.mem_of_find?_eq_some found) member label]
  simp only [setField, same]

theorem setField_unnamed (state : σ) (value : Text) : setField table env state ([], value) = state := by
  have absent : table.setters.find? (fun other => other.label = []) = none := by
    rw [List.find?_eq_none]
    intro setter member
    simpa using (table.plain setter.label (List.mem_map_of_mem member)).1
  simp only [setField, absent]

theorem foldl_setField (setters : List (Setter ε σ)) (values : List Text) (state : σ)
    (part : setters ⊆ table.setters) (size : values.length = setters.length) :
    ((setters.map Setter.label).zip values).foldl (setField table env) state = setAll env setters values state := by
  induction setters generalizing values state with
  | nil => rfl
  | cons setter setters ih =>
      obtain ⟨value, values, rfl⟩ := List.exists_of_length_succ values size
      simp only [List.map_cons, List.zip_cons_cons, List.foldl_cons, setAll_cons]
      rw [setField_of_mem table env state setter value (part (by simp)),
        ih values _ (fun other member => part (by simp [member])) (by simpa using size)]

theorem oneLine_fieldLine (field : Text × Text) (label : OneLine field.1) (value : OneLine field.2) :
    OneLine (fieldLine field) := by
  have shape : fieldLine field = field.1 ++ ([byte ':'] ++ field.2) := rfl
  have colon : OneLine [byte ':'] := by decide
  rw [shape, oneLine_append, oneLine_append]
  exact ⟨label, colon, value⟩

-- A section reads back: the rest of its header line, then every value under its label.
theorem readFields_fieldLines (start : σ) (fields : List (Text × Text))
    (names : fields.map Prod.fst = table.setters.map Setter.label) (clean : ∀ field ∈ fields, OneLine field.2) :
    readFields table env start (crlf ++ fieldLines fields) =
      setAll env table.setters (fields.map Prod.snd) start := by
  have plain : ∀ field ∈ fields, Plain field.1 := by
    intro field member
    exact table.plain field.1 (names ▸ List.mem_map_of_mem member)
  have size : (fields.map Prod.snd).length = table.setters.length := by
    have := congrArg List.length names
    simpa using this
  have zipped : (table.setters.map Setter.label).zip (fields.map Prod.snd) = fields := by
    rw [← names, List.zip_map']
    exact List.map_id fields
  have whole : lines (crlf ++ fieldLines fields) = [] :: fields.map fieldLine := by
    have split := lines_flatMap ([] :: fields.map fieldLine) (by
      intro line member
      rcases List.mem_cons.mp member with rfl | written
      · decide
      · obtain ⟨field, inFields, rfl⟩ := List.mem_map.mp written
        exact oneLine_fieldLine field (plain field inFields).2.2.2 (clean field inFields))
    rw [← split, List.flatMap_cons, List.flatMap_map]
    rfl
  have unlabelled : splitLine [] = ([], []) := rfl
  have labelled : fields.foldl (fun state field => setField table env state (splitLine (fieldLine field))) start =
      fields.foldl (setField table env) start := by
    apply List.foldl_ext
    intro state field member
    rw [splitLine_fieldLine field (plain field member).2.1]
  have all := foldl_setField table env table.setters (fields.map Prod.snd) start (fun _ member => member) size
  rw [zipped] at all
  rw [readFields, whole, List.foldl_cons, unlabelled, setField_unnamed, List.foldl_map, labelled, all]

theorem splitLine_snd_within (line : Text) : (splitLine line).2 <:+: line := by
  simp only [splitLine]
  split
  · exact ((List.tail_suffix _).trans (List.dropWhile_suffix _)).isInfix
  · exact List.infix_rfl

theorem setField_part (part : σ → Text) (state : σ) (field : Text × Text)
    (sets : ∀ setter ∈ table.setters, ∀ value state,
      part (setter.set env value state) = part state ∨ part (setter.set env value state) = value) :
    part (setField table env state field) = part state ∨ part (setField table env state field) = field.2 := by
  unfold setField
  split
  next setter found => exact sets setter (List.mem_of_find?_eq_some found) field.2 state
  next => exact Or.inl rfl

-- What a reader sets is either untouched or a part of the text.
theorem readFields_infix (part : σ → Text) (start : σ) (text : Text)
    (sets : ∀ setter ∈ table.setters, ∀ value state,
      part (setter.set env value state) = part state ∨ part (setter.set env value state) = value) :
    part (readFields table env start text) = part start ∨
      part (readFields table env start text) <:+: text := by
  refine List.foldlRecOn (lines text) _ (motive := fun state => part state = part start ∨ part state <:+: text)
    (Or.inl rfl) ?_
  intro state kept line member
  rcases setField_part table env part state (splitLine line) sets with same | set
  · rwa [same]
  · rw [set]
    exact Or.inr ((splitLine_snd_within line).trans (infix_of_mem_closedLines _ text line member))

-- What no setter touches stays as it was.
theorem readFields_keeps {α : Type} (part : σ → α) (start : σ) (text : Text)
    (keeps : ∀ setter ∈ table.setters, ∀ value state, part (setter.set env value state) = part state) :
    part (readFields table env start text) = part start := by
  refine List.foldlRecOn (lines text) _ (motive := fun state => part state = part start) rfl ?_
  intro state kept line member
  unfold setField
  split
  next setter found => rw [keeps setter (List.mem_of_find?_eq_some found), kept]
  next => exact kept

end Fields

/-! ## Sections -/

-- The text after a header, read byte by byte from the start.
def afterHeader (header : Text) (word : Text) : Text → Option Text
  | [] => none
  | c :: rest => if word ++ [c] = header then some rest else afterHeader header (word ++ [c]) rest

-- The bytes from one index to another.
def slice (text : Text) (first last : Nat) : Text := (text.drop first).take (last - first)

def findFrom (pattern text : Text) (pos : Nat) : Option Nat := (find pattern (text.drop pos)).map (pos + ·)

/-- The texts of the sections: `i` walks over the content and `word` grows until it is the next
header; the section then ends where the header after it is found from `pos` on, `none` being
`npos`. The last header ends the walk and has no text. -/
def sectionsFrom (content : Text) : Nat → List Text → Nat → Option Nat → Text → List Text
  | 0, _, _, _, _ => []
  | _, [], _, _, _ => []
  | fuel + 1, header :: later, i, pos, word =>
    match content[i]? with
    | none => []
    | some c =>
      if word ++ [c] = header then
        match later with
        | [] => []
        | next :: _ =>
          match pos.bind (findFrom next content) with
          | some pos => slice content (i + 1) pos :: sectionsFrom content fuel later pos (some pos) []
          | none => sectionsFrom content fuel (header :: later) (i + 1) none []
      else sectionsFrom content fuel (header :: later) (i + 1) pos (word ++ [c])

def sections (headers : List Text) (content : Text) : List Text :=
  sectionsFrom content (content.length + 1) headers 0 (some 0) []

theorem afterHeader_append (header word rest : Text) (nonempty : header ≠ []) :
    afterHeader (word ++ header) word (header ++ rest) = some rest := by
  induction header generalizing word with
  | nil => exact absurd rfl nonempty
  | cons c header ih =>
      cases header with
      | nil => simp [afterHeader]
      | cons d header =>
          have next := ih (word ++ [c]) (by simp)
          simpa [afterHeader] using next

-- With one header left the walk stops at it, before any text is handed over.
theorem sectionsFrom_singleton (content : Text) (fuel : Nat) (header : Text) (i : Nat) (pos : Option Nat)
    (word : Text) : sectionsFrom content fuel [header] i pos word = [] := by
  induction fuel generalizing i pos word with
  | zero => rfl
  | succ fuel ih =>
      simp only [sectionsFrom]
      split
      · rfl
      · split
        · rfl
        · exact ih _ _ _

theorem sectionsFrom_header (content header next : Text) (later : List Text) (tail word : Text) (fuel i new : Nat)
    (pos : Option Nat) (nonempty : tail ≠ []) (whole : word ++ tail = header) (here : tail <+: content.drop i)
    (found : pos.bind (findFrom next content) = some new) :
    sectionsFrom content (tail.length + fuel) (header :: next :: later) i pos word =
      slice content (i + tail.length) new :: sectionsFrom content fuel (next :: later) new (some new) [] := by
  induction tail generalizing word i with
  | nil => exact absurd rfl nonempty
  | cons c tail ih =>
      obtain ⟨rest, split⟩ := here
      have head : content[i]? = some c := by
        rw [← List.head?_drop, ← split]
        rfl
      have behind : content.drop (i + 1) = tail ++ rest := by
        rw [← List.drop_drop, ← split]
        rfl
      have more : (c :: tail).length + fuel = (tail.length + fuel) + 1 := by
        simp only [List.length_cons]
        omega
      rw [more]
      simp only [sectionsFrom, head]
      cases tail with
      | nil => simp [whole, found]
      | cons d tail =>
          have other : word ++ [c] ≠ header := by
            rw [← whole]
            simp
          rw [if_neg other, ih (word ++ [c]) (i + 1) (by simp) (by simpa using whole) ⟨rest, behind.symm⟩]
          simp only [List.length_cons]
          congr 2
          omega

-- No section holds the header of the section after it.
theorem sectionsFrom_ends (content : Text) (headers : List Text) (nonempty : ∀ header ∈ headers, header ≠ [])
    (fuel i : Nat) (pos : Option Nat) (word : Text) (behind : ∀ p ∈ pos, p ≤ i) (k : Nat) (text next : Text)
    (found : (sectionsFrom content fuel headers i pos word)[k]? = some text)
    (follows : headers[k + 1]? = some next) : ¬ next <:+: text := by
  induction fuel generalizing headers i pos word k with
  | zero => simp [sectionsFrom] at found
  | succ fuel ih =>
      cases headers with
      | nil => simp at follows
      | cons header later =>
          simp only [sectionsFrom] at found
          split at found
          · simp at found
          · split at found
            · cases later with
              | nil => simp at found
              | cons second later =>
                  simp only at found
                  split at found
                  next new jump =>
                    obtain ⟨old, rfl, search⟩ := Option.bind_eq_some_iff.mp jump
                    obtain ⟨n, first, rfl⟩ := Option.map_eq_some_iff.mp search
                    have before : old ≤ i := behind old rfl
                    cases k with
                    | zero =>
                        obtain rfl : second = next := by simpa using follows
                        obtain rfl : slice content (i + 1) (old + n) = text := by simpa using found
                        have absent := not_infix_take_of_find second _ n (nonempty second (by simp)) first
                        have inside : slice content (i + 1) (old + n) <:+: (content.drop old).take n := by
                          have split : slice content (i + 1) (old + n) =
                              ((content.drop old).take n).drop (i + 1 - old) := by
                            rw [slice, List.drop_take, List.drop_drop]
                            congr 1 <;> [skip; congr 1] <;> omega
                          rw [split]
                          exact (List.drop_suffix _ _).isInfix
                        exact fun occurs => absent (occurs.trans inside)
                    | succ k =>
                        exact ih (second :: later) (fun header member => nonempty header (by simp [member]))
                          (old + n) (some (old + n)) [] (by simp) k (by simpa using found) (by simpa using follows)
                  next => exact ih _ nonempty (i + 1) none [] (by simp) k found follows
            · exact ih _ nonempty (i + 1) pos _ (fun p member => Nat.le_succ_of_le (behind p member)) k found follows

def firstHeader (parts : List (Text × Text)) (last : Text) : Text :=
  match parts with
  | [] => last
  | part :: _ => part.1

def writeSections (parts : List (Text × Text)) : Text := parts.flatMap fun part => part.1 ++ part.2

/-- A section that the header after it ends: that header is not in it and cannot overlap its end. -/
structure EndsAt (part : Text × Text) (next : Text) : Prop where
  header : part.1 ≠ []
  absent : ¬ next <:+: part.1 ++ part.2
  ending : ∀ c ∈ (part.1 ++ part.2).getLast?, c ∉ next

def Separated (last : Text) : List (Text × Text) → Prop
  | [] => True
  | part :: rest => EndsAt part (firstHeader rest last) ∧ Separated last rest

theorem writeSections_cons (part : Text × Text) (parts : List (Text × Text)) :
    writeSections (part :: parts) = (part.1 ++ part.2) ++ writeSections parts := List.flatMap_cons

theorem firstHeader_prefix (parts : List (Text × Text)) (last rest : Text) :
    firstHeader parts last <+: writeSections parts ++ (last ++ rest) := by
  cases parts with
  | nil => exact List.prefix_append last rest
  | cons part parts =>
      rw [writeSections_cons, List.append_assoc, List.append_assoc]
      exact List.prefix_append part.1 _

theorem headers_eq_cons (parts : List (Text × Text)) (last : Text) :
    parts.map Prod.fst ++ [last] = firstHeader parts last :: (parts.map Prod.fst ++ [last]).tail := by
  cases parts <;> rfl

theorem slice_section (before after : Text) (part : Text × Text) :
    slice (before ++ ((part.1 ++ part.2) ++ after)) (before.length + part.1.length)
      (before.length + (part.1 ++ part.2).length) = part.2 := by
  have size : before.length + (part.1 ++ part.2).length - (before.length + part.1.length) = part.2.length := by
    simp only [List.length_append]
    omega
  rw [slice, size, ← List.drop_drop, List.drop_left, List.append_assoc, List.drop_left, List.take_left]

theorem sectionsFrom_written (before : Text) (parts : List (Text × Text)) (last rest content : Text) (fuel : Nat)
    (separated : Separated last parts) (whole : content = before ++ (writeSections parts ++ (last ++ rest)))
    (enough : (writeSections parts).length ≤ fuel) :
    sectionsFrom content fuel (parts.map Prod.fst ++ [last]) before.length (some before.length) [] =
      parts.map Prod.snd := by
  induction parts generalizing before fuel with
  | nil => exact sectionsFrom_singleton _ _ _ _ _ _
  | cons part parts ih =>
      obtain ⟨ends, separated⟩ := separated
      obtain ⟨after, starts⟩ := firstHeader_prefix parts last rest
      have body : content = before ++ ((part.1 ++ part.2) ++ (firstHeader parts last ++ after)) := by
        rw [whole, starts, writeSections_cons, List.append_assoc (part.1 ++ part.2)]
      have here : content.drop before.length = (part.1 ++ part.2) ++ (firstHeader parts last ++ after) := by
        rw [body, List.drop_left]
      have found : (some before.length).bind (findFrom (firstHeader parts last) content) =
          some (before.length + (part.1 ++ part.2).length) := by
        simp only [Option.bind_some, findFrom, here]
        rw [find_append _ _ _ ends.absent ends.ending]
        rfl
      have text : slice content (before.length + part.1.length) (before.length + (part.1 ++ part.2).length) =
          part.2 := by
        rw [body, slice_section]
      have starting : part.1 <+: content.drop before.length := by
        rw [here, List.append_assoc]
        exact List.prefix_append part.1 _
      have size : part.1.length + (part.2.length + (writeSections parts).length) ≤ fuel := by
        simpa [writeSections_cons, Nat.add_assoc] using enough
      obtain ⟨left, rfl⟩ := Nat.exists_eq_add_of_le (Nat.le_trans (Nat.le_add_right _ _) size)
      have next := ih (before ++ (part.1 ++ part.2)) left separated
        (by rw [whole, writeSections_cons]; simp only [List.append_assoc]) (by omega)
      rw [List.length_append, headers_eq_cons] at next
      rw [List.map_cons, List.map_cons, List.cons_append, headers_eq_cons,
        sectionsFrom_header content part.1 _ _ part.1 [] left _ _ _ ends.header rfl starting found, text, next]

-- The written sections are handed over one by one.
theorem sections_writeSections (parts : List (Text × Text)) (last rest : Text) (separated : Separated last parts) :
    sections (parts.map Prod.fst ++ [last]) (writeSections parts ++ (last ++ rest)) = parts.map Prod.snd :=
  sectionsFrom_written [] parts last rest _ _ separated rfl (by simp only [List.length_append]; omega)

/-! ## Sections of fields -/

-- A header stays within one line and is no part of a label.
def Header (text : Text) : Prop := OneLine text ∧ byte ':' ∉ text ∧ byte '#' ∈ text

instance (text : Text) : Decidable (Header text) := inferInstanceAs (Decidable (_ ∧ _))

theorem infix_cons_iff_of_not_mem (pattern right : Text) (c : UInt8) (clean : c ∉ pattern)
    (nonempty : pattern ≠ []) : pattern <:+: c :: right ↔ pattern <:+: right := by
  have empty : ¬ pattern <:+: [] := fun inside => nonempty (List.infix_nil.mp inside)
  simpa [empty] using infix_append_cons_iff pattern [] right c clean nonempty

theorem infix_crlf_iff (header left right : Text) (isHeader : Header header) :
    header <:+: left ++ (crlf ++ right) ↔ header <:+: left ∨ header <:+: right := by
  have nonempty : header ≠ [] := List.ne_nil_of_mem isHeader.2.2
  have bytes : left ++ (crlf ++ right) = left ++ 13 :: 10 :: right := rfl
  rw [bytes, infix_append_cons_iff header left _ 13 isHeader.1.1 nonempty,
    infix_cons_iff_of_not_mem header right 10 isHeader.1.2 nonempty]

theorem not_infix_fieldLines (header : Text) (isHeader : Header header) (fields : List (Text × Text))
    (labels : ∀ field ∈ fields, Plain field.1) (values : ∀ field ∈ fields, ¬ header <:+: field.2) :
    ¬ header <:+: fieldLines fields := by
  have nonempty : header ≠ [] := List.ne_nil_of_mem isHeader.2.2
  induction fields with
  | nil => exact fun inside => nonempty (List.infix_nil.mp inside)
  | cons field fields ih =>
      have later := ih (fun other member => labels other (by simp [member]))
        fun other member => values other (by simp [member])
      have label : ¬ header <:+: field.1 := fun inside => (labels field (by simp)).2.2.1 (inside.mem isHeader.2.2)
      have shape : fieldLines (field :: fields) = fieldLine field ++ (crlf ++ fieldLines fields) := by
        simp [fieldLines]
      rw [shape, infix_crlf_iff header _ _ isHeader, fieldLine,
        infix_append_cons_iff header _ _ _ isHeader.2.1 nonempty]
      simp [later, label, values field (by simp)]

theorem getLast?_crlf_fieldLines (fields : List (Text × Text)) : (crlf ++ fieldLines fields).getLast? = some 10 := by
  induction fields with
  | nil => rfl
  | cons field fields ih =>
      have shape : crlf ++ fieldLines (field :: fields) = (crlf ++ fieldLine field) ++ (crlf ++ fieldLines fields) := by
        simp [fieldLines]
      rw [shape, List.getLast?_append, ih]
      rfl

theorem endsAt_fieldLines (header next : Text) (fields : List (Text × Text)) (nonempty : header ≠ [])
    (isHeader : Header next) (apart : ¬ next <:+: header) (labels : ∀ field ∈ fields, Plain field.1)
    (values : ∀ field ∈ fields, ¬ next <:+: field.2) : EndsAt (header, crlf ++ fieldLines fields) next where
  header := nonempty
  absent := by
    rw [infix_crlf_iff next _ _ isHeader]
    simp [apart, not_infix_fieldLines next isHeader fields labels values]
  ending := by
    intro c last
    rw [List.getLast?_append, getLast?_crlf_fieldLines] at last
    obtain rfl : 10 = c := by simpa using last
    exact isHeader.1.2

end Bytes
