import Mathlib.Data.List.DropRight
import FastoNoSQL.Bytes.Pieces
import FastoNoSQL.Driver.Understood
import FastoNoSQL.Gui.Output
import FastoNoSQL.Sds.Tail

set_option autoImplicit false

/-!
# The key of an edited value

The command that is executed is split by `sdssplitargslong`; the key of the
item that shows its result is cut out of the same line by `InputArgs` and
`GetFirstWordFromLine`. `OutputWidget::createKey` writes to the second.
-/

namespace FastoNoSQL.OutputTree.Edited

open Bytes Sds

def trim (text : Text) : Text := (text.dropWhile isspace).rdropWhile isspace

section Key

/-- The arguments of a line: blanks, the key as one bare word, and blanks again up to a NUL byte. White space at
the end of the key is not lost only when something else stands behind it. -/
structure InPlace (args blanks key more : Text) : Prop where
  split : args = blanks ++ (key ++ more)
  blank : ∀ c ∈ blanks, c = byte ' '
  bare : isBare key = true
  clean : (0 : UInt8) ∉ key
  whole : byte ' ' ∉ key
  start : ∀ c ∈ key.head?, isspace c = false
  ends : Ends more
  rest : ∀ c ∈ cString more, c = byte ' '
  last : (∀ c ∈ more, isspace c = true) → ∀ c ∈ key.getLast?, isspace c = false

def KeyInPlace (args : Text) : Prop := ∃ blanks key more, InPlace args blanks key more

end Key

variable {Address Name : Type} (gui : Library Address Name) (objects : Objects)

-- The item that `addChild` makes for a child of the command.
def rowOf (line : Text) (child : FastoObject) : Row Address :=
  createItem gui objects (getFirstWordFromLine (inputArgs gui line)) (isReadOnly line) child

theorem addChild_command (model : Model Address) (child parent : FastoObject) (number : Nat) (line : Text)
    (other : child.isCommand = false) (own : child.parent = some (.command parent number line)) :
    addChild gui objects model child = some (match gui.findItem (model.map Row.pointer) (gui.address parent) with
      | none => model
      | some n => model.insertAt n (.leaf (rowOf gui objects line child))) := by
  cases child with
  | command => cases other
  | _ =>
      simp only [addChild, own]
      rfl

-- The items of the results that a command has; there are none when no handler was called for it.
def resultRows (type : ConnectionType) (line : Text) (argv : List Text) (children : List FastoObject) :
    List (Row Address) :=
  if reachesHandler type argv then children.map (rowOf gui objects line) else []

-- A `GET` of the key of the item was executed, and what `createKey` posts for a new value is a command for it.
def WritesBack (lib : Common) (type : ConnectionType) (argv : List Text) (row : Row Address) : Prop :=
  ∃ word key, argv = [word, key] ∧ lower word = ascii "get" ∧ row.key = key ∧
    ∀ value text, (CommandTranslator.ofType lib type).createKeyCommand ⟨⟨row.key, -1⟩, .string, value⟩ = .ok text →
      ∀ first ∈ (lib.tokenize text [byte '\n']).head?, ∀ posted ∈ createCommand first,
        ∀ argv', sdssplitargslong posted = some argv' → argv'[1]? = some key

/-! ## The two parsers -/

theorem dropWhile_blanks (blanks text : Text) (blank : ∀ c ∈ blanks, c = byte ' ') :
    (blanks ++ text).dropWhile isspace = text.dropWhile isspace := by
  apply List.dropWhile_append_of_pos
  intro c member
  rw [blank c member]
  decide

theorem splitFrom_blanks (blanks text : Text) (blank : ∀ c ∈ blanks, c = byte ' ') :
    splitFrom .blank 0 (blanks ++ text) = splitFrom .blank 0 text := by
  induction blanks with
  | nil => rfl
  | cons c blanks ih =>
      rw [List.forall_mem_cons] at blank
      rw [blank.1, List.cons_append, splitFrom_blank_space, ih blank.2]

theorem nul_not_mem_blanks (blanks : Text) (blank : ∀ c ∈ blanks, c = byte ' ') : (0 : UInt8) ∉ blanks := by
  intro member
  exact absurd (blank 0 member) (by decide)

theorem ends_cString (more : Text) (ends : Ends more) : Ends (cString more) := by
  cases more with
  | nil => trivial
  | cons c more =>
      obtain rfl : c = byte ' ' := ends
      rfl

theorem rdropWhile_append_white (text more : Text) (white : ∀ c ∈ more, isspace c = true) :
    (text ++ more).rdropWhile isspace = text.rdropWhile isspace := by
  rw [List.rdropWhile, List.reverse_append, List.dropWhile_append_of_pos (by simpa using white), ← List.rdropWhile]

theorem rdropWhile_append_kept (text more : Text) (kept : more.rdropWhile isspace ≠ []) :
    (text ++ more).rdropWhile isspace = text ++ more.rdropWhile isspace := by
  have nonempty : more.reverse.dropWhile isspace ≠ [] := by
    intro none
    simp [List.rdropWhile, none] at kept
  rw [List.rdropWhile, List.reverse_append, List.dropWhile_append, if_neg (by simpa using nonempty),
    List.reverse_append,
    List.reverse_reverse]
  rfl

-- A text up to the first blank.
theorem takeWhile_ends (text more : Text) (whole : byte ' ' ∉ text) (ends : Ends more) :
    (text ++ more).takeWhile (· ≠ byte ' ') = text := by
  have free : ∀ c ∈ text, decide (c ≠ byte ' ') = true := by
    intro c member
    simpa using fun same : c = byte ' ' => whole (same ▸ member)
  rw [List.takeWhile_append_of_pos free]
  cases more with
  | nil => rw [List.takeWhile_nil, List.append_nil]
  | cons c more =>
      obtain rfl : c = byte ' ' := ends
      simp

section InPlace

variable {args blanks key more : Text} (inPlace : InPlace args blanks key more)
include inPlace

theorem split_inPlace : sdssplitargslong args = some [key] := by
  have whole := (splitFrom_eq_nil_iff (cString more)).mpr inPlace.rest
  rw [sdssplitargslong, inPlace.split, cString_append_of_clean blanks _ (nul_not_mem_blanks blanks inPlace.blank),
    cString_append_of_clean key _ inPlace.clean, splitFrom_blanks blanks _ inPlace.blank,
    splitFrom_bare key _ (ends_cString more inPlace.ends) inPlace.bare, whole]
  rfl

theorem trim_inPlace : (trim args).takeWhile (· ≠ byte ' ') = key := by
  have nonempty : key ≠ [] := by
    have bare := inPlace.bare
    intro none
    simp [isBare, none] at bare
  have start : (key ++ more).dropWhile isspace = key ++ more := by
    obtain ⟨c, rest, rfl⟩ := List.exists_cons_of_ne_nil nonempty
    simp [inPlace.start c rfl]
  rw [trim, inPlace.split, dropWhile_blanks blanks _ inPlace.blank, start]
  by_cases white : ∀ c ∈ more, isspace c = true
  · have kept : key.rdropWhile isspace = key := by
      apply List.rdropWhile_eq_self_iff.mpr
      intro some
      simp [inPlace.last white _ (List.getLast?_eq_some_getLast some)]
    have free := takeWhile_ends key [] inPlace.whole trivial
    rw [List.append_nil] at free
    rw [rdropWhile_append_white key more white, kept, free]
  · have some : more.rdropWhile isspace ≠ [] := List.rdropWhile_eq_nil_iff.not.mpr white
    have ends : Ends (more.rdropWhile isspace) := by
      obtain ⟨c, rest, kept⟩ := List.exists_cons_of_ne_nil some
      obtain ⟨tail, whole⟩ := kept ▸ more.rdropWhile_prefix isspace
      have first := inPlace.ends
      rw [← whole] at first
      rw [kept]
      exact first
    rw [rdropWhile_append_kept key more some, takeWhile_ends key _ inPlace.whole ends]

end InPlace

-- The first byte that is no blank begins the key, unless it is a quote.
theorem starts_first (c : UInt8) (text token : Text) (tokens : List Text) (white : isspace c = true)
    (blank : c ≠ byte ' ') (split : splitFrom .blank 0 (c :: text) = some (token :: tokens)) :
    token.head? = some c := by
  have quiet := isQuiet_of_isspace c white
  simp only [isQuiet, Bool.and_eq_true, decide_eq_true_eq] at quiet
  simp only [splitFrom_cons, step, blank, if_false] at split
  obtain ⟨first, rest, same, grows⟩ := pending_prefix text _ 0 _ (enter_grows [] c).1 split
  obtain ⟨rfl, -⟩ := List.cons.inj same
  rw [enter_other [] c quiet.1.1.1.1 quiet.1.1.1.2] at grows
  obtain ⟨more, rfl⟩ := grows
  rfl

-- White space that is no blank would have become part of the key.
theorem ends_of_white (key white : Text) (all : ∀ c ∈ white, isspace c = true) (clean : (0 : UInt8) ∉ key)
    (last : ∀ c ∈ key.getLast?, isspace c = false) (split : splitFrom .blank 0 (cString (key ++ white)) = some [key]) :
    Ends white := by
  have nul : (0 : UInt8) ∉ white := fun member => absurd (all 0 member) (by decide)
  rw [cString_append_of_clean key _ clean, cString_eq_self white nul] at split
  have shape : white = white.takeWhile (· ≠ byte ' ') ++ white.dropWhile (· ≠ byte ' ') :=
    List.takeWhile_append_dropWhile.symm
  have kept : ∀ c ∈ white.takeWhile (· ≠ byte ' '), c ≠ byte ' ' := by
    intro c member
    simpa using List.mem_takeWhile_imp member
  have ends : Ends (white.dropWhile (· ≠ byte ' ')) := by
    simpa using ends_dropWhile white [] trivial
  generalize white.takeWhile (· ≠ byte ' ') = front at shape kept
  generalize white.dropWhile (· ≠ byte ' ') = tail at shape ends
  subst shape
  rcases List.eq_nil_or_concat front with rfl | ⟨init, c, rfl⟩
  · exact ends
  · have quiet : ∀ c ∈ tail, isQuiet c = true := fun c member =>
      isQuiet_of_isspace c (all c (List.mem_append_right _ member))
    rw [← List.append_assoc, splitFrom_append _ tail .blank 0 (Nat.zero_le _) ends quiet] at split
    obtain ⟨own, alone, joined⟩ := Option.bind_eq_some_iff.mp split
    obtain ⟨rest, _, joined⟩ := Option.map_eq_some_iff.mp joined
    have white : isspace c = true := all c (by simp)
    rw [List.concat_eq_append, ← List.append_assoc] at alone
    obtain ⟨token, final, ends⟩ := last_kept (key ++ init) c white (kept c (by simp)) .blank 0 own (Or.inl rfl) alone
    have only : token = key := by
      have member : token ∈ [key] := joined ▸ List.mem_append_left rest (List.mem_of_getLast? final)
      simpa using member
    rw [only] at ends
    exact absurd (last c ends) (by simp [white])

-- The trimmed text does not start with white space, so neither does the key.
theorem start_of_trimmed (c : UInt8) (text key : Text) (blank : c ≠ byte ' ')
    (split : splitFrom .blank 0 (cString (c :: text)) = some [key])
    (same : (trim (c :: text)).takeWhile (· ≠ byte ' ') = key) : isspace c = false := by
  by_contra white
  rw [Bool.not_eq_false] at white
  have nonzero : c ≠ 0 := by
    intro zero
    rw [zero] at white
    cases white
  have head : cString (c :: text) = c :: cString text := by simp [cString, nonzero]
  rw [head] at split
  have begins := starts_first c (cString text) key [] white blank split
  obtain ⟨rest, whole⟩ : key <+: (c :: text).dropWhile isspace :=
    same ▸ (List.takeWhile_prefix _).trans (List.rdropWhile_prefix isspace _)
  have stop := List.head?_dropWhile_not isspace (c :: text)
  obtain ⟨key, rfl⟩ := List.head?_eq_some_iff.mp begins
  rw [← whole, List.cons_append, List.head?_cons] at stop
  exact absurd (show isspace c = false from stop) (by simp [white])

theorem inPlace_of_body (body key : Text) (first : body.head? ≠ some (byte ' '))
    (split : splitFrom .blank 0 (cString body) = some [key])
    (same : (trim body).takeWhile (· ≠ byte ' ') = key) : ∃ more, InPlace body [] key more := by
  cases body with
  | nil => cases split
  | cons c text =>
  have blank : c ≠ byte ' ' := by simpa using first
  have start := start_of_trimmed c text key blank split same
  have dropped : (c :: text).dropWhile isspace = c :: text := by simp [start]
  rw [trim, dropped] at same
  have shape : (c :: text).rdropWhile isspace ++ (c :: text).rtakeWhile isspace = c :: text :=
    List.rdropWhile_append_rtakeWhile
  have white : ∀ d ∈ (c :: text).rtakeWhile isspace, isspace d = true := fun d member => List.mem_rtakeWhile_imp member
  have some : (c :: text).rdropWhile isspace ≠ [] := by
    intro none
    have all := List.rdropWhile_eq_nil_iff.mp none c (by simp)
    rw [start] at all
    cases all
  have last := List.rdropWhile_last_not isspace (c :: text) some
  generalize (c :: text).rdropWhile isspace = front at same shape some last
  generalize (c :: text).rtakeWhile isspace = tail at shape white
  have parts : front = key ++ front.dropWhile (· ≠ byte ' ') := by
    rw [← same, List.takeWhile_append_dropWhile]
  have ends : Ends (front.dropWhile (· ≠ byte ' ')) := by
    simpa using ends_dropWhile front [] trivial
  have whole : byte ' ' ∉ key := by
    intro member
    rw [← same] at member
    simpa using List.mem_takeWhile_imp member
  have begins : key.head? = Option.some c := by
    obtain ⟨d, front, rfl⟩ := List.exists_cons_of_ne_nil some
    obtain ⟨rfl, -⟩ := List.cons.inj shape
    rw [← same, List.takeWhile_cons_of_pos (by simpa using blank), List.head?_cons]
  generalize front.dropWhile (· ≠ byte ' ') = rest at parts ends
  have line : c :: text = key ++ (rest ++ tail) := by rw [← shape, parts, List.append_assoc]
  rw [line] at split
  have clean := clean_of_split_first key (rest ++ tail) [] split
  -- The last byte of the trimmed text is one of the key, unless a blank comes in between.
  have final : rest = [] → ∀ d ∈ key.getLast?, isspace d = false := by
    intro none d member
    subst none
    rw [List.append_nil] at parts
    subst parts
    obtain rfl : front.getLast some = d := by simpa [List.getLast?_eq_some_getLast some] using member
    simpa using last
  have behind : Ends (rest ++ tail) := by
    cases rest with
    | nil => exact ends_of_white key tail white clean (final rfl) split
    | cons d rest => exact ends
  rw [cString_append_of_clean key _ clean] at split
  have nonempty : key ≠ [] := by
    intro none
    rw [none] at begins
    cases begins
  obtain ⟨bare, left⟩ := first_bare key _ [] nonempty (by simpa [begins] using blank) (ends_cString _ behind) split
  refine ⟨rest ++ tail, line, by simp, bare, clean, whole, by simpa [begins] using start, behind,
    (splitFrom_eq_nil_iff _).mp left, ?_⟩
  intro all
  apply final
  by_contra more
  have among : front.getLast some ∈ rest := by
    have same : front.getLast some = rest.getLast more := by simp [parts, List.getLast_append_of_ne_nil _ more]
    rw [same]
    exact List.getLast_mem more
  exact last (all _ (List.mem_append_left tail among))

-- The parsers agree only on a key that is in its place.
theorem keyInPlace_of_same (args key : Text) (split : sdssplitargslong args = some [key])
    (same : (trim args).takeWhile (· ≠ byte ' ') = key) : KeyInPlace args := by
  have blank : ∀ c ∈ args.takeWhile (· = byte ' '), c = byte ' ' := by
    intro c member
    simpa using List.mem_takeWhile_imp member
  have shape : args = args.takeWhile (· = byte ' ') ++ args.dropWhile (· = byte ' ') :=
    List.takeWhile_append_dropWhile.symm
  have first : (args.dropWhile (· = byte ' ')).head? ≠ some (byte ' ') := by
    intro starts
    have stop := List.head?_dropWhile_not (fun c => decide (c = byte ' ')) args
    rw [starts] at stop
    simp at stop
  generalize args.takeWhile (· = byte ' ') = blanks at blank shape
  generalize args.dropWhile (· = byte ' ') = body at first shape
  subst shape
  rw [sdssplitargslong, cString_append_of_clean blanks _ (nul_not_mem_blanks blanks blank),
    splitFrom_blanks blanks _ blank] at split
  rw [trim, dropWhile_blanks blanks _ blank, ← trim] at same
  obtain ⟨more, inPlace⟩ := inPlace_of_body body key first split same
  exact ⟨blanks, key, more, ⟨congrArg (blanks ++ ·) inPlace.split, blank, inPlace.bare, inPlace.clean, inPlace.whole,
    inPlace.start, inPlace.ends, inPlace.rest, inPlace.last⟩⟩

theorem same_iff_keyInPlace (args key : Text) (split : sdssplitargslong args = some [key]) :
    (trim args).takeWhile (· ≠ byte ' ') = key ↔ KeyInPlace args := by
  constructor
  · exact keyInPlace_of_same args key split
  · intro ⟨blanks, own, more, inPlace⟩
    have same := split_inPlace inPlace
    rw [split] at same
    obtain rfl : key = own := by simpa using same
    exact trim_inPlace inPlace

/-! ## The command of an item that may be edited -/

def argsOf (line : Text) : Text := (line.dropWhile (· ≠ byte ' ')).drop 1

theorem arity_congr {Handler : Type} (word other : Text) (commands : List (CommandHolder Handler))
    (same : lower word = lower other) : arity word commands = arity other commands := by
  have starts : (startsWith word : CommandHolder Handler → Bool) = startsWith other := by
    funext holder
    simp only [startsWith, same]
  simp only [arity, starts, same]

theorem isWord_of_get (word : Text) (get : lower word = ascii "get") : isWord word = true := by
  have bytes (c : UInt8) (member : c ∈ word) : isPlain c = true ∧ c ≠ 0 := by
    have low : lowerByte c ∈ ascii "get" := get ▸ List.mem_map_of_mem member
    have other (d : UInt8) (not : lowerByte d ∉ ascii "get") : c ≠ d := fun same => not (same ▸ low)
    simp [isPlain, other (byte ' ') (by decide), other (byte '"') (by decide), other (byte '\'') (by decide),
      other (byte '{') (by decide), other 0 (by decide)]
  have nonempty : word ≠ [] := by
    intro none
    rw [none] at get
    cases get
  simp only [isWord, Bool.and_eq_true, List.all_eq_true, decide_eq_true_eq]
  exact ⟨nonempty, bytes⟩

theorem get_reached (type : ConnectionType) (word : Text) (args : List Text) (get : lower word = ascii "get") :
    reachesHandler type (word :: args) = decide (args.length = 1) := by
  have known : arityOf type (ascii "GET") = some (1, 1) := by
    cases type <;> exact writtenArities_known _ ("GET", 1, 1) (by simp [writtenArities])
  have other : lower word = lower (ascii "GET") := by rw [get]; rfl
  have same : arityOf type word = some (1, 1) := by
    rw [← known]
    unfold arityOf
    split <;> exact arity_congr word _ _ other
  have plain := ValueRequest.isCommandWord_of_isWord word (isWord_of_get word get)
  rw [reachesHandler_of_arity type word args 1 1 plain same, decide_eq_decide]
  omega

-- An item may be edited when the line starts with `GET`, which is then executed if it has one argument.
theorem executed_get (type : ConnectionType) (line : Text) (argv : List Text) (editable : isReadOnly line = false)
    (split : sdssplitargslong line = some argv) (reached : reachesHandler type argv = true) :
    ∃ word key, lower word = ascii "get" ∧ line = word ++ byte ' ' :: argsOf line ∧ argv = [word, key] ∧
      sdssplitargslong (argsOf line) = some [key] := by
  have get : lower (inputCmd line) = ascii "get" := by
    simp only [isReadOnly, Bool.or_eq_false_iff, decide_eq_false_iff_not, not_not] at editable
    exact editable.2
  have shape : line = inputCmd line ++ line.dropWhile (· ≠ byte ' ') := List.takeWhile_append_dropWhile.symm
  have ends : Ends (line.dropWhile (· ≠ byte ' ')) := by
    simpa using ends_dropWhile line [] trivial
  have args : argsOf line = (line.dropWhile (· ≠ byte ' ')).drop 1 := rfl
  generalize inputCmd line = word at get shape
  generalize line.dropWhile (· ≠ byte ' ') = tail at shape ends args
  have word' := isWord_of_get word get
  cases tail with
  | nil =>
      have alone : sdssplitargslong word = some [word] := by
        simpa using sdssplitargslong_words [word] (by simpa using word')
      rw [List.append_nil] at shape
      rw [shape, alone] at split
      rw [← Option.some.inj split, get_reached type word [] get] at reached
      cases reached
  | cons c tail =>
      obtain rfl : c = byte ' ' := ends
      obtain rfl : argsOf line = tail := args
      rw [shape, sdssplitargslong_word word _ word'] at split
      obtain ⟨keys, found, rfl⟩ := Option.map_eq_some_iff.mp split
      rw [get_reached type word keys get, decide_eq_true_eq] at reached
      obtain ⟨key, rfl⟩ := List.length_eq_one_iff.mp reached
      exact ⟨word, key, get, shape, rfl, found⟩

/-! ## The command that is posted -/

section Posted

variable (lib : Common) (lawful : lib.Lawful) (type : ConnectionType)
include lawful

theorem createKeyCommand_string (key value text : Text)
    (created : (CommandTranslator.ofType lib type).createKeyCommand ⟨⟨key, -1⟩, .string, value⟩ = .ok text) :
    ∃ tail, text = ascii "SET" ++ byte ' ' :: (key ++ byte ' ' :: tail) := by
  cases type with
  | memcached =>
      obtain rfl := Except.ok.inj created
      exact ⟨ascii "0 0 " ++ (value ++ []), lawful.memSPrintf_eq _ _⟩
  | _ =>
      obtain rfl := Except.ok.inj created
      exact ⟨value ++ [], lawful.memSPrintf_eq _ _⟩

-- A key in one word is the first argument of the command that creates it.
theorem posted_key (key value text first posted : Text) (argv : List Text) (bare : isBare key = true)
    (clean : (0 : UInt8) ∉ key) (oneLine : byte '\n' ∉ key)
    (created : (CommandTranslator.ofType lib type).createKeyCommand ⟨⟨key, -1⟩, .string, value⟩ = .ok text)
    (line : first ∈ (lib.tokenize text [byte '\n']).head?) (stable : posted ∈ createCommand first)
    (split : sdssplitargslong posted = some argv) : argv[1]? = some key := by
  obtain ⟨tail, rfl⟩ := createKeyCommand_string lib lawful type key value text created
  have front : (ascii "SET" ++ byte ' ' :: (key ++ byte ' ' :: tail)).takeWhile (· ≠ byte '\n') =
      ascii "SET" ++ byte ' ' :: (key ++ byte ' ' :: tail.takeWhile (· ≠ byte '\n')) := by
    have passed : ∀ c ∈ key, decide (c ≠ byte '\n') = true := by
      intro c member
      simpa using fun same : c = byte '\n' => oneLine (same ▸ member)
    have blank : byte ' ' ≠ byte '\n' := by decide
    have word : ∀ c ∈ ascii "SET", decide (c ≠ byte '\n') = true := List.all_eq_true.mp (by decide)
    rw [List.takeWhile_append_of_pos word, List.takeWhile_cons_of_pos (by simpa using blank),
      List.takeWhile_append_of_pos passed, List.takeWhile_cons_of_pos (by simpa using blank)]
  have first' : first = ascii "SET" ++ byte ' ' :: (key ++ byte ' ' :: tail.takeWhile (· ≠ byte '\n')) := by
    have head := head?_splitOn (byte '\n') (ascii "SET" ++ byte ' ' :: (key ++ byte ' ' :: tail))
    rw [front] at head
    obtain ⟨pieces, shape⟩ := List.head?_eq_some_iff.mp head
    rw [lawful.tokenize_eq, shape, List.filter_cons_of_pos (by simp)] at line
    exact (Option.some.inj line).symm
  rw [createCommand, first', stableCommand_append, stableCommand_append, if_neg (by simp)] at stable
  obtain rfl := Option.some.inj stable
  have ends : Ends (byte ' ' :: cString (stableCommand (tail.takeWhile (· ≠ byte '\n')))) := rfl
  have space : byte ' ' ≠ 0 := by decide
  rw [sdssplitargslong_word (ascii "SET") _ (by decide), sdssplitargslong, cString_append_of_clean key _ clean,
    show cString (byte ' ' :: stableCommand (tail.takeWhile (· ≠ byte '\n'))) =
      byte ' ' :: cString (stableCommand (tail.takeWhile (· ≠ byte '\n'))) by simp [cString, space],
    splitFrom_bare key _ ends bare, Option.map_map] at split
  obtain ⟨rest, _, rfl⟩ := Option.map_eq_some_iff.mp split
  rfl

end Posted

section Claim

variable (lib : Common) (lawful : lib.Lawful) (trims : ∀ text, gui.trimWhitespace text = trim text)
include lawful trims

/-- Editing the value that a command line of a request shows writes to the key that was read exactly when that
key is in its place. -/
theorem writesBack_iff (type : ConnectionType) (text command line : Text)
    (listed : command ∈ lib.tokenize text [byte '\n']) (created : line ∈ createCommand command) (argv : List Text)
    (split : sdssplitargslong line = some argv) (children : List FastoObject) (row : Row Address)
    (shown : row ∈ resultRows gui objects type line argv children) (editable : row.readOnly = false) :
    WritesBack lib type argv row ↔ KeyInPlace (argsOf line) := by
  rw [resultRows] at shown
  split at shown
  next reached =>
    obtain ⟨child, _, rfl⟩ := List.mem_map.mp shown
    obtain ⟨word, key, get, shape, rfl, found⟩ := executed_get type line argv editable split reached
    have own : (rowOf gui objects line child).key = (trim (argsOf line)).takeWhile (· ≠ byte ' ') := by
      rw [← trims]
      rfl
    rw [← same_iff_keyInPlace (argsOf line) key found, ← own]
    constructor
    · intro ⟨_, key', same, _, written, _⟩
      obtain ⟨-, rfl⟩ : _ = _ ∧ key = key' := by simpa using same
      exact written
    · intro same
      refine ⟨word, key, rfl, get, same, ?_⟩
      obtain ⟨blanks, key', more, inPlace⟩ := (same_iff_keyInPlace (argsOf line) key found).mp (own ▸ same)
      have own' := split_inPlace inPlace
      rw [found] at own'
      obtain rfl : key = key' := by simpa using own'
      have oneLine : byte '\n' ∉ key := by
        intro member
        have inLine : byte '\n' ∈ line := by
          rw [shape, inPlace.split]
          simp [member]
        rw [lawful.tokenize_eq] at listed
        have clean := (mem_splitOn (byte '\n') text command (List.mem_filter.mp listed).1).1
        rw [createCommand] at created
        split at created
        · cases created
        · obtain rfl := Option.some.inj created
          exact clean (mem_of_mem_stableCommand command _ inLine)
      intro value written made first line posted stable argv' split'
      rw [same] at made
      exact posted_key lib lawful type key value written first posted argv' inPlace.bare inPlace.clean oneLine made line
        stable split'
  next => simp at shown

end Claim

-- The only result of a command.
def onlyResult (line : String) : FastoObject := .plain (.command (.root 0) 1 (ascii line)) 2

theorem spaced_get_writes_back :
    WritesBack .std .redis [ascii "gEt", ascii "user:1"]
      (rowOf Library.std {} (ascii "gEt  user:1 ") (onlyResult "gEt  user:1 ")) := by
  have blank : ∀ c ∈ ascii " ", c = byte ' ' := fun c member => List.mem_singleton.mp member
  have inPlace : KeyInPlace (ascii " user:1 ") :=
    ⟨ascii " ", ascii "user:1", ascii " ",
      { split := rfl
        blank := blank
        bare := by decide
        clean := by decide
        whole := by decide
        start := fun c first => by cases first; decide
        ends := rfl
        rest := blank
        last := fun _ c ending => by cases ending; decide }⟩
  refine (writesBack_iff Library.std {} .std Common.std_lawful (fun _ => rfl) .redis (ascii "gEt  user:1 ")
    (ascii "gEt  user:1 ") (ascii "gEt  user:1 ") (by decide) (by decide) [ascii "gEt", ascii "user:1"] (by decide)
    [onlyResult "gEt  user:1 "] _ ?_ (by decide)).mpr inPlace
  rw [resultRows, get_reached .redis (ascii "gEt") [ascii "user:1"] (by decide)]
  simp

/-- The value of a key that starts with a tab is shown under the key without it. -/
theorem tab_key_overwrites :
    (ascii "GET \tk") ∈ Common.std.tokenize (ascii "GET \tk") [byte '\n'] ∧
      sdssplitargslong (ascii "GET \tk") = some [ascii "GET", ascii "\tk"] ∧
      ∃ row ∈ resultRows Library.std {} .leveldb (ascii "GET \tk") [ascii "GET", ascii "\tk"] [onlyResult "GET \tk"],
        row.readOnly = false ∧ row.key = ascii "k" ∧
          ¬ WritesBack .std .leveldb [ascii "GET", ascii "\tk"] row := by
  refine ⟨by decide, by decide, rowOf Library.std {} (ascii "GET \tk") (onlyResult "GET \tk"),
    ?_, by decide, by decide, ?_⟩
  · rw [resultRows, get_reached .leveldb (ascii "GET") [ascii "\tk"] (by decide)]
    simp
  · intro ⟨word, key, same, _, written, _⟩
    obtain ⟨-, rfl⟩ : _ = _ ∧ ascii "\tk" = key := by simpa using same
    exact absurd written (by decide)

end FastoNoSQL.OutputTree.Edited
