import FastoNoSQL.Command.Holder

set_option autoImplicit false

/-!
# What a command table means

The entry that a line calls, word by word, against the search of
`CommandHandler::Execute`, which counts blanks and compares joined texts.
-/

namespace FastoNoSQL

open Bytes

variable {Handler : Type}

namespace CommandHolder

variable (holder : CommandHolder Handler) (argv : List Text)

def words : List Text := holder.name.splitOn (byte ' ')

-- Words with single blanks between them.
def WellNamed : Prop := ∀ word ∈ holder.words, word ≠ [] ∧ ∀ c ∈ word, isspace c = false

instance : Decidable holder.WellNamed :=
  decidable_of_iff (holder.words.all fun word => !word.isEmpty && word.all fun c => !isspace c) (by simp [WellNamed])

-- One argument for each word, without regard to case.
def CalledBy : Prop :=
  holder.words.length ≤ argv.length ∧
    (argv.take holder.words.length).map (fun arg => lower (cString arg)) = holder.words.map lower

instance : Decidable (holder.CalledBy argv) := inferInstanceAs (Decidable (_ ∧ _))

-- The argument counts that the entry declares.
def Declares (argc : Nat) : Prop :=
  holder.required ≤ argc ∧ (holder.optional = infiniteArgs ∨ argc ≤ holder.required + holder.optional)

instance (argc : Nat) : Decidable (holder.Declares argc) := inferInstanceAs (Decidable (_ ∧ _))

end CommandHolder

-- The call of the first entry that the line names.
def specified (commands : List (CommandHolder Handler)) (argv : List Text) : Dispatch Handler :=
  match commands.find? fun holder => decide (holder.CalledBy argv) with
  | none => .unknownSequence
  | some holder =>
    let args := argv.drop holder.words.length
    if holder.Declares args.length then .call holder args else .invalidArguments holder args.length

section Names

variable (holder : CommandHolder Handler) (named : holder.WellNamed) (argv : List Text)

theorem unwords_words : unwords holder.words = holder.name := List.intercalate_splitOn _

theorem words_ne_nil : holder.words ≠ [] := List.splitOn_ne_nil _ _

theorem lower_unwords (words : List Text) : lower (unwords words) = unwords (words.map lower) := by
  induction words with
  | nil => rfl
  | cons first rest ih =>
      cases rest with
      | nil => simp
      | cons second rest =>
          have blank (text : Text) : lower (byte ' ' :: text) = byte ' ' :: lower text := rfl
          rw [unwords_cons_cons, lower_append, blank, ih, List.map_cons, List.map_cons, List.map_cons,
            unwords_cons_cons]

include named

theorem length_words : holder.words.length = holder.whiteSpacesCount + 1 := by
  obtain ⟨first, rest, shape⟩ := List.exists_cons_of_ne_nil (words_ne_nil holder)
  have spaces (words : List Text) (plain : ∀ word ∈ words, ∀ c ∈ word, isspace c = false) :
      (unwords words).countP isspace = words.length - 1 := by
    induction words with
    | nil => rfl
    | cons first rest ih =>
        have ⟨own, others⟩ := List.forall_mem_cons.mp plain
        have none : first.countP isspace = 0 := List.countP_eq_zero.mpr fun c member => by simp [own c member]
        cases rest with
        | nil => simpa using none
        | cons second rest =>
            have blank : isspace (byte ' ') = true := by decide
            rw [unwords_cons_cons, List.countP_append, List.countP_cons_of_pos blank, ih others, none]
            simp
  have count := spaces holder.words fun word member => (named word member).2
  rw [unwords_words, shape, List.length_cons, Nat.add_sub_cancel] at count
  rw [CommandHolder.whiteSpacesCount, count, shape, List.length_cons]

-- Comparing the joined arguments with the name compares them word by word.
theorem named_iff_calledBy (enough : holder.whiteSpacesCount < argv.length) :
    holder.named argv ↔ holder.CalledBy argv := by
  have count := length_words holder named
  have within : holder.words.length ≤ argv.length := by omega
  rw [CommandHolder.named, CommandHolder.CalledBy, ← count, ← unwords_words holder, lower_unwords, lower_unwords,
    List.map_map]
  constructor
  · intro same
    refine ⟨within, eq_of_unwords_eq _ _ (by simp [within]) ?_ same⟩
    rw [List.forall_mem_map]
    intro word member blank
    obtain ⟨c, inWord, lowered⟩ := List.mem_map.mp blank
    obtain rfl := (lowerByte_eq_space c).mp lowered
    exact absurd ((named word member).2 _ inWord) (by decide)
  · rintro ⟨_, same⟩
    exact congrArg unwords same

end Names

theorem specified_ne_aborted (commands : List (CommandHolder Handler)) (argv : List Text) :
    specified commands argv ≠ .aborted := by
  unfold specified
  split
  · nofun
  · simp only
    split <;> nofun

section Search

variable (holder : CommandHolder Handler) (named : holder.WellNamed) (commands : List (CommandHolder Handler))
variable (argv : List Text) (more : argv ≠ [])
include named more

theorem dispatch_called (called : holder.CalledBy argv) :
    dispatch (holder :: commands) argv =
      let args := argv.drop holder.words.length
      if holder.accepts args.length then .call holder args else .invalidArguments holder args.length := by
  have count := length_words holder named
  have within := called.1
  have nonempty : argv.length ≠ 0 := by simpa using more
  have isNamed := (named_iff_calledBy holder named argv (by omega)).mpr called
  rw [dispatch, if_neg (by omega), if_neg (by omega), if_pos isNamed, ← count]

theorem dispatch_passed (other : ¬ holder.CalledBy argv) :
    dispatch (holder :: commands) argv =
      if holder.words.length ≤ argv.length + 1 then dispatch commands argv else .aborted := by
  have count := length_words holder named
  have nonempty : argv.length ≠ 0 := by simpa using more
  rw [dispatch]
  by_cases even : argv.length = holder.whiteSpacesCount
  · rw [if_pos (Or.inr even), if_pos (by omega)]
  rw [if_neg (by omega)]
  by_cases short : argv.length < holder.whiteSpacesCount
  · rw [if_pos short, if_neg (by omega)]
  · have notNamed := mt (named_iff_calledBy holder named argv (by omega)).mp other
    rw [if_neg short, if_neg notNamed, if_pos (by omega)]

end Search

/-- The search keeps to what the table means exactly when no entry that it passes has more than one word
over the arguments, and an unlimited entry gets at most 255 more than it requires. -/
theorem dispatch_specified_iff (commands : List (CommandHolder Handler))
    (named : ∀ holder ∈ commands, holder.WellNamed) (argv : List Text) (more : argv ≠ []) :
    dispatch commands argv = specified commands argv ↔
      (∀ holder ∈ commands.takeWhile fun holder => !decide (holder.CalledBy argv),
        holder.words.length ≤ argv.length + 1) ∧
      ∀ holder ∈ commands.find? fun holder => decide (holder.CalledBy argv),
        holder.optional = infiniteArgs → argv.length - holder.words.length ≤ holder.required + infiniteArgs := by
  induction commands with
  | nil => simp [dispatch, specified]
  | cons holder commands ih =>
      obtain ⟨own, others⟩ := List.forall_mem_cons.mp named
      by_cases called : holder.CalledBy argv
      · -- The entry is taken, and only its counts matter.
        have found : (holder :: commands).find? (fun holder => decide (holder.CalledBy argv)) = some holder := by
          simp [called]
        rw [dispatch_called holder own commands argv more called, specified, found]
        simp only [called, decide_true, Bool.not_true, List.takeWhile_cons, Bool.false_eq_true, if_false,
          List.not_mem_nil, false_implies, implies_true, true_and, Option.mem_some, forall_eq', List.length_drop]
        simp only [CommandHolder.accepts, CommandHolder.Declares, CommandHolder.minArgumentsCount,
          CommandHolder.maxArgumentsCount]
        by_cases unlimited : holder.optional = infiniteArgs
        · by_cases enough : holder.required ≤ argv.length - holder.words.length
          · by_cases few : argv.length - holder.words.length ≤ holder.required + infiniteArgs
            · simp [unlimited, enough, few]
            · simp [unlimited, enough, few]
          · simp only [enough, false_and, if_false, true_iff]
            omega
        · simp [unlimited]
      · have passed : specified (holder :: commands) argv = specified commands argv := by
          simp [specified, called]
        rw [dispatch_passed holder own commands argv more called, passed]
        simp only [List.takeWhile_cons, called, decide_false, Bool.not_false, if_true, List.forall_mem_cons,
          List.find?_cons]
        by_cases short : holder.words.length ≤ argv.length + 1
        · rw [if_pos short, ih others]
          simp [short]
        · rw [if_neg short]
          simp [short, (specified_ne_aborted commands argv).symm]

def sampleCommands : List (CommandHolder Unit) :=
  [⟨ascii "SET", 2, 0, ()⟩, ⟨ascii "GET CONFIG", 1, 0, ()⟩, ⟨ascii "DEL", 1, infiniteArgs, ()⟩]

theorem sample_dispatched :
    dispatch sampleCommands [ascii "get", ascii "Config", ascii "alex"] =
      specified sampleCommands [ascii "get", ascii "Config", ascii "alex"] :=
  (dispatch_specified_iff sampleCommands (by decide) _ (by decide)).mpr (by decide)

/-- A name of three words stops a line of one, and `DEL` of 257 keys is refused. -/
theorem long_name_aborts_many_keys_refused :
    (∀ holder ∈ (⟨ascii "CLUSTER SET SLOT", 0, 0, ()⟩ : CommandHolder Unit) :: sampleCommands, holder.WellNamed) ∧
      dispatch (⟨ascii "CLUSTER SET SLOT", 0, 0, ()⟩ :: sampleCommands) [ascii "PING"] = .aborted ∧
      dispatch sampleCommands (ascii "DEL" :: List.replicate 257 (ascii "k")) ≠
        specified sampleCommands (ascii "DEL" :: List.replicate 257 (ascii "k")) := by
  refine ⟨by decide, by decide, ?_⟩
  have called : specified sampleCommands (ascii "DEL" :: List.replicate 257 (ascii "k")) =
      .call ⟨ascii "DEL", 1, infiniteArgs, ()⟩ (List.replicate 257 (ascii "k")) := by decide +kernel
  have refused : dispatch sampleCommands (ascii "DEL" :: List.replicate 257 (ascii "k")) =
      .invalidArguments ⟨ascii "DEL", 1, infiniteArgs, ()⟩ 257 := by decide +kernel
  rw [called, refused]
  nofun

end FastoNoSQL
