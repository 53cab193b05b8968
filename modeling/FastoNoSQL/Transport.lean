import Mathlib.Data.List.Infix
import Mathlib.Logic.Function.Basic

set_option autoImplicit false

/-!
# Byte streams read in pieces

Two loops over a stream whose transport chooses how much each call returns: one
collects a line symbol by symbol in a buffer, one reads until a counter is zero.
What is shown of them holds for every way in which the stream is cut into pieces.
-/

namespace Transport

/-- One call for symbols: it returns at most `most` of them, fails, or returns a negative status. -/
inductive Read where
  | chunk (most : Nat)
  | fail
  | status (code : Nat)
deriving DecidableEq

def Read.Counted : Read → Prop
  | .status _ => False
  | _ => True

def Read.supplies : Read → Bool
  | .chunk most => most ≠ 0
  | _ => false

-- The calls that return something while there is something.
def supplied (reads : List Read) : Nat := reads.countP Read.supplies

inductive Received (α : Type) where
  | data (symbols : List α)
  | status (code : Nat)

def receive {α : Type} (size : Nat) (stream : List α) : Read → Option (Received α × List α)
  | .chunk most => some (.data (stream.take (min most size)), stream.drop (min most size))
  | .fail => none
  | .status code => some (.status code, stream)

/-- How a loop over the calls ends; it is blocked when it would go on after the last call. -/
inductive Outcome (α E σ : Type) where
  | undefined
  | blocked
  | error (err : E)
  | done (result : σ) (stream : List α) (reads : List Read)
deriving DecidableEq

/-! ## Outcomes and what they meet -/

section Outcomes

variable {α E F σ τ : Type}

def Outcome.andThen (outcome : Outcome α E σ) (next : σ → List α → List Read → Outcome α E τ) : Outcome α E τ :=
  match outcome with
  | .undefined => .undefined
  | .blocked => .blocked
  | .error err => .error err
  | .done result stream reads => next result stream reads

def Outcome.mapError (f : E → F) : Outcome α E σ → Outcome α F σ
  | .undefined => .undefined
  | .blocked => .blocked
  | .error err => .error (f err)
  | .done result stream reads => .done result stream reads

theorem Outcome.andThen_eq_done {outcome : Outcome α E σ} {next : σ → List α → List Read → Outcome α E τ}
    {last : τ} {left : List α} {unused : List Read} (ran : outcome.andThen next = .done last left unused) :
    ∃ result stream reads, outcome = .done result stream reads ∧ next result stream reads = .done last left unused := by
  cases outcome with
  | done result stream reads => exact ⟨result, stream, reads, rfl, ran⟩
  | _ => simp [Outcome.andThen] at ran

theorem Outcome.andThen_assoc {υ : Type} (outcome : Outcome α E σ) (next : σ → List α → List Read → Outcome α E τ)
    (last : τ → List α → List Read → Outcome α E υ) :
    (outcome.andThen next).andThen last = outcome.andThen fun result stream reads =>
      (next result stream reads).andThen last := by
  cases outcome <;> rfl

@[simp] theorem Outcome.mapError_id (outcome : Outcome α E σ) : outcome.mapError id = outcome := by
  cases outcome <;> rfl

/-- What may be said of a loop that is blocked, that failed and that is done. -/
structure Post (α E σ : Type) where
  blocked : Prop
  error : E → Prop
  done : σ → List α → List Read → Prop

def Outcome.Meets (post : Post α E σ) : Outcome α E σ → Prop
  | .undefined => False
  | .blocked => post.blocked
  | .error err => post.error err
  | .done result stream reads => post.done result stream reads

theorem Outcome.Meets.defined {post : Post α E σ} {outcome : Outcome α E σ} (meets : outcome.Meets post) :
    outcome ≠ .undefined := by
  rintro rfl
  exact meets

theorem Outcome.Meets.mono {post weaker : Post α E σ} {outcome : Outcome α E σ} (meets : outcome.Meets post)
    (blocked : post.blocked → weaker.blocked) (error : ∀ err, post.error err → weaker.error err)
    (done : ∀ result stream reads, post.done result stream reads → weaker.done result stream reads) :
    outcome.Meets weaker := by
  cases outcome with
  | undefined => exact meets
  | blocked => exact blocked meets
  | error err => exact error err meets
  | done result stream reads => exact done result stream reads meets

theorem Outcome.Meets.andThen {post : Post α E σ} {last : Post α E τ} {outcome : Outcome α E σ}
    {next : σ → List α → List Read → Outcome α E τ} (meets : outcome.Meets post)
    (blocked : post.blocked → last.blocked) (error : ∀ err, post.error err → last.error err)
    (done : ∀ result stream reads, post.done result stream reads → (next result stream reads).Meets last) :
    (outcome.andThen next).Meets last := by
  cases outcome with
  | undefined => exact meets
  | blocked => exact blocked meets
  | error err => exact error err meets
  | done result stream reads => exact done result stream reads meets

theorem Outcome.Meets.mapError {post : Post α E σ} {outcome : Outcome α E σ} {f : E → F} {error : F → Prop}
    (meets : outcome.Meets post) (mapped : ∀ err, post.error err → error (f err)) :
    (outcome.mapError f).Meets ⟨post.blocked, error, post.done⟩ := by
  cases outcome with
  | error err => exact mapped err meets
  | _ => exact meets

theorem Outcome.Meets.exists_done {post : Post α E σ} {outcome : Outcome α E σ} (meets : outcome.Meets post)
    (going : ¬post.blocked) (fine : ∀ err, ¬post.error err) :
    ∃ result stream reads, outcome = .done result stream reads ∧ post.done result stream reads := by
  cases outcome with
  | undefined => exact absurd meets (by simp [Outcome.Meets])
  | blocked => exact absurd meets going
  | error err => exact absurd meets (fine err)
  | done result stream reads => exact ⟨result, stream, reads, rfl, meets⟩

end Outcomes

/-! ## Calls -/

@[simp] theorem supplied_nil : supplied [] = 0 := rfl

theorem supplied_cons (read : Read) (reads : List Read) :
    supplied (read :: reads) = supplied reads + if read.supplies then 1 else 0 :=
  List.countP_cons

@[simp] theorem supplied_append (front back : List Read) :
    supplied (front ++ back) = supplied front + supplied back :=
  List.countP_append

@[simp] theorem supplied_replicate_chunk (n : Nat) : supplied (List.replicate n (.chunk 1)) = n := by
  rw [supplied, List.countP_replicate]
  rfl

theorem counted_of_suffix {front reads : List Read} (shape : front <:+ reads)
    (counted : ∀ read ∈ reads, read.Counted) : ∀ read ∈ front, read.Counted :=
  fun read member => counted read (shape.subset member)

/-! ## A line, symbol by symbol -/

section Lines

variable {α E : Type} [DecidableEq α] (capacity : Nat) (lineBreak : α) (failure : E)

-- The cell a call for one symbol is given the address of.
def store (cells : Nat → α) (at_ : Nat) : Received α → Nat → α
  | .data (symbol :: _) => Function.update cells at_ symbol
  | _ => cells

def Received.isNothing : Received α → Bool
  | .data [] => true
  | _ => false

/-- `kept` stands in the buffer before the cell that is read into, `cells` is what the memory holds; line
breaks before the first symbol are skipped, and the end of the buffer is where behaviour is undefined. -/
def readLine : List α → (Nat → α) → List α → List Read → Outcome α E (List α)
  | _, _, _, [] => .blocked
  | kept, cells, stream, read :: reads =>
    match receive 1 stream read with
    | none => .error failure
    | some (received, left) =>
      if received.isNothing then readLine kept cells left reads
      else if capacity ≤ kept.length then .undefined
      else
        let cells := store cells kept.length received
        if cells kept.length = lineBreak then
          if kept = [] then readLine [] cells left reads else .done kept left reads
        else readLine (kept ++ [cells kept.length]) cells left reads

variable {capacity lineBreak failure}

theorem readLine_supplied (most : Nat) (supplies : most ≠ 0) (kept : List α) (cells : Nat → α) (symbol : α)
    (stream : List α) (reads : List Read) :
    readLine capacity lineBreak failure kept cells (symbol :: stream) (.chunk most :: reads) =
      if capacity ≤ kept.length then .undefined
      else if symbol = lineBreak then
        if kept = [] then
          readLine capacity lineBreak failure [] (Function.update cells kept.length symbol) stream reads
        else .done kept stream reads
      else readLine capacity lineBreak failure (kept ++ [symbol]) (Function.update cells kept.length symbol) stream
        reads := by
  have one : min most 1 = 1 := by omega
  simp [readLine, receive, one, Received.isNothing, store]

theorem readLine_idle (most : Nat) (kept : List α) (cells : Nat → α) (stream : List α) (reads : List Read)
    (idle : most = 0 ∨ stream = []) :
    readLine capacity lineBreak failure kept cells stream (.chunk most :: reads) =
      readLine capacity lineBreak failure kept cells stream reads := by
  rcases idle with rfl | rfl <;> simp [readLine, receive, Received.isNothing]

-- Where a line of `count` symbols ends that is kept as `line`, with `after` behind it.
def Line (failure : E) (lineBreak : α) (line : List α) (count : Nat) (after : List α) (reads : List Read) :
    Post α E (List α) where
  blocked := after = [] ∨ supplied reads ≤ count
  error err := err = failure ∧ .fail ∈ reads
  done result left rest :=
    result = line ∧ after = lineBreak :: left ∧ supplied reads = supplied rest + (count + 1) ∧ rest <:+ reads

omit [DecidableEq α] in
theorem Line.step (read : Read) {line after : List α} {count : Nat} {reads : List Read} {outcome : Outcome α E (List α)}
    (later : outcome.Meets (Line failure lineBreak line count after reads)) :
    outcome.Meets (Line failure lineBreak line (count + if read.supplies then 1 else 0) after (read :: reads)) := by
  refine later.mono ?_ ?_ ?_
  · rintro (unclosed | few)
    · exact Or.inl unclosed
    · refine Or.inr ?_
      rw [supplied_cons]
      omega
  · rintro err ⟨same, member⟩
    exact ⟨same, List.mem_cons_of_mem read member⟩
  · rintro result left rest ⟨same, closed, count, suffix⟩
    refine ⟨same, closed, ?_, suffix.trans (List.suffix_cons read reads)⟩
    rw [supplied_cons]
    omega

-- By induction on the calls: what is kept and what of the line is still to come make up the line.
theorem readLine_meets (room : 0 < capacity) (kept : List α) (cells : Nat → α) (breaks : Nat)
    (suffix after : List α) (reads : List Read) (counted : ∀ read ∈ reads, read.Counted)
    (first : kept = [] ∨ breaks = 0) (clean : lineBreak ∉ suffix) (whole : kept ++ suffix = [] → after = [])
    (ends : ∀ symbol ∈ after.head?, symbol = lineBreak)
    (fits : kept.length + suffix.length < capacity ∨ (after = [] ∧ kept.length + suffix.length ≤ capacity)) :
    (readLine capacity lineBreak failure kept cells (List.replicate breaks lineBreak ++ (suffix ++ after)) reads).Meets
      (Line failure lineBreak (kept ++ suffix) (breaks + suffix.length) after reads) := by
  induction reads generalizing kept cells breaks suffix with
  | nil => exact Or.inr (by simp)
  | cons read reads ih =>
      have later : ∀ next ∈ reads, next.Counted := fun next member => counted next (List.mem_cons_of_mem read member)
      cases read with
      | fail => exact ⟨rfl, by simp⟩
      | status code => exact (counted (.status code) (by simp)).elim
      | chunk most =>
          by_cases supplies : most = 0
          · rw [readLine_idle most kept cells _ reads (Or.inl supplies)]
            have next := ih kept cells breaks suffix later first clean whole fits
            simpa [Read.supplies, supplies] using Line.step (.chunk most) next
          · have one : (if (Read.chunk most).supplies then 1 else 0) = 1 := by simp [Read.supplies, supplies]
            cases breaks with
            | succ breaks =>
                have fresh : kept = [] := first.resolve_right (by simp)
                subst fresh
                have next := ih [] (Function.update cells 0 lineBreak) breaks suffix later (Or.inl rfl) clean whole fits
                have started : ¬capacity ≤ ([] : List α).length := Nat.not_le_of_lt room
                have longer := Line.step (.chunk most) next
                rw [one, Nat.add_right_comm] at longer
                rwa [List.replicate_succ, List.cons_append, readLine_supplied most supplies, if_neg started, if_pos rfl,
                  if_pos rfl]
            | zero =>
                cases suffix with
                | cons symbol suffix =>
                    have other : symbol ≠ lineBreak := fun same => clean (by simp [same])
                    have rest : lineBreak ∉ suffix := fun member => clean (by simp [member])
                    have free : ¬capacity ≤ kept.length := by
                      simp only [List.length_cons] at fits
                      omega
                    have next := ih (kept ++ [symbol]) (Function.update cells kept.length symbol) 0 suffix later
                      (Or.inr rfl) rest (by simp) (by simpa [Nat.add_right_comm, Nat.add_assoc] using fits)
                    have longer := Line.step (.chunk most) next
                    rw [one, List.append_assoc] at longer
                    simpa [readLine_supplied most supplies, free, other] using longer
                | nil =>
                    cases after with
                    | nil =>
                        have next := ih kept cells 0 [] later (Or.inr rfl) clean whole fits
                        have stay : readLine capacity lineBreak failure kept cells [] (.chunk most :: reads) =
                            readLine capacity lineBreak failure kept cells [] reads :=
                          readLine_idle most kept cells [] reads (Or.inr rfl)
                        change Outcome.Meets _
                          (readLine capacity lineBreak failure kept cells [] (.chunk most :: reads))
                        rw [stay]
                        exact Outcome.Meets.mono (Line.step (.chunk most) next) (fun _ => Or.inl rfl)
                          (fun err same => same) fun result left rest closed => absurd closed.2.1 (by simp)
                    | cons symbol left =>
                        have same : symbol = lineBreak := ends symbol (by simp)
                        subst same
                        have started : kept ≠ [] := fun empty => absurd (whole (by simp [empty])) (by simp)
                        have free : ¬capacity ≤ kept.length := by simpa using fits
                        have stop : readLine capacity symbol failure kept cells (symbol :: left)
                            (.chunk most :: reads) = .done kept left reads := by
                          rw [readLine_supplied most supplies, if_neg free, if_pos rfl, if_neg started]
                        refine stop ▸ ⟨?_, rfl, ?_, ?_⟩
                        · simp
                        · rw [supplied_cons, one]
                          rfl
                        · exact List.suffix_cons _ _

variable (failure)

-- A stream that arrives one symbol at a time.
theorem readLine_breaks (room : 0 < capacity) (breaks : Nat) (cells : Nat → α) (stream : List α) (reads : List Read) :
    ∃ next, readLine capacity lineBreak failure [] cells (List.replicate breaks lineBreak ++ stream)
        (List.replicate breaks (.chunk 1) ++ reads) = readLine capacity lineBreak failure [] next stream reads := by
  induction breaks generalizing cells with
  | zero => exact ⟨cells, rfl⟩
  | succ breaks ih =>
      have free : ¬capacity ≤ ([] : List α).length := Nat.not_le_of_lt room
      obtain ⟨next, same⟩ := ih (Function.update cells 0 lineBreak)
      refine ⟨next, ?_⟩
      rw [List.replicate_succ, List.cons_append, List.replicate_succ, List.cons_append,
        readLine_supplied 1 (by simp), if_neg free, if_pos rfl, if_pos rfl]
      exact same

theorem readLine_symbols (kept suffix : List α) (cells : Nat → α) (stream : List α) (reads : List Read)
    (clean : lineBreak ∉ suffix) (fits : kept.length + suffix.length ≤ capacity) :
    ∃ next, readLine capacity lineBreak failure kept cells (suffix ++ stream)
        (List.replicate suffix.length (.chunk 1) ++ reads) =
      readLine capacity lineBreak failure (kept ++ suffix) next stream reads := by
  induction suffix generalizing kept cells with
  | nil => exact ⟨cells, by simp⟩
  | cons symbol suffix ih =>
      have other : symbol ≠ lineBreak := fun same => clean (by simp [same])
      have rest : lineBreak ∉ suffix := fun member => clean (by simp [member])
      have free : ¬capacity ≤ kept.length := by
        simp only [List.length_cons] at fits
        omega
      obtain ⟨next, same⟩ := ih (kept ++ [symbol]) (Function.update cells kept.length symbol) rest
        (by simpa [Nat.add_right_comm, Nat.add_assoc] using fits)
      refine ⟨next, ?_⟩
      rw [List.cons_append, List.length_cons, List.replicate_succ, List.cons_append, readLine_supplied 1 (by simp),
        if_neg free, if_neg other, same, List.append_assoc]
      rfl

theorem readLine_stop (kept left : List α) (cells : Nat → α) (reads : List Read) (some_ : kept ≠ [])
    (fits : kept.length < capacity) :
    readLine capacity lineBreak failure kept cells (lineBreak :: left) (.chunk 1 :: reads) = .done kept left reads := by
  rw [readLine_supplied 1 (by simp), if_neg (Nat.not_le_of_lt fits), if_pos rfl, if_neg some_]

theorem readLine_overrun (room : 0 < capacity) (breaks : Nat) (line rest : List α) (cells : Nat → α)
    (reads : List Read) (clean : lineBreak ∉ line) (full : line.length = capacity) (more : rest ≠ []) :
    readLine capacity lineBreak failure [] cells (List.replicate breaks lineBreak ++ (line ++ rest))
      (List.replicate breaks (.chunk 1) ++ (List.replicate line.length (.chunk 1) ++ .chunk 1 :: reads)) =
      .undefined := by
  obtain ⟨started, same⟩ := readLine_breaks failure room breaks cells (line ++ rest)
    (List.replicate line.length (.chunk 1) ++ .chunk 1 :: reads)
  rw [same]
  obtain ⟨ended, same⟩ := readLine_symbols failure [] line started rest (.chunk 1 :: reads) clean
    (by simpa using full.le)
  obtain ⟨symbol, rest, rfl⟩ := List.exists_cons_of_ne_nil more
  rw [same, readLine_supplied 1 (by simp), if_pos (by simpa using full.ge)]

-- A call that returns a status stores nothing, and the loop goes on as if it had.
theorem readLine_status (code : Nat) (kept : List α) (cells : Nat → α) (stream : List α) (reads : List Read)
    (other : cells kept.length ≠ lineBreak) (fits : kept.length < capacity) :
    readLine capacity lineBreak failure kept cells stream (.status code :: reads) =
      readLine capacity lineBreak failure (kept ++ [cells kept.length]) cells stream reads := by
  simp [readLine, receive, Received.isNothing, store, other, Nat.not_le_of_lt fits]

theorem readLine_statuses (n : Nat) (code : Nat) (kept : List α) (cells : Nat → α) (stream : List α)
    (other : ∀ at_, cells at_ ≠ lineBreak) (full : kept.length + n = capacity) :
    readLine capacity lineBreak failure kept cells stream (List.replicate (n + 1) (.status code)) = .undefined := by
  induction n generalizing kept with
  | zero => simp [List.replicate_succ, readLine, receive, Received.isNothing, ← full]
  | succ n ih =>
      rw [List.replicate_succ, readLine_status failure code kept cells stream _ (other _) (by omega)]
      exact ih (kept ++ [cells kept.length]) (by simpa [Nat.add_right_comm, Nat.add_assoc] using full)

end Lines

/-! ## A counted number of symbols -/

section Counted

variable {α E σ : Type} (size : Nat) (failure : σ → E) (handle : Nat → σ → Received α → Except E (Nat × σ))

/-- Reads pieces of at most `size` until the counter is zero; what a call returned is handled with the
counter, and the handler says what is left of it. -/
def untilZero : Nat → σ → List α → List Read → Outcome α E σ
  | 0, state, stream, reads => .done state stream reads
  | _ + 1, _, _, [] => .blocked
  | count + 1, state, stream, read :: reads =>
    match receive (min size (count + 1)) stream read with
    | none => .error (failure state)
    | some (received, left) =>
      match handle (count + 1) state received with
      | .error err => .error err
      | .ok (count, state) => untilZero count state left reads

variable {size failure handle}

/-- What a handler does that counts down what it is given: `inv` holds of what was taken and the state. -/
def Takes (limit : Nat) (inv : List α → σ → Prop) (refused : E → Prop)
    (handle : Nat → σ → Received α → Except E (Nat × σ)) : Prop :=
  ∀ count state taken symbols, count ≤ limit → inv taken state → symbols.length ≤ count →
    match handle count state (.data symbols) with
    | .error err => refused err
    | .ok (left, next) => left = count - symbols.length ∧ inv (taken ++ symbols) next

-- By induction on the calls: the counter is what is still to be taken.
theorem untilZero_meets {limit : Nat} {inv : List α → σ → Prop} {refused : E → Prop}
    (takes : Takes limit inv refused handle) (positive : 0 < size) (count : Nat) (within : count ≤ limit) (state : σ)
    (taken stream : List α) (reads : List Read)
    (counted : ∀ read ∈ reads, read.Counted) (holds : inv taken state) :
    (untilZero size failure handle count state stream reads).Meets
      ⟨stream.length < count ∨ supplied reads < count,
        fun err => refused err ∨ ((∃ state, err = failure state) ∧ .fail ∈ reads),
        fun result left rest => left = stream.drop count ∧ count ≤ stream.length ∧
          inv (taken ++ stream.take count) result ∧ rest <:+ reads⟩ := by
  induction reads generalizing count state taken stream with
  | nil =>
      cases count with
      | zero => exact ⟨rfl, Nat.zero_le _, by simpa using holds, List.suffix_refl _⟩
      | succ count => exact Or.inr (by simp)
  | cons read reads ih =>
      have later : ∀ next ∈ reads, next.Counted := fun next member => counted next (List.mem_cons_of_mem read member)
      cases count with
      | zero => exact ⟨rfl, Nat.zero_le _, by simpa using holds, List.suffix_refl _⟩
      | succ count =>
          cases read with
          | fail => exact Or.inr ⟨⟨state, rfl⟩, by simp⟩
          | status code => exact (counted (.status code) (by simp)).elim
          | chunk most =>
              simp only [untilZero, receive]
              obtain ⟨n, size_⟩ : ∃ n, n = min most (min size (count + 1)) := ⟨_, rfl⟩
              rw [← size_]
              have piece : (stream.take n).length = min n stream.length := List.length_take
              have behind : (stream.drop n).length = stream.length - n := List.length_drop
              have step := takes (count + 1) state taken (stream.take n) within holds (by omega)
              cases handled : handle (count + 1) state (.data (stream.take n)) with
              | error err =>
                  rw [handled] at step
                  exact Or.inl step
              | ok result =>
                  obtain ⟨left, next⟩ := result
                  rw [handled] at step
                  obtain ⟨rfl, holds⟩ := step
                  refine (ih _ (by omega) next _ _ later holds).mono ?_ ?_ ?_
                  · rintro (short | few)
                    · exact Or.inl (by omega)
                    · by_cases empty : stream.length = 0
                      · exact Or.inl (by omega)
                      · refine Or.inr ?_
                        rw [supplied_cons]
                        by_cases idle : most = 0
                        · simp only [Read.supplies, idle, ne_eq, not_true, decide_false]
                          rw [if_neg (by simp)]
                          omega
                        · simp only [Read.supplies, ne_eq, idle, not_false_eq_true, decide_true, if_true]
                          omega
                  · rintro err (refused | ⟨same, member⟩)
                    · exact Or.inl refused
                    · exact Or.inr ⟨same, List.mem_cons_of_mem _ member⟩
                  · rintro result left rest ⟨rfl, enough, holds, suffix⟩
                    have all : n + (count + 1 - (stream.take n).length) = count + 1 := by omega
                    refine ⟨?_, by omega, ?_, suffix.trans (List.suffix_cons _ _)⟩
                    · rw [List.drop_drop, all]
                    · rwa [List.append_assoc, ← List.take_add, all] at holds

end Counted

end Transport
