import FastoNoSQL.Driver.Requests
import FastoNoSQL.Runs
import Mathlib.Data.List.Nodup
import Mathlib.Data.Prod.Lex
import Mathlib.Order.WellFounded

set_option autoImplicit false

/-!
# Requests and their answers

`core/server/iserver.cpp`: the functions of `IServer` that post a request to the
driver, and `IServer::customEvent`, which turns the events that come back into
signals. The two objects live in different threads and have a queue of events
each, so that posting, handling and answering interleave.
-/

namespace FastoNoSQL.Requests

open Bytes

inductive Signal where
  | started (kind : Kind)
  | finished (kind : Kind) (error : Option ErrorValue)
  | progressChanged (value : Int)
  | rootCreated
  | rootCompleated
  | modeEntered
  | modeLeaved (error : Option ErrorValue)
deriving DecidableEq

/-- `IServer::customEvent`. It has no branch for the responses to a shutdown and to the arguments of
the configuration, so `HandleShutdownEvent` is never called. -/
def Event.signals : Event → List Signal
  | progress value => [.progressChanged value]
  | responce kind error =>
    if kind = .shutDown ∨ kind = .processConfigArgs then [] else [.finished kind error]
  | commandRootCreated => [.rootCreated]
  | commandRootCompleated => [.rootCompleated]
  | enterMode => [.modeEntered]
  | leaveMode error => [.modeLeaved error]

variable {ServerInfo DatabaseInfo : Type}

-- Requests are numbered as they are posted; what belongs to one carries its number.
abbrev Numbered (Content : Type) := List (Nat × Content)

def numbered {Content : Type} (id : Nat) (contents : List Content) : Numbered Content := contents.map (id, ·)

/-- The server, its driver and what is on the way between them. -/
structure System (ServerInfo DatabaseInfo : Type) where
  posted : Nat
  requests : Numbered Request
  driver : Discovery.State ServerInfo DatabaseInfo
  -- The events that the handler under way has yet to post, and those the server has yet to handle.
  handling : Numbered Event
  events : Numbered Event
  signals : Numbered Signal
  aborted : Bool

inductive Action (ServerInfo DatabaseInfo : Type) where
  | post (request : Request)
  | drive (results : Results ServerInfo DatabaseInfo)
  | deliver

def Action.isHandler : Action ServerInfo DatabaseInfo → Bool
  | post _ => false
  | _ => true

-- What a function of `IServer` emits itself; `ProcessConfigArgs` only notifies.
def opening (kind : Kind) : List Signal :=
  (if kind = .processConfigArgs then [] else [.started kind]) ++ [.progressChanged 0]

namespace System

variable (system : System ServerInfo DatabaseInfo)

def initial : System ServerInfo DatabaseInfo := ⟨0, [], .initial, [], [], [], false⟩

-- A request function of `IServer`: `XStarted`, the progress of `notify`, and the event.
def post (request : Request) : System ServerInfo DatabaseInfo :=
  { system with
    posted := system.posted + 1
    requests := system.requests ++ [(system.posted, request)]
    signals := system.signals ++ numbered system.posted (opening request.kind) }

-- The driver posts the next event of its handler, or goes on to the next request.
def drive (lib : Common) (type : ConnectionType) (results : Results ServerInfo DatabaseInfo) :
    System ServerInfo DatabaseInfo :=
  match system.handling, system.requests with
  | event :: handling, _ => { system with handling := handling, events := system.events ++ [event] }
  | [], [] => system
  | [], (id, request) :: requests =>
    match customEvent lib type results system.driver request with
    | none => { system with aborted := true }
    | some (driver, events) =>
      { system with requests := requests, driver := driver, handling := numbered id events }

-- A connection without an error is followed by its discovery and its configuration.
def deliver : System ServerInfo DatabaseInfo :=
  match system.events with
  | [] => system
  | (id, event) :: events =>
    let next := { system with events := events, signals := system.signals ++ numbered id event.signals }
    if event = .responce .connect none then
      (next.post { kind := .processDiscoveryInfo }).post { kind := .processConfigArgs }
    else next

def step (lib : Common) (type : ConnectionType) (system : System ServerInfo DatabaseInfo)
    (action : Action ServerInfo DatabaseInfo) : System ServerInfo DatabaseInfo :=
  if system.aborted then system
  else
    match action with
    | .post request => system.post request
    | .drive results => system.drive lib type results
    | .deliver => system.deliver

end System

/-! ## Answered requests -/

section Statements

variable (lib : Common) (type : ConnectionType)

def isFinished (id : Nat) (kind : Kind) : Nat × Signal → Bool
  | (owner, .finished other _) => owner = id && other = kind
  | _ => false

def progressOf (id : Nat) : Nat × Signal → Option Int
  | (owner, .progressChanged value) => if owner = id then some value else none
  | _ => none

-- Every started request is finished once, and its last progress is 100.
def Answered (signals : Numbered Signal) : Prop :=
  ∀ before id kind after, signals = before ++ (id, .started kind) :: after →
    after.countP (isFinished id kind) = 1 ∧ (signals.filterMap (progressOf id)).getLast? = some 100

-- Neither thread has anything left to do.
def AtRest (system : System ServerInfo DatabaseInfo) : Prop :=
  ∀ action, action.isHandler = true → system.step lib type action = system

-- One of the threads moves on.
def Handles (after before : System ServerInfo DatabaseInfo) : Prop :=
  ∃ action, action.isHandler = true ∧ after = before.step lib type action ∧ after ≠ before

-- Requests that are followed through to the end.
def Followed (kind : Kind) : Prop :=
  kind ≠ .shutDown ∧ kind ≠ .requestHistoryInfo ∧ kind ≠ .clearHistory

-- No shutdown and nothing about the history is requested, and the databases are loaded when the driver knows its
-- current one.
def Meets (system : System ServerInfo DatabaseInfo) : Action ServerInfo DatabaseInfo → Prop
  | .post request => Followed request.kind
  | .drive results =>
    system.handling = [] → ∀ request ∈ system.requests.head?, request.2.kind = .loadDatabases →
      DatabaseKnown type results system.driver
  | .deliver => True

end Statements

/-! ## The story of one request -/

section Stories

variable {Content : Type} (id : Nat)

def story (entries : Numbered Content) : List Content :=
  entries.filterMap fun entry => if entry.1 = id then some entry.2 else none

@[simp] theorem story_nil : story id ([] : Numbered Content) = [] := rfl

@[simp] theorem story_append (first second : Numbered Content) :
    story id (first ++ second) = story id first ++ story id second := List.filterMap_append

@[simp] theorem story_cons (owner : Nat) (content : Content) (entries : Numbered Content) :
    story id ((owner, content) :: entries) = (if owner = id then [content] else []) ++ story id entries := by
  by_cases same : owner = id <;> simp [story, same]

@[simp] theorem story_numbered (owner : Nat) (contents : List Content) :
    story id (numbered owner contents) = if owner = id then contents else [] := by
  by_cases same : owner = id <;> simp [story, numbered, same, List.filterMap_map]

theorem mem_story (content : Content) (entries : Numbered Content) :
    content ∈ story id entries ↔ (id, content) ∈ entries := by
  simp [story]

end Stories

section Sound

variable (lib : Common) (type : ConnectionType)

-- The signals of a request, with those that its events on the way will bring.
def told (system : System ServerInfo DatabaseInfo) (id : Nat) : List Signal :=
  story id system.signals ++ (story id (system.events ++ system.handling)).flatMap Event.signals

-- A request waits in the queue, or its handler has run once.
def Kept (system : System ServerInfo DatabaseInfo) (id : Nat) (request : Request) : Prop :=
  (id, request) ∈ system.requests ∧ told system id = opening request.kind ∨
    id ∉ system.requests.map Prod.fst ∧
      ∃ (results : Results ServerInfo DatabaseInfo) (state after : Discovery.State ServerInfo DatabaseInfo) (events : List Event),
        customEvent lib type results state request = some (after, events) ∧
          told system id = opening request.kind ++ events.flatMap Event.signals

structure Sound (system : System ServerInfo DatabaseInfo) : Prop where
  kept : ∀ id < system.posted, ∃ request, opening request.kind <+: story id system.signals ∧ Kept lib type system id request
  unposted : ∀ id ≥ system.posted, told system id = [] ∧ id ∉ system.requests.map Prod.fst
  distinct : (system.requests.map Prod.fst).Nodup
  stuck : system.aborted = true → ∃ id request, (id, request) ∈ system.requests ∧ request.kind = .loadDatabases

theorem sound_initial : Sound lib type (System.initial : System ServerInfo DatabaseInfo) where
  kept id bound := absurd bound (Nat.not_lt_zero id)
  unposted id _ := ⟨rfl, List.not_mem_nil⟩
  distinct := List.nodup_nil
  stuck aborted := by cases aborted

variable {lib type} {system : System ServerInfo DatabaseInfo} (sound : Sound lib type system)

include sound

theorem Sound.post (request : Request) : Sound lib type (system.post request) := by
  have told_post (id : Nat) : told (system.post request) id =
      story id system.signals ++ (if system.posted = id then opening request.kind else []) ++
        (story id (system.events ++ system.handling)).flatMap Event.signals := by
    simp [told, System.post]
  have nothing := (sound.unposted system.posted (Nat.le_refl _)).1
  rw [told, List.append_eq_nil_iff] at nothing
  have fresh : told (system.post request) system.posted = opening request.kind := by
    rw [told_post, nothing.1, nothing.2, if_pos rfl, List.nil_append, List.append_nil]
  have other (id : Nat) (differs : system.posted ≠ id) : told (system.post request) id = told system id := by
    rw [told_post, if_neg differs, List.append_nil, told]
  have queued (id : Nat) : id ∈ (system.post request).requests.map Prod.fst ↔
      id ∈ system.requests.map Prod.fst ∨ id = system.posted := by
    simp [System.post]
  refine ⟨fun id bound => ?_, fun id bound => ?_, ?_, fun aborted => ?_⟩
  · by_cases same : system.posted = id
    · subst same
      refine ⟨request, ?_, Or.inl ⟨by simp [System.post], fresh⟩⟩
      simp [System.post, nothing.1]
    · have earlier : id < system.posted := by
        change id < system.posted + 1 at bound
        omega
      obtain ⟨old, opened, kept⟩ := sound.kept id earlier
      refine ⟨old, ?_, ?_⟩
      · simpa [System.post, same] using opened
      · unfold Kept
        rw [other id same, queued]
        rcases kept with ⟨waiting, story⟩ | ⟨gone, handled⟩
        · exact Or.inl ⟨by simp [System.post, waiting], story⟩
        · exact Or.inr ⟨by simp [gone, Ne.symm same], handled⟩
  · change system.posted + 1 ≤ id at bound
    have differs : system.posted ≠ id := by omega
    rw [other id differs, queued]
    obtain ⟨nothing, absent⟩ := sound.unposted id (by omega)
    exact ⟨nothing, by simp [absent, Ne.symm differs]⟩
  · have shape : (system.post request).requests.map Prod.fst = system.requests.map Prod.fst ++ [system.posted] := by
      simp [System.post]
    rw [shape, List.nodup_append]
    refine ⟨sound.distinct, by simp, fun id member other last => ?_⟩
    rw [List.mem_singleton] at last
    have absent := (sound.unposted system.posted (Nat.le_refl _)).2
    intro same
    exact absent (last ▸ same ▸ member)
  · obtain ⟨id, waiting, member, kind⟩ := sound.stuck aborted
    exact ⟨id, waiting, by simp [System.post, member], kind⟩

-- Events that move on along the way tell the same story.
theorem Sound.moved (events handling : Numbered Event) (signals : Numbered Signal)
    (same : ∀ id, told { system with events, handling, signals } id = told system id)
    (longer : ∀ id, story id system.signals <+: story id signals) :
    Sound lib type { system with events, handling, signals } where
  kept id bound := by
    obtain ⟨request, opened, kept⟩ := sound.kept id bound
    refine ⟨request, opened.trans (longer id), ?_⟩
    unfold Kept
    rw [same id]
    exact kept
  unposted id bound := by
    rw [same id]
    exact sound.unposted id bound
  distinct := sound.distinct
  stuck := sound.stuck

theorem Sound.handled (live : system.aborted = false) (id : Nat) (request : Request) (requests : Numbered Request)
    (queue : system.requests = (id, request) :: requests) (idle : system.handling = [])
    (results : Results ServerInfo DatabaseInfo) (after : Discovery.State ServerInfo DatabaseInfo) (events : List Event)
    (handled : customEvent lib type results system.driver request = some (after, events)) :
    Sound lib type { system with requests, driver := after, handling := numbered id events } := by
  have distinct := sound.distinct
  rw [queue, List.map_cons, List.nodup_cons] at distinct
  have told_after (other : Nat) : told { system with requests, driver := after, handling := numbered id events } other =
      told system other ++ if id = other then events.flatMap Event.signals else [] := by
    by_cases same : id = other <;> simp [told, idle, same]
  refine ⟨fun other bound => ?_, fun other bound => ?_, distinct.2, fun aborted => ?_⟩
  · obtain ⟨old, opened, kept⟩ := sound.kept other bound
    refine ⟨old, opened, ?_⟩
    unfold Kept at kept ⊢
    rw [queue] at kept
    rw [told_after]
    by_cases same : id = other
    · subst same
      -- The request leaves the queue, and nothing of its number is left there.
      rcases kept with ⟨waiting, story⟩ | ⟨gone, _⟩
      · obtain rfl : old = request := by
          rcases List.mem_cons.mp waiting with first | later
          · exact (Prod.mk.inj first).2
          · exact absurd (List.mem_map.mpr ⟨_, later, rfl⟩) distinct.1
        exact Or.inr ⟨distinct.1, results, system.driver, after, events, handled, by rw [story, if_pos rfl]⟩
      · exact absurd (by simp) gone
    · rw [if_neg same, List.append_nil]
      rcases kept with ⟨waiting, story⟩ | ⟨gone, earlier⟩
      · left
        refine ⟨?_, story⟩
        rcases List.mem_cons.mp waiting with first | later
        · exact absurd (Prod.mk.inj first).1.symm same
        · exact later
      · rw [List.map_cons, List.mem_cons, not_or] at gone
        exact Or.inr ⟨gone.2, earlier⟩
  · obtain ⟨nothing, absent⟩ := sound.unposted other bound
    rw [queue, List.map_cons, List.mem_cons, not_or] at absent
    rw [told_after, nothing, if_neg (Ne.symm absent.1)]
    exact ⟨rfl, absent.2⟩
  · rw [live] at aborted
    cases aborted

theorem Sound.drive (live : system.aborted = false) (results : Results ServerInfo DatabaseInfo) :
    Sound lib type (system.drive lib type results) := by
  unfold System.drive
  split
  next event handling more =>
    apply sound.moved
    · intro id
      simp [told, more]
    · exact fun id => List.prefix_rfl
  next => exact sound
  next id request requests idle queue =>
    split
    next none =>
      refine ⟨sound.kept, sound.unposted, sound.distinct, fun _ => ⟨id, request, by simp [queue], ?_⟩⟩
      have aborts := customEvent_isSome_iff lib type results system.driver request
      rw [none] at aborts
      by_contra other
      simp [other] at aborts
    next driver events handled => exact sound.handled live id request requests queue idle results driver events handled

theorem Sound.deliver : Sound lib type system.deliver := by
  unfold System.deliver
  split
  next => exact sound
  next id event events more =>
    have next := sound.moved events system.handling (system.signals ++ numbered id event.signals)
      (by
        intro other
        by_cases same : id = other <;> simp [told, more, same])
      (by
        intro other
        rw [story_append]
        exact List.prefix_append _ _)
    dsimp only
    split
    · exact (next.post _).post _
    · exact next

theorem Sound.step (action : Action ServerInfo DatabaseInfo) : Sound lib type (system.step lib type action) := by
  unfold System.step
  split
  next => exact sound
  next live =>
    cases action with
    | post request => exact sound.post request
    | drive results => exact sound.drive (by simpa using live) results
    | deliver => exact sound.deliver

end Sound

/-! ## Reading the story -/

def Signal.finishes (kind : Kind) : Signal → Bool
  | finished other _ => other = kind
  | _ => false

def Signal.progress? : Signal → Option Int
  | progressChanged value => some value
  | _ => none

section Reading

variable (id : Nat) (kind : Kind)

theorem countP_isFinished (signals : Numbered Signal) :
    signals.countP (isFinished id kind) = (story id signals).countP (Signal.finishes kind) := by
  induction signals with
  | nil => rfl
  | cons entry signals ih =>
      obtain ⟨owner, signal⟩ := entry
      rw [List.countP_cons, story_cons, List.countP_append, ih, Nat.add_comm]
      by_cases same : owner = id <;> cases signal <;> simp [isFinished, Signal.finishes, same, List.countP_cons]

theorem filterMap_progressOf (signals : Numbered Signal) :
    signals.filterMap (progressOf id) = (story id signals).filterMap Signal.progress? := by
  rw [story, List.filterMap_filterMap]
  congr 1
  funext (owner, signal)
  by_cases same : owner = id <;> cases signal <;> simp [progressOf, Signal.progress?, same]

theorem started_not_mem (events : List Event) : .started kind ∉ events.flatMap Event.signals := by
  intro member
  obtain ⟨event, _, found⟩ := List.mem_flatMap.mp member
  cases event <;> simp [Event.signals] at found

theorem finishes_of_quiet (events : List Event) (quiet : ∀ event ∈ events, event.isResponce = false) :
    (events.flatMap Event.signals).countP (Signal.finishes kind) = 0 := by
  rw [List.countP_eq_zero]
  intro signal member finishes
  obtain ⟨event, among, found⟩ := List.mem_flatMap.mp member
  have none := quiet event among
  cases event with
  | responce => cases none
  | _ =>
      rw [List.mem_singleton.mp found] at finishes
      cases finishes

variable {kind} {events : List Event} (answers : Answers kind events)

include answers

theorem Answers.finished (config : kind ≠ .processConfigArgs) :
    (events.flatMap Event.signals).countP (Signal.finishes kind) = if kind = .shutDown then 0 else 1 := by
  obtain ⟨front, back, error, rfl, quiet, closing⟩ := answers
  have last : (back.flatMap Event.signals).countP (Signal.finishes kind) = 0 := by
    apply finishes_of_quiet
    intro event member
    rw [closing event member]
    rfl
  rw [List.flatMap_append, List.countP_append, finishes_of_quiet kind front quiet, List.flatMap_cons,
    List.flatMap_cons, List.countP_append, List.countP_append, last]
  by_cases down : kind = .shutDown <;> simp [Event.signals, Signal.finishes, down, config]

theorem Answers.progress (opened : List Signal) :
    ((opened ++ events.flatMap Event.signals).filterMap Signal.progress?).getLast? = some 100 := by
  obtain ⟨front, back, error, rfl, quiet, closing⟩ := answers
  have last : (back.flatMap Event.signals).filterMap Signal.progress? = [] := by
    rw [List.filterMap_eq_nil_iff]
    intro signal member
    obtain ⟨event, among, found⟩ := List.mem_flatMap.mp member
    rw [closing event among] at found
    rw [List.mem_singleton.mp found]
    rfl
  have middle : (Event.signals (.responce kind error)).filterMap Signal.progress? = [] := by
    dsimp only [Event.signals]
    split <;> rfl
  simp only [List.flatMap_append, List.flatMap_cons, List.filterMap_append, middle, last]
  simp [Event.signals, Signal.progress?]

end Reading

/-! ## Whole runs -/

section Runs

variable (lib : Common) (type : ConnectionType)

-- The program runs, and only requests that are followed through were started.
def Good (system : System ServerInfo DatabaseInfo) : Prop :=
  system.aborted = false ∧ ∀ id kind, (id, .started kind) ∈ system.signals → Followed kind

theorem good_post (system : System ServerInfo DatabaseInfo) (request : Request) :
    Good (system.post request) ↔ Good system ∧ Followed request.kind := by
  have started (id : Nat) (kind : Kind) : (id, .started kind) ∈ (system.post request).signals ↔
      (id, .started kind) ∈ system.signals ∨
        id = system.posted ∧ kind = request.kind ∧ request.kind ≠ .processConfigArgs := by
    by_cases config : request.kind = .processConfigArgs <;>
      simp [System.post, numbered, opening, config, eq_comm]
  simp only [Good, started]
  constructor
  · intro ⟨live, all⟩
    refine ⟨⟨live, fun id kind member => all id kind (Or.inl member)⟩, ?_⟩
    by_cases config : request.kind = .processConfigArgs
    · rw [config]
      simp [Followed]
    · exact all system.posted request.kind (Or.inr ⟨rfl, rfl, config⟩)
  · intro ⟨⟨live, all⟩, followed⟩
    refine ⟨live, fun id kind member => ?_⟩
    rcases member with old | ⟨_, rfl, _⟩
    · exact all id kind old
    · exact followed

theorem good_drive (system : System ServerInfo DatabaseInfo) (results : Results ServerInfo DatabaseInfo) :
    Good (system.drive lib type results) ↔ Good system ∧ Meets type system (.drive results) := by
  unfold System.drive Meets
  split
  next event handling more => simp [Good, more]
  next idle empty => simp [empty]
  next id request requests idle queue =>
    have known := customEvent_isSome_iff lib type results system.driver request
    simp only [idle, queue, List.head?_cons, Option.mem_some_iff, forall_eq', forall_const]
    rw [← known]
    split
    next none => simp [Good, none]
    next driver events handled => simp [Good, handled]

theorem good_deliver (system : System ServerInfo DatabaseInfo) : Good system.deliver ↔ Good system := by
  unfold System.deliver
  split
  next => rfl
  next id event events more =>
    have next : Good { system with events, signals := system.signals ++ numbered id event.signals } ↔ Good system := by
      have silent (owner : Nat) (kind : Kind) : (owner, .started kind) ∉ numbered id event.signals := by
        intro member
        obtain ⟨signal, found, same⟩ := List.mem_map.mp member
        obtain ⟨_, rfl⟩ := Prod.mk.inj same
        exact started_not_mem kind [event] (by simpa using found)
      simp [Good, silent]
    dsimp only
    split
    · rw [good_post, good_post, next]
      simp [Followed]
    · exact next

theorem good_step (system : System ServerInfo DatabaseInfo) (action : Action ServerInfo DatabaseInfo) :
    Good (system.step lib type action) ↔ Good system ∧ Meets type system action := by
  unfold System.step
  split
  next aborted => simp [Good, aborted]
  next live =>
    cases action with
    | post request => exact good_post system request
    | drive results => exact good_drive lib type system results
    | deliver => simpa [Meets] using good_deliver system

variable {lib type} {system : System ServerInfo DatabaseInfo}

theorem System.deliver_events : system.deliver.events = system.events.tail := by
  unfold System.deliver
  split
  next empty => rw [empty, List.tail_nil]
  next id event events more =>
    rw [more, List.tail_cons]
    dsimp only
    split <;> rfl

theorem AtRest.empty (rest : AtRest lib type system) (live : system.aborted = false) :
    system.requests = [] ∧ system.handling = [] ∧ system.events = [] := by
  let results : Results ServerInfo DatabaseInfo :=
    ⟨none, id, false, false, ⟨fun state _ => (state, none), fun _ => false⟩, fun _ => 0, []⟩
  have driven : system.drive lib type results = system := by
    simpa [System.step, live] using rest (.drive results) rfl
  have delivered : system.deliver = system := by
    simpa [System.step, live] using rest .deliver rfl
  have events : system.events = [] := by
    have tail := congrArg System.events delivered
    rw [System.deliver_events] at tail
    cases queue : system.events with
    | nil => rfl
    | cons event events =>
        rw [queue, List.tail_cons] at tail
        exact absurd tail (List.cons_ne_self _ _).symm
  unfold System.drive at driven
  split at driven
  next event handling more =>
    have tail := congrArg System.handling driven
    rw [more] at tail
    exact absurd tail (List.cons_ne_self _ _).symm
  next idle empty => exact ⟨empty, idle, events⟩
  next id request requests idle queue =>
    split at driven
    next =>
      have aborted := congrArg System.aborted driven
      rw [live] at aborted
      cases aborted
    next =>
      have tail := congrArg System.requests driven
      rw [queue] at tail
      exact absurd tail (List.cons_ne_self _ _).symm

-- Requests to connect whose answer has not reached the server.
def connects (system : System ServerInfo DatabaseInfo) : Nat :=
  system.requests.countP (·.2.kind = .connect) + (system.events ++ system.handling).countP (·.2.isConnect)

-- A request brings any number of events, and the answer to a connect two requests.
def pending (system : System ServerInfo DatabaseInfo) : Nat ×ₗ Nat ×ₗ Nat ×ₗ Nat ×ₗ Nat :=
  toLex (if system.aborted then 0 else 1, toLex (connects system, toLex (system.requests.length,
    toLex (system.handling.length, system.events.length))))

theorem pending_drive (live : system.aborted = false) (results : Results ServerInfo DatabaseInfo)
    (moves : system.drive lib type results ≠ system) : pending (system.drive lib type results) < pending system := by
  unfold System.drive at moves ⊢
  split at moves
  next event handling more =>
    have same : connects { system with handling, events := system.events ++ [event] } = connects system := by
      simp [connects, more]
    simp [pending, Prod.Lex.toLex_lt_toLex, same, more]
  next => exact absurd rfl moves
  next id request requests idle queue =>
    split
    next => simp [pending, Prod.Lex.toLex_lt_toLex, live]
    next driver events handled =>
      have fewer : connects { system with requests, driver, handling := numbered id events } ≤ connects system := by
        have bound := customEvent_connects lib type results system.driver request driver events handled
        have count : (numbered id events).countP (·.2.isConnect) = events.countP Event.isConnect := by
          simp [numbered, List.countP_map, Function.comp_def]
        simp only [connects, queue, idle, List.countP_append, List.countP_cons, count, List.append_nil]
        by_cases kind : request.kind = .connect
        · rw [if_pos kind] at bound
          simp only [kind, decide_true, if_true]
          omega
        · rw [if_neg kind] at bound
          simp only [kind, decide_false, Bool.false_eq_true, if_false]
          omega
      have shorter : requests.length < system.requests.length := by simp [queue]
      simp only [pending, Prod.Lex.toLex_lt_toLex, lt_irrefl, false_or, true_and]
      rcases fewer.lt_or_eq with less | same
      · exact Or.inl less
      · exact Or.inr ⟨same, Or.inl shorter⟩

theorem pending_deliver (moves : system.deliver ≠ system) : pending system.deliver < pending system := by
  unfold System.deliver at moves ⊢
  split at moves
  next => exact absurd rfl moves
  next id event events more =>
    dsimp only
    split
    next connected =>
      have fewer : connects ((({ system with
          events, signals := system.signals ++ numbered id event.signals }).post
            { kind := .processDiscoveryInfo }).post { kind := .processConfigArgs }) < connects system := by
        simp only [connects, System.post, more, connected, Event.isConnect, List.countP_append, List.countP_cons]
        simp
      simp only [pending, Prod.Lex.toLex_lt_toLex]
      exact Or.inr ⟨rfl, Or.inl fewer⟩
    next other =>
      have fewer : connects { system with events, signals := system.signals ++ numbered id event.signals } ≤
          connects system := by
        simp only [connects, more, List.cons_append, List.countP_cons]
        omega
      simp only [pending, Prod.Lex.toLex_lt_toLex, lt_irrefl, false_or, true_and]
      rcases fewer.lt_or_eq with less | same
      · exact Or.inl less
      · exact Or.inr ⟨same, by simp [more]⟩

-- Whatever the calls of the driver come back with, the two threads come to rest.
theorem handles_wellFounded : WellFounded (@Handles ServerInfo DatabaseInfo lib type) := by
  apply Subrelation.wf (r := InvImage (· < ·) pending) _ (InvImage.wf pending wellFounded_lt)
  intro after before handles
  obtain ⟨action, handler, rfl, moves⟩ := handles
  show pending _ < pending _
  unfold System.step at moves ⊢
  split at moves
  next => exact absurd rfl moves
  next live =>
    rw [if_neg live]
    cases action with
    | post => cases handler
    | drive results => exact pending_drive (by simpa using live) results moves
    | deliver => exact pending_deliver moves

-- Nothing but the function that posts a request says that it has started.
theorem Kept.started (id : Nat) (request : Request) (kept : Kept lib type system id request) (kind : Kind)
    (front back : List Signal) (split : told system id = front ++ .started kind :: back) :
    front = [] ∧ kind = request.kind ∧ kind ≠ .processConfigArgs := by
  obtain ⟨tail, silent, all⟩ : ∃ tail, .started kind ∉ tail ∧ told system id = opening request.kind ++ tail := by
    rcases kept with ⟨_, all⟩ | ⟨_, _, _, _, events, _, all⟩
    · exact ⟨[], by simp, by rw [all, List.append_nil]⟩
    · exact ⟨_, started_not_mem kind events, all⟩
  rw [all, opening] at split
  by_cases config : request.kind = .processConfigArgs
  · have member : .started kind ∈ Signal.progressChanged 0 :: tail := by
      simp only [config, if_true, List.nil_append] at split
      rw [show Signal.progressChanged 0 :: tail = _ from split]
      simp
    simp [silent] at member
  · simp only [config, if_false, List.cons_append] at split
    cases front with
    | nil =>
        obtain ⟨same, _⟩ := List.cons.inj split
        obtain rfl := Signal.started.inj same
        exact ⟨rfl, rfl, config⟩
    | cons first front =>
        have rest := (List.cons.inj split).2
        have member : .started kind ∈ Signal.progressChanged 0 :: tail := by
          rw [show Signal.progressChanged 0 :: tail = _ from rest]
          simp
        simp [silent] at member

theorem started_split (sound : Sound lib type system) (before after : Numbered Signal) (id : Nat) (kind : Kind)
    (split : system.signals = before ++ (id, .started kind) :: after) :
    ∃ request, request.kind = kind ∧ kind ≠ .processConfigArgs ∧ Kept lib type system id request ∧
      story id system.signals = .started kind :: story id after := by
  have parts : story id system.signals = story id before ++ .started kind :: story id after := by
    simp [split]
  have whole : told system id = story id before ++ .started kind :: (story id after ++
      (story id (system.events ++ system.handling)).flatMap Event.signals) := by
    rw [told, parts, List.append_assoc, List.cons_append]
  by_cases bound : id < system.posted
  · obtain ⟨request, _, kept⟩ := sound.kept id bound
    obtain ⟨first, same, config⟩ := kept.started id request kind _ _ whole
    exact ⟨request, same.symm, config, kept, by rw [parts, first, List.nil_append]⟩
  · have nothing := (sound.unposted id (by omega)).1
    simp [whole] at nothing

-- At rest, the requests are answered if the program runs and all of them are followed through.
theorem Good.answered (sound : Sound lib type system) (rest : AtRest lib type system) (good : Good system) :
    Answered system.signals := by
  intro before id kind after split
  obtain ⟨request, rfl, config, kept, start⟩ := started_split sound before after id kind split
  obtain ⟨down, history, cleared⟩ := good.2 id request.kind (by simp [split])
  obtain ⟨requests, handling, events⟩ := rest.empty good.1
  have told_eq : told system id = story id system.signals := by
    simp [told, handling, events]
  rcases kept with ⟨waiting, _⟩ | ⟨_, results, state, next, posted, handled, all⟩
  · rw [requests] at waiting
    cases waiting
  have answers := customEvent_answers lib type results state request next posted handled history cleared config
  rw [told_eq] at all
  refine ⟨?_, ?_⟩
  · have tail : story id after = .progressChanged 0 :: posted.flatMap Event.signals := by
      rw [start] at all
      simpa [opening, config] using all
    rw [countP_isFinished, tail, List.countP_cons, answers.finished config, if_neg down]
    rfl
  · rw [filterMap_progressOf, all]
    exact answers.progress _

theorem live_of_answered (sound : Sound lib type system) (answered : Answered system.signals) :
    system.aborted = false := by
  by_contra aborted
  obtain ⟨id, request, waiting, load⟩ := sound.stuck (by simpa using aborted)
  have queued : id ∈ system.requests.map Prod.fst := List.mem_map.mpr ⟨_, waiting, rfl⟩
  have bound : id < system.posted := by
    by_contra late
    exact (sound.unposted id (by omega)).2 queued
  obtain ⟨other, opened, kept⟩ := sound.kept id bound
  rcases kept with ⟨member, all⟩ | ⟨gone, _⟩
  · obtain rfl : other = request := by
      have distinct := List.inj_on_of_nodup_map sound.distinct member waiting rfl
      exact (Prod.mk.inj distinct).2
    have started : (id, .started .loadDatabases) ∈ system.signals := by
      rw [← mem_story]
      exact opened.subset (by simp [opening, load])
    obtain ⟨before, after, split⟩ := List.append_of_mem started
    have once := (answered before id .loadDatabases after split).1
    rw [countP_isFinished] at once
    -- The story is no longer than what the server said itself.
    have short : (told system id).countP (Signal.finishes .loadDatabases) = 0 := by
      rw [all, load]
      rfl
    rw [told, split, story_append, story_cons, List.countP_append, List.countP_append, List.countP_append, once] at short
    omega
  · exact gone queued

theorem good_of_answered (sound : Sound lib type system) (rest : AtRest lib type system)
    (answered : Answered system.signals) : Good system := by
  have live := live_of_answered sound answered
  refine ⟨live, fun id kind member => ?_⟩
  obtain ⟨before, after, split⟩ := List.append_of_mem member
  obtain ⟨request, rfl, config, kept, start⟩ := started_split sound before after id kind split
  obtain ⟨once, last⟩ := answered before id request.kind after split
  obtain ⟨requests, handling, events⟩ := rest.empty live
  rcases kept with ⟨waiting, _⟩ | ⟨_, results, state, next, posted, handled, all⟩
  · rw [requests] at waiting
    cases waiting
  have told_eq : told system id = story id system.signals := by
    simp [told, handling, events]
  rw [told_eq] at all
  have open_eq : opening request.kind = [.started request.kind, .progressChanged 0] := by
    simp [opening, config]
  by_cases log : request.kind = .requestHistoryInfo ∨ request.kind = .clearHistory
  · -- The only progress is the one of `notify`.
    obtain ⟨error, rfl⟩ := customEvent_log lib type results state request next posted handled log
    rw [filterMap_progressOf, all, open_eq] at last
    rcases log with log | log <;> simp [log, Event.signals, Signal.progress?, List.findSome?_cons] at last
  · rw [not_or] at log
    refine ⟨fun down => ?_, log⟩
    have answers := customEvent_answers lib type results state request next posted handled log.1 log.2 config
    have tail : story id after = .progressChanged 0 :: posted.flatMap Event.signals := by
      rw [start, open_eq] at all
      exact (List.cons.inj all).2
    rw [countP_isFinished, tail, List.countP_cons, answers.finished config, if_pos down] at once
    cases once

variable (lib type) in
/-- The threads always come to rest. Then every request that was started is finished once and has
shown the progress 100, if and only if each action met the condition. -/
theorem answered_iff (actions : List (Action ServerInfo DatabaseInfo)) :
    WellFounded (@Handles ServerInfo DatabaseInfo lib type) ∧
      (AtRest lib type (Runs.run (System.step lib type) .initial actions) →
        (Answered (Runs.run (System.step lib type) .initial actions).signals ↔
          Runs.Along (System.step lib type) (Meets type) .initial actions)) := by
  refine ⟨handles_wellFounded, fun rest => ?_⟩
  have sound : Sound lib type (Runs.run (System.step lib type) .initial actions) := by
    have steps (system : System ServerInfo DatabaseInfo) (action : Action ServerInfo DatabaseInfo)
        (sound : Sound lib type system) (_ : True) : Sound lib type (system.step lib type action) := sound.step action
    exact Runs.invariant_run _ steps (sound_initial lib type) actions fun _ _ _ _ => trivial
  have start : Good (System.initial : System ServerInfo DatabaseInfo) := ⟨rfl, by simp [System.initial]⟩
  rw [Runs.along_iff_marked Good (good_step lib type) start actions]
  exact ⟨good_of_answered sound rest, Good.answered sound rest⟩

theorem AtRest.of_empty (requests : system.requests = []) (handling : system.handling = []) (events : system.events = []) :
    AtRest lib type system := by
  intro action handler
  cases action with
  | post => cases handler
  | drive results => simp [System.step, System.drive, handling, requests]
  | deliver => simp [System.step, System.deliver, events]

end Runs

section Concrete

-- The calls succeed, and leave the driver connected.
def connecting : Results Unit Unit :=
  ⟨none, fun state => { state with connected := true }, false, true, ⟨fun state _ => (state, none), fun _ => false⟩,
    fun _ => 0, []⟩

-- A connect request, its five events, and the discovery and the configuration that follow it.
def connectActions : List (Action Unit Unit) :=
  .post { kind := .connect } :: List.replicate 6 (.drive connecting) ++ List.replicate 5 .deliver ++
    List.replicate 7 (.drive connecting) ++ List.replicate 5 .deliver

/-- A connection that is made, with its discovery, comes to rest. -/
theorem connect_answered_iff :
    AtRest .std .leveldb (Runs.run (System.step .std .leveldb) .initial connectActions) ∧
      (Answered (Runs.run (System.step .std .leveldb) .initial connectActions).signals ↔
        Runs.Along (System.step .std .leveldb) (Meets .leveldb) .initial connectActions) := by
  have rest : AtRest .std .leveldb (Runs.run (System.step .std .leveldb) .initial connectActions) :=
    AtRest.of_empty rfl rfl rfl
  exact ⟨rest, (answered_iff .std .leveldb connectActions).2 rest⟩

/-- A shutdown is never finished, and the progress of a request for the history stays at 0. -/
theorem shutDown_history_unanswered :
    let shutDown : List (Action Unit Unit) :=
      .post { kind := .shutDown } :: List.replicate 6 (.drive connecting) ++ List.replicate 5 .deliver
    let history : List (Action Unit Unit) :=
      [.post { kind := .requestHistoryInfo }, .drive connecting, .drive connecting, .deliver]
    (AtRest .std .redis (Runs.run (System.step .std .redis) .initial shutDown) ∧
      ¬ Answered (Runs.run (System.step .std .redis) .initial shutDown).signals) ∧
    AtRest .std .redis (Runs.run (System.step .std .redis) .initial history) ∧
      ¬ Answered (Runs.run (System.step .std .redis) .initial history).signals := by
  intro shutDown history
  refine ⟨⟨AtRest.of_empty rfl rfl rfl, fun answered => ?_⟩, AtRest.of_empty rfl rfl rfl, fun answered => ?_⟩
  · exact absurd (answered [] 0 .shutDown _ rfl).1 (by decide)
  · exact absurd (answered [] 0 .requestHistoryInfo _ rfl).2 (by decide)

end Concrete

end FastoNoSQL.Requests
