import IperfSwift.Lifecycle.Life

/-!
Contract: what the phase of a run says about its past.

Owns: the states a run published, its captures and its stops; the shape of every history
that leads to a phase.

Does not own: the runner or its schedule.
-/

set_option autoImplicit false

namespace IperfSwift.Lifecycle

open IperfSwift.Lib

variable {past log : List Event} {measurement next : Measurement} {run : RunContext} {event : Event}
  {id : RunID}

/-! ### Inside the engine -/

def Event.state? : Event → Option IperfRunnerState
  | .published _ state => some state
  | _ => none

/-- The states that were published. -/
def states (past : List Event) : List IperfRunnerState := past.filterMap Event.state?

/-- A native call forgets the last capture. -/
def Event.recapture (last : Option Capture) : Event → Option Capture
  | .called _ => none
  | .captured _ capture => some capture
  | _ => last

/-- What was captured after the last native call, if it returned. -/
def lastCapture (past : List Event) : Option Capture := past.foldl Event.recapture none

def Event.isStopBegun : Event → Bool
  | .stopBegun _ => true
  | _ => false

def Event.isStopCompleted : Event → Bool
  | .stopCompleted _ => true
  | _ => false

/-- A native call is due after an entry or a restart, until it is made. -/
def Event.rearm (armed : Bool) : Event → Bool
  | .entered _ _ | .restarted _ => true
  | .called _ => false
  | _ => armed

/-- A native call is due. -/
def armedAfter (past : List Event) : Bool := past.foldl Event.rearm false

/-- A completed stop keeps `done` set until it is cleared. -/
def Event.rekeep (kept : Bool) : Event → Bool
  | .stopCompleted _ => true
  | .cleared _ | .restarted _ => false
  | _ => kept

/-- Events between the entry into the engine and the end. -/
def Event.isInner : Event → Bool
  | .cleared _ | .restarted _ => true
  | .called _ | .captured _ _ | .failed _ _ | .stopped _ | .stopBegun _ | .stopCompleted _ => true
  | .published _ .stopping | .published _ .finished => true
  | _ => false

/-- A measurement is what the events since `.running` come to. -/
structure Measured (past : List Event) (measurement : Measurement) : Prop where
  inner : ∀ event ∈ past, event.isInner
  shown : (states past).getLast?.getD .running = measurement.shown
  unfinished : measurement.isLimited → .finished ∉ states past
  begun : past.any Event.isStopBegun = measurement.stopBegun
  completed : past.any Event.isStopCompleted = measurement.stopCompleted
  armed : past.foldl Event.rearm true = measurement.armed
  kept : past.foldl Event.rekeep false = measurement.kept
  /-- A call was due when it was made. -/
  due : ∀ first id rest, past = first ++ .called id :: rest → first.foldl Event.rearm true = true
  stopped : measurement.kept → measurement.stopCompleted
  halted : measurement.stopCompleted → measurement.shown ≠ .running
  /-- There is no restart after a completed stop. -/
  stays : ∀ first owner rest, past = first ++ .stopCompleted owner :: rest →
    ∀ id, .restarted id ∉ rest
  last : lastCapture past = measurement.last
  flag : ∀ capture, measurement.last = some capture → capture.outcome.wasStopped =
    if measurement.isLimited then capture.stopSeen else capture.done

theorem Measured.shown_cases (measured : Measured past measurement) :
    measurement.shown = .running ∨ measurement.shown = .stopping ∨
      measurement.shown = .finished := by
  rw [← measured.shown]
  cases last : (states past).getLast? with
  | none => exact Or.inl rfl
  | some state =>
      have member := List.mem_of_getLast? last
      obtain ⟨event, inside, published⟩ := List.mem_filterMap.mp member
      have inner := measured.inner event inside
      cases event with
      | published owner shown =>
          rw [Event.state?, Option.some_inj] at published
          subst published
          cases shown with
          | stopping => exact Or.inr (Or.inl rfl)
          | finished => exact Or.inr (Or.inr rfl)
          | ready | initialising | running | error => cases inner
      | _ => cases published

theorem Measured.not_finished (measured : Measured past measurement)
    (limited : measurement.isLimited) : measurement.shown ≠ .finished := by
  intro finished
  rw [← measured.shown] at finished
  cases last : (states past).getLast? with
  | none =>
      rw [last] at finished
      cases finished
  | some state =>
      rw [last, Option.getD_some] at finished
      exact measured.unfinished limited (finished ▸ List.mem_of_getLast? last)

theorem states_append (first second : List Event) :
    states (first ++ second) = states first ++ states second :=
  List.filterMap_append ..

/-- What one event adds to a measurement. -/
def Measurement.observe (measurement : Measurement) (event : Event) : Measurement :=
  { measurement with
    shown := event.state?.getD measurement.shown
    stopBegun := event.isStopBegun || measurement.stopBegun
    stopCompleted := event.isStopCompleted || measurement.stopCompleted
    armed := event.rearm measurement.armed
    kept := event.rekeep measurement.kept
    last := event.recapture measurement.last }

/-- What has to hold for an event that leaves the run inside the engine. -/
def Measurement.Allows (measurement : Measurement) : Event → Prop
  | .called _ => measurement.armed
  | .restarted _ => measurement.shown = .running
  | .stopCompleted _ => measurement.shown = .stopping
  | .captured _ capture => measurement.admits capture
  | .published _ .finished => ¬ measurement.isLimited
  | _ => True

/-- An event leaves the run inside the engine. -/
structure Measurement.Continues (measurement next : Measurement) (event : Event) : Prop where
  observed : next = measurement.observe event
  inner : event.isInner
  allowed : measurement.Allows event

/-- The ways out of the engine. -/
inductive Measurement.Exits (run : RunContext) (measurement : Measurement) :
    Event → Life → Prop where
  | finished {capture : Capture} (owner : Option RunID) (limited : measurement.isLimited)
      (last : measurement.last = some capture) (succeeded : ¬ capture.outcome.isFailure) :
      Exits run measurement (.published owner .finished) (.closing run (.finished capture))
  | failed {capture : Capture} (owner : Option RunID) (last : measurement.last = some capture)
      (failure : capture.outcome.isFailure) :
      Exits run measurement (.published owner .error) (.errorShown run (some capture))
  | ended {capture : Capture} (shown : measurement.shown = .finished)
      (last : measurement.last = some capture) (succeeded : ¬ capture.outcome.isFailure) :
      Exits run measurement (.ended run) (.ended run (.finished capture))

theorem Measurement.next_cases {after : Life}
    (admitted : measurement.next run event = some after) :
    (∃ next, after = .measuring run next ∧ measurement.Continues next event) ∨
      measurement.Exits run event after := by
  cases event with
  | published owner state =>
      cases state with
      | finished =>
          simp only [Measurement.next] at admitted
          split_ifs at admitted with limited
          · split at admitted
            · rename_i capture last
              split_ifs at admitted with failure
              cases admitted
              exact Or.inr (.finished owner limited last failure)
            · cases admitted
          · cases admitted
            exact Or.inl ⟨_, rfl, rfl, rfl, limited⟩
      | error =>
          simp only [Measurement.next] at admitted
          split at admitted
          · rename_i capture last
            split_ifs at admitted with failure
            cases admitted
            exact Or.inr (.failed owner last failure)
          · cases admitted
      | stopping =>
          cases admitted
          exact Or.inl ⟨_, rfl, rfl, rfl, trivial⟩
      | ready | initialising | running => cases admitted
  | ended ending =>
      simp only [Measurement.next] at admitted
      split at admitted
      · rename_i capture last
        split_ifs at admitted with closes
        obtain ⟨rfl, shown, succeeded⟩ := closes
        cases admitted
        exact Or.inr (.ended shown last succeeded)
      · cases admitted
  | captured _ _ | called _ | restarted _ | stopCompleted _ =>
      simp only [Measurement.next] at admitted
      split_ifs at admitted with allowed
      cases admitted
      exact Or.inl ⟨_, rfl, rfl, rfl, allowed⟩
  | accepted _ _ | entered _ _ | dispatched _ _ => cases admitted
  | _ =>
      cases admitted
      exact Or.inl ⟨_, rfl, rfl, rfl, trivial⟩

theorem Measurement.continues_of_next
    (admitted : measurement.next run event = some (.measuring run next)) :
    measurement.Continues next event := by
  rcases next_cases admitted with ⟨_, same, continues⟩ | exits
  · cases same
    exact continues
  · cases exits

/-- Where a mark is in a past with one more event. -/
theorem split_of_append {first rest : List Event} {last mark : Event}
    (split : past ++ [last] = first ++ mark :: rest) :
    (first = past ∧ mark = last ∧ rest = []) ∨
      ∃ middle, past = first ++ mark :: middle ∧ rest = middle ++ [last] := by
  rcases List.eq_nil_or_concat rest with rfl | ⟨middle, final, rfl⟩
  · obtain ⟨same, single⟩ := List.append_inj' split rfl
    exact Or.inl ⟨same.symm, (List.singleton_inj.mp single).symm, rfl⟩
  · rw [List.concat_eq_append] at split ⊢
    rw [← List.cons_append, ← List.append_assoc] at split
    obtain ⟨same, single⟩ := List.append_inj' split rfl
    exact Or.inr ⟨middle, same, by rw [List.singleton_inj.mp single]⟩

theorem Measured.stopCompleted_of_mem {owner : Option RunID}
    (measured : Measured past measurement) (member : .stopCompleted owner ∈ past) :
    measurement.stopCompleted := by
  rw [← measured.completed]
  exact List.any_eq_true.mpr ⟨_, member, rfl⟩

theorem Measured.step (measured : Measured past measurement)
    (continues : measurement.Continues next event) : Measured (past ++ [event]) next := by
  rw [continues.observed]
  exact {
    inner := by
      intro other member
      rcases List.mem_append.mp member with old | new
      · exact measured.inner other old
      · exact List.mem_singleton.mp new ▸ continues.inner
    shown := by
      rw [states_append, List.getLast?_append, Measurement.observe, ← measured.shown]
      cases published : event.state? <;> simp [states, published]
    unfinished := by
      intro limited
      rw [states_append, List.mem_append, not_or]
      refine ⟨measured.unfinished limited, ?_⟩
      intro published
      obtain ⟨other, member, finished⟩ := List.mem_filterMap.mp published
      rw [List.mem_singleton.mp member] at finished
      have allowed := continues.allowed
      cases event with
      | published owner state =>
          cases finished
          exact allowed limited
      | _ => cases finished
    begun := by simp [Measurement.observe, measured.begun, Bool.or_comm]
    completed := by simp [Measurement.observe, measured.completed, Bool.or_comm]
    armed := by simp [Measurement.observe, ← measured.armed]
    kept := by simp [Measurement.observe, ← measured.kept]
    due := by
      intro first id rest split
      rcases split_of_append split with ⟨rfl, same, _⟩ | ⟨middle, earlier, _⟩
      · rw [measured.armed]
        exact (same ▸ continues.allowed : measurement.Allows (.called id))
      · exact measured.due first id middle earlier
    stopped := by
      have stopped := measured.stopped
      cases event with
      | stopCompleted owner => simp [Measurement.observe, Event.isStopCompleted]
      | cleared id | restarted id => simp [Measurement.observe, Event.rekeep]
      | _ => simpa [Measurement.observe, Event.rekeep, Event.isStopCompleted] using stopped
    halted := by
      have inner := continues.inner
      have allowed := continues.allowed
      have halted := measured.halted
      cases event with
      | published owner state =>
          cases state with
          | stopping | finished => exact fun _ => by simp [Measurement.observe, Event.state?]
          | _ => cases inner
      | stopCompleted owner =>
          intro _
          simp [Measurement.observe, Event.state?, show measurement.shown = .stopping from allowed]
      | _ => simpa [Measurement.observe, Event.state?, Event.isStopCompleted] using halted
    stays := by
      intro first owner rest split id
      rcases split_of_append split with ⟨_, _, rfl⟩ | ⟨middle, earlier, rfl⟩
      · simp
      · rw [List.mem_append, not_or]
        refine ⟨measured.stays first owner middle earlier id, ?_⟩
        intro restarted
        have completed := measured.stopCompleted_of_mem
          (show .stopCompleted owner ∈ past by simp [earlier])
        have allowed : measurement.Allows (.restarted id) :=
          List.mem_singleton.mp restarted ▸ continues.allowed
        exact measured.halted completed allowed
    last := by simp [Measurement.observe, lastCapture, ← measured.last]
    flag := by
      intro capture taken
      cases event with
      | captured id new =>
          have allowed : measurement.admits new := continues.allowed
          rw [Measurement.observe, Event.recapture, Option.some_inj] at taken
          subst taken
          simp only [Measurement.admits, Measurement.stopSeen] at allowed
          split_ifs at allowed with limited <;> rw [decide_eq_true_eq] at allowed
          · rw [if_pos (show (measurement.observe _).isLimited from limited)]
            exact allowed.2.trans allowed.1.symm
          · rw [if_neg (show ¬ (measurement.observe _).isLimited from limited)]
            exact allowed.2
      | called id => cases taken
      | _ => exact measured.flag capture taken }

/-- The events of a run up to `.running`. -/
def birth (run : RunContext) (configuration : IperfConfiguration)
    (owners : Option RunID × Option RunID) (id : RunID) : List Event :=
  [.accepted run (some configuration), .published owners.1 .initialising,
    .entered id configuration, .published owners.2 .running]

/-- A past that entered the engine and is still inside. -/
def Inside (past : List Event) (run : RunContext) (measurement : Measurement) : Prop :=
  ∃ owners id rest, past = birth run measurement.configuration owners id ++ rest ∧
    Measured rest measurement

theorem measured_empty (configuration : IperfConfiguration) :
    Measured []
      { configuration := configuration
        shown := .running
        stopBegun := false
        stopCompleted := false
        armed := true
        kept := false
        last := none } where
  inner := by simp
  shown := rfl
  unfinished := by simp [states]
  begun := rfl
  completed := rfl
  armed := rfl
  kept := rfl
  due := by simp
  stopped := by simp
  halted := by simp
  stays := by simp
  last := rfl
  flag := by simp

theorem Inside.step (inside : Inside past run measurement)
    (continues : measurement.Continues next event) : Inside (past ++ [event]) run next := by
  obtain ⟨owners, id, rest, rfl, measured⟩ := inside
  have same : next.configuration = measurement.configuration := by
    rw [continues.observed]
    rfl
  exact ⟨owners, id, rest ++ [event], by rw [same, List.append_assoc], measured.step continues⟩

/-! ### The shape of a history -/

/-- The past of a run that is only waiting for its `ended` event. -/
def Ending.Explains (run : RunContext) (past : List Event) : Ending → Prop
  | .deallocated => ∃ configuration owner,
      past = [.accepted run configuration, .published owner .initialising]
  | .cancelled => ∃ configuration owner id stopping finished,
      past = [.accepted run configuration, .published owner .initialising, .stopped id,
        .published stopping .stopping, .published finished .finished]
  | .refused error => ∃ configuration owner shown failed,
      past = [.accepted run configuration, .published owner .initialising,
        .published shown .error, .failed failed error]
  | .failed capture => ∃ before measurement shown failed,
      past = before ++ [.published shown .error, .failed failed capture.outcome.error] ∧
        Inside before run measurement ∧ measurement.last = some capture ∧
        capture.outcome.isFailure
  | .finished capture => ∃ before measurement,
      Inside before run measurement ∧ measurement.last = some capture ∧
        ¬ capture.outcome.isFailure ∧
        if measurement.isLimited then
          ∃ finished, past = before ++ [.published finished .finished]
        else past = before ∧ measurement.shown = .finished

/-- The past of a run in a phase. -/
def Life.Remembers (past : List Event) : Life → Prop
  | .unborn => past = []
  | .accepted run configuration => past = [.accepted run configuration]
  | .waiting run configuration => ∃ owner,
      past = [.accepted run configuration, .published owner .initialising]
  | .cancelled run => ∃ configuration owner id,
      past = [.accepted run configuration, .published owner .initialising, .stopped id]
  | .cancelling run => ∃ configuration owner id stopping,
      past = [.accepted run configuration, .published owner .initialising, .stopped id,
        .published stopping .stopping]
  | .entered run configuration => ∃ owner id,
      past = [.accepted run (some configuration), .published owner .initialising,
        .entered id configuration]
  | .measuring run measurement => Inside past run measurement
  | .errorShown run none => ∃ configuration owner shown,
      past = [.accepted run configuration, .published owner .initialising,
        .published shown .error]
  | .errorShown run (some capture) => ∃ before measurement shown,
      past = before ++ [.published shown .error] ∧ Inside before run measurement ∧
        measurement.last = some capture ∧ capture.outcome.isFailure
  | .closing run ending => ending.Explains run past
  | .ended run ending => ∃ before, past = before ++ [.ended run] ∧ ending.Explains run before
  | .released run ending => ∃ before id callback,
      past = before ++ [.ended run, .dispatched id callback] ∧
        run.onResourcesReleased = some callback ∧ ending.Explains run before

theorem Measurement.remembers_next {next : Life} (inside : Inside past run measurement)
    (admitted : measurement.next run event = some next) : next.Remembers (past ++ [event]) := by
  rcases next_cases admitted with ⟨_, rfl, continues⟩ | exits
  · exact inside.step continues
  cases exits with
  | finished owner limited last succeeded =>
      exact ⟨past, measurement, inside, last, succeeded, by
        rw [if_pos limited]
        exact ⟨owner, rfl⟩⟩
  | failed owner last failure => exact ⟨past, measurement, owner, rfl, inside, last, failure⟩
  | ended shown last succeeded =>
      have unlimited : ¬ measurement.isLimited := by
        obtain ⟨owners, id, rest, split, measured⟩ := inside
        exact fun limited => measured.not_finished limited shown
      exact ⟨past, rfl, past, measurement, inside, last, succeeded, by
        rw [if_neg unlimited]
        exact ⟨rfl, shown⟩⟩

theorem Life.remembers_next {life next : Life} (remembers : life.Remembers past)
    (admitted : life.next event = some next) : next.Remembers (past ++ [event]) := by
  cases life with
  | measuring run measurement => exact Measurement.remembers_next remembers admitted
  | unborn =>
      cases event with
      | accepted run configuration =>
          cases admitted
          cases remembers
          rfl
      | _ => cases admitted
  | accepted run configuration =>
      cases event with
      | published owner state =>
          cases state with
          | initialising =>
              cases admitted
              cases remembers
              exact ⟨owner, rfl⟩
          | _ => cases admitted
      | _ => cases admitted
  | waiting run configuration =>
      obtain ⟨owner, rfl⟩ := remembers
      cases event with
      | published shown state =>
          cases state with
          | error =>
              cases admitted
              exact ⟨configuration, owner, shown, rfl⟩
          | _ => cases admitted
      | stopped id =>
          cases admitted
          exact ⟨configuration, owner, id, rfl⟩
      | entered id taken =>
          simp only [Life.next] at admitted
          split_ifs at admitted with same
          cases admitted
          exact ⟨owner, id, by rw [same]; rfl⟩
      | ended ending =>
          simp only [Life.next] at admitted
          split_ifs at admitted with same
          cases admitted
          exact ⟨_, by rw [same], configuration, owner, rfl⟩
      | _ => cases admitted
  | cancelled run =>
      obtain ⟨configuration, owner, id, rfl⟩ := remembers
      cases event with
      | published stopping state =>
          cases state with
          | stopping =>
              cases admitted
              exact ⟨configuration, owner, id, stopping, rfl⟩
          | _ => cases admitted
      | _ => cases admitted
  | cancelling run =>
      obtain ⟨configuration, owner, id, stopping, rfl⟩ := remembers
      cases event with
      | published finished state =>
          cases state with
          | finished =>
              cases admitted
              exact ⟨configuration, owner, id, stopping, finished, rfl⟩
          | _ => cases admitted
      | _ => cases admitted
  | entered run configuration =>
      obtain ⟨owner, id, rfl⟩ := remembers
      cases event with
      | published shown state =>
          cases state with
          | running =>
              cases admitted
              exact ⟨(owner, shown), id, [], rfl, measured_empty configuration⟩
          | _ => cases admitted
      | _ => cases admitted
  | errorShown run capture =>
      cases event with
      | failed owner error =>
          cases capture with
          | none =>
              obtain ⟨configuration, first, shown, rfl⟩ := remembers
              cases admitted
              exact ⟨configuration, first, shown, owner, rfl⟩
          | some capture =>
              obtain ⟨before, measurement, shown, rfl, inside, last, failure⟩ := remembers
              simp only [Life.next] at admitted
              split_ifs at admitted with same
              cases admitted
              exact ⟨before, measurement, shown, owner,
                by rw [same, List.append_assoc, List.singleton_append], inside, last, failure⟩
      | _ => cases capture <;> cases admitted
  | closing run ending =>
      cases event with
      | ended context =>
          simp only [Life.next] at admitted
          split_ifs at admitted with same
          cases admitted
          exact ⟨past, by rw [same], remembers⟩
      | _ => cases admitted
  | ended run ending =>
      obtain ⟨before, rfl, explains⟩ := remembers
      cases event with
      | dispatched id callback =>
          simp only [Life.next] at admitted
          split_ifs at admitted with asked
          cases admitted
          exact ⟨before, id, callback,
            by rw [List.append_assoc, List.singleton_append], asked, explains⟩
      | _ => cases admitted
  | released run ending => cases admitted

theorem lifeOf_remembers {life : Life} (now : lifeOf id log = some life) :
    life.Remembers (history id log) := by
  have keeps : ∀ {past : List Event} {middle next : Life} {event : Event},
      middle.Remembers past → middle.next event = some next →
        next.Remembers (past ++ [event]) := Life.remembers_next
  exact @execute_past Life Event Life.next (fun past life => life.Remembers past) .unborn rfl
    keeps _ _ now

/-- A mark that only this run can carry, and only inside the engine, is found by its kind. -/
theorem contains_mark {rest : List Event} {configuration : IperfConfiguration}
    {owners : Option RunID × Option RunID} {entry : RunID} {mark : Event} {kind : Event → Bool}
    (split : history id log = birth run configuration owners entry ++ rest)
    (own : mark.run = some id) (known : kind mark)
    (unique : ∀ event, kind event → event.run = some id → event = mark)
    (outside : mark ∉ birth run configuration owners entry) :
    log.contains mark = rest.any kind := by
  rw [Bool.eq_iff_iff, List.contains_iff_mem, List.any_eq_true]
  have moved : mark ∈ log ↔ mark ∈ rest := by
    have member := @mem_history id mark log
    rw [split, List.mem_append] at member
    simpa [own, outside] using member.symm
  rw [moved]
  constructor
  · intro member
    exact ⟨mark, member, known⟩
  · rintro ⟨event, member, isKind⟩
    have belongs : event ∈ log ∧ event.run = some id := by
      rw [← mem_history, split]
      exact List.mem_append_right _ member
    exact unique event isKind belongs.2 ▸ member

/-- The stops of a run inside the engine are those of its log. -/
theorem contains_stopBegun (now : lifeOf id log = some (.measuring run measurement)) :
    log.contains (.stopBegun (some id)) = measurement.stopBegun := by
  obtain ⟨owners, entry, rest, split, measured⟩ := lifeOf_remembers now
  rw [← measured.begun]
  apply contains_mark split rfl rfl
  · intro event isKind belongs
    cases event with
    | stopBegun owner => exact congrArg Event.stopBegun belongs
    | _ => cases isKind
  · simp [birth]

theorem contains_stopCompleted (now : lifeOf id log = some (.measuring run measurement)) :
    log.contains (.stopCompleted (some id)) = measurement.stopCompleted := by
  obtain ⟨owners, entry, rest, split, measured⟩ := lifeOf_remembers now
  rw [← measured.completed]
  apply contains_mark split rfl rfl
  · intro event isKind belongs
    cases event with
    | stopCompleted owner => exact congrArg Event.stopCompleted belongs
    | _ => cases isKind
  · simp [birth]

/-- A run that did not fail may end from wherever its measurement shows it. -/
theorem Measured.owes {capture : Capture} (measured : Measured past measurement)
    (run : RunContext) (last : measurement.last = some capture)
    (succeeded : ¬ capture.outcome.isFailure) :
    (measurement.shown = .running ∨ measurement.shown = .stopping → ∀ owner, ∃ next,
        Life.next (.measuring run measurement) (.published owner .finished) = some next ∧
          next.Owes true run) ∧
      (¬ (measurement.shown = .running ∨ measurement.shown = .stopping) →
        Life.Owes true run (.measuring run measurement)) := by
  constructor
  · intro _ owner
    cases limited : measurement.isLimited with
    | true =>
        refine ⟨.closing run (.finished capture), ?_, .finished capture, by simp [Life.next],
          by simp⟩
        simp [Life.next, Measurement.next, limited, last, succeeded]
    | false =>
        refine ⟨.measuring run { measurement with shown := .finished }, ?_, .finished capture, ?_,
          by simp⟩
        · simp [Life.next, Measurement.next, limited]
        · simp [Life.next, Measurement.next, last, succeeded]
  · intro neither
    have finished : measurement.shown = .finished := by
      rcases measured.shown_cases with running | stopping | finished
      · exact absurd (Or.inl running) neither
      · exact absurd (Or.inr stopping) neither
      · exact finished
    exact ⟨.finished capture, by simp [Life.next, Measurement.next, last, succeeded, finished],
      by simp⟩

end IperfSwift.Lifecycle
