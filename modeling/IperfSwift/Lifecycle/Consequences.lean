import IperfSwift.Lifecycle.History

/-!
Contract: what the history of a run says about its completion, its entry into the engine,
the states it published and the errors it reported.

Owns: the completions, entries and failures in a history, for every phase of a run.

Does not own: the runner, or which phase a run is in.
-/

set_option autoImplicit false

namespace IperfSwift.Lifecycle

open IperfSwift.Lib

variable {past more : List Event} {measurement : Measurement} {configuration : IperfConfiguration}
  {run : RunContext} {id : RunID}

/-- The end of a run and the dispatch of its completion. -/
def Event.isCompletion : Event → Bool
  | .ended _ | .dispatched _ _ => true
  | _ => false

/-- The completions in a past. -/
def completions (past : List Event) : List Event := past.filter Event.isCompletion

def Event.error? : Event → Option IperfError
  | .failed _ error => some error
  | _ => none

/-- The errors that were passed to `onError`. -/
def failures (past : List Event) : List IperfError := past.filterMap Event.error?

theorem completions_append (first second : List Event) :
    completions (first ++ second) = completions first ++ completions second :=
  List.filter_append ..

/-! ### Inside the engine -/

theorem Measured.no_accepted {past : List Event} {measurement : Measurement} {run : RunContext}
    {configuration : Option IperfConfiguration} (measured : Measured past measurement) :
    .accepted run configuration ∉ past :=
  fun member => Bool.false_ne_true (measured.inner _ member)

theorem Measured.no_entered {past : List Event} {measurement : Measurement} {id : RunID}
    {configuration : IperfConfiguration} (measured : Measured past measurement) :
    .entered id configuration ∉ past :=
  fun member => Bool.false_ne_true (measured.inner _ member)

theorem Measured.no_completion (measured : Measured past measurement) : completions past = [] := by
  rw [completions, List.filter_eq_nil_iff]
  intro event member
  have inner := measured.inner event member
  cases event with
  | ended run | dispatched run callback => cases inner
  | _ => exact Bool.false_ne_true

/-- The states between `.running` and the end. -/
theorem Measured.states_subset {state : IperfRunnerState} (measured : Measured past measurement)
    (member : state ∈ states past) :
    state = .stopping ∨ (state = .finished ∧ ¬ measurement.isLimited) := by
  obtain ⟨event, inside, published⟩ := List.mem_filterMap.mp member
  have inner := measured.inner event inside
  cases event with
  | published owner shown =>
      rw [Event.state?, Option.some_inj] at published
      subst published
      cases shown with
      | stopping => exact Or.inl rfl
      | finished => exact Or.inr ⟨rfl, fun limited => measured.unfinished limited member⟩
      | ready | initialising | running | error => cases inner
  | _ => cases published

/-- A run entered the engine once, with the configuration it was accepted with, as soon as
it had shown `.initialising`. -/
def EntersOnce (past : List Event) (run : RunContext) : Prop :=
  ∃ owner id configuration rest,
    past = .accepted run (some configuration) :: .published owner .initialising ::
        .entered id configuration :: rest ∧
      ∀ other taken, .entered other taken ∉ rest

namespace Inside

variable {past : List Event} {run : RunContext} {measurement : Measurement}

theorem accepted {context : RunContext} {configuration : Option IperfConfiguration}
    (inside : Inside past run measurement) (member : .accepted context configuration ∈ past) :
    context = run ∧ configuration = some measurement.configuration := by
  obtain ⟨owners, id, rest, rfl, measured⟩ := inside
  have absent := @Measured.no_accepted _ _ context configuration measured
  simpa [birth, absent] using member

theorem no_completion (inside : Inside past run measurement) : completions past = [] := by
  obtain ⟨owners, id, rest, rfl, measured⟩ := inside
  rw [completions_append, measured.no_completion]
  rfl

theorem no_completion_append (inside : Inside past run measurement)
    (none : completions more = []) : completions (past ++ more) = [] := by
  rw [completions_append, inside.no_completion, none]
  rfl

theorem states_eq (inside : Inside past run measurement) : ∃ rest,
    states past = [.initialising, .running] ++ states rest ∧ Measured rest measurement := by
  obtain ⟨owners, id, rest, rfl, measured⟩ := inside
  exact ⟨rest, by rw [states_append]; rfl, measured⟩

theorem getLast_states (inside : Inside past run measurement) :
    (states past).getLast? = some measurement.shown := by
  obtain ⟨rest, shown, measured⟩ := inside.states_eq
  rw [shown, List.getLast?_append, ← measured.shown]
  cases (states rest).getLast? <;> rfl

theorem lastCapture_eq (inside : Inside past run measurement) :
    lastCapture past = measurement.last := by
  obtain ⟨owners, id, rest, rfl, measured⟩ := inside
  rw [← measured.last, lastCapture, lastCapture, List.foldl_append]
  rfl

theorem entersOnce (inside : Inside past run measurement) : EntersOnce past run := by
  obtain ⟨owners, id, rest, rfl, measured⟩ := inside
  refine ⟨owners.1, id, measurement.configuration, .published owners.2 .running :: rest, rfl, ?_⟩
  intro other configuration member
  rcases List.mem_cons.mp member with impossible | later
  · cases impossible
  · exact measured.no_entered later

end Inside

/-! ### Any phase -/

theorem EntersOnce.append (entered : EntersOnce past run)
    (none : ∀ id configuration, .entered id configuration ∉ more) :
    EntersOnce (past ++ more) run := by
  obtain ⟨owner, id, configuration, rest, rfl, absent⟩ := entered
  refine ⟨owner, id, configuration, rest ++ more, rfl, ?_⟩
  intro other taken member
  rcases List.mem_append.mp member with old | new
  · exact absent other taken old
  · exact none other taken new

/-- Events of a run that never entered the engine. -/
def Event.isEarly : Event → Bool
  | .published _ .running => false
  | .published _ _ | .stopped _ | .failed _ _ | .ended _ | .dispatched _ _ => true
  | _ => false

/-- Events of a run that has left the engine. -/
def Event.isOuter : Event → Bool
  | .published _ .finished | .published _ .error | .failed _ _ | .ended _ | .dispatched _ _ => true
  | _ => false

/-- A past stays before the engine, or enters it and may leave it. -/
inductive Shape (past : List Event) (run : RunContext) : Prop where
  | early {configuration : Option IperfConfiguration} {rest : List Event}
      (split : past = .accepted run configuration :: rest) (only : ∀ event ∈ rest, event.isEarly)
  | entering {owner : Option RunID} {id : RunID} {configuration : IperfConfiguration}
      {rest : List Event} (split : past = .accepted run (some configuration) ::
        .published owner .initialising :: .entered id configuration :: rest)
      (only : ∀ event ∈ rest, event.isOuter)
  | inside {measurement : Measurement} {before rest : List Event} (split : past = before ++ rest)
      (inside : Inside before run measurement) (only : ∀ event ∈ rest, event.isOuter)

theorem Event.isEarly_of_isOuter {event : Event} (outer : event.isOuter) : event.isEarly := by
  cases event with
  | published owner state => cases state <;> first | rfl | cases outer
  | _ => first | rfl | cases outer

namespace Shape

variable {past : List Event} {run : RunContext}

theorem append (shape : Shape past run) (outer : ∀ event ∈ more, event.isOuter) :
    Shape (past ++ more) run := by
  cases shape with
  | early split only =>
      apply Shape.early (by rw [split, List.cons_append])
      exact List.forall_mem_append.mpr
        ⟨only, fun event member => Event.isEarly_of_isOuter (outer event member)⟩
  | entering split only =>
      apply Shape.entering (by rw [split]; rfl)
      exact List.forall_mem_append.mpr ⟨only, outer⟩
  | inside split inside only =>
      apply Shape.inside (by rw [split, List.append_assoc]) inside
      exact List.forall_mem_append.mpr ⟨only, outer⟩

theorem accepted {context : RunContext} {configuration : Option IperfConfiguration}
    (shape : Shape past run) (member : .accepted context configuration ∈ past) :
    context = run := by
  cases shape with
  | early split only =>
      rw [split] at member
      rcases List.mem_cons.mp member with same | later
      · cases same
        rfl
      · cases only _ later
  | entering split only =>
      rw [split] at member
      rcases List.mem_cons.mp member with same | later
      · cases same
        rfl
      · simp only [List.mem_cons, reduceCtorEq, false_or] at later
        cases only _ later
  | inside split inside only =>
      rw [split] at member
      rcases List.mem_append.mp member with old | later
      · exact (inside.accepted old).1
      · cases only _ later

theorem entersOnce (shape : Shape past run)
    (entered : ∃ id configuration, .entered id configuration ∈ past) : EntersOnce past run := by
  obtain ⟨id, configuration, member⟩ := entered
  cases shape with
  | early split only =>
      rw [split] at member
      rcases List.mem_cons.mp member with same | later
      · cases same
      · cases only _ later
  | entering split only =>
      exact ⟨_, _, _, _, split, fun other taken later => Bool.false_ne_true (only _ later)⟩
  | inside split inside only =>
      rw [split]
      exact inside.entersOnce.append fun other taken later => Bool.false_ne_true (only _ later)

/-- Only a run that entered the engine has shown `.running`. -/
theorem entered_of_running (shape : Shape past run) (running : .running ∈ states past) :
    ∃ id configuration, .entered id configuration ∈ past := by
  obtain ⟨event, member, shown⟩ := List.mem_filterMap.mp running
  cases shape with
  | early split only =>
      rw [split] at member
      rcases List.mem_cons.mp member with same | later
      · subst same
        cases shown
      · have early := only event later
        cases event with
        | published owner state =>
            cases shown
            cases early
        | _ => cases shown
  | @entering owner id configuration rest split only =>
      exact ⟨id, configuration, by rw [split]; simp⟩
  | @inside measurement before tail split inside only =>
      obtain ⟨owners, id, rest, whole, _⟩ := inside
      exact ⟨id, measurement.configuration, by rw [split, whole]; simp [birth]⟩

end Shape

namespace Ending

variable {past : List Event} {run : RunContext} {ending : Ending}

theorem Explains.shape (explains : ending.Explains run past) :
    Shape past run ∧ completions past = [] := by
  cases ending with
  | deallocated =>
      obtain ⟨configuration, owner, rfl⟩ := explains
      exact ⟨.early rfl (by simp [Event.isEarly]), rfl⟩
  | cancelled =>
      obtain ⟨configuration, owner, id, stopping, finished, rfl⟩ := explains
      exact ⟨.early rfl (by simp [Event.isEarly]), rfl⟩
  | refused error =>
      obtain ⟨configuration, owner, shown, failed, rfl⟩ := explains
      exact ⟨.early rfl (by simp [Event.isEarly]), rfl⟩
  | failed capture =>
      obtain ⟨before, measurement, shown, failed, rfl, inside, _⟩ := explains
      exact ⟨.inside rfl inside (by simp [Event.isOuter]), inside.no_completion_append rfl⟩
  | finished capture =>
      obtain ⟨before, measurement, inside, _, _, tail⟩ := explains
      split_ifs at tail
      · obtain ⟨finished, rfl⟩ := tail
        exact ⟨.inside rfl inside (by simp [Event.isOuter]), inside.no_completion_append rfl⟩
      · rw [tail.1]
        exact ⟨.inside (List.append_nil before).symm inside (by simp), inside.no_completion⟩

end Ending

namespace Life

variable {past : List Event} {life : Life}

/-- The start a phase belongs to. -/
def context : Life → Option RunContext
  | .unborn => none
  | .accepted run _ => some run
  | .waiting run _ => some run
  | .cancelled run => some run
  | .cancelling run => some run
  | .entered run _ => some run
  | .measuring run _ => some run
  | .errorShown run _ => some run
  | .closing run _ => some run
  | .ended run _ => some run
  | .released run _ => some run

/-- The run has not ended. -/
def isOpen : Life → Bool
  | .ended _ _ | .released _ _ => false
  | _ => true

theorem shape (remembers : life.Remembers past) (context : life.context = some run) :
    Shape past run ∧ (life.isOpen → completions past = []) := by
  cases life with
  | unborn => cases context
  | accepted start given =>
      cases context
      cases remembers
      exact ⟨.early rfl (by simp), fun _ => rfl⟩
  | waiting start given =>
      cases context
      obtain ⟨owner, rfl⟩ := remembers
      exact ⟨.early rfl (by simp [Event.isEarly]), fun _ => rfl⟩
  | cancelled start =>
      cases context
      obtain ⟨given, owner, id, rfl⟩ := remembers
      exact ⟨.early rfl (by simp [Event.isEarly]), fun _ => rfl⟩
  | cancelling start =>
      cases context
      obtain ⟨given, owner, id, stopping, rfl⟩ := remembers
      exact ⟨.early rfl (by simp [Event.isEarly]), fun _ => rfl⟩
  | entered start given =>
      cases context
      obtain ⟨owner, id, rfl⟩ := remembers
      exact ⟨.entering rfl (by simp), fun _ => rfl⟩
  | measuring start measurement =>
      cases context
      exact ⟨.inside (List.append_nil past).symm remembers (by simp),
        fun _ => Inside.no_completion remembers⟩
  | errorShown start capture =>
      cases context
      cases capture with
      | none =>
          obtain ⟨given, owner, shown, rfl⟩ := remembers
          exact ⟨.early rfl (by simp [Event.isEarly]), fun _ => rfl⟩
      | some taken =>
          obtain ⟨before, measurement, shown, rfl, inside, _⟩ := remembers
          exact ⟨.inside rfl inside (by simp [Event.isOuter]),
            fun _ => inside.no_completion_append rfl⟩
  | closing start ending =>
      cases context
      have explained := Ending.Explains.shape remembers
      exact ⟨explained.1, fun _ => explained.2⟩
  | ended start ending =>
      cases context
      obtain ⟨before, rfl, explains⟩ := remembers
      exact ⟨explains.shape.1.append (by simp [Event.isOuter]), by simp [isOpen]⟩
  | released start ending =>
      cases context
      obtain ⟨before, id, callback, rfl, _, explains⟩ := remembers
      exact ⟨explains.shape.1.append (by simp [Event.isOuter]), by simp [isOpen]⟩

/-- Only an unborn run has no start, and no past. -/
theorem past_of_no_context (remembers : life.Remembers past) (none : life.context = none) :
    past = [] := by
  cases life with
  | unborn => exact remembers
  | _ => cases none

theorem context_of_accepted {configuration : Option IperfConfiguration}
    (remembers : life.Remembers past) (member : .accepted run configuration ∈ past) :
    life.context = some run := by
  cases context : life.context with
  | none =>
      rw [past_of_no_context remembers context] at member
      cases member
  | some start => rw [(shape remembers context).1.accepted member]

theorem no_completion (remembers : life.Remembers past) (isOpen : life.isOpen) :
    completions past = [] := by
  cases context : life.context with
  | none =>
      rw [past_of_no_context remembers context]
      rfl
  | some run => exact (shape remembers context).2 isOpen

/-- Only an open life of the same start is left to end. -/
theorem Owes.open_context {alive : Bool} (owes : life.Owes alive run) :
    life.isOpen ∧ life.context = some run := by
  obtain ⟨ending, ends, _⟩ := owes
  cases life with
  | waiting start configuration | closing start cause =>
      simp only [next] at ends
      split_ifs at ends with same
      exact ⟨rfl, congrArg some same.symm⟩
  | measuring start measurement =>
      simp only [next, Measurement.next] at ends
      split at ends
      · split_ifs at ends with closes
        exact ⟨rfl, congrArg some closes.1.symm⟩
      · cases ends
  | errorShown start capture => cases capture <;> cases ends
  | _ => cases ends

/-- A run that is over was completed once, where its start asked for it. -/
theorem completion_of_isOver {alive : Bool} {log : List Event} (now : lifeOf id log = some life)
    (isOver : life.IsOver alive) (context : life.context = some run) (identity : run.id = id) :
    completions (history id log) = completion run := by
  have remembers := lifeOf_remembers now
  cases life with
  | ended start ending =>
      cases context
      obtain ⟨before, past, explains⟩ := remembers
      rw [past, completions_append, explains.shape.2, completion, isOver.1]
      rfl
  | released start ending =>
      cases context
      obtain ⟨before, owner, callback, past, asked, explains⟩ := remembers
      have own : .dispatched owner callback ∈ log ∧
          (Event.dispatched owner callback).run = some id := by
        rw [← mem_history, past]
        simp
      have same : owner = run.id := by
        rw [identity]
        exact Option.some_inj.mp own.2
      rw [past, completions_append, explains.shape.2, completion, asked, same]
      rfl
  | _ => cases isOver

theorem entersOnce (remembers : life.Remembers past)
    (entered : ∃ id configuration, .entered id configuration ∈ past) :
    ∃ run, EntersOnce past run := by
  cases context : life.context with
  | none =>
      rw [past_of_no_context remembers context] at entered
      simp at entered
  | some run => exact ⟨run, (shape remembers context).1.entersOnce entered⟩

theorem entered_of_running (remembers : life.Remembers past) (running : .running ∈ states past) :
    ∃ id configuration, .entered id configuration ∈ past := by
  cases context : life.context with
  | none =>
      rw [past_of_no_context remembers context] at running
      cases running
  | some run => exact (shape remembers context).1.entered_of_running running

end Life

/-- Where in a log a run entered the engine. -/
theorem entry_of_log {log before after : List Event} {life : Life}
    (now : lifeOf id log = some life) (split : log = before ++ .entered id configuration :: after) :
    (∀ taken, .entered id taken ∉ before ∧ .entered id taken ∉ after) ∧
      .stopped id ∉ before ∧
      ∃ run, .accepted run (some configuration) ∈ before ∧ run.id = id := by
  have past : history id log =
      history id before ++ .entered id configuration :: history id after := by
    rw [split, history_append, ← List.singleton_append, history_append, history_own rfl,
      List.singleton_append]
  obtain ⟨run, owner, other, taken, rest, shape, absent⟩ :=
    Life.entersOnce (lifeOf_remembers now) ⟨id, configuration, by rw [past]; simp⟩
  rw [shape] at past
  have outside : .entered id configuration ∉
      [Event.accepted run (some taken), .published owner .initialising] := by simp
  obtain ⟨first, same, last⟩ :=
    (List.append_cons_inj_of_notMem outside (absent id configuration)).mp past
  cases same
  refine ⟨?_, ?_, run, ?_⟩
  · intro other
    constructor
    · intro member
      have own : .entered id other ∈ history id before := mem_history.mpr ⟨member, rfl⟩
      rw [← first] at own
      simp at own
    · intro member
      have own : .entered id other ∈ history id after := mem_history.mpr ⟨member, rfl⟩
      rw [← last] at own
      exact absent id other own
  · intro member
    have own : .stopped id ∈ history id before := mem_history.mpr ⟨member, rfl⟩
    rw [← first] at own
    simp at own
  · have own : .accepted run (some configuration) ∈ history id before := by
      rw [← first]
      simp
    obtain ⟨member, belongs⟩ := mem_history.mp own
    exact ⟨member, Option.some_inj.mp belongs⟩

/-! ### How a run ended -/

/-- The last state is `.error`, and the last call of `onError` carries the captured error. -/
def EndsInError (past : List Event) (capture : Capture) : Prop :=
  (states past).getLast? = some .error ∧ (failures past).getLast? = some capture.outcome.error

/-- The end of a run that entered the engine, and the capture it rests on. -/
structure Concludes (past : List Event) (configuration : IperfConfiguration)
    (capture : Capture) : Prop where
  last : lastCapture past = some capture
  flag : capture.outcome.wasStopped =
    if configuration.serverOutputByteLimit ≠ none then capture.stopSeen else capture.done
  told : (EndsInError past capture ∧ capture.outcome.isFailure) ∨
    ((states past).getLast? = some .finished ∧ ¬ capture.outcome.isFailure)

theorem Inside.flag {capture : Capture} (inside : Inside past run measurement)
    (last : measurement.last = some capture) : capture.outcome.wasStopped =
      if measurement.configuration.serverOutputByteLimit ≠ none then capture.stopSeen
      else capture.done := by
  obtain ⟨owners, id, rest, _, measured⟩ := inside
  rw [measured.flag capture last]
  simp [Measurement.isLimited]

theorem Inside.entered_configuration (inside : Inside past run measurement)
    (member : .entered id configuration ∈ past) : configuration = measurement.configuration := by
  obtain ⟨owners, entry, rest, rfl, measured⟩ := inside
  have absent := @Measured.no_entered _ _ id configuration measured
  have here : id = entry ∧ configuration = measurement.configuration := by
    simpa [birth, absent] using member
  exact here.2

theorem Ending.Explains.concludes {ending : Ending} (explains : ending.Explains run past)
    (member : .entered id configuration ∈ past) :
    ∃ capture, Concludes past configuration capture := by
  cases ending with
  | deallocated =>
      obtain ⟨given, owner, rfl⟩ := explains
      simp at member
  | cancelled =>
      obtain ⟨given, owner, id, stopping, finished, rfl⟩ := explains
      simp at member
  | refused error =>
      obtain ⟨given, owner, shown, failed, rfl⟩ := explains
      simp at member
  | failed capture =>
      obtain ⟨before, measurement, shown, failed, rfl, inside, last, failure⟩ := explains
      have same := inside.entered_configuration (by simpa using member)
      refine ⟨capture, ?_, same ▸ inside.flag last, Or.inl ⟨⟨?_, ?_⟩, failure⟩⟩
      · rw [← last, ← inside.lastCapture_eq, lastCapture, List.foldl_append]
        rfl
      · rw [states_append, List.getLast?_append]
        rfl
      · rw [failures, List.filterMap_append, List.getLast?_append]
        rfl
  | finished capture =>
      obtain ⟨before, measurement, inside, last, succeeded, tail⟩ := explains
      split_ifs at tail
      · obtain ⟨finished, rfl⟩ := tail
        have same := inside.entered_configuration (by simpa using member)
        refine ⟨capture, ?_, same ▸ inside.flag last, Or.inr ⟨?_, succeeded⟩⟩
        · rw [← last, ← inside.lastCapture_eq, lastCapture, List.foldl_append]
          rfl
        · rw [states_append, List.getLast?_append]
          rfl
      · obtain ⟨rfl, shown⟩ := tail
        have same := inside.entered_configuration member
        exact ⟨capture, inside.lastCapture_eq.trans last, same ▸ inside.flag last,
          Or.inr ⟨inside.getLast_states.trans (congrArg some shown), succeeded⟩⟩

theorem states_completion (only : ∀ event ∈ more, event.isCompletion) : states more = [] := by
  rw [states, List.filterMap_eq_nil_iff]
  intro event member
  have completes := only event member
  cases event with
  | published owner state => cases completes
  | _ => rfl

theorem states_append_completion (only : ∀ event ∈ more, event.isCompletion) :
    states (past ++ more) = states past := by
  rw [states_append, states_completion only, List.append_nil]

theorem failures_completion (only : ∀ event ∈ more, event.isCompletion) : failures more = [] := by
  rw [failures, List.filterMap_eq_nil_iff]
  intro event member
  have completes := only event member
  cases event with
  | failed owner error => cases completes
  | _ => rfl

theorem recapture_completion {last : Option Capture} (only : ∀ event ∈ more, event.isCompletion) :
    more.foldl Event.recapture last = last := by
  induction more with
  | nil => rfl
  | cons event rest inductionHypothesis =>
      have completes := only event (by simp)
      have kept : event.recapture last = last := by
        cases event with
        | called run | captured run capture => cases completes
        | _ => rfl
      rw [List.foldl_cons, kept]
      exact inductionHypothesis fun other member => only other (List.mem_cons_of_mem event member)

/-- Ending and dispatching change nothing that was told. -/
theorem Concludes.append {capture : Capture} (concludes : Concludes past configuration capture)
    (only : ∀ event ∈ more, event.isCompletion) :
    Concludes (past ++ more) configuration capture where
  last := by
    rw [lastCapture, List.foldl_append, recapture_completion only]
    exact concludes.last
  flag := concludes.flag
  told := by
    have told := concludes.told
    rw [EndsInError] at told ⊢
    have silent : more.filterMap Event.error? = [] := failures_completion only
    rw [states_append_completion only, failures, List.filterMap_append, silent, List.append_nil]
    exact told

theorem Life.concludes {life : Life} (remembers : life.Remembers past) (closed : ¬ life.isOpen)
    (member : .entered id configuration ∈ past) :
    ∃ capture, Concludes past configuration capture := by
  cases life with
  | ended run ending =>
      obtain ⟨before, rfl, explains⟩ := remembers
      obtain ⟨capture, concludes⟩ := explains.concludes (by simpa using member)
      exact ⟨capture, concludes.append (by simp [Event.isCompletion])⟩
  | released run ending =>
      obtain ⟨before, owner, callback, rfl, _, explains⟩ := remembers
      obtain ⟨capture, concludes⟩ := explains.concludes (by simpa using member)
      exact ⟨capture, concludes.append (by simp [Event.isCompletion])⟩
  | _ => exact absurd rfl closed

/-! ### Terminal states of runs with a byte limit -/

def IperfRunnerState.isTerminal : IperfRunnerState → Bool
  | .finished | .error => true
  | _ => false

/-- No terminal state so far. -/
structure Unfinished (shown : List IperfRunnerState) : Prop where
  nonterminal : ∀ state ∈ shown, ¬ state.isTerminal
  running : shown.count .running ≤ 1

/-- One terminal state, at the end. -/
def Terminated (shown : List IperfRunnerState) : Prop :=
  ∃ before terminal, shown = before ++ [terminal] ∧ terminal.isTerminal ∧ Unfinished before

theorem Inside.unfinished (inside : Inside past run measurement) (limited : measurement.isLimited) :
    Unfinished (states past) := by
  obtain ⟨rest, shown, measured⟩ := inside.states_eq
  have stopping : ∀ state ∈ states rest, state = .stopping := by
    intro state member
    rcases measured.states_subset member with stopping | ⟨_, unlimited⟩
    · exact stopping
    · exact absurd limited unlimited
  rw [shown]
  constructor
  · intro state member
    rcases List.mem_append.mp member with first | later
    · fin_cases first <;> simp [IperfRunnerState.isTerminal]
    · rw [stopping state later]
      simp [IperfRunnerState.isTerminal]
  · have none : (states rest).count .running = 0 := by
      rw [List.count_eq_zero]
      intro member
      cases stopping _ member
    rw [List.count_append, none]
    decide

theorem Inside.isLimited {context : RunContext} (inside : Inside past run measurement)
    (accepted : .accepted context (some configuration) ∈ past)
    (limited : configuration.serverOutputByteLimit ≠ none) : measurement.isLimited := by
  obtain ⟨_, same⟩ := inside.accepted accepted
  simpa [Measurement.isLimited, ← Option.some_inj.mp same] using limited

theorem Ending.Explains.terminated {ending : Ending} {context : RunContext}
    (explains : ending.Explains run past) (cause : ending ≠ .deallocated)
    (accepted : .accepted context (some configuration) ∈ past)
    (limited : configuration.serverOutputByteLimit ≠ none) : Terminated (states past) := by
  cases ending with
  | deallocated => exact absurd rfl cause
  | cancelled =>
      obtain ⟨given, owner, id, stopping, finished, rfl⟩ := explains
      exact ⟨[.initialising, .stopping], .finished, rfl, rfl, by decide, by decide⟩
  | refused error =>
      obtain ⟨given, owner, shown, failed, rfl⟩ := explains
      exact ⟨[.initialising], .error, rfl, rfl, by decide, by decide⟩
  | failed capture =>
      obtain ⟨before, measurement, shown, failed, rfl, inside, _⟩ := explains
      have isLimited := inside.isLimited (by simpa using accepted) limited
      exact ⟨states before, .error, by rw [states_append]; rfl, rfl, inside.unfinished isLimited⟩
  | finished capture =>
      obtain ⟨before, measurement, inside, _, _, tail⟩ := explains
      split_ifs at tail with isLimited
      · obtain ⟨finished, rfl⟩ := tail
        exact ⟨states before, .finished, by rw [states_append]; rfl, rfl,
          inside.unfinished isLimited⟩
      · obtain ⟨rfl, _⟩ := tail
        exact absurd (inside.isLimited accepted limited) isLimited

namespace Life

variable {past : List Event} {life : Life} {context : RunContext}
  {configuration : IperfConfiguration}

/-- A run that is over, or only owed its end, has shown its terminal state. -/
theorem terminated_of_isOver (remembers : life.Remembers past) (isOver : life.IsOver true)
    (accepted : .accepted context (some configuration) ∈ past)
    (limited : configuration.serverOutputByteLimit ≠ none) : Terminated (states past) := by
  cases life with
  | ended run ending =>
      obtain ⟨before, rfl, explains⟩ := remembers
      have told := explains.terminated (isOver.2 rfl) (by simpa using accepted) limited
      rw [states_append_completion (by simp [Event.isCompletion])]
      exact told
  | released run ending =>
      obtain ⟨before, owner, callback, rfl, _, explains⟩ := remembers
      have told := explains.terminated (isOver rfl) (by simpa using accepted) limited
      rw [states_append_completion (by simp [Event.isCompletion])]
      exact told
  | _ => cases isOver

theorem terminated_of_owes (remembers : life.Remembers past) (owes : life.Owes true run)
    (accepted : .accepted context (some configuration) ∈ past)
    (limited : configuration.serverOutputByteLimit ≠ none) : Terminated (states past) := by
  obtain ⟨ending, ends, cause⟩ := owes
  cases life with
  | closing start given =>
      simp only [next] at ends
      split_ifs at ends
      cases ends
      exact Ending.Explains.terminated remembers (cause rfl) accepted limited
  | measuring start measurement =>
      have isLimited := Inside.isLimited remembers accepted limited
      obtain ⟨owners, id, rest, _, measured⟩ := remembers
      simp only [next, Measurement.next] at ends
      split at ends
      · split_ifs at ends with closes
        exact absurd closes.2.1 (measured.not_finished isLimited)
      · cases ends
  | waiting start given =>
      simp only [next] at ends
      split_ifs at ends
      cases ends
      exact absurd rfl (cause rfl)
  | errorShown start capture => cases capture <;> cases ends
  | _ => cases ends

theorem unfinished_or_terminated (remembers : life.Remembers past)
    (accepted : .accepted context (some configuration) ∈ past)
    (limited : configuration.serverOutputByteLimit ≠ none) :
    Unfinished (states past) ∨ Terminated (states past) := by
  have early : ∀ shown ∈ [[], [.initialising], [.initialising, .stopping]],
      states past = shown → Unfinished (states past) := by
    intro shown member same
    rw [same]
    fin_cases member <;> exact ⟨by decide, by decide⟩
  have explained : ∀ {run : RunContext} {ending : Ending} {before : List Event},
      ending.Explains run before → .accepted context (some configuration) ∈ before →
        states past = states before → Unfinished (states past) ∨ Terminated (states past) := by
    intro run ending before explains member same
    by_cases cause : ending = .deallocated
    · subst cause
      obtain ⟨given, owner, rfl⟩ := explains
      exact Or.inl (early [.initialising] (by simp) same)
    · rw [same]
      exact Or.inr (explains.terminated cause member limited)
  cases life with
  | unborn =>
      cases remembers
      cases accepted
  | accepted run given =>
      cases remembers
      exact Or.inl (early [] (by simp) rfl)
  | waiting run given =>
      obtain ⟨owner, rfl⟩ := remembers
      exact Or.inl (early [.initialising] (by simp) rfl)
  | cancelled run =>
      obtain ⟨given, owner, id, rfl⟩ := remembers
      exact Or.inl (early [.initialising] (by simp) rfl)
  | cancelling run =>
      obtain ⟨given, owner, id, stopping, rfl⟩ := remembers
      exact Or.inl (early [.initialising, .stopping] (by simp) rfl)
  | entered run given =>
      obtain ⟨owner, id, rfl⟩ := remembers
      exact Or.inl (early [.initialising] (by simp) rfl)
  | measuring run measurement =>
      exact Or.inl (Inside.unfinished remembers (Inside.isLimited remembers accepted limited))
  | errorShown run capture =>
      cases capture with
      | none =>
          obtain ⟨given, owner, shown, rfl⟩ := remembers
          exact Or.inr ⟨[.initialising], .error, rfl, rfl, by decide, by decide⟩
      | some taken =>
          obtain ⟨before, measurement, shown, rfl, inside, _⟩ := remembers
          have isLimited := inside.isLimited (by simpa using accepted) limited
          exact Or.inr ⟨states before, .error, by rw [states_append]; rfl, rfl,
            inside.unfinished isLimited⟩
  | closing run ending => exact explained remembers accepted rfl
  | ended run ending =>
      obtain ⟨before, rfl, explains⟩ := remembers
      exact explained explains (by simpa using accepted)
        (states_append_completion (by simp [Event.isCompletion]))
  | released run ending =>
      obtain ⟨before, owner, callback, rfl, _, explains⟩ := remembers
      exact explained explains (by simpa using accepted)
        (states_append_completion (by simp [Event.isCompletion]))

end Life

end IperfSwift.Lifecycle
