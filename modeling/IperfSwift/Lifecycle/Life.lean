import IperfSwift.Lifecycle.Machine

/-!
Contract: the life of one run, as its callbacks and the engine see it.

Owns: the phases of a run; which events each phase admits; the history of a run in a log;
the accounts of all runs of one log, each active, owed its end, or over.

Does not own: what a phase says about its past, the runner, its queues, or the proof that
its runs live by these rules.
-/

set_option autoImplicit false

namespace IperfSwift.Lifecycle

open IperfSwift.Lib

variable {id : RunID} {event : Event} {log : List Event} {alive : Bool}

/-! ### Histories -/

/-- The run an event belongs to. -/
def Event.run : Event → Option RunID
  | .accepted run _ => some run.id
  | .published run _ => run
  | .failed run _ => run
  | .stopped run => some run
  | .stopBegun run => run
  | .stopCompleted run => run
  | .entered run _ => some run
  | .called run => some run
  | .cleared run => some run
  | .restarted run => some run
  | .captured run _ => some run
  | .ended run => some run.id
  | .dispatched run _ => some run

/-- The events of one run. -/
def history (id : RunID) (log : List Event) : List Event :=
  log.filter fun event => event.run = some id

@[simp] theorem history_nil (id : RunID) : history id [] = [] := rfl

theorem history_append (id : RunID) (first second : List Event) :
    history id (first ++ second) = history id first ++ history id second :=
  List.filter_append ..

theorem history_own (own : event.run = some id) : history id [event] = [event] := by
  simp [history, own]

theorem history_other (other : event.run ≠ some id) : history id [event] = [] := by
  simp [history, other]

theorem mem_history {id : RunID} {event : Event} {log : List Event} :
    event ∈ history id log ↔ event ∈ log ∧ event.run = some id := by
  simp [history]

/-! ### Phases -/

/-- What is known of a run inside the native engine. -/
structure Measurement where
  configuration : IperfConfiguration
  /-- The state published last. -/
  shown : IperfRunnerState
  stopBegun : Bool
  stopCompleted : Bool
  /-- A native call is due. -/
  armed : Bool
  /-- A stop was completed and `done` was not cleared since. -/
  kept : Bool
  /-- What was captured after the last native call, if it returned. -/
  last : Option Capture
deriving DecidableEq, Repr

/-- How a run came to its end. -/
inductive Ending where
  /-- The runner was deallocated while the run was queued. -/
  | deallocated
  /-- It was stopped while queued. -/
  | cancelled
  /-- It failed before it entered the engine. -/
  | refused (error : IperfError)
  /-- It failed with the outcome of its last native call. -/
  | failed (capture : Capture)
  | finished (capture : Capture)
deriving DecidableEq, Repr

inductive Life where
  | unborn
  | accepted (run : RunContext) (configuration : Option IperfConfiguration)
  /-- `.initialising` was published. -/
  | waiting (run : RunContext) (configuration : Option IperfConfiguration)
  /-- A stop was processed before the run entered the engine. -/
  | cancelled (run : RunContext)
  | cancelling (run : RunContext)
  | entered (run : RunContext) (configuration : IperfConfiguration)
  | measuring (run : RunContext) (measurement : Measurement)
  /-- `.error` was published, for a capture or before the engine. -/
  | errorShown (run : RunContext) (capture : Option Capture)
  /-- The last callback of the run was called. -/
  | closing (run : RunContext) (ending : Ending)
  | ended (run : RunContext) (ending : Ending)
  /-- The completion was dispatched. -/
  | released (run : RunContext) (ending : Ending)
deriving DecidableEq, Repr

/-- The runner takes an outcome for a failure. -/
def Outcome.isFailure (outcome : Outcome) : Bool :=
  outcome.code < 0 ∧ ¬ outcome.wasStopped

namespace Measurement

def isLimited (measurement : Measurement) : Bool :=
  measurement.configuration.serverOutputByteLimit ≠ none

/-- A stop of the run has taken effect. -/
def stopSeen (measurement : Measurement) : Bool :=
  if measurement.isLimited then measurement.stopBegun else measurement.stopCompleted

/-- A capture reads the flags of the test: the sticky one is set by stops alone, while the
engine also sets `done`. -/
def admits (measurement : Measurement) (capture : Capture) : Bool :=
  capture.stopSeen = measurement.stopSeen ∧
    capture.outcome.wasStopped =
      if measurement.isLimited then measurement.stopBegun else capture.done

/-- Events of a run inside the engine. -/
def next (run : RunContext) (measurement : Measurement) : Event → Option Life
  | .called _ =>
      if measurement.armed then
        some (.measuring run { measurement with armed := false, last := none })
      else none
  | .restarted _ =>
      if measurement.shown = .running then
        some (.measuring run { measurement with armed := true, kept := false })
      else none
  | .cleared _ => some (.measuring run { measurement with kept := false })
  | .captured _ capture =>
      if measurement.admits capture then
        some (.measuring run { measurement with last := some capture })
      else none
  | .failed _ _ => some (.measuring run measurement)
  | .stopped _ => some (.measuring run measurement)
  | .stopBegun _ => some (.measuring run { measurement with stopBegun := true })
  | .stopCompleted _ =>
      if measurement.shown = .stopping then
        some (.measuring run { measurement with stopCompleted := true, kept := true })
      else none
  | .published _ .stopping => some (.measuring run { measurement with shown := .stopping })
  | .published _ .finished =>
      if measurement.isLimited then
        match measurement.last with
        | some capture =>
            if capture.outcome.isFailure then none
            else some (.closing run (.finished capture))
        | none => none
      else some (.measuring run { measurement with shown := .finished })
  | .published _ .error =>
      match measurement.last with
      | some capture =>
          if capture.outcome.isFailure then some (.errorShown run (some capture)) else none
      | none => none
  | .ended ending =>
      match measurement.last with
      | some capture =>
          if ending = run ∧ measurement.shown = .finished ∧ ¬ capture.outcome.isFailure then
            some (.ended run (.finished capture))
          else none
      | none => none
  | _ => none

end Measurement

namespace Life

/-- The phase after an event, for the events that may happen. -/
def next : Life → Event → Option Life
  | .unborn, .accepted run configuration => some (.accepted run configuration)
  | .accepted run configuration, .published _ .initialising => some (.waiting run configuration)
  | .waiting run _, .published _ .error => some (.errorShown run none)
  | .waiting run _, .stopped _ => some (.cancelled run)
  | .waiting run configuration, .entered _ taken =>
      if configuration = some taken then some (.entered run taken) else none
  | .waiting run _, .ended ending => if ending = run then some (.ended run .deallocated) else none
  | .cancelled run, .published _ .stopping => some (.cancelling run)
  | .cancelling run, .published _ .finished => some (.closing run .cancelled)
  | .entered run configuration, .published _ .running =>
      some (.measuring run
        { configuration := configuration
          shown := .running
          stopBegun := false
          stopCompleted := false
          armed := true
          kept := false
          last := none })
  | .measuring run measurement, event => measurement.next run event
  | .errorShown run none, .failed _ error => some (.closing run (.refused error))
  | .errorShown run (some capture), .failed _ error =>
      if error = capture.outcome.error then some (.closing run (.failed capture)) else none
  | .closing run cause, .ended ending => if ending = run then some (.ended run cause) else none
  | .ended run cause, .dispatched _ callback =>
      if run.onResourcesReleased = some callback then some (.released run cause) else none
  | _, _ => none

end Life

/-- The phase a run is in after a log. -/
def lifeOf (id : RunID) (log : List Event) : Option Life :=
  execute Life.next .unborn (history id log)

theorem lifeOf_record {id : RunID} {log : List Event} {event : Event} {life next : Life}
    (now : lifeOf id log = some life) (own : event.run = some id)
    (admitted : life.next event = some next) : lifeOf id (log ++ [event]) = some next := by
  rw [lifeOf, history_append, history_own own]
  apply execute_append.mpr
  exact ⟨life, now, execute_cons.mpr ⟨next, admitted, rfl⟩⟩

theorem lifeOf_record_other (other : event.run ≠ some id) :
    lifeOf id (log ++ [event]) = lifeOf id log := by
  rw [lifeOf, history_append, history_other other, List.append_nil]
  rfl

theorem lifeOf_unborn (fresh : ∀ event ∈ log, event.run ≠ some id) :
    lifeOf id log = some .unborn := by
  have empty : history id log = [] := by
    rw [history, List.filter_eq_nil_iff]
    intro event member
    simpa using fresh event member
  rw [lifeOf, empty, execute_nil]

/-! ### The runs of one log -/

variable {life : Life}

namespace Life

/-- All that is left is to end the run and dispatch its completion. As long as the runner
is alive, that is the work of `cleanState`. -/
def Owes (alive : Bool) (run : RunContext) (life : Life) : Prop :=
  ∃ ending, life.next (.ended run) = some (.ended run ending) ∧
    (alive → ending ≠ .deallocated)

/-- The completion went where the start asked for it. -/
def IsOver (alive : Bool) : Life → Prop
  | .ended run ending => run.onResourcesReleased = none ∧ (alive → ending ≠ .deallocated)
  | .released _ ending => alive → ending ≠ .deallocated
  | _ => False

theorem Owes.weaken {run : RunContext} (owes : life.Owes true run) : life.Owes alive run := by
  obtain ⟨ending, ends, cause⟩ := owes
  exact ⟨ending, ends, fun _ => cause rfl⟩

theorem IsOver.abandon (isOver : life.IsOver alive) : life.IsOver false := by
  cases life with
  | ended run ending => exact ⟨isOver.1, by simp⟩
  | released run ending => exact fun impossible => absurd impossible (by simp)
  | _ => cases isOver

end Life

/-- What the end of `cleanState` does for a run. -/
def completion (run : RunContext) : List Event :=
  .ended run :: run.onResourcesReleased.toList.map (.dispatched run.id)

theorem completion_run {run : RunContext} (member : event ∈ completion run) :
    event.run = some run.id := by
  rcases List.mem_cons.mp member with rfl | later
  · rfl
  · obtain ⟨callback, _, rfl⟩ := List.mem_map.mp later
    rfl

theorem lifeOf_completion_other {run : RunContext} (other : run.id ≠ id) :
    lifeOf id (log ++ completion run) = lifeOf id log := by
  have none : history id (completion run) = [] := by
    rw [history, List.filter_eq_nil_iff]
    intro event member
    simpa [completion_run member] using other
  rw [lifeOf, history_append, none, List.append_nil]
  rfl

theorem lifeOf_completion {run : RunContext} (now : lifeOf run.id log = some life)
    (left : life.Owes alive run) :
    ∃ final, lifeOf run.id (log ++ completion run) = some final ∧ final.IsOver alive := by
  obtain ⟨ending, ends, cause⟩ := left
  have closed := lifeOf_record now rfl ends
  cases asked : run.onResourcesReleased with
  | none =>
      have events : completion run = [.ended run] := by simp [completion, asked]
      exact ⟨.ended run ending, by rw [events, closed], asked, cause⟩
  | some callback =>
      have events : log ++ completion run =
          (log ++ [.ended run]) ++ [.dispatched run.id callback] := by
        simp [completion, asked]
      have admitted : Life.next (.ended run ending) (.dispatched run.id callback) =
          some (.released run ending) := by
        simp [Life.next, asked]
      exact ⟨.released run ending, by rw [events, lifeOf_record closed rfl admitted], cause⟩

/-- Every run that was accepted is the active one, or is owed its end by a block in
execution, or is over. -/
structure Accounted (log : List Event) (active : Option RunContext) (owed : List RunContext)
    (bound : RunID) (alive : Bool) : Prop where
  apart : ((active.toList ++ owed).map RunContext.id).Nodup
  known : ∀ run ∈ active.toList ++ owed, run.id < bound
  owes : ∀ run ∈ owed, ∃ life, lifeOf run.id log = some life ∧ life.Owes alive run
  fresh : ∀ event ∈ log, ∀ id, event.run = some id → id < bound
  settled : ∀ id < bound, id ∉ (active.toList ++ owed).map RunContext.id →
    ∃ life, lifeOf id log = some life ∧ life.IsOver alive

namespace Accounted

variable {log : List Event} {active : Option RunContext} {run : RunContext}
  {owed : List RunContext} {bound : RunID} {alive : Bool} {event : Event}

/-- An event of one run leaves the accounts of the others. -/
theorem record (accounts : Accounted log (some run) owed bound alive)
    (own : event.run = some run.id) : Accounted (log ++ [event]) (some run) owed bound alive where
  apart := accounts.apart
  known := accounts.known
  owes := by
    intro other member
    have distinct : run.id ≠ other.id := by
      have apart := accounts.apart
      simp only [Option.toList_some, List.singleton_append, List.map_cons,
        List.nodup_cons] at apart
      intro same
      exact apart.1 (same ▸ List.mem_map_of_mem member)
    rw [lifeOf_record_other (by simpa [own] using distinct)]
    exact accounts.owes other member
  fresh := by
    intro next member id belongs
    rcases List.mem_append.mp member with old | new
    · exact accounts.fresh next old id belongs
    · rw [List.mem_singleton.mp new, own, Option.some_inj] at belongs
      exact belongs ▸ accounts.known run (by simp)
  settled := by
    intro id below absent
    have distinct : run.id ≠ id := by
      intro same
      exact absent (by simp [same])
    rw [lifeOf_record_other (by simpa [own] using distinct)]
    exact accounts.settled id below absent

theorem accept (accounts : Accounted log none owed bound alive) (new : run.id = bound)
    (own : event.run = some run.id) :
    Accounted (log ++ [event]) (some run) owed (bound + 1) alive where
  apart := by
    have apart := accounts.apart
    have known := accounts.known
    simp only [Option.toList_none, List.nil_append] at apart known
    simp only [Option.toList_some, List.singleton_append, List.map_cons, List.nodup_cons]
    refine ⟨?_, apart⟩
    intro member
    obtain ⟨other, inside, same⟩ := List.mem_map.mp member
    have below := known other inside
    rw [same, new] at below
    exact Nat.lt_irrefl bound below
  known := by
    intro other member
    rcases List.mem_append.mp member with first | rest
    · have same : other = run := by simpa using first
      rw [same, new]
      exact Nat.lt_succ_self bound
    · exact Nat.lt_succ_of_lt (accounts.known other (by simpa using rest))
  owes := by
    intro other member
    have below := accounts.known other (by simpa using member)
    have distinct : run.id ≠ other.id := by
      rw [new]
      exact Nat.ne_of_gt below
    rw [lifeOf_record_other (by simpa [own] using distinct)]
    exact accounts.owes other member
  fresh := by
    intro next member id belongs
    rcases List.mem_append.mp member with old | last
    · exact Nat.lt_succ_of_lt (accounts.fresh next old id belongs)
    · rw [List.mem_singleton.mp last, own, Option.some_inj, new] at belongs
      exact belongs ▸ Nat.lt_succ_self bound
  settled := by
    intro id below absent
    have distinct : run.id ≠ id := by
      intro same
      exact absent (by simp [same])
    rw [lifeOf_record_other (by simpa [own] using distinct)]
    rw [new] at distinct
    apply accounts.settled id (Nat.lt_of_le_of_ne (Nat.le_of_lt_succ below) distinct.symm)
    intro member
    exact absent (by
      simp only [Option.toList_some, List.singleton_append, List.map_cons, List.mem_cons]
      exact Or.inr (by simpa using member))

/-- The active run is cleared by a block that still owes it its end. -/
theorem clear (accounts : Accounted log (some run) owed bound alive)
    (now : lifeOf run.id log = some life) (left : life.Owes alive run) :
    Accounted log none (run :: owed) bound alive where
  apart := accounts.apart
  known := accounts.known
  owes := by
    intro other member
    rcases List.mem_cons.mp member with rfl | rest
    · exact ⟨life, now, left⟩
    · exact accounts.owes other rest
  fresh := accounts.fresh
  settled := accounts.settled

/-- The runner is deallocated. -/
theorem abandon (accounts : Accounted log active owed bound alive) :
    Accounted log active owed bound false where
  apart := accounts.apart
  known := accounts.known
  owes := by
    intro run member
    obtain ⟨life, now, ending, ends, _⟩ := accounts.owes run member
    exact ⟨life, now, ending, ends, by simp⟩
  fresh := accounts.fresh
  settled := by
    intro id below absent
    obtain ⟨life, now, isOver⟩ := accounts.settled id below absent
    exact ⟨life, now, isOver.abandon⟩

/-- The block that owes a run its end pays. -/
theorem complete (accounts : Accounted log active (run :: owed) bound alive) :
    Accounted (log ++ completion run) active owed bound alive where
  apart := by
    have apart := accounts.apart
    rw [List.map_append, List.map_cons, List.nodup_append_comm, List.cons_append] at apart
    rw [List.map_append, List.nodup_append_comm]
    exact apart.of_cons
  known := by
    intro other member
    apply accounts.known other
    rcases List.mem_append.mp member with first | rest
    · exact List.mem_append_left _ first
    · exact List.mem_append_right _ (List.mem_cons_of_mem run rest)
  owes := by
    intro other member
    have distinct : run.id ≠ other.id := by
      have apart := accounts.apart
      rw [List.map_append, List.map_cons, List.nodup_append_comm, List.cons_append] at apart
      intro same
      apply (List.nodup_cons.mp apart).1
      exact List.mem_append_left _ (same ▸ List.mem_map_of_mem member)
    rw [lifeOf_completion_other distinct]
    exact accounts.owes other (List.mem_cons_of_mem run member)
  fresh := by
    intro event member id belongs
    rcases List.mem_append.mp member with old | new
    · exact accounts.fresh event old id belongs
    · rw [completion_run new, Option.some_inj] at belongs
      exact belongs ▸ accounts.known run (by simp)
  settled := by
    intro id below absent
    by_cases own : run.id = id
    · obtain ⟨life, now, left⟩ := accounts.owes run (by simp)
      subst own
      exact lifeOf_completion now left
    · rw [lifeOf_completion_other own]
      apply accounts.settled id below
      intro member
      apply absent
      simp only [List.map_append, List.map_cons, List.mem_append, List.mem_cons] at member ⊢
      rcases member with first | same | rest
      · exact Or.inl first
      · exact absurd same.symm own
      · exact Or.inr rest

end Accounted

end IperfSwift.Lifecycle
