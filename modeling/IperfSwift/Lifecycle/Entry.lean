import IperfSwift.Lifecycle.Steps

/-!
Contract: the one place where a run enters the engine.

Owns: that no step but the block of a queued run records an entry, and that this block
records the entry of its own run, which is still the pending one.

Does not own: how often that happens.
-/

set_option autoImplicit false

namespace IperfSwift.Lifecycle.IperfRunner

variable {runner : IperfRunner}

/-- No entry is new in the first log. -/
def NoEntry (log old : List Event) : Prop :=
  ∀ id configuration, .entered id configuration ∈ log → .entered id configuration ∈ old

theorem noEntry_refl (log : List Event) : NoEntry log log := fun _ _ => id

theorem noEntry_startRun (onResourcesReleased : Option Callback) :
    NoEntry (runner.startRun onResourcesReleased).log runner.log := by
  rw [startRun]
  split_ifs
  · simp [NoEntry, publish, push, record]
  · exact noEntry_refl _

theorem noEntry_onError (error : IperfError) : NoEntry (runner.onError error).log runner.log := by
  simp [NoEntry, onError, publish, push, record]

theorem noEntry_dispatch (run : Option RunContext) :
    NoEntry (runner.dispatch run).log runner.log := by
  cases run with
  | none => exact noEntry_refl _
  | some run =>
      obtain ⟨blocks, dispatched, _⟩ := @dispatch_some runner run
      rw [dispatched]
      simp [NoEntry, completion]

theorem noEntry_cleanState : NoEntry runner.cleanState.log runner.log := by
  rw [cleanState]
  split_ifs
  · simp [NoEntry, publish, push, record]
  · exact noEntry_dispatch runner.activeRun

theorem noEntry_deliver (delivers : Bool) : NoEntry (runner.deliver delivers).log runner.log := by
  rw [deliver]
  split_ifs <;> exact noEntry_refl _

theorem noEntry_proceed (configurationError : Option IperfError) (frame : Frame) :
    NoEntry (runner.proceed configurationError frame).log runner.log := by
  cases frame with
  | initialising runID =>
      simp only [proceed]
      split
      · exact noEntry_onError _
      · exact noEntry_refl _
  | errorState error => simp [NoEntry, proceed, push, record]
  | errorFunction => exact noEntry_cleanState
  | stoppingQueued => exact @noEntry_cleanState { runner with state := .stopping }
  | requestStop pointer => simp [NoEntry, proceed, push, record, updateTest]
  | requestDone pointer => simp [NoEntry, proceed, record, updateTest]
  | finished run => exact @noEntry_dispatch { runner with state := .finished } run
  | reported delivers => exact @noEntry_deliver { runner with state := .finished } delivers
  | _ => exact noEntry_refl _

theorem noEntry_handleReporterStatus (process : Process) (state : IperfState) (delivers : Bool) :
    NoEntry (runner.handleReporterStatus process state delivers).log runner.log := by
  simp only [handleReporterStatus]
  split_ifs
  · exact noEntry_refl _
  · exact noEntry_refl _
  · split
    · exact noEntry_refl _
    · split_ifs
      · simp [NoEntry, publish, push, record]
      · exact noEntry_deliver _

theorem noEntry_begin {preparation : Preparation} {block : Block}
    (other : ∀ runID, block ≠ .prepare runID) :
    NoEntry (runner.begin preparation block).log runner.log := by
  cases block with
  | prepare runID => exact absurd rfl (other runID)
  | start configuration onResourcesReleased =>
      cases configuration with
      | none => exact noEntry_startRun onResourcesReleased
      | some configuration =>
          simp only [begin, start]
          split_ifs
          · exact noEntry_startRun onResourcesReleased
          · exact noEntry_refl _
  | stop =>
      simp only [begin, stopCurrentTest]
      split
      · split <;> simp [NoEntry, publish, push, record]
      · split_ifs
        · split <;> simp [NoEntry, publish, push, record]
        · exact noEntry_refl _
  | release run callback => exact noEntry_refl _
  | report process state delivers => exact noEntry_handleReporterStatus process state delivers
  | jsonStream process =>
      simp only [begin, handleJSONStreamOutput]
      split_ifs <;> exact noEntry_refl _
  | decide process outcome =>
      simp only [begin, decideRestart, resetTest, updateTest]
      split_ifs <;> simp [NoEntry, push, record]
  | finish process outcome =>
      simp only [begin, finishProcess]
      split_ifs
      · exact noEntry_refl _
      · exact @noEntry_onError (runner.push (.sync .idle)) outcome.error
      · exact @noEntry_cleanState (runner.push (.sync .idle))

/-- The block of a queued run enters that run, if it is still pending. -/
theorem entered_prepare {preparation : Preparation} {runID id : RunID}
    {configuration : IperfConfiguration}
    (new : .entered id configuration ∈ (runner.prepare runID preparation).log)
    (old : .entered id configuration ∉ runner.log) :
    id = runID ∧ runner.pendingRunID = some runID := by
  rw [prepare] at new
  split_ifs at new with pending
  · exact absurd new old
  · refine ⟨?_, not_not.mp pending⟩
    dsimp only at new
    split at new
    · simp [onError, publish, push, record, old] at new
    · rename_i taken configured
      cases preparation with
      | ready pointer =>
          have entry : id = runID ∧ configuration = taken := by
            simpa [enterEngine, newTest, publish, push, record, old] using new
          exact entry.1
      | _ => simp [newTest, onError, publish, push, record, old] at new

theorem entered_step {next : IperfRunner} {action : Action} {id : RunID}
    {configuration : IperfConfiguration} (stepped : runner.step action = some next)
    (new : .entered id configuration ∈ next.log) (old : .entered id configuration ∉ runner.log) :
    ∃ preparation rest, action = .next preparation ∧ runner.stack = [] ∧
      runner.stateQueue = .prepare id :: rest ∧ runner.pendingRunID = some id := by
  have fresh : ¬ NoEntry next.log runner.log := fun kept => old (kept id configuration new)
  cases action <;> simp only [step] at stepped
  case next preparation =>
    split at stepped
    · rename_i block rest stack queue
      cases stepped
      by_cases isPrepare : ∃ runID, block = .prepare runID
      · obtain ⟨runID, rfl⟩ := isPrepare
        obtain ⟨rfl, pending⟩ := entered_prepare new old
        exact ⟨preparation, rest, rfl, stack, queue, pending⟩
      · exact absurd (noEntry_begin (not_exists.mp isPrepare)) fresh
    · cases stepped
  case resume configurationError =>
    split at stepped
    · cases stepped
      exact absurd (noEntry_proceed configurationError _) fresh
    · cases stepped
  case inlineStart onResourcesReleased =>
    split at stepped
    · split_ifs at stepped
      cases stepped
      exact absurd (noEntry_startRun onResourcesReleased) fresh
    · cases stepped
  case deallocate =>
    split_ifs at stepped
    cases stepped
    exact absurd (noEntry_dispatch _) fresh
  case dequeue =>
    split at stepped
    · split_ifs at stepped <;> cases stepped <;> exact absurd new old
    · cases stepped
  case createTimers duration =>
    split at stepped
    · cases stepped
      split_ifs at new
      · simp [record, updateTest, old] at new
      · exact absurd new old
    · cases stepped
  case call =>
    split at stepped
    · cases stepped
      simp [record, old] at new
    · cases stepped
  case capture =>
    split at stepped
    · cases stepped
      simp [IperfRunner.capture, record, old] at new
    · cases stepped
  case start configuration onResourcesReleased | stop =>
    split_ifs at stepped
    cases stepped
    exact absurd new old
  all_goals
    split at stepped
    · cases stepped
      exact absurd new old
    · cases stepped

end IperfSwift.Lifecycle.IperfRunner
