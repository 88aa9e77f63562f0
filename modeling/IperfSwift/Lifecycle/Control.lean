import IperfSwift.Lifecycle.History

/-!
Contract: where a runner can be, and that every schedule keeps it there.

Owns: the place of the engine thread behind its waits on the state queue; the control
points of a runner, each with the fields it may have, the frames on its stack and the life
of its active run; the invariant and its preservation by every action.

Does not own: what follows for completions, entries, outcomes or published states.
-/

set_option autoImplicit false

namespace IperfSwift.Lifecycle

open IperfSwift.Lib

/-! ### The place of the engine thread -/

def Engine.process : Engine → Option Process
  | .idle | .syncing _ => none
  | .calling process => some process
  | .native process => some process
  | .returned process _ _ => some process
  | .captured process _ => some process
  | .leaving process _ => some process

def Engine.outcome : Engine → Option Outcome
  | .captured _ outcome => some outcome
  | .leaving _ outcome => some outcome
  | _ => none

def Engine.isSyncing : Engine → Bool
  | .syncing _ => true
  | _ => false

def Engine.isCalling : Engine → Bool
  | .calling _ => true
  | _ => false

/-- Where the engine thread was when it began to wait for the block. -/
def Block.place : Block → Option Engine
  | .prepare _ => some .idle
  | .report process _ _ => some (.native process)
  | .jsonStream process => some (.native process)
  | .decide process outcome => some (.captured process outcome)
  | .finish process outcome => some (.leaving process outcome)
  | .start _ _ | .stop | .release _ _ => none

/-- Where the engine thread goes on after the frame. -/
def Frame.place : Frame → Option Engine
  | .sync next => some next
  | _ => none

/-- Frames that any block may leave behind. -/
def Frame.isQuiet : Frame → Bool
  | .finished _ | .releasing | .sync .idle => true
  | _ => false

/-- The run a frame still has to end. -/
def Frame.owed : Frame → Option RunContext
  | .finished run => run
  | _ => none

namespace IperfRunner

/-- The waits of the engine thread on the state queue. -/
def waits (runner : IperfRunner) : List Engine :=
  runner.stateQueue.filterMap Block.place ++ runner.stack.filterMap Frame.place

/-- The program counter of the engine thread. -/
def place (runner : IperfRunner) : Engine := runner.waits.head?.getD runner.engine

/-- The runs that the block in execution still has to end. -/
def owed (runner : IperfRunner) : List RunContext := runner.stack.filterMap Frame.owed

/-! ### Control points -/

/-- The active run is inside the engine, with its measurement. -/
structure Occupied (runner : IperfRunner) (run : RunContext) (process : Process)
    (measurement : Measurement) : Prop where
  active : runner.activeRun = some run
  pending : runner.pendingRunID = none
  test : runner.currentTest = some process.testPointer
  configuration : runner.configuration = some process.configuration
  owner : process.run = run.id
  life : lifeOf run.id runner.log = some (.measuring run measurement)
  agreed : measurement.configuration = process.configuration
  flag : ∀ test ∈ runner.tests, test.outputStopRequested = measurement.stopBegun
  kept : ∀ test ∈ runner.tests, measurement.kept → test.done

/-- The engine thread is where the measurement has it. The outcome it carries was captured
last. -/
structure Located (engine : Engine) (measurement : Measurement) : Prop where
  armed : measurement.armed = engine.isCalling
  concluded : ∀ outcome, engine.outcome = some outcome →
    ∃ capture, measurement.last = some capture ∧ capture.outcome = outcome

theorem Located.at {engine other : Engine} {measurement : Measurement}
    (located : Located engine measurement) (same : other = engine) :
    Located other measurement :=
  same ▸ located

/-- The stack while the active run is inside the engine, and the state it has shown. -/
inductive Point (runner : IperfRunner) (pointer : Pointer) (shown : IperfRunnerState) : Prop where
  | idle (stack : runner.stack = []) (state : runner.state = shown)
  | releasing (stack : runner.stack = [.releasing]) (state : runner.state = shown)
  | stopping (stack : runner.stack = [.stoppingTest pointer]) (state : .stopping = shown)
  | requestStop (stack : runner.stack = [.requestStop pointer]) (state : runner.state = shown)
      (stopping : shown = .stopping)
  | requestDone (stack : runner.stack = [.requestDone pointer]) (state : runner.state = shown)
      (stopping : shown = .stopping)
  | entering {next : Engine} (stack : runner.stack = [.running, .sync next])
      (state : .running = shown)
  | restarting {next : Engine} (stack : runner.stack = [.restarting pointer, .sync next])
      (state : runner.state = shown) (running : shown = .running)
  | reported {next : Engine} {delivers : Bool}
      (stack : runner.stack = [.reported delivers, .sync next]) (state : .finished = shown)
  | delivering {next : Engine} (stack : runner.stack = [.delivering, .sync next])
      (state : runner.state = shown)
  | resuming {next : Engine} (stack : runner.stack = [.sync next]) (state : runner.state = shown)

/-- The frames of `onError`. -/
inductive Fails (runner : IperfRunner) (run : RunContext) : Frame → Prop where
  | state {error : IperfError} {capture : Option Capture}
      (life : lifeOf run.id runner.log = some (.errorShown run capture))
      (carried : ∀ taken, capture = some taken → error = taken.outcome.error) :
      Fails runner run (.errorState error)
  | function {ending : Ending} (life : lifeOf run.id runner.log = some (.closing run ending))
      (cause : ending ≠ .deallocated) (state : runner.state = .error) :
      Fails runner run .errorFunction

inductive Control (runner : IperfRunner) : Prop where
  /-- No run is active. -/
  | free (active : runner.activeRun = none) (pending : runner.pendingRunID = none)
      (test : runner.currentTest = none) (quiet : ∀ frame ∈ runner.stack, frame.isQuiet)
      (away : runner.place.process = none)
  /-- `startRun` is publishing `.initialising`. -/
  | starting {run : RunContext} {rest : List Frame} (active : runner.activeRun = some run)
      (pending : runner.pendingRunID = none) (test : runner.currentTest = none)
      (stack : runner.stack = .initialising run.id :: rest)
      (quiet : ∀ frame ∈ rest, frame.isQuiet) (away : runner.place.process = none)
      (life : lifeOf run.id runner.log = some (.waiting run runner.configuration))
  /-- The active run is in the engine queue. -/
  | queued {run : RunContext} (active : runner.activeRun = some run)
      (pending : runner.pendingRunID = some run.id) (test : runner.currentTest = none)
      (quiet : ∀ frame ∈ runner.stack, frame.isQuiet) (away : runner.place.process = none)
      (life : lifeOf run.id runner.log = some (.waiting run runner.configuration))
  /-- A queued run is being stopped. -/
  | cancelling {run : RunContext} (active : runner.activeRun = some run)
      (pending : runner.pendingRunID = some run.id) (test : runner.currentTest = none)
      (stack : runner.stack = [.stoppingQueued]) (away : runner.place.process = none)
      (life : lifeOf run.id runner.log = some (.cancelling run))
  /-- `onError` is executing, in the engine's last block if there is a test. -/
  | failing {run : RunContext} {frame : Frame} {rest : List Frame}
      (active : runner.activeRun = some run) (pending : runner.pendingRunID = none)
      (stack : runner.stack = frame :: rest) (quiet : ∀ frame ∈ rest, frame.isQuiet)
      (away : runner.place.process = none)
      (held : runner.currentTest = none ∨ .sync .idle ∈ rest)
      (fails : runner.Fails run frame)
  /-- The active run is inside the engine. -/
  | testing {run : RunContext} {process : Process} {measurement : Measurement}
      (occupied : runner.Occupied run process measurement)
      (position : runner.place.process = some process)
      (located : Located runner.place measurement)
      (point : runner.Point process.testPointer measurement.shown)

/-- What holds of a runner whatever its control point is. -/
structure Base (runner : IperfRunner) : Prop where
  token : runner.waits.length = runner.engine.isSyncing.toNat
  callbacks : ∀ run, runner.activeRun = some run → runner.callbacks = some run.id
  noTest : runner.currentTest = none → runner.tests = []
  liveTest : ∀ pointer, runner.currentTest = some pointer → ∃ run test,
    runner.activeRun = some run ∧ runner.tests = [test] ∧ test.pointer = pointer ∧
      test.run = run.id
  accounts : Accounted runner.log runner.activeRun runner.owed runner.nextID runner.alive

structure Sound (runner : IperfRunner) : Prop extends runner.Base where
  control : runner.Control

theorem sound_new (configuration : IperfConfiguration) : (IperfRunner.new configuration).Sound where
  control := .free rfl rfl rfl (by simp [new]) rfl
  token := rfl
  callbacks := by simp [new]
  noTest := fun _ => rfl
  liveTest := by simp [new]
  accounts :=
    { apart := by simp [new, owed]
      known := by simp [new, owed]
      owes := by simp [new, owed]
      fresh := by simp [new]
      settled := by simp [new] }

/-- While `.running` is shown there is no stop to keep. -/
theorem Occupied.unkept {runner : IperfRunner} {run : RunContext} {process : Process}
    {measurement : Measurement} (occupied : runner.Occupied run process measurement)
    (running : measurement.shown = .running) : measurement.kept = false := by
  obtain ⟨owners, id, rest, _, measured⟩ := lifeOf_remembers occupied.life
  cases kept : measurement.kept with
  | false => rfl
  | true => exact absurd running (measured.halted (measured.stopped kept))

/-! ### Moving a control point to another runner -/

/-- The same fields, the queues, the engine and the tests apart. -/
structure Alike (runner other : IperfRunner) : Prop where
  active : other.activeRun = runner.activeRun
  pending : other.pendingRunID = runner.pendingRunID
  test : other.currentTest = runner.currentTest
  configuration : other.configuration = runner.configuration
  stack : other.stack = runner.stack
  state : other.state = runner.state
  log : other.log = runner.log
  callbacks : other.callbacks = runner.callbacks
  nextID : other.nextID = runner.nextID
  alive : other.alive = runner.alive

variable {runner other : IperfRunner}

theorem Point.transport {pointer : Pointer} {shown : IperfRunnerState}
    (point : runner.Point pointer shown) (stack : other.stack = runner.stack)
    (state : other.state = runner.state) : other.Point pointer shown := by
  cases point with
  | idle shape shows => exact .idle (stack.trans shape) (state.trans shows)
  | releasing shape shows => exact .releasing (stack.trans shape) (state.trans shows)
  | stopping shape shows => exact .stopping (stack.trans shape) shows
  | requestStop shape shows stopping =>
      exact .requestStop (stack.trans shape) (state.trans shows) stopping
  | requestDone shape shows stopping =>
      exact .requestDone (stack.trans shape) (state.trans shows) stopping
  | entering shape shows => exact .entering (stack.trans shape) shows
  | restarting shape shows running =>
      exact .restarting (stack.trans shape) (state.trans shows) running
  | reported shape shows => exact .reported (stack.trans shape) shows
  | delivering shape shows => exact .delivering (stack.trans shape) (state.trans shows)
  | resuming shape shows => exact .resuming (stack.trans shape) (state.trans shows)

/-- The engine thread may move within its process, to where no measurement has it
elsewhere, and may change `done` where no stop has to be kept. -/
theorem Control.transport (control : runner.Control) (alike : runner.Alike other)
    (process : other.place.process = runner.place.process)
    (moves : ∀ measurement, Located runner.place measurement → Located other.place measurement)
    (flags : ∀ test ∈ other.tests, ∃ old ∈ runner.tests,
      test.outputStopRequested = old.outputStopRequested)
    (kept : ∀ run process measurement, runner.Occupied run process measurement →
      measurement.kept → ∀ test ∈ other.tests, test.done) : other.Control := by
  obtain ⟨sameActive, samePending, sameTest, sameConfiguration, sameStack, sameState, sameLog, _,
    _, _⟩ := alike
  cases control with
  | free active pending test quiet away =>
      exact .free (sameActive.trans active) (samePending.trans pending) (sameTest.trans test)
        (sameStack ▸ quiet) (process.trans away)
  | starting active pending test stack quiet away life =>
      exact .starting (sameActive.trans active) (samePending.trans pending) (sameTest.trans test)
        (sameStack.trans stack) quiet (process.trans away)
        (by rw [sameLog, sameConfiguration, life])
  | queued active pending test quiet away life =>
      exact .queued (sameActive.trans active) (samePending.trans pending) (sameTest.trans test)
        (sameStack ▸ quiet) (process.trans away) (by rw [sameLog, sameConfiguration, life])
  | cancelling active pending test stack away life =>
      exact .cancelling (sameActive.trans active) (samePending.trans pending)
        (sameTest.trans test) (sameStack.trans stack) (process.trans away) (by rw [sameLog, life])
  | failing active pending stack quiet away held fails =>
      refine .failing (sameActive.trans active) (samePending.trans pending)
        (sameStack.trans stack) quiet (process.trans away) (by rw [sameTest]; exact held) ?_
      cases fails with
      | state life carried => exact .state (by rw [sameLog, life]) carried
      | function life cause state =>
          exact .function (by rw [sameLog, life]) cause (sameState.trans state)
  | testing occupied position located point =>
      refine .testing
        { active := sameActive.trans occupied.active
          pending := samePending.trans occupied.pending
          test := sameTest.trans occupied.test
          configuration := sameConfiguration.trans occupied.configuration
          owner := occupied.owner
          life := by rw [sameLog, occupied.life]
          agreed := occupied.agreed
          flag := ?_
          kept := fun test member keeps => kept _ _ _ occupied keeps test member }
        (process.trans position) (moves _ located) (point.transport sameStack sameState)
      intro test member
      obtain ⟨old, inside, same⟩ := flags test member
      exact same.trans (occupied.flag old inside)

end IperfRunner

end IperfSwift.Lifecycle
