import IperfSwift.Lib.Schedule

/-!
Contract: one `IperfRunner` as a machine whose threads an adversary schedules.

Owns: the runner's fields; its serial state queue with the blocks waiting on it and the
block being executed, down to each point at which user code runs; its blocks on the
engine queue; the engine thread while it executes one of them; the flags of the native
test; the record of what was published and dispatched.

Does not own: what the native engine measures, the contents of results, or the other
runners that share the engine queue.

User code may call `start` again from any callback. On the state queue the overload
without a configuration then runs at once, on top of the block that called back, so the
block in execution is a stack of frames. Every frame but `requestStop`, `requestDone` and
`sync` is a point where user code is running.
-/

set_option autoImplicit false

namespace IperfSwift.Lifecycle

open IperfSwift.Lib

/-- A run's `UUID`. -/
abbrev RunID := Nat
/-- A release callback. -/
abbrev Callback := Nat
/-- The address of an `iperf_test`. -/
abbrev Pointer := Nat

inductive IperfRunnerState where
  | ready
  | initialising
  | running
  | stopping
  | finished
  | error
deriving DecidableEq, Repr

inductive IperfError where
  | INIT_ERROR
  | INIT_ERROR_DEFAULTS
  | raw (value : Int)
deriving DecidableEq, Repr

inductive IperfRole where
  | client
  | server
deriving DecidableEq, Repr

/-- The options that decide the life cycle, and everything else as one value. -/
structure IperfConfiguration where
  role : IperfRole
  oneOff : Bool
  serverOutputByteLimit : Option Nat
  others : Nat
deriving DecidableEq, Repr

structure RunContext where
  id : RunID
  onResourcesReleased : Option Callback
deriving DecidableEq, Repr

/-- The control flags of a live native test, with the run it was created for. -/
structure Test where
  pointer : Pointer
  run : RunID
  done : Bool
  outputStopRequested : Bool
deriving DecidableEq, Repr

/-- The arguments of `runIperfProcess`, with the run it was entered for. -/
structure Process where
  run : RunID
  testPointer : Pointer
  configuration : IperfConfiguration
deriving DecidableEq, Repr

/-- What `runIperfProcess` captured after a native call. -/
structure Outcome where
  code : Int
  error : IperfError
  wasStopped : Bool
deriving DecidableEq, Repr

/-- An outcome with what was true when it was read: whether a stop had taken effect, and
the flag `done`. -/
structure Capture where
  outcome : Outcome
  stopSeen : Bool
  done : Bool
deriving DecidableEq, Repr

/-- The engine thread while it executes a block of this runner. -/
inductive Engine where
  | idle
  /-- Waiting in a `stateQueue.sync` for the block of a run. -/
  | syncing (run : RunID)
  /-- At the top of the loop of `runIperfProcess`. -/
  | calling (process : Process)
  /-- Inside `iperf_run_client` or `iperf_run_server`. -/
  | native (process : Process)
  /-- The native call returned and its flags have not been read. -/
  | returned (process : Process) (code : Int) (error : IperfError)
  /-- About to decide whether a persistent server goes on. -/
  | captured (process : Process) (outcome : Outcome)
  /-- The loop was left. -/
  | leaving (process : Process) (outcome : Outcome)
deriving DecidableEq, Repr

/-- The engine states that decide anything in the reporter. -/
inductive IperfState where
  | EXCHANGE_RESULTS
  | IPERF_DONE
  | other
deriving DecidableEq, Repr

/-- Blocks on the state queue. -/
inductive Block where
  /-- Any overload of `start`, with the configuration it was given. -/
  | start (configuration : Option IperfConfiguration) (onResourcesReleased : Option Callback)
  | stop
  /-- The release callback of a completed run. -/
  | release (run : RunID) (callback : Callback)
  /-- The first half of `executeQueuedRun`. -/
  | prepare (runID : RunID)
  | report (process : Process) (state : IperfState) (delivers : Bool)
  | jsonStream (process : Process)
  /-- `shouldRestartServer`. -/
  | decide (process : Process) (outcome : Outcome)
  /-- The last block of `runIperfProcess`. -/
  | finish (process : Process) (outcome : Outcome)
deriving DecidableEq, Repr

/-- Where the block in execution is. -/
inductive Frame where
  /-- `startRun` has published `.initialising`. -/
  | initialising (runID : RunID)
  /-- `onError` has published `.error`. -/
  | errorState (error : IperfError)
  /-- `onError` is inside `onErrorFunction`. -/
  | errorFunction
  /-- `stopCurrentTest` has published `.stopping` for a queued run. -/
  | stoppingQueued
  /-- `stopCurrentTest` has published `.stopping` for a native test. -/
  | stoppingTest (pointer : Pointer)
  /-- The first store of `iperf_request_test_stop` is next. -/
  | requestStop (pointer : Pointer)
  /-- The second store of `iperf_request_test_stop` is next. -/
  | requestDone (pointer : Pointer)
  /-- `cleanState` has published `.finished`. -/
  | finished (run : Option RunContext)
  /-- `executeQueuedRun` has published `.running`. -/
  | running
  /-- The reporter has published `.finished`. -/
  | reported (delivers : Bool)
  /-- A result or a JSON value is being delivered. -/
  | delivering
  /-- `shouldRestartServer` is inside `onErrorFunction`. -/
  | restarting (pointer : Pointer)
  /-- A release callback is running. -/
  | releasing
  /-- The block is over and the engine thread goes on. -/
  | sync (next : Engine)
deriving DecidableEq, Repr

/-- What happened to the runs, oldest first. -/
inductive Event where
  /-- A start was accepted, with the configuration it found. -/
  | accepted (run : RunContext) (configuration : Option IperfConfiguration)
  /-- `onRunnerStateFunction` of a run was called. -/
  | published (run : Option RunID) (state : IperfRunnerState)
  /-- `onErrorFunction` of a run was called. -/
  | failed (run : Option RunID) (error : IperfError)
  /-- `stop()` was processed while a run was active. -/
  | stopped (run : RunID)
  /-- `iperf_request_test_stop` was begun, and completed. -/
  | stopBegun (run : Option RunID)
  | stopCompleted (run : Option RunID)
  /-- A run entered the native engine. -/
  | entered (run : RunID) (configuration : IperfConfiguration)
  /-- A native call began. -/
  | called (run : RunID)
  /-- The engine stored `done = 0` when it created its timers. -/
  | cleared (run : RunID)
  /-- A persistent server was sent back to listen. -/
  | restarted (run : RunID)
  /-- The outcome of a native call was captured. -/
  | captured (run : RunID) (capture : Capture)
  /-- `cleanState` or deallocation ended a run. -/
  | ended (run : RunContext)
  /-- The completion of a run was dispatched to its release callback. -/
  | dispatched (run : RunID) (callback : Callback)
deriving DecidableEq, Repr

structure IperfRunner where
  configuration : Option IperfConfiguration
  currentTest : Option Pointer
  pendingRunID : Option RunID
  activeRun : Option RunContext
  storedCompletion : Option RunID
  state : IperfRunnerState
  /-- The run whose callbacks are installed. -/
  callbacks : Option RunID
  alive : Bool
  stateQueue : List Block
  stack : List Frame
  engineQueue : List RunID
  engine : Engine
  /-- Native tests created and not freed. -/
  tests : List Test
  nextID : RunID
  log : List Event
deriving DecidableEq, Repr

/-- `init(with:)`. -/
def IperfRunner.new (configuration : IperfConfiguration) : IperfRunner where
  configuration := some configuration
  currentTest := none
  pendingRunID := none
  activeRun := none
  storedCompletion := none
  state := .ready
  callbacks := none
  alive := true
  stateQueue := []
  stack := []
  engineQueue := []
  engine := .idle
  tests := []
  nextID := 0
  log := []

namespace IperfRunner

/-! ### Steps of the code on the state queue -/

def record (runner : IperfRunner) (event : Event) : IperfRunner :=
  { runner with log := runner.log ++ [event] }

def push (runner : IperfRunner) (frame : Frame) : IperfRunner :=
  { runner with stack := frame :: runner.stack }

/-- `state = newValue` up to its observer. What follows the call is in the frame. -/
def publish (runner : IperfRunner) (newValue : IperfRunnerState) (frame : Frame) : IperfRunner :=
  (runner.record (.published runner.callbacks newValue)).push frame

/-- The guard of both starts. -/
def isFree (runner : IperfRunner) : Bool :=
  runner.currentTest.isNone && runner.pendingRunID.isNone && runner.activeRun.isNone

/-- `startRun` on the state queue. -/
def startRun (runner : IperfRunner) (onResourcesReleased : Option Callback) : IperfRunner :=
  if runner.isFree then
    let run : RunContext := { id := runner.nextID, onResourcesReleased := onResourcesReleased }
    ({ runner with
        callbacks := some run.id
        activeRun := some run
        storedCompletion := none
        nextID := runner.nextID + 1 }.record (.accepted run runner.configuration)).publish
      .initialising (.initialising run.id)
  else runner

/-- The block of `enqueueStart`, or of `startRun` called from another queue. -/
def start (runner : IperfRunner) (configuration : Option IperfConfiguration)
    (onResourcesReleased : Option Callback) : IperfRunner :=
  match configuration with
  | none => runner.startRun onResourcesReleased
  | some configuration =>
      if runner.isFree then
        { runner with configuration := some configuration }.startRun onResourcesReleased
      else runner

def onError (runner : IperfRunner) (error : IperfError) : IperfRunner :=
  runner.publish .error (.errorState error)

/-- The end of `cleanState`: the completion goes to the release callback, if there is one. -/
def dispatch (runner : IperfRunner) (run : Option RunContext) : IperfRunner :=
  match run with
  | none => runner
  | some run =>
      let runner := runner.record (.ended run)
      match run.onResourcesReleased with
      | none => runner
      | some callback =>
          { runner with stateQueue := runner.stateQueue ++ [Block.release run.id callback] }.record
            (.dispatched run.id callback)

/-- `cleanState`, which never finds another test than the one it expects. -/
def cleanState (runner : IperfRunner) : IperfRunner :=
  let run := runner.activeRun
  let cleaned :=
    { runner with
      configuration := none
      pendingRunID := none
      tests := runner.tests.filter fun test => some test.pointer ≠ runner.currentTest
      currentTest := none
      activeRun := none
      storedCompletion := (run.map RunContext.id).orElse fun _ => runner.storedCompletion }
  if runner.state = .running ∨ runner.state = .stopping then
    cleaned.publish .finished (.finished run)
  else cleaned.dispatch run

/-- `stopCurrentTest`. -/
def stopCurrentTest (runner : IperfRunner) : IperfRunner :=
  let noted :=
    match runner.activeRun with
    | none => runner
    | some run => runner.record (.stopped run.id)
  match runner.currentTest with
  | some pointer => noted.publish .stopping (.stoppingTest pointer)
  | none =>
      if runner.pendingRunID.isSome then noted.publish .stopping .stoppingQueued else runner

/-- Change the flags of the live test at an address. -/
def updateTest (runner : IperfRunner) (pointer : Pointer) (change : Test → Test) : IperfRunner :=
  { runner with
    tests := runner.tests.map fun test => if test.pointer = pointer then change test else test }

/-- What the native calls of `executeQueuedRun` come to. -/
inductive Preparation where
  | noTest
  | noDefaults (pointer : Pointer)
  | rejected (pointer : Pointer) (error : IperfError)
  | ready (pointer : Pointer)
deriving DecidableEq, Repr

/-- `iperf_new_test`. -/
def newTest (runner : IperfRunner) (pointer : Pointer) (run : RunID) : IperfRunner :=
  { runner with
    currentTest := some pointer
    tests := runner.tests ++
      [{ pointer := pointer, run := run, done := false, outputStopRequested := false }] }

/-- The end of the block of `executeQueuedRun`, for a test that is ready to run. -/
def enterEngine (runner : IperfRunner) (process : Process) : IperfRunner :=
  (((runner.newTest process.testPointer process.run).record
    (.entered process.run process.configuration)).push
      (.sync (.calling process))).publish .running .running

/-- The block of `executeQueuedRun`. -/
def prepare (runner : IperfRunner) (runID : RunID) (preparation : Preparation) : IperfRunner :=
  if runner.pendingRunID ≠ some runID then runner.push (.sync .idle)
  else
    let runner := { runner with pendingRunID := none }
    match runner.configuration with
    | none => (runner.push (.sync .idle)).onError .INIT_ERROR
    | some configuration =>
        match preparation with
        | .noTest => (runner.push (.sync .idle)).onError .INIT_ERROR
        | .noDefaults pointer =>
            ((runner.newTest pointer runID).push (.sync .idle)).onError .INIT_ERROR_DEFAULTS
        | .rejected pointer error =>
            ((runner.newTest pointer runID).push (.sync .idle)).onError error
        | .ready pointer =>
            runner.enterEngine
              { run := runID, testPointer := pointer, configuration := configuration }

/-- The rest of the reporter, once no state is left to publish. -/
def deliver (runner : IperfRunner) (delivers : Bool) : IperfRunner :=
  if delivers then runner.push .delivering else runner

/-- `handleReporterStatusLocked`. Whether a result is delivered depends on the streams. -/
def handleReporterStatus (runner : IperfRunner) (process : Process) (state : IperfState)
    (delivers : Bool) : IperfRunner :=
  let runner := runner.push (.sync (.native process))
  if runner.state ≠ .running ∧ runner.state ≠ .stopping then runner
  else if runner.currentTest ≠ some process.testPointer then runner
  else
    match runner.configuration with
    | none => runner
    | some configuration =>
        let testCompletesRunner : Bool := configuration.serverOutputByteLimit = none ∧
          (configuration.role = .client ∨ configuration.oneOff)
        let delivers := delivers && !(state = .IPERF_DONE ∧ configuration.role = .server)
        if state ≠ .other ∧ testCompletesRunner then
          runner.publish .finished (.reported delivers)
        else runner.deliver delivers

/-- `handleJSONStreamOutput`. -/
def handleJSONStreamOutput (runner : IperfRunner) (process : Process) : IperfRunner :=
  let runner := runner.push (.sync (.native process))
  if runner.currentTest ≠ some process.testPointer then runner else runner.push .delivering

/-- `iperf_reset_test` clears `done` and leaves `output_stop_requested`. -/
def resetTest (runner : IperfRunner) (pointer : Pointer) : IperfRunner :=
  runner.updateTest pointer fun test => { test with done := false }

/-- `shouldRestartServer`. -/
def decideRestart (runner : IperfRunner) (process : Process) (outcome : Outcome) : IperfRunner :=
  if process.configuration.role = .server ∧ ¬ process.configuration.oneOff ∧
      -1 ≤ outcome.code ∧ runner.currentTest = some process.testPointer ∧
      runner.state = .running then
    let runner := (runner.record (.restarted process.run)).push (.sync (.calling process))
    if outcome.code < 0 then
      (runner.record (.failed runner.callbacks outcome.error)).push
        (.restarting process.testPointer)
    else runner.resetTest process.testPointer
  else runner.push (.sync (.leaving process outcome))

/-- The last block of `runIperfProcess`. -/
def finishProcess (runner : IperfRunner) (process : Process) (outcome : Outcome) : IperfRunner :=
  let runner := runner.push (.sync .idle)
  if runner.currentTest ≠ some process.testPointer then runner
  else if outcome.code < 0 ∧ ¬ outcome.wasStopped then runner.onError outcome.error
  else runner.cleanState

/-- Execute a block up to its first callback. -/
def begin (runner : IperfRunner) (preparation : Preparation) : Block → IperfRunner
  | .start configuration onResourcesReleased => runner.start configuration onResourcesReleased
  | .stop => runner.stopCurrentTest
  | .release _ _ => runner.push .releasing
  | .prepare runID => runner.prepare runID preparation
  | .report process state delivers => runner.handleReporterStatus process state delivers
  | .jsonStream process => runner.handleJSONStreamOutput process
  | .decide process outcome => runner.decideRestart process outcome
  | .finish process outcome => runner.finishProcess process outcome

/-- Go on after a frame has been taken off the stack, up to the next callback. A missing
configuration passes `configurationError`. -/
def proceed (runner : IperfRunner) (configurationError : Option IperfError) : Frame → IperfRunner
  | .initialising runID =>
      let runner := { runner with state := .initialising }
      match runner.configuration.bind fun _ => configurationError with
      | some error => runner.onError error
      | none =>
          { runner with
            pendingRunID := some runID
            engineQueue := runner.engineQueue ++ [runID] }
  | .errorState error =>
      ({ runner with state := .error }.record (.failed runner.callbacks error)).push
        .errorFunction
  | .errorFunction => runner.cleanState
  | .stoppingQueued => { runner with state := .stopping }.cleanState
  | .stoppingTest pointer => { runner with state := .stopping }.push (.requestStop pointer)
  | .requestStop pointer =>
      ((runner.updateTest pointer fun test => { test with outputStopRequested := true }).record
        (.stopBegun runner.callbacks)).push (.requestDone pointer)
  | .requestDone pointer =>
      (runner.updateTest pointer fun test => { test with done := true }).record
        (.stopCompleted runner.callbacks)
  | .finished run => { runner with state := .finished }.dispatch run
  | .running => { runner with state := .running }
  | .reported delivers => { runner with state := .finished }.deliver delivers
  | .delivering => runner
  | .restarting pointer => runner.resetTest pointer
  | .releasing => runner
  | .sync next => { runner with engine := next }

/-! ### Steps of the engine thread -/

/-- The live test at an address. -/
def findTest (runner : IperfRunner) (pointer : Pointer) : Option Test :=
  runner.tests.find? fun test => test.pointer = pointer

/-- The flag by which the end of a native call is judged. -/
def wasStopped (configuration : IperfConfiguration) (test : Test) : Bool :=
  if configuration.serverOutputByteLimit ≠ none then test.outputStopRequested else test.done

/-- A stop takes effect at the store that the run's mode reads. -/
def stopSeen (runner : IperfRunner) (process : Process) : Bool :=
  runner.log.contains
    (if process.configuration.serverOutputByteLimit ≠ none then .stopBegun (some process.run)
    else .stopCompleted (some process.run))

/-- Wait for a block on the state queue. -/
def syncOn (runner : IperfRunner) (run : RunID) (block : Block) : IperfRunner :=
  { runner with engine := .syncing run, stateQueue := runner.stateQueue ++ [block] }

/-- Read the error and the flags after a native call. -/
def capture (runner : IperfRunner) (process : Process) (code : Int) (error : IperfError) :
    IperfRunner :=
  let flags := runner.findTest process.testPointer
  let outcome : Outcome :=
    { code := code
      error := error
      wasStopped := flags.any (wasStopped process.configuration) }
  { runner with engine := .captured process outcome }.record
    (.captured process.run
      { outcome := outcome
        stopSeen := runner.stopSeen process
        done := flags.any Test.done })

end IperfRunner

/-! ### Scheduling -/

/-- Blocks that keep the runner alive. -/
def Block.retains : Block → Bool
  | .release _ _ => false
  | _ => true

/-- User code is running in the frame. -/
def Frame.isCallback : Frame → Bool
  | .requestStop _ | .requestDone _ | .sync _ => false
  | _ => true

inductive Action where
  /-- A call of `start` or `stop` from any thread but the state queue. -/
  | start (configuration : Option IperfConfiguration) (onResourcesReleased : Option Callback)
  | stop
  /-- The state queue takes its next block. -/
  | next (preparation : IperfRunner.Preparation)
  /-- User code on the state queue calls a `start` without configuration. -/
  | inlineStart (onResourcesReleased : Option Callback)
  /-- The innermost user code returns, or the state queue takes its next step. -/
  | resume (configurationError : Option IperfError)
  /-- The engine queue takes this runner's next block. -/
  | dequeue
  /-- The engine thread makes a native call. -/
  | call
  /-- The native engine creates its timers. -/
  | createTimers (duration : Nat)
  /-- The native engine sets `done` for a reason of its own. -/
  | setDone
  | report (state : IperfState) (delivers : Bool)
  | jsonStream
  /-- The native call returns. -/
  | nativeReturn (code : Int) (error : IperfError)
  | capture
  | decide
  | finish
  | deallocate
deriving DecidableEq, Repr

namespace IperfRunner

def step (runner : IperfRunner) : Action → Option IperfRunner
  | .start configuration onResourcesReleased =>
      if runner.alive then
        some { runner with
          stateQueue := runner.stateQueue ++ [.start configuration onResourcesReleased] }
      else none
  | .stop =>
      if runner.alive then some { runner with stateQueue := runner.stateQueue ++ [.stop] }
      else none
  | .next preparation =>
      match runner.stack, runner.stateQueue with
      | [], block :: rest => some ({ runner with stateQueue := rest }.begin preparation block)
      | _, _ => none
  | .inlineStart onResourcesReleased =>
      match runner.stack with
      | frame :: _ =>
          if runner.alive ∧ frame.isCallback then some (runner.startRun onResourcesReleased)
          else none
      | [] => none
  | .resume configurationError =>
      match runner.stack with
      | frame :: rest => some ({ runner with stack := rest }.proceed configurationError frame)
      | [] => none
  | .dequeue =>
      match runner.engine, runner.engineQueue with
      | .idle, runID :: rest =>
          let runner := { runner with engineQueue := rest }
          if runner.alive then some (runner.syncOn runID (.prepare runID)) else some runner
      | _, _ => none
  | .call =>
      match runner.engine with
      | .calling process =>
          some ({ runner with engine := .native process }.record (.called process.run))
      | _ => none
  | .createTimers duration =>
      match runner.engine with
      | .native process =>
          some (if duration ≠ 0 then
            (runner.updateTest process.testPointer fun test => { test with done := false }).record
              (.cleared process.run)
          else runner)
      | _ => none
  | .setDone =>
      match runner.engine with
      | .native process =>
          some (runner.updateTest process.testPointer fun test => { test with done := true })
      | _ => none
  | .report state delivers =>
      match runner.engine with
      | .native process => some (runner.syncOn process.run (.report process state delivers))
      | _ => none
  | .jsonStream =>
      match runner.engine with
      | .native process => some (runner.syncOn process.run (.jsonStream process))
      | _ => none
  | .nativeReturn code error =>
      match runner.engine with
      | .native process => some { runner with engine := .returned process code error }
      | _ => none
  | .capture =>
      match runner.engine with
      | .returned process code error => some (runner.capture process code error)
      | _ => none
  | .decide =>
      match runner.engine with
      | .captured process outcome => some (runner.syncOn process.run (.decide process outcome))
      | _ => none
  | .finish =>
      match runner.engine with
      | .leaving process outcome => some (runner.syncOn process.run (.finish process outcome))
      | _ => none
  | .deallocate =>
      if runner.alive ∧ runner.stack = [] ∧ runner.engine = .idle ∧
          ¬ runner.stateQueue.any Block.retains then
        some ({ runner with
          alive := false
          activeRun := none
          pendingRunID := none }.dispatch runner.activeRun)
      else none

end IperfRunner

end IperfSwift.Lifecycle
