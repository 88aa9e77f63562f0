import IperfSwift.Server.Machine

/-!
Contract: one run of `iperf_run_client`, whatever the system, the server, the
workers and a stop request do.

Owns: the part of `struct iperf_test` that the run works on; the control messages,
the timers, `iperf_client_end`, the conditions that end a test, and the loop of
`iperf_run_client` with all its returns.

As for the server, every call that leaves the engine is a question. With each of
them a stop request can arrive, and the workers can move on or fail.

Does not own: the clock, the contents of reports and results, and how a worker
transfers its bytes. A worker that is joined is gone.
-/

set_option autoImplicit false

namespace IperfSwift.ClientRun

open IperfSwift.Lib
open IperfSwift.Lib.Program
open IperfSwift.Server (TEST_START TEST_RUNNING TEST_END PARAM_EXCHANGE CREATE_STREAMS
  EXCHANGE_RESULTS DISPLAY_RESULTS IPERF_DONE SERVER_ERROR TimerId WorkerError)
open IperfSwift.Udp (Mode)

def SERVER_TERMINATE : Int := 11
def ACCESS_DENIED : Int := -1

/-- The values of `i_errno` that these functions set; `worker` stands for those that a worker has
stored, and `other` for those set inside a question. -/
inductive Errno where
  | IENONE
  | IEINITTEST
  | IECONNECT
  | IESETNODELAY
  | IESENDCOOKIE
  | IECTRLCLOSE
  | IERECVMESSAGE
  | IESERVERTERM
  | IEACCESSDENIED
  | IECTRLREAD
  | IEMESSAGE
  | IESENDMESSAGE
  | IESELECT
  | IENOMSG
  | IEPTHREADATTRINIT
  | IEPTHREADCREATE
  | IEPTHREADATTRDESTROY
  | IEPTHREADCANCEL
  | server (code : Int)
  | worker (error : WorkerError)
  | other
deriving DecidableEq, Repr

/-! ### State -/

/-- `struct iperf_stream`. Apart from its fields there is whether its worker exists and how often
its descriptor was closed. -/
structure Stream where
  sender : Bool
  done : Bool
  threadCreated : Bool
  live : Bool
  closed : Nat
deriving DecidableEq, Repr

/-- What the workers add to the counters of the test. -/
structure Progress where
  bytesSent : Nat
  blocksSent : Nat
  bytesReceived : Nat
  blocksReceived : Nat

/-- What happens in a run. -/
inductive Event where
  /-- The test is to end: whether `done` was set, and the bytes that are measured by then. -/
  | ending (asked : Bool) (sent received : Nat)
  /-- `DISPLAY_RESULTS` has been handled. -/
  | displayed
  /-- `cleanup_and_fail`. -/
  | failed
  /-- `iperf_json_finish`. -/
  | jsonFinish (succeeded : Bool)
deriving DecidableEq, Repr

/-- What the system, the server and the workers do, by the number of the question. -/
structure System extends Answers where
  /-- What the workers that exist transfer before it. -/
  progress : Nat → Progress
  /-- Whether `pthread_cancel` and `pthread_join` succeed, for each stream. -/
  joins : Nat → Nat → Bool
  /-- The timers that are due, in their order. -/
  due : Nat → List TimerId
  /-- Whether `iperf_request_test_stop` was called since the question before. -/
  stops : Nat → Bool
  /-- What a worker that exists has stored in `i_errno` since then. -/
  stores : Nat → Option WorkerError

structure Options where
  logfile : Bool
  affinity : Bool
  jsonOutput : Bool
  mode : Mode
  numStreams : Nat
  duration : Nat
  omitTime : Nat
  statsInterval : Bool
  reporterInterval : Bool
  bytes : Nat
  blocks : Nat
  rcvTimeoutUs : Int

structure Run where
  system : System
  tick : Nat
  options : Options
  error : Errno
  state : Int
  done : Bool
  outputStopRequested : Bool
  omitting : Bool
  ctrlSck : Int
  /-- How often the control connection was closed. -/
  ctrlClosed : Nat
  streams : List Stream
  timer : Bool
  statsTimer : Bool
  reporterTimer : Bool
  omitTimer : Bool
  bytesSent : Nat
  blocksSent : Nat
  bytesReceived : Nat
  blocksReceived : Nat
  /-- What the streams' results count as received. -/
  resultReceived : Nat
  events : List Event
  /-- The states that the server was told, and those that it has sent. -/
  sent : List Int
  received : List Int
  -- The variables of `iperf_run_client`.
  startup : Bool
  lastReceiveBlocks : Nat

/-! ### Questions -/

/-- Whether there is a worker that sends, or one that receives. -/
def Run.works (run : Run) (sender : Bool) : Bool :=
  run.streams.any fun stream => stream.live && stream.sender == sender

/-- The number of the next question; a stop request may have come before it, and the workers have
moved on or failed. The streams' results count what arrives while the test runs. -/
def question : Program Run Nat := fun run =>
  let moved := run.system.progress run.tick
  let received := if run.works false then moved.bytesReceived else 0
  let stored := if run.works true || run.works false then run.system.stores run.tick else none
  (run.tick,
    { run with
      tick := run.tick + 1
      done := run.done || run.system.stops run.tick
      outputStopRequested := run.outputStopRequested || run.system.stops run.tick
      error := stored.elim run.error .worker
      bytesSent := run.bytesSent + if run.works true then moved.bytesSent else 0
      blocksSent := run.blocksSent + if run.works true then moved.blocksSent else 0
      bytesReceived := run.bytesReceived + received
      blocksReceived := run.blocksReceived + if run.works false then moved.blocksReceived else 0
      resultReceived := run.resultReceived + if run.state = TEST_RUNNING then received else 0 })

instance : Outside Run where
  question := question
  answers run := run.system.toAnswers

/-- `iperf_set_error`. -/
def setError (error : Errno) : Program Run Unit := update fun run => { run with error := error }

/-- A call that sets an error when it fails. -/
def askOr (error : Errno) : Program Run Bool := askElse (setError error)

/-- The same, but an error that is there already stays. -/
def askOrKeep (error : Errno) : Program Run Bool :=
  askElse (update fun run => { run with error := if run.error = .IENONE then error else run.error })

/-- `iperf_set_test_state`. -/
def setTestState (state : Int) : Program Run Unit := update fun run => { run with state := state }

/-- `iperf_set_send_state`. -/
def setSendState (state : Int) : Program Run Bool := do
  let run ← current
  if 0 ≤ run.ctrlSck then do
    setTestState state
    update fun run => { run with sent := run.sent ++ [state] }
    askOr .IESENDMESSAGE
  else pure true

def record (event : Event) : Program Run Unit :=
  update fun run => { run with events := run.events ++ [event] }

/-! ### The end of a run -/

/-- `close(sp->socket)`; the number stays. -/
def Stream.close (stream : Stream) : Stream := { stream with closed := stream.closed + 1 }

/-- `iperf_client_end`. Without its last message it leaves the control connection open. -/
def iperfClientEnd : Program Run Unit := do
  update fun run => { run with streams := run.streams.map Stream.close }
  let _ ← question
  let run ← current
  if 0 < run.state then do
    if ← setSendState IPERF_DONE then closeControl else pure ()
  else closeControl
where
  closeControl : Program Run Unit := update fun run =>
    { run with ctrlClosed := if 0 ≤ run.ctrlSck then run.ctrlClosed + 1 else run.ctrlClosed }

def jsonFinish : Program Run Bool := do
  let succeeded ← ask
  record (.jsonFinish succeeded)
  pure succeeded

/-- `cleanup_and_fail` joins the workers of streams that are not done. -/
def Stream.abandon (stream : Stream) : Stream :=
  if stream.done then stream
  else if stream.threadCreated then
    { stream with done := true, threadCreated := false, live := false }
  else { stream with done := true }

/-- `cleanup_and_fail`. The error from before the workers are joined is put back. -/
def failRun : Program Run Int := do
  record .failed
  let before ← current
  let _ ← question
  update fun run => { run with streams := run.streams.map Stream.abandon, error := before.error }
  iperfClientEnd
  closeJson
  pure (-1)
where
  /-- Whatever becomes of the closing JSON, the run fails. -/
  closeJson : Program Run Unit := do
    let run ← current
    if run.options.jsonOutput then do
      let _ ← jsonFinish
      pure ()
    else pure ()

/-- `goto cleanup_and_fail;`. -/
def cleanupAndFail : Program Run (Option Int) := do
  let code ← failRun
  pure (some code)

/-- The same behind an error. -/
def failWith (error : Errno) : Program Run (Option Int) := do
  setError error
  cleanupAndFail

/-- A step that ends the run when it fails. -/
def orFail (step : Program Run Bool) : Program Run (Option Int) := do
  if ← step then pure none else cleanupAndFail

/-- The workers of some streams are cancelled and joined one by one, up to the first that cannot
be. -/
def stopWorkers (chosen : Stream → Bool) (joins : Nat → Bool) :
    Nat → List Stream → List Stream × Bool
  | _, [] => ([], true)
  | index, stream :: rest =>
      if chosen stream then
        if stream.threadCreated then
          if joins index then
            let stopped := stopWorkers chosen joins (index + 1) rest
            ({ stream with done := true, threadCreated := false, live := false } :: stopped.1,
              stopped.2)
          else ({ stream with done := true } :: rest, false)
        else
          let stopped := stopWorkers chosen joins (index + 1) rest
          ({ stream with done := true } :: stopped.1, stopped.2)
      else
        let stopped := stopWorkers chosen joins (index + 1) rest
        (stream :: stopped.1, stopped.2)

/-- The workers in one direction. -/
def stopDirection (sender : Bool) : Program Run Bool := do
  let number ← question
  let run ← current
  let stopped := stopWorkers (·.sender == sender) (run.system.joins number) 0 run.streams
  update fun run =>
    { run with
      streams := stopped.1
      error := if stopped.2 then run.error else .IEPTHREADCANCEL }
  pure stopped.2

/-! ### Timers -/

def testTimerProc : Program Run Unit := update fun run => { run with timer := false, done := true }

/-- `client_stats_timer_proc` and `client_reporter_timer_proc`, which only report. -/
def reportTimerProc : Program Run Unit := do
  let _ ← question
  pure ()

/-- `iperf_reset_stats`: what was received stays in the counters of the test. -/
def iperfResetStats : Program Run Unit := update fun run =>
  { run with bytesSent := 0, blocksSent := 0, resultReceived := 0 }

def clientOmitTimerProc : Program Run Unit := do
  update fun run => { run with omitTimer := false, omitting := false }
  iperfResetStats

/-- One timer that is due, if it has not been cancelled. -/
def fire (due : TimerId) : Program Run Unit := do
  let run ← current
  match due with
  | .timer => if run.timer then testTimerProc else pure ()
  | .statsTimer => if run.statsTimer then reportTimerProc else pure ()
  | .reporterTimer => if run.reporterTimer then reportTimerProc else pure ()
  | .omitTimer => if run.omitTimer then clientOmitTimerProc else pure ()

/-- The timers in the order in which `tmr_run` finds them. -/
def fireAll : List TimerId → Program Run Unit
  | [] => pure ()
  | due :: rest => do
      fire due
      fireAll rest

/-- `tmr_run`. -/
def tmrRun : Program Run Unit := do
  let number ← question
  let run ← current
  fireAll (run.system.due number)

/-- One of the timers of a test, unless it is not wanted. -/
def createTimer (wanted : Bool) (set : Run → Run) : Program Run Bool := do
  if wanted then
    if ← askOr .IEINITTEST then do
      update set
      pure true
    else pure false
  else pure true

/-- `create_client_timers`. A duration clears `done`. -/
def createClientTimers : Program Run Bool := do
  if ← askOr .IEINITTEST then do
    update fun run =>
      { run with
        timer := false
        statsTimer := false
        reporterTimer := false
        done := if run.options.duration ≠ 0 then false else run.done }
    let run ← current
    andThen (createTimer (run.options.duration ≠ 0) fun run => { run with timer := true }) <|
      andThen (createTimer run.options.statsInterval fun run => { run with statsTimer := true }) <|
        createTimer run.options.reporterInterval fun run => { run with reporterTimer := true }
  else pure false

/-- `create_client_omit_timer`. -/
def createClientOmitTimer : Program Run Bool := do
  let run ← current
  if run.options.omitTime = 0 then do
    update fun run => { run with omitTimer := false, omitting := false }
    pure true
  else do
    update fun run => { run with omitting := true }
    createTimer true fun run => { run with omitTimer := true }

/-! ### Control messages -/

/-- `iperf_new_stream`. -/
def Stream.new (sender : Bool) : Stream where
  sender := sender
  done := false
  threadCreated := false
  live := false
  closed := 0

/-- `iperf_create_streams`: each stream is connected and put at the end of the list. -/
def addStreams (sender : Bool) : Nat → Program Run Bool
  | 0 => pure true
  | remaining + 1 => do
      if ← askOr .other then do
        update fun run => { run with streams := run.streams ++ [Stream.new sender] }
        addStreams sender remaining
      else pure false

def iperfCreateStreams (sender : Bool) : Program Run Bool := do
  let run ← current
  addStreams sender run.options.numStreams

/-- `CREATE_STREAMS`: a bidirectional test has its sending streams first. -/
def createStreams : Program Run Bool := do
  let run ← current
  if run.options.mode = .BIDIRECTIONAL then andThen (iperfCreateStreams true) (iperfCreateStreams false)
  else iperfCreateStreams (run.options.mode = .SENDER)

/-- `TEST_START`. -/
def startTest : Program Run Bool :=
  andThen (askOr .IEINITTEST) (andThen createClientTimers createClientOmitTimer)

/-- `DISPLAY_RESULTS`, which cannot fail. -/
def displayResults : Program Run Bool := do
  record .displayed
  iperfClientEnd
  pure true

/-- `SERVER_ERROR`: the error that the server sends. -/
def serverError : Program Run Bool := do
  if ← askOr .IECTRLREAD then do
    let code ← askValue
    setError (.server code)
    let _ ← askOr .IECTRLREAD
    pure false
  else pure false

def failMessage (error : Errno) : Program Run Bool := do
  setError error
  pure false

/-- What a message makes the client do. -/
def handleState (receivedState : Int) : Program Run Bool :=
  if receivedState = PARAM_EXCHANGE then askOr .other
  else if receivedState = CREATE_STREAMS then createStreams
  else if receivedState = TEST_START then startTest
  else if receivedState = TEST_RUNNING then pure true
  else if receivedState = EXCHANGE_RESULTS then askOr .other
  else if receivedState = DISPLAY_RESULTS then displayResults
  else if receivedState = IPERF_DONE then pure true
  else if receivedState = SERVER_TERMINATE then failMessage .IESERVERTERM
  else if receivedState = ACCESS_DENIED then failMessage .IEACCESSDENIED
  else if receivedState = SERVER_ERROR then serverError
  else failMessage .IEMESSAGE

/-- `iperf_handle_message_client`. -/
def iperfHandleMessageClient : Program Run Bool := do
  let run ← current
  let rval ← askValue
  if run.ctrlSck < 0 ∨ rval < 0 then failMessage .IERECVMESSAGE
  else if rval = 0 then failMessage .IECTRLCLOSE
  else do
    let receivedState ← askValue
    update fun run =>
      { run with received := run.received ++ [receivedState], state := receivedState }
    handleState receivedState

/-! ### `iperf_run_client` -/

/-- `iperf_connect`. -/
def iperfConnect : Program Run Bool := do
  let run ← current
  if run.ctrlSck < 0 then do
    if ← askOrKeep .IECONNECT then do
      let s ← askDescriptor
      update fun run => { run with ctrlSck := s }
      greet
    else pure false
  else greet
where
  greet : Program Run Bool := andThen (askOr .IESETNODELAY) (askOr .IESENDCOOKIE)

/-- A client that only sends does not wait for data. -/
def Options.rcvTimeout (options : Options) : Int :=
  if options.mode = .SENDER then 0 else options.rcvTimeoutUs

/-- What follows `select`: an error, or nothing received for too long. -/
def afterSelect (result : Int) : Program Run (Option Int) := do
  let interrupted ← ask
  let run ← current
  if result < 0 ∧ interrupted = false then failWith .IESELECT
  else if result = 0 ∧ run.state = TEST_RUNNING ∧ 0 < run.options.rcvTimeout then do
    let tUsecs ← askValue
    let run ← current
    if run.options.rcvTimeout < tUsecs ∧ run.blocksReceived = run.lastReceiveBlocks then
      failWith .IENOMSG
    else pure none
  else pure none

/-- Whether the test makes progress. -/
def noteProgress : Program Run (Option Int) := do
  let run ← current
  if run.lastReceiveBlocks < run.blocksReceived then do
    let _ ← question
    update fun run => { run with lastReceiveBlocks := run.blocksReceived }
    pure none
  else pure none

/-- `FD_ISSET(test->ctrl_sck, &read_set)`. -/
def serveControl (result : Int) : Program Run (Option Int) := do
  let readable ← ask
  if 0 < result ∧ readable = true then orFail iperfHandleMessageClient else pure none

/-- `pthread_create`. -/
def Stream.create (stream : Stream) : Stream := { stream with threadCreated := true, live := true }

/-- The workers are created one by one; `value` tells how many of them can be. -/
def createWorkers : Program Run Bool := do
  let many ← askValue
  update fun run =>
    { run with
      streams := run.streams.mapIdx fun index stream =>
        if (index : Int) < many then stream.create else stream }
  let run ← current
  if (run.streams.length : Int) ≤ many then pure true
  else do
    setError .IEPTHREADCREATE
    pure false

/-- The first time that the test runs. -/
def startWorkers : Program Run (Option Int) := do
  let run ← current
  if run.startup then do
    update fun run => { run with startup := false }
    orFail (andThen (askOr .IEPTHREADATTRINIT)
      (andThen createWorkers (askOr .IEPTHREADATTRDESTROY)))
  else pure none

/-- The bytes or the blocks that were asked for. -/
def Run.transferred (run : Run) : Bool :=
  (run.options.bytes != 0 &&
      (decide (run.options.bytes ≤ run.bytesSent) || decide (run.options.bytes ≤ run.bytesReceived)))
    || (run.options.blocks != 0 &&
      (decide (run.options.blocks ≤ run.blocksSent) ||
        decide (run.options.blocks ≤ run.blocksReceived)))

/-- The test ends: no more periodic timers and no more senders, and the server is told. -/
def endTest (event : Event) : Program Run Bool := do
  update fun run => { run with statsTimer := false, reporterTimer := false }
  andThen (stopDirection true) do
    record event
    update fun run => { run with done := true }
    let _ ← question
    setSendState TEST_END

/-- Is the test done yet? -/
def checkEnd : Program Run (Option Int) := do
  let _ ← question
  let run ← current
  if !run.omitting && (run.done || run.transferred) then
    orFail (endTest (.ending run.done run.bytesSent run.resultReceived))
  else pure none

/-- While the test runs. -/
def runTest : Program Run (Option Int) := do
  let run ← current
  if run.state = TEST_RUNNING then
    unlessReturned startWorkers do
      tmrRun
      checkEnd
  else pure none

/-- One pass of the loop. -/
def pass : Program Run (Option Int) := do
  let result ← askValue
  inOrder [afterSelect result, noteProgress, serveControl result, runTest]

/-- What follows the loop. -/
def finishRun : Program Run Int := do
  if ← stopDirection false then do
    let run ← current
    if run.options.jsonOutput then do
      if ← jsonFinish then pure 0 else pure (-1)
    else pure 0
  else failRun

/-- One turn: the loop goes on while the state is not `IPERF_DONE`. -/
def turn : Program Run (Step Unit (Option Int)) := do
  let run ← current
  if run.state = IPERF_DONE then do
    let code ← finishRun
    pure (.done (some code))
  else
    match ← pass with
    | some code => pure (.done (some code))
    | none => pure (.again ())

/-- What precedes the connection; nothing is cleaned up when it fails. -/
def openClient : Program Run (Option Int) := do
  let logged ← ask
  let placed ← ask
  let started ← ask
  let run ← current
  if run.options.logfile && !logged || run.options.affinity && !placed ||
      run.options.jsonOutput && !started then
    pure (some (-1))
  else pure none

/-- `iperf_run_client`, up to a number of passes; `none` while it is still running. -/
def iperfRunClient (allowance : Nat) : Program Run (Option Int) :=
  inOrder [openClient, orFail iperfConnect, loop (fun _ => turn) none allowance ()]

end IperfSwift.ClientRun
