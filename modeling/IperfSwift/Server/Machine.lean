import IperfSwift.Lib.Outside
import IperfSwift.Params.Server

/-!
Contract: one run of `iperf_run_server`, whatever the system, the client and a
stop request do.

Owns: the part of `struct iperf_test` that the run works on, its streams with
what is done to the descriptor and the worker of each; the control messages, the
timers, `cleanup_server` and the loop of `iperf_run_server` with all its returns.

Every call that leaves the engine is a question, and the answers are arbitrary
functions of the number of the question. With each of them a stop request can
arrive, and a worker that fails can store its error. Where several calls in a row
fail in the same way they are one question.

Does not own: the clock, the contents of reports and results, and what a stream's
worker transfers. A worker that is joined is gone.
-/

set_option autoImplicit false

namespace IperfSwift.Server

open IperfSwift.Lib IperfSwift.CJson
open IperfSwift.Lib.Program
open IperfSwift.Udp (Mode Protocol)

/-! ### Constants -/

def TEST_START : Int := 1
def TEST_RUNNING : Int := 2
def TEST_END : Int := 4
def PARAM_EXCHANGE : Int := 9
def CREATE_STREAMS : Int := 10
def CLIENT_TERMINATE : Int := 12
def EXCHANGE_RESULTS : Int := 13
def DISPLAY_RESULTS : Int := 14
def IPERF_START : Int := 15
def IPERF_DONE : Int := 16
def SERVER_ERROR : Int := -2

/-- What a worker stores in `i_errno` when it fails. -/
inductive WorkerError where
  | IEPTHREADSIGMASK
  | IESTREAMREAD
  | IESTREAMWRITE
deriving DecidableEq, Repr

/-- The values of `i_errno` that these functions set; `worker` stands for those that a worker has
stored, and `other` for those set inside a question. -/
inductive Errno where
  | IENONE
  | IEACCEPT
  | IESETNODELAY
  | IERECVCOOKIE
  | IEAUTHTEST
  | IESTREAMLISTEN
  | IESETBUF
  | IESTREAMCONNECT
  | IESTREAMACCEPT
  | IESTREAMWRITE
  | IECTRLCLOSE
  | IERECVMESSAGE
  | IECLIENTTERM
  | IEMESSAGE
  | IESENDMESSAGE
  | IESERVERTESTDURATIONEXPIRED
  | IEINITTEST
  | IETOTALRATE
  | IECTRLWRITE
  | IESELECT
  | IENOMSG
  | IELISTEN
  | IEPTHREADATTRINIT
  | IEPTHREADCREATE
  | IEPTHREADATTRDESTROY
  | parameters (error : Udp.Errno)
  | worker (error : WorkerError)
  | other
deriving DecidableEq, Repr

/-! ### State -/

/-- Who closes the descriptor of a stream. -/
inductive Closer where
  | iperfTcpAccept
  | iperfHandleMessageServer
  | serverTimerProc
  | cleanupServer
deriving DecidableEq, Repr

/-- What is done to the descriptor of a stream. -/
inductive Touch where
  | shutdown
  | close (closer : Closer)
deriving DecidableEq, Repr

/-- `struct iperf_stream`. Apart from its fields there is what has been done to its descriptor,
oldest first, and whether its worker exists. -/
structure Stream where
  socket : Int
  sender : Bool
  done : Bool
  threadCreated : Bool
  touched : List Touch
  live : Bool
deriving DecidableEq, Repr

/-- The timers of a server. -/
inductive TimerId where
  | timer
  | statsTimer
  | reporterTimer
  | omitTimer
deriving DecidableEq, Repr

/-- What happens once in a run. -/
inductive Event where
  /-- `server_timer_proc` ends the test; `sent` tells whether the client could be told. -/
  | expired (sent : Bool)
  /-- `TEST_END` has been handled up to `DISPLAY_RESULTS`. -/
  | ended
  /-- `iperf_json_finish`. -/
  | jsonFinish (succeeded : Bool)
deriving DecidableEq, Repr

/-- What the system and the client answer, by the number of the question. -/
structure System extends Answers where
  document : Nat → Option (Node Int)
  /-- Whether `pthread_cancel` succeeds, for each stream. -/
  cancels : Nat → Nat → Bool
  /-- The timers that are due, in their order. -/
  due : Nat → List TimerId
  /-- Whether `iperf_request_test_stop` was called since the question before. -/
  stops : Nat → Bool
  /-- What a worker that exists has stored since then. -/
  stores : Nat → Option WorkerError

/-- The options of a server that no client changes. -/
structure Options where
  platform : Params.Platform
  logfile : Bool
  jsonOutput : Bool
  rsaPrivateKey : Bool
  authorizedUsers : Bool
  idleTimeout : Int
  rcvTimeoutUs : Int
  statsInterval : Bool
  reporterInterval : Bool

structure Run where
  system : System
  tick : Nat
  options : Options
  /-- What the parameters of a test are made of. -/
  parameters : Params.Server
  error : Errno
  state : Int
  done : Bool
  outputStopRequested : Bool
  ctrlSck : Int
  listener : Int
  protListener : Int
  streams : List Stream
  /-- The streams that `server_timer_proc` has freed. -/
  freed : List Stream
  /-- The question with which it has cancelled their workers. -/
  cancelling : Option Nat
  timer : Bool
  statsTimer : Bool
  reporterTimer : Bool
  omitTimer : Bool
  bitrateLimitExceeded : Bool
  jsonTop : Bool
  /-- `server_timer_proc` loops forever on a stream without a descriptor. -/
  spinning : Bool
  events : List Event
  /-- The states that the client was told, and those that it has sent. -/
  sent : List Int
  received : List Int
  -- The variables of `iperf_run_server`.
  sendStreamsAccepted : Int
  recStreamsAccepted : Int
  streamsToSend : Int
  streamsToRec : Int
  lastReceiveBlocks : Int

/-! ### Questions -/

/-- Whether there is a worker. -/
def Run.works (run : Run) : Bool := (run.streams ++ run.freed).any (·.live)

/-- The number of the next question; a stop request and an error of a worker may have come before
it. -/
def question : Program Run Nat := fun run =>
  (run.tick,
    { run with
      tick := run.tick + 1
      done := run.done || run.system.stops run.tick
      outputStopRequested := run.outputStopRequested || run.system.stops run.tick
      error := if run.works then (run.system.stores run.tick).elim run.error .worker else run.error })

instance : Outside Run where
  question := question
  answers run := run.system.toAnswers

/-- `iperf_set_error`. -/
def setError (error : Errno) : Program Run Unit := update fun run => { run with error := error }

/-- A call that sets an error when it fails. -/
def askOr (error : Errno) : Program Run Bool := askElse (setError error)

/-- The same, but an error that is there already stays. -/
def askOrKeep (error : Errno) : Program Run Bool :=
  askElse (update fun run => { run with error := if run.error = .IENONE then error else run.error })

/-- `iperf_set_test_state`. -/
def setTestState (state : Int) : Program Run Unit := update fun run => { run with state := state }

/-- `iperf_set_send_state`. -/
def setSendState (state : Int) : Program Run Bool := do
  let run ← current
  if 0 ≤ run.ctrlSck then do
    setTestState state
    update fun run => { run with sent := run.sent ++ [state] }
    askOr .IESENDMESSAGE
  else pure true

/-! ### Streams -/

/-- `close(sp->socket)`; there is nothing behind a negative number. -/
def Stream.closeBy (closer : Closer) (stream : Stream) : Stream :=
  { stream with
    touched := if 0 ≤ stream.socket then stream.touched ++ [.close closer] else stream.touched }

/-- `TEST_END` and `CLIENT_TERMINATE`: marked as done, closed, and the number stays. -/
def Stream.release (stream : Stream) : Stream :=
  { stream.closeBy .iperfHandleMessageServer with done := true }

/-- `stop_stream_worker`. -/
def stopStreamWorker (protocol : Protocol) (stream : Stream) : Stream :=
  if stream.done then stream
  else
    { stream with
      done := true
      touched :=
        if protocol = .Ptcp ∧ 0 ≤ stream.socket then stream.touched ++ [.shutdown]
        else stream.touched }

/-- The worker is cancelled and joined; `server_timer_proc` joins it only if it could be
cancelled. -/
def Stream.joinIf (cancelled : Bool) (stream : Stream) : Stream :=
  if stream.threadCreated then
    { stream with threadCreated := false, live := stream.live && !cancelled }
  else stream

/-- `close(sp->socket); sp->socket = -1;`. -/
def Stream.teardown (closer : Closer) (stream : Stream) : Stream :=
  { stream.closeBy closer with socket := -1 }

/-- `pthread_create`. -/
def Stream.create (stream : Stream) : Stream := { stream with threadCreated := true, live := true }

/-- Every stream of the list, in order. -/
def forEachStream (change : Stream → Stream) : Program Run Unit :=
  update fun run => { run with streams := run.streams.map change }

/-- The same with the place of each stream. -/
def forEachPlace (change : Nat → Stream → Stream) : Program Run Unit :=
  update fun run => { run with streams := run.streams.mapIdx change }

/-- `iperf_close_test_listener_socket`. -/
def closeTestListenerSocket (listener : Int) : Program Run Unit := update fun run =>
  if listener < 0 then run
  else
    { run with
      listener := if run.listener = listener then -1 else run.listener
      protListener := if run.protListener = listener then -1 else run.protListener }

/-- `iperf_close_test_listener`. -/
def closeTestListener : Program Run Unit := do
  let run ← current
  closeTestListenerSocket run.listener

/-! ### `cleanup_server` -/

/-- The error goes to the client as two numbers, the second one after the first. -/
def sendError : Program Run Unit := do
  if ← ask then do
    let _ ← ask
    pure ()
  else pure ()

/-- Every worker is stopped and joined, whatever `pthread_cancel` answers. The error from before is
put back, so those of the calls and of the workers are not kept. -/
def stopWorkers : Program Run Unit := do
  let run ← current
  let _ ← question
  forEachStream fun stream =>
    (stopStreamWorker run.parameters.test.protocol stream).joinIf true
  setError run.error

def closeStreams : Program Run Unit :=
  forEachStream fun stream =>
    if -1 < stream.socket then stream.teardown .cleanupServer else stream

def cancelTimers : Program Run Unit := update fun run =>
  { run with timer := false, statsTimer := false, reporterTimer := false, omitTimer := false }

/-- The client is told about an error, if there is one. -/
def notifyClient : Program Run Unit := do
  let run ← current
  if run.error ≠ .IENONE ∧ run.ctrlSck ≠ -1 then do
    if ← setSendState SERVER_ERROR then sendError else pure ()
  else pure ()

/-- The control connection and the listening sockets. -/
def closeSockets : Program Run Unit := do
  let _ ← question
  update fun run => { run with ctrlSck := -1 }
  closeTestListener
  update fun run => { run with protListener := -1 }

def cleanupServer : Program Run Unit := do
  notifyClient
  stopWorkers
  closeStreams
  closeSockets
  cancelTimers

/-- `cleanup_server(test); return code;`. -/
def cleanupAndReturn (code : Int) : Program Run (Option Int) := do
  cleanupServer
  pure (some code)

/-- The same, with an error that is set behind the cleanup. -/
def cleanupAndFail (error : Errno) (code : Int) : Program Run (Option Int) := do
  cleanupServer
  setError error
  pure (some code)

/-! ### Timers -/

/-- `iperf_stats_callback`, as far as `iperf_check_total_rate` is concerned. -/
def statsCallback : Program Run Unit := do
  let exceeded ← ask
  update fun run =>
    { run with
      bitrateLimitExceeded :=
        run.bitrateLimitExceeded ||
          (!run.done && run.parameters.test.settings.bitrateLimit != 0 && exceeded) }

/-- The part of `server_timer_proc` that tells the client. -/
def sendExpiry : Program Run Unit := do
  if ← setSendState SERVER_ERROR then do
    setError .IESERVERTESTDURATIONEXPIRED
    update fun run => { run with events := run.events ++ [.expired true] }
    sendError
  else update fun run => { run with events := run.events ++ [.expired false] }

/-- The streams are freed from the first one on, each with its descriptor. -/
def freeStreams : Program Run Unit := update fun run =>
  { run with
    streams := []
    freed := run.freed ++ run.streams.map (Stream.teardown .serverTimerProc)
    spinning := run.spinning || run.streams.any (·.socket = -1) }

/-- What follows the message: the workers, the streams and the control connection. Here too the
error from before is put back. -/
def expireStreams : Program Run Unit := do
  let run ← current
  let number ← question
  forEachPlace fun index stream =>
    (stopStreamWorker run.parameters.test.protocol stream).joinIf (run.system.cancels number index)
  update fun next => { next with error := run.error, cancelling := some number }
  freeStreams
  update fun run => { run with ctrlSck := -1 }

def serverTimerProc : Program Run Unit := do
  update fun run => { run with timer := false }
  let _ ← question
  let run ← current
  if run.done then pure ()
  else do
    update fun run => { run with done := true }
    sendExpiry
    expireStreams

def serverStatsTimerProc : Program Run Unit := do
  let _ ← question
  let run ← current
  if run.done then pure () else statsCallback

def serverReporterTimerProc : Program Run Unit := do
  let _ ← question
  pure ()

/-- `server_omit_timer_proc`, without the counters it resets. -/
def serverOmitTimerProc : Program Run Unit := update fun run => { run with omitTimer := false }

/-- One timer that is due, if it has not been cancelled. -/
def fire (due : TimerId) : Program Run Unit := do
  let run ← current
  match due with
  | .timer => if run.timer then serverTimerProc else pure ()
  | .statsTimer => if run.statsTimer then serverStatsTimerProc else pure ()
  | .reporterTimer => if run.reporterTimer then serverReporterTimerProc else pure ()
  | .omitTimer => if run.omitTimer then serverOmitTimerProc else pure ()

/-- The timers in the order in which `tmr_run` finds them. -/
def fireAll : List TimerId → Program Run Unit
  | [] => pure ()
  | due :: rest => do
      fire due
      fireAll rest

/-- `tmr_run`. -/
def tmrRun : Program Run Unit := do
  let number ← question
  let run ← current
  fireAll (run.system.due number)

/-- `create_server_timers`. The watchdog's flag is cleared only when there is a watchdog. -/
def createServerTimers : Program Run Bool := do
  if ← askOr .IEINITTEST then do
    update fun run =>
      { run with
        timer := false
        statsTimer := false
        reporterTimer := false
        done := if run.parameters.test.duration ≠ 0 then false else run.done }
    let run ← current
    if run.parameters.test.duration ≠ 0 then do
      if ← askOr .IEINITTEST then do
        update fun run => { run with timer := true }
        createReports
      else pure false
    else createReports
  else pure false
where
  /-- The timers of statistics and reports. -/
  createReports : Program Run Bool := do
    let run ← current
    if run.options.statsInterval then do
      if ← askOr .IEINITTEST then do
        update fun run => { run with statsTimer := true }
        createReporter
      else pure false
    else createReporter
  createReporter : Program Run Bool := do
    let run ← current
    if run.options.reporterInterval then do
      if ← askOr .IEINITTEST then do
        update fun run => { run with reporterTimer := true }
        pure true
      else pure false
    else pure true

/-- `create_server_omit_timer`. -/
def createServerOmitTimer : Program Run Bool := do
  let run ← current
  if run.parameters.test.omitTime = 0 then do
    update fun run => { run with omitTimer := false }
    pure true
  else do
    if ← askOr .IEINITTEST then do
      update fun run => { run with omitTimer := true }
      pure true
    else pure false

/-! ### Control messages -/

/-- The results go both ways, and the client is told to show them. -/
def finishTest : Program Run Bool := do
  if ← setSendState EXCHANGE_RESULTS then
    if ← askOr .other then
      if ← setSendState DISPLAY_RESULTS then do
        update fun run => { run with events := run.events ++ [.ended] }
        pure true
      else pure false
    else pure false
  else pure false

def testEnd : Program Run Bool := do
  update fun run => { run with done := true }
  statsCallback
  forEachStream fun stream => stream.release
  finishTest

def clientTerminate : Program Run Bool := do
  setError .IECLIENTTERM
  forEachStream fun stream => stream.release
  setTestState IPERF_DONE
  pure true

/-- `iperf_handle_message_server`. -/
def iperfHandleMessageServer : Program Run Bool := do
  let run ← current
  let rval ← askValue
  if run.ctrlSck < 0 ∨ rval < 0 then do
    setError .IERECVMESSAGE
    pure false
  else if rval = 0 then do
    setError .IECTRLCLOSE
    setTestState IPERF_DONE
    pure true
  else do
    let receivedState ← askValue
    update fun run => { run with received := run.received ++ [receivedState] }
    setTestState receivedState
    if receivedState = TEST_START then pure true
    else if receivedState = TEST_END then testEnd
    else if receivedState = IPERF_DONE then pure true
    else if receivedState = CLIENT_TERMINATE then clientTerminate
    else do
      setError .IEMESSAGE
      pure false

/-! ### Connections -/

/-- `get_parameters`, on the document that the client sends. -/
def getParameters : Program Run Bool := do
  let number ← question
  let run ← current
  let received :=
    Params.receiveParameters (run.system.document number) run.options.platform run.parameters
  update fun run =>
    { run with
      parameters := received.server
      error := received.error.elim run.error .parameters }
  pure (received.r = 0)

/-- `test_is_authorized`; whether the token is valid is a question. -/
def testIsAuthorized : Program Run Bool := do
  let run ← current
  if !run.options.rsaPrivateKey && !run.options.authorizedUsers then pure true
  else if run.options.rsaPrivateKey && run.options.authorizedUsers &&
      run.parameters.texts.authtoken.isSome then
    askOr .IEAUTHTEST
  else do
    setError .IEAUTHTEST
    pure false

/-- Whether the listening socket is made anew for the streams. -/
def recreatesListener (parameters : Params.Server) : Bool :=
  parameters.test.noDelay != 0 || parameters.test.settings.mss != 0 ||
    parameters.test.settings.socketBufsize != 0

/-- `iperf_tcp_listen`. The descriptor it returns is the listening socket of the server, which a
failure closes. -/
def iperfTcpListen : Program Run (Option Int) := do
  let run ← current
  if recreatesListener run.parameters then do
    closeTestListenerSocket run.listener
    if ← askOr .IESTREAMLISTEN then do
      let s ← askDescriptor
      if ← askOr .other then do
        update fun run => { run with listener := s }
        verify s
      else pure none
    else pure none
  else verify run.listener
where
  /-- The buffer sizes are read back. -/
  verify (s : Int) : Program Run (Option Int) := do
    if ← askOr .IESETBUF then pure (some s)
    else do
      closeTestListenerSocket s
      pure none

/-- `iperf_udp_listen`. -/
def iperfUdpListen : Program Run (Option Int) := do
  if ← askOrKeep .IESTREAMLISTEN then do
    let s ← askDescriptor
    pure (some s)
  else pure none

/-- `test->protocol->listen`. -/
def protocolListen : Program Run (Option Int) := do
  let run ← current
  if run.parameters.test.protocol = .Ptcp then iperfTcpListen else iperfUdpListen

/-- `iperf_exchange_parameters` of a server. -/
def iperfExchangeParameters : Program Run Bool := do
  if ← getParameters then
    if ← testIsAuthorized then
      match ← protocolListen with
      | some s => do
          update fun run => { run with protListener := s }
          setSendState CREATE_STREAMS
      | none => pure false
    else pure false
  else pure false

/-- `accept`, which needs a listening socket. -/
def acceptOr (error : Errno) : Program Run Bool := do
  let run ← current
  let accepted ← ask
  if 0 ≤ run.listener ∧ accepted = true then pure true
  else do
    setError error
    pure false

/-- `iperf_accept`. A client that comes during a test is sent away, whatever becomes of that. -/
def iperfAccept : Program Run Bool := do
  if ← acceptOr .IEACCEPT then do
    let s ← askDescriptor
    let run ← current
    if run.ctrlSck = -1 then do
      update fun run => { run with ctrlSck := s }
      if ← askOr .IESETNODELAY then
        if ← askOr .IERECVCOOKIE then
          if ← setSendState PARAM_EXCHANGE then
            if ← iperfExchangeParameters then do
              let run ← current
              if run.parameters.test.serverAffinity = -1 then pure true else ask
            else pure false
          else pure false
        else pure false
      else pure false
    else do
      let _ ← ask
      pure true
  else pure false

/-- A connection that was accepted: its number, and whether it was denied, which closes it. -/
structure Accepted where
  socket : Int
  denied : Bool

/-- `iperf_tcp_accept`. -/
def iperfTcpAccept : Program Run (Option Accepted) := do
  if ← acceptOr .IESTREAMCONNECT then do
    let s ← askDescriptor
    if ← askOr .IERECVCOOKIE then do
      let sameCookie ← ask
      pure (some ⟨s, !sameCookie⟩)
    else pure none
  else pure none

/-- `iperf_udp_accept`: the stream takes the listening socket, and there is a new one. -/
def iperfUdpAccept : Program Run (Option Accepted) := do
  let run ← current
  let connected ← ask
  if 0 ≤ run.protListener ∧ connected = true then do
    if ← askOrKeep .IESTREAMLISTEN then do
      let s ← askDescriptor
      update fun run => { run with protListener := s }
      if ← askOr .IESTREAMWRITE then pure (some ⟨run.protListener, false⟩) else pure none
    else do
      update fun run => { run with protListener := -1 }
      pure none
  else do
    setError .IESTREAMACCEPT
    pure none

/-- `test->protocol->accept`. -/
def protocolAccept : Program Run (Option Accepted) := do
  let run ← current
  if run.parameters.test.protocol = .Ptcp then iperfTcpAccept else iperfUdpAccept

/-- `is_closed`: an open descriptor is not, and a closed one may be in use again. -/
def isClosed (accepted : Accepted) : Program Run Bool := do
  let answer ← ask
  pure (accepted.denied && answer)

/-- A new stream; nothing has been done to its descriptor, unless it was denied. -/
def Accepted.stream (accepted : Accepted) (sender : Bool) : Stream where
  socket := accepted.socket
  sender := sender
  done := false
  threadCreated := false
  touched := if accepted.denied then [.close .iperfTcpAccept] else []
  live := false

/-- `iperf_new_stream`, at the end of the list. -/
def iperfNewStream (accepted : Accepted) (sender : Bool) : Program Run Bool := do
  if ← askOr .other then do
    update fun run => { run with streams := run.streams ++ [accepted.stream sender] }
    pure true
  else pure false

/-! ### `iperf_run_server` -/

/-- The number of streams in each direction. -/
def setStreamsNumber : Program Run Unit := update fun run =>
  let numStreams := run.parameters.test.numStreams
  { run with
    streamsToSend := if run.parameters.test.mode = .RECEIVER then 0 else numStreams
    streamsToRec := if run.parameters.test.mode = .SENDER then 0 else numStreams }

/-- The average rate was exceeded. -/
def checkBitrate : Program Run (Option Int) := do
  let run ← current
  if run.bitrateLimitExceeded then do
    setError .IETOTALRATE
    if ← setSendState SERVER_ERROR then
      if ← ask then
        if ← ask then cleanupAndReturn (-1) else cleanupAndFail .IECTRLWRITE (-1)
      else cleanupAndFail .IECTRLWRITE (-1)
    else cleanupAndReturn (-1)
  else pure none

/-- Nothing was received for too long. `t_usecs` is the time since something was. -/
def checkTimeouts : Program Run (Option Int) := do
  let tUsecs ← askValue
  let blocks ← askValue
  let run ← current
  if run.state = IPERF_START then
    if 0 < run.options.idleTimeout ∧ run.options.idleTimeout * 1000000 ≤ tUsecs then
      cleanupAndReturn 2
    else pure none
  else if run.parameters.test.mode ≠ .SENDER ∧ run.options.rcvTimeoutUs < tUsecs ∧
      blocks = run.lastReceiveBlocks then do
    setError .IENOMSG
    cleanupAndReturn (-1)
  else pure none

/-- What follows `select`: a stop, an error, or nothing to do for now. -/
def afterSelect (result : Int) : Program Run (Option Int) := do
  let run ← current
  if run.done then cleanupAndReturn 0
  else do
    let interrupted ← ask
    if result < 0 ∧ interrupted = false then cleanupAndFail .IESELECT (-1)
    else if result = 0 then checkTimeouts
    else pure none

/-- Whether the test makes progress. -/
def noteProgress : Program Run (Option Int) := do
  let blocks ← askValue
  let again ← askValue
  update fun run =>
    { run with
      lastReceiveBlocks := if run.lastReceiveBlocks < blocks then again else run.lastReceiveBlocks }
  pure none

/-- `FD_ISSET(test->listener, &read_set)`. -/
def serveListener : Program Run (Option Int) := do
  let readable ← ask
  let run ← current
  if readable ∧ run.state ≠ CREATE_STREAMS then do
    if ← iperfAccept then do
      setStreamsNumber
      pure none
    else cleanupAndReturn (-1)
  else pure none

/-- `FD_ISSET(test->ctrl_sck, &read_set)`. -/
def serveControl : Program Run (Option Int) := do
  if ← ask then
    if ← iperfHandleMessageServer then pure none else cleanupAndReturn (-1)
  else pure none

/-- The direction of the next stream; receiving streams come first. -/
def nextDirection : Program Run (Option Bool) := do
  let run ← current
  if run.recStreamsAccepted ≠ run.streamsToRec then do
    update fun run => { run with recStreamsAccepted := run.recStreamsAccepted + 1 }
    pure (some false)
  else if run.sendStreamsAccepted ≠ run.streamsToSend then do
    update fun run => { run with sendStreamsAccepted := run.sendStreamsAccepted + 1 }
    pure (some true)
  else pure none

/-- `FD_ISSET(test->prot_listener, &read_set)`. -/
def acceptStream : Program Run (Option Int) := do
  if ← ask then
    match ← protocolAccept with
    | none => cleanupAndReturn (-1)
    | some accepted => do
        if ← askOr .other then do
          if ← isClosed accepted then pure none
          else
            match ← nextDirection with
            | none => pure none
            | some sender => do
                if ← iperfNewStream accepted sender then pure none else cleanupAndReturn (-1)
        else cleanupAndReturn (-1)
  else pure none

/-- The listening sockets when all streams are there. -/
def restoreListener : Program Run (Option Int) := do
  let run ← current
  if run.parameters.test.protocol = .Ptcp ∧ recreatesListener run.parameters then do
    closeTestListener
    if ← ask then do
      let s ← askDescriptor
      update fun run => { run with listener := s, protListener := -1 }
      pure none
    else cleanupAndFail .IELISTEN (-1)
  else do
    update fun run => { run with protListener := -1 }
    pure none

/-- The total of the requested rates is checked again. -/
def checkTotalRate : Program Run (Option Int) := do
  let run ← current
  let test := run.parameters.test
  if test.settings.bitrateLimit ≠ 0 ∧
      test.settings.bitrateLimit < Udp.totalRequestedRate test test.settings.rate then
    cleanupAndFail .IETOTALRATE (-1)
  else pure none

/-- A step of the start that ends the run when it fails. -/
def orReturn (step : Program Run Bool) : Program Run (Option Int) := do
  if ← step then pure none else cleanupAndReturn (-1)

/-- The workers are created one by one; `value` tells how many of them can be. -/
def createWorkers : Program Run (Option Int) := do
  let many ← askValue
  forEachPlace fun index stream => if (index : Int) < many then stream.create else stream
  let run ← current
  if (run.streams.length : Int) ≤ many then pure none
  else do
    setError .IEPTHREADCREATE
    cleanupAndReturn (-1)

/-- `pthread_attr_init` and `pthread_attr_destroy`: a failure cleans up and goes on. -/
def cleanupUnless (error : Errno) : Program Run (Option Int) := do
  if ← ask then pure none
  else do
    setError error
    cleanupServer
    pure none

/-- `last_receive_blocks` starts anew. -/
def resetProgress : Program Run (Option Int) := do
  let blocks ← askValue
  update fun run => { run with lastReceiveBlocks := blocks }
  pure none

/-- All streams are there: the test starts. -/
def startTest : Program Run (Option Int) := do
  let run ← current
  if run.recStreamsAccepted = run.streamsToRec ∧ run.sendStreamsAccepted = run.streamsToSend then
    inOrder
      [ restoreListener,
        checkTotalRate,
        orReturn (setSendState TEST_START),
        orReturn (askOr .IEINITTEST),
        orReturn createServerTimers,
        orReturn createServerOmitTimer,
        orReturn (setSendState TEST_RUNNING),
        cleanupUnless .IEPTHREADATTRINIT,
        createWorkers,
        cleanupUnless .IEPTHREADATTRDESTROY,
        resetProgress ]
  else pure none

/-- The streams are being created. -/
def serveStreams : Program Run (Option Int) := do
  let run ← current
  if run.state = CREATE_STREAMS then unlessReturned acceptStream startTest else pure none

/-- One pass of the loop. -/
def pass : Program Run (Option Int) :=
  unlessReturned checkBitrate do
    let result ← askValue
    unlessReturned (afterSelect result) <|
      unlessReturned noteProgress <|
        unlessReturned
          (if 0 < result then inOrder [serveListener, serveControl, serveStreams] else pure none)
          do
            let expired ← ask
            if result = 0 ∨ expired = true then do
              tmrRun
              pure none
            else pure none

/-- What follows the loop. -/
def finishRun : Program Run Int := do
  let run ← current
  if run.options.jsonOutput then do
    let succeeded ← ask
    update fun run =>
      { run with
        jsonTop := run.jsonTop && !succeeded
        events := run.events ++ [.jsonFinish succeeded] }
    if succeeded then tidy else pure (-1)
  else tidy
where
  /-- `cleanup_server` and the processor affinity. -/
  tidy : Program Run Int := do
    cleanupServer
    let run ← current
    if run.parameters.test.serverAffinity = -1 then pure 0
    else do
      if ← ask then pure 0 else pure (-1)

/-- One turn: the loop goes on while the state is not `IPERF_DONE`. -/
def turn : Program Run (Step Unit (Option Int)) := do
  let run ← current
  if run.state = IPERF_DONE then do
    let code ← finishRun
    pure (.done (some code))
  else
    match ← pass with
    | some code => pure (.done (some code))
    | none => pure (.again ())

/-- What precedes the loop. -/
def openServer : Program Run (Option Int) := do
  let run ← current
  let logged ← ask
  if run.options.logfile && !logged then pure (some (-2))
  else do
    let started ← ask
    if run.options.jsonOutput && !started then cleanupAndReturn (-2)
    else do
      update fun run => { run with jsonTop := run.options.jsonOutput }
      if ← askOrKeep .IELISTEN then do
        let s ← askDescriptor
        update fun run => { run with listener := s }
        let run ← current
        if run.done then cleanupAndReturn 0
        else do
          update fun run =>
            { run with
              state := IPERF_START
              sendStreamsAccepted := 0
              recStreamsAccepted := 0
              streamsToSend := 0
              streamsToRec := 0
              lastReceiveBlocks := 0 }
          pure none
      else cleanupAndReturn (-2)

/-- `iperf_run_server`, up to a number of passes; `none` while it is still running. -/
def iperfRunServer (allowance : Nat) : Program Run (Option Int) :=
  unlessReturned openServer (loop (fun _ => turn) none allowance ())

end IperfSwift.Server
