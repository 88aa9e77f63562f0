import IperfSwift.Lib.Schedule
import IperfSwift.Stats.Stream

/-!
Contract: every interleaving of a stream's worker with the engine thread, and what the
gathered intervals add up to.

Owns: the machine with both threads; the ledger of what was gathered since the last
reset began; conservation of bytes across the reset, with the exact condition under
which the intervals add up to the run total; the same for the packet counters.

Does not own: when the timers call `iperf_stats_callback` and `iperf_reset_stats`. Any
order of calls is a run of this machine.
-/

set_option autoImplicit false

namespace IperfSwift.Stats

open IperfSwift.Lib

variable {udp : Bool} {now : Nat} {sp : Stream} {point : EnginePoint}

/-- What a proof remembers of a run. The program keeps none of it. -/
structure Ledger where
  /-- Intervals gathered since the last reset began. -/
  gathered : List IntervalResults
  /-- Intervals gathered between the reset before that and the last one. -/
  earlier : List IntervalResults
  /-- The entry in the interval list when the last reset began. -/
  base : Option IntervalResults
  /-- Bytes in the total but not yet in the interval counter when the reset took the total. -/
  inFlight : UInt64
  /-- Bytes added to the interval counter from then until the reset cleared it. -/
  published : UInt64
deriving DecidableEq, Repr

structure Machine where
  stream : Stream
  engine : EnginePoint
  worker : WorkerPoint
  ledger : Ledger
deriving DecidableEq, Repr

def Machine.start (sender : Bool) (startTime : Nat) : Machine where
  stream := Stream.new sender startTime
  engine := .idle
  worker := .idle
  ledger := { gathered := [], earlier := [], base := none, inFlight := 0, published := 0 }

/-- Bytes the worker has added to the total and not yet to the interval counter. -/
def WorkerPoint.inFlight : WorkerPoint → UInt64
  | .addBytesSentThisInterval r => r
  | .addBytesReceivedThisInterval r => r
  | _ => 0

/-- Where the engine thread is with respect to a reset of the stream's byte counters. -/
inductive Phase where
  /-- Outside a reset, or past its last step on this stream's direction. -/
  | ordinary
  /-- In a reset that has not touched the total. -/
  | entering
  /-- In a reset that has taken the total and not yet cleared the interval counter. -/
  | window
deriving DecidableEq, Repr

def EnginePoint.phase (sender : Bool) : EnginePoint → Phase
  | .omitPacketCount | .omitCntError | .omitOutoforderPackets | .clearJitter
  | .omitBytesSent => .entering
  | .clearBytesReceived => if sender then .window else .entering
  | .clearBytesSentThisInterval => .window
  | .clearBytesReceivedThisInterval => if sender then .ordinary else .window
  | _ => .ordinary

/-- The ledger after the engine thread's next step. -/
def Machine.recordEngine (machine : Machine) : Ledger :=
  match machine.engine with
  | .addToIntervalList temp =>
      { machine.ledger with gathered := machine.ledger.gathered ++ [temp] }
  | .omitBytesSent =>
      if machine.stream.sender then
        { machine.ledger with inFlight := machine.worker.inFlight, published := 0 }
      else machine.ledger
  | .clearBytesReceived =>
      if machine.stream.sender then machine.ledger
      else { machine.ledger with inFlight := machine.worker.inFlight, published := 0 }
  | _ => machine.ledger

/-- The ledger after the worker's next step. -/
def Machine.recordWorker (machine : Machine) : Ledger :=
  match machine.engine.phase machine.stream.sender with
  | .window =>
      { machine.ledger with published := machine.ledger.published + machine.worker.inFlight }
  | _ => machine.ledger

inductive Action where
  /-- The worker enters `iperf_tcp_send` or `iperf_tcp_recv`. -/
  | call (r : Int) (running : Bool)
  | worker
  | packets (update : PacketUpdate)
  | statsCallback (omitting : Bool) (temp : IntervalResults)
  | resetStats
  | engine (now : Nat)
deriving DecidableEq, Repr

def step (udp : Bool) (machine : Machine) : Action → Option Machine
  | .call r running =>
      if machine.worker = .idle then
        some { machine with worker := machine.stream.call r running }
      else none
  | .worker =>
      if machine.worker = .idle then none
      else
        let next := workerStep machine.stream machine.worker
        some { machine with stream := next.1, worker := next.2, ledger := machine.recordWorker }
  | .packets update => some { machine with stream := update.apply machine.stream }
  | .statsCallback omitting temp =>
      if machine.engine = .idle then
        some { machine with engine := iperfStatsCallback omitting temp }
      else none
  | .resetStats =>
      if machine.engine = .idle then
        some { machine with
          engine := iperfResetStats
          ledger := { machine.ledger with
            earlier := machine.ledger.gathered
            gathered := []
            base := machine.stream.lastInterval } }
      else none
  | .engine now =>
      if machine.engine = .idle then none
      else
        let next := engineStep udp now machine.stream machine.engine
        some { machine with stream := next.1, engine := next.2, ledger := machine.recordEngine }

/-- A property that every step of either thread keeps. -/
structure Keeps (udp : Bool) (property : Machine → Prop) : Prop where
  call : ∀ {machine}, property machine → machine.worker = .idle → ∀ r running,
    property { machine with worker := machine.stream.call r running }
  worker : ∀ {machine}, property machine →
    property { machine with
      stream := (workerStep machine.stream machine.worker).1
      worker := (workerStep machine.stream machine.worker).2
      ledger := machine.recordWorker }
  packets : ∀ {machine}, property machine → ∀ update : PacketUpdate,
    property { machine with stream := update.apply machine.stream }
  statsCallback : ∀ {machine}, property machine → machine.engine = .idle → ∀ omitting temp,
    property { machine with engine := iperfStatsCallback omitting temp }
  resetStats : ∀ {machine}, property machine → machine.engine = .idle →
    property { machine with
      engine := iperfResetStats
      ledger := { machine.ledger with
        earlier := machine.ledger.gathered
        gathered := []
        base := machine.stream.lastInterval } }
  engine : ∀ {machine}, property machine → ∀ now,
    property { machine with
      stream := (engineStep udp now machine.stream machine.engine).1
      engine := (engineStep udp now machine.stream machine.engine).2
      ledger := machine.recordEngine }

variable {machine : Machine}

theorem Keeps.step {property : Machine → Prop} (keeps : Keeps udp property) {next : Machine}
    {action : Action} (holds : property machine)
    (stepped : Stats.step udp machine action = some next) : property next := by
  cases action with
  | call r running =>
      simp only [Stats.step, Option.ite_none_right_eq_some, Option.some_inj] at stepped
      obtain ⟨idle, rfl⟩ := stepped
      exact keeps.call holds idle r running
  | worker =>
      simp only [Stats.step, Option.ite_none_left_eq_some, Option.some_inj] at stepped
      obtain ⟨-, rfl⟩ := stepped
      exact keeps.worker holds
  | packets update =>
      simp only [Stats.step, Option.some_inj] at stepped
      exact stepped ▸ keeps.packets holds update
  | statsCallback omitting temp =>
      simp only [Stats.step, Option.ite_none_right_eq_some, Option.some_inj] at stepped
      obtain ⟨idle, rfl⟩ := stepped
      exact keeps.statsCallback holds idle omitting temp
  | resetStats =>
      simp only [Stats.step, Option.ite_none_right_eq_some, Option.some_inj] at stepped
      obtain ⟨idle, rfl⟩ := stepped
      exact keeps.resetStats holds idle
  | engine now =>
      simp only [Stats.step, Option.ite_none_left_eq_some, Option.some_inj] at stepped
      obtain ⟨-, rfl⟩ := stepped
      exact keeps.engine holds now

variable {final : Machine}

theorem Keeps.run {property : Machine → Prop} (keeps : Keeps udp property) {actions : List Action}
    (run : execute (Stats.step udp) machine actions = some final) (holds : property machine) :
    property final :=
  execute_invariant (fun before stepped => keeps.step before stepped) run holds

/-! ### Conservation of bytes -/

def bytesGathered (intervals : List IntervalResults) : UInt64 :=
  (intervals.map IntervalResults.bytesTransferred).sum

/-- The counter of the stream's own direction that the worker adds to first. -/
def Stream.total (sp : Stream) : UInt64 :=
  if sp.sender then sp.result.bytesSent - sp.result.bytesSentOmit else sp.result.bytesReceived

/-- The interval counter of the stream's own direction. -/
def Stream.interval (sp : Stream) : UInt64 :=
  if sp.sender then sp.result.bytesSentThisInterval else sp.result.bytesReceivedThisInterval

/-- Bytes taken from the interval counter and not yet gathered. -/
def EnginePoint.held (sender : Bool) : EnginePoint → UInt64
  | .exchangeReceived _ sent => if sender then sent else 0
  | .readTimes temp => temp.bytesTransferred
  | .samplePacketCount temp => temp.bytesTransferred
  | .sampleJitter temp => temp.bytesTransferred
  | .sampleOutoforderPackets temp => temp.bytesTransferred
  | .sampleCntError temp => temp.bytesTransferred
  | .addToIntervalList temp => temp.bytesTransferred
  | _ => 0

/-- Bytes the run has counted into intervals, gathered or not. In the window of a reset
the interval counter is about to be cleared and counts for nothing. -/
def Machine.counted (machine : Machine) : UInt64 :=
  match machine.engine.phase machine.stream.sender with
  | .ordinary =>
      bytesGathered machine.ledger.gathered + machine.engine.held machine.stream.sender +
        machine.stream.interval
  | .entering => bytesGathered machine.ledger.earlier + machine.stream.interval
  | .window => 0

/-- The worker only ever touches the counters of the stream's own direction. -/
def WorkerPoint.Directed (sender : Bool) : WorkerPoint → Prop
  | .idle => True
  | .addBytesSent _ | .addBytesSentThisInterval _ => sender = true
  | .addBytesReceived _ | .addBytesReceivedThisInterval _ => sender = false

structure Conserved (machine : Machine) : Prop where
  directed : machine.worker.Directed machine.stream.sender
  -- Inside a reset nothing has been gathered since it began.
  fresh : machine.engine.phase machine.stream.sender ≠ .ordinary → machine.ledger.gathered = []
  balance : machine.stream.total + machine.ledger.inFlight =
    machine.counted + machine.worker.inFlight + machine.ledger.published

section Conservation

open scoped UInt64.CommRing

theorem conserved_start (sender : Bool) (startTime : Nat) :
    Conserved (Machine.start sender startTime) := by
  constructor
  · trivial
  · intro inside
    exact absurd rfl inside
  · cases sender <;>
      simp [Machine.start, Machine.counted, EnginePoint.phase, Stream.total, Stream.interval,
        Stream.new, EnginePoint.held, bytesGathered, WorkerPoint.inFlight]

theorem call_directed (sp : Stream) (r : Int) (running : Bool) :
    (sp.call r running).Directed sp.sender := by
  unfold Stream.call iperfTcpSend iperfTcpRecv
  cases sp.sender <;> simp <;> split_ifs <;> simp [WorkerPoint.Directed]

@[simp] theorem call_inFlight (sp : Stream) (r : Int) (running : Bool) :
    (sp.call r running).inFlight = 0 := by
  unfold Stream.call iperfTcpSend iperfTcpRecv
  split_ifs <;> rfl

theorem conserved_call (conserved : Conserved machine) (idle : machine.worker = .idle) (r : Int)
    (running : Bool) : Conserved { machine with worker := machine.stream.call r running } := by
  have balance := conserved.balance
  rw [idle] at balance
  constructor
  · exact call_directed machine.stream r running
  · exact conserved.fresh
  · rw [call_inFlight]
    exact balance

/-- What a step of the worker does to the stream's own direction: bytes enter the total
and are then in flight, or leave flight and enter the interval counter. -/
structure WorkerMoves (sp : Stream) (worker : WorkerPoint) (after : Stream × WorkerPoint) :
    Prop where
  sender : after.1.sender = sp.sender
  directed : after.2.Directed sp.sender
  total : after.1.total = sp.total + after.2.inFlight
  interval : after.1.interval = sp.interval + worker.inFlight

theorem workerStep_moves (sp : Stream) (worker : WorkerPoint)
    (directed : worker.Directed sp.sender) : WorkerMoves sp worker (workerStep sp worker) := by
  cases worker with
  | idle => exact ⟨rfl, trivial, (add_zero _).symm, (add_zero _).symm⟩
  | addBytesSent r =>
      refine ⟨rfl, directed, ?_, ?_⟩ <;>
        simp [workerStep, show sp.sender = true from directed, Stream.total, Stream.interval,
          WorkerPoint.inFlight, add_sub_right_comm]
  | addBytesReceived r =>
      refine ⟨rfl, directed, ?_, ?_⟩ <;>
        simp [workerStep, show sp.sender = false from directed, Stream.total, Stream.interval,
          WorkerPoint.inFlight]
  | addBytesSentThisInterval r =>
      refine ⟨rfl, trivial, ?_, ?_⟩ <;>
        simp [workerStep, show sp.sender = true from directed, Stream.total, Stream.interval,
          WorkerPoint.inFlight]
  | addBytesReceivedThisInterval r =>
      refine ⟨rfl, trivial, ?_, ?_⟩ <;>
        simp [workerStep, show sp.sender = false from directed, Stream.total, Stream.interval,
          WorkerPoint.inFlight]

/-- A step of the worker moves its bytes from one side of the balance to the other. -/
theorem conserved_worker (conserved : Conserved machine) :
    Conserved { machine with
      stream := (workerStep machine.stream machine.worker).1
      worker := (workerStep machine.stream machine.worker).2
      ledger := machine.recordWorker } := by
  obtain ⟨directed, fresh, balance⟩ := conserved
  have moves := workerStep_moves machine.stream machine.worker directed
  constructor
  · show WorkerPoint.Directed _ _
    rw [moves.sender]
    exact moves.directed
  · show EnginePoint.phase _ _ ≠ _ → _
    rw [moves.sender, Machine.recordWorker]
    intro inside
    split <;> exact fresh inside
  · simp only [Machine.counted, Machine.recordWorker, moves.sender, moves.total, moves.interval]
      at balance ⊢
    cases phase : machine.engine.phase machine.stream.sender <;> rw [phase] at balance <;>
      simp only at balance ⊢ <;> linear_combination balance

@[simp] theorem engineStep_sender (udp : Bool) (now : Nat) (sp : Stream) (point : EnginePoint) :
    (engineStep udp now sp point).1.sender = sp.sender := by
  cases point <;> rfl

/-- The engine thread is inside a reset only after a step of that reset, and such a step
gathers nothing. -/
theorem recordEngine_fresh (inside : (engineStep udp now machine.stream machine.engine).2.phase
      machine.stream.sender ≠ .ordinary) :
    machine.engine.phase machine.stream.sender ≠ .ordinary ∧
      machine.recordEngine.gathered = machine.ledger.gathered := by
  obtain ⟨stream, engine, worker, ledger⟩ := machine
  cases engine <;> cases sender : stream.sender <;>
    simp [engineStep, EnginePoint.phase, sender, Machine.recordEngine] at inside ⊢
  all_goals
    cases udp <;> exact absurd rfl inside

theorem balance_engine (conserved : Conserved machine) (udp : Bool) (now : Nat) :
    (engineStep udp now machine.stream machine.engine).1.total +
        machine.recordEngine.inFlight =
      Machine.counted
          { machine with
            stream := (engineStep udp now machine.stream machine.engine).1
            engine := (engineStep udp now machine.stream machine.engine).2
            ledger := machine.recordEngine } +
        machine.worker.inFlight + machine.recordEngine.published := by
  obtain ⟨directed, fresh, balance⟩ := conserved
  obtain ⟨stream, engine, worker, ledger⟩ := machine
  cases engine <;> cases sender : stream.sender <;>
    simp [engineStep, Machine.recordEngine, EnginePoint.phase, Machine.counted, Stream.total,
      Stream.interval, EnginePoint.held, sender, bytesGathered, Stats.addToIntervalList]
      at fresh balance ⊢
  case readTimes.false => cases udp <;> exact balance
  case readTimes.true => cases udp <;> exact balance
  -- A step that clears the interval counter has gathered nothing since the reset began.
  case clearBytesSentThisInterval.true => simpa [fresh] using balance
  case clearBytesReceivedThisInterval.false => simpa [fresh] using balance
  all_goals linear_combination balance

theorem conserved_engine (conserved : Conserved machine) (udp : Bool) (now : Nat) :
    Conserved { machine with
      stream := (engineStep udp now machine.stream machine.engine).1
      engine := (engineStep udp now machine.stream machine.engine).2
      ledger := machine.recordEngine } := by
  constructor
  · show WorkerPoint.Directed _ _
    rw [engineStep_sender]
    exact conserved.directed
  · show EnginePoint.phase _ _ ≠ _ → _
    rw [engineStep_sender]
    intro inside
    obtain ⟨before, kept⟩ := recordEngine_fresh inside
    rw [kept]
    exact conserved.fresh before
  · exact balance_engine conserved udp now

theorem conserved_packets (conserved : Conserved machine) (update : PacketUpdate) :
    Conserved { machine with stream := update.apply machine.stream } := by
  obtain ⟨directed, fresh, balance⟩ := conserved
  cases update <;> exact ⟨directed, fresh, balance⟩

theorem conserved_statsCallback (conserved : Conserved machine) (idle : machine.engine = .idle)
    (omitting : Bool) (temp : IntervalResults) :
    Conserved { machine with engine := iperfStatsCallback omitting temp } := by
  obtain ⟨directed, fresh, balance⟩ := conserved
  obtain ⟨stream, engine, worker, ledger⟩ := machine
  cases idle
  exact ⟨directed, fresh, balance⟩

theorem conserved_resetStats (conserved : Conserved machine) (idle : machine.engine = .idle) :
    Conserved { machine with
      engine := iperfResetStats
      ledger := { machine.ledger with
        earlier := machine.ledger.gathered
        gathered := []
        base := machine.stream.lastInterval } } := by
  obtain ⟨directed, -, balance⟩ := conserved
  obtain ⟨stream, engine, worker, ledger⟩ := machine
  cases idle
  refine ⟨directed, fun _ => rfl, ?_⟩
  simpa [Machine.counted, EnginePoint.phase, iperfResetStats, EnginePoint.held] using balance

theorem conserved_keeps (udp : Bool) : Keeps udp Conserved where
  call := conserved_call
  worker := conserved_worker
  packets := conserved_packets
  statsCallback := conserved_statsCallback
  resetStats := conserved_resetStats
  engine := fun conserved now => conserved_engine conserved udp now

theorem conserved_run {sender : Bool} {startTime : Nat} {actions : List Action}
    (run : execute (step udp) (Machine.start sender startTime) actions = some machine) :
    Conserved machine :=
  (conserved_keeps udp).run run (conserved_start sender startTime)

theorem sender_keeps (udp sender : Bool) :
    Keeps udp fun machine => machine.stream.sender = sender where
  call := fun same _ _ _ => same
  worker := by
    intro machine same
    cases point : machine.worker <;> exact same
  packets := by
    intro machine same update
    cases update <;> exact same
  statsCallback := fun same _ _ _ => same
  resetStats := fun same _ => same
  engine := by
    intro machine same now
    exact (engineStep_sender udp now machine.stream machine.engine).trans same

/-! ### The closing gather -/

/-- One whole call of `iperf_stats_callback` with no step of the worker in between. -/
def closingGather (omitting : Bool) (temp : IntervalResults) (times : List Nat) : List Action :=
  .statsCallback omitting temp :: times.map .engine

/-- The interval counter has been emptied, or the gather is still to empty it. -/
def Drained (sp : Stream) : EnginePoint → Prop
  | .exchangeSent _ => True
  | .exchangeReceived _ _ => sp.sender = true → sp.interval = 0
  | .readTimes _ | .samplePacketCount _ | .sampleJitter _ | .sampleOutoforderPackets _
  | .sampleCntError _ | .addToIntervalList _ | .idle => sp.interval = 0
  | _ => False

theorem drained_engineStep (drained : Drained sp point) :
    Drained (engineStep udp now sp point).1 (engineStep udp now sp point).2 := by
  cases point <;> cases udp <;> cases sender : sp.sender <;>
    simp_all [Drained, engineStep, Stream.interval, Stats.addToIntervalList]

theorem drained_engine {times : List Nat}
    (run : execute (step udp) machine (times.map .engine) = some final)
    (drained : Drained machine.stream machine.engine) :
    Drained final.stream final.engine ∧ final.worker = machine.worker := by
  induction times generalizing machine with
  | nil =>
      simp only [List.map_nil, execute_nil, Option.some_inj] at run
      exact run ▸ ⟨drained, rfl⟩
  | cons now rest inductionHypothesis =>
      obtain ⟨next, stepped, tail⟩ := execute_cons.mp run
      simp only [step, Option.ite_none_left_eq_some, Option.some_inj] at stepped
      obtain ⟨-, rfl⟩ := stepped
      have settled := inductionHypothesis tail (drained_engineStep drained)
      exact settled

/-- After the worker stopped and a last gather returned, nothing is left uncounted. -/
theorem closingGather_settles {omitting : Bool} {temp : IntervalResults} {times : List Nat}
    (stopped : machine.worker = .idle)
    (closing : execute (step udp) machine (closingGather omitting temp times) = some final)
    (returned : final.engine = .idle) : final.stream.interval = 0 ∧ final.worker = .idle := by
  obtain ⟨next, stepped, tail⟩ := execute_cons.mp closing
  simp only [step, Option.ite_none_right_eq_some, Option.some_inj] at stepped
  obtain ⟨-, rfl⟩ := stepped
  obtain ⟨drained, worker⟩ := drained_engine tail trivial
  rw [returned] at drained
  exact ⟨drained, worker.trans stopped⟩

/-- The intervals gathered since the reset add up to the run total exactly when, between
taking the total and clearing the interval counter, the worker published the bytes that
were in flight when the total was taken, and no others. -/
theorem intervalBytes_eq_total_iff {udp sender : Bool} {startTime : Nat}
    {actions : List Action} {machine final : Machine} {omitting : Bool}
    {temp : IntervalResults} {times : List Nat}
    (run : execute (step udp) (Machine.start sender startTime) actions = some machine)
    (stopped : machine.worker = .idle)
    (closing : execute (step udp) machine (closingGather omitting temp times) = some final)
    (returned : final.engine = .idle) :
    bytesGathered final.ledger.gathered =
        (if sender then final.stream.result.bytesSent - final.stream.result.bytesSentOmit
          else final.stream.result.bytesReceived) ↔
      final.ledger.published = final.ledger.inFlight := by
  have whole := execute_append.mpr ⟨machine, run, closing⟩
  have direction := (sender_keeps udp sender).run whole rfl
  obtain ⟨drained, idle⟩ := closingGather_settles stopped closing returned
  have balance := (conserved_run whole).balance
  have counted : final.counted = bytesGathered final.ledger.gathered := by
    simp [Machine.counted, returned, EnginePoint.phase, EnginePoint.held, drained]
  rw [counted, idle, show WorkerPoint.idle.inFlight = 0 from rfl, add_zero, Stream.total,
    direction] at balance
  constructor
  · intro same
    rw [← same] at balance
    exact (add_left_cancel balance).symm
  · intro same
    rw [same] at balance
    exact (add_right_cancel balance).symm

/-- A gather whose local entry happens to start out zero. -/
def plainGather (omitting : Bool) (times : List Nat) : List Action :=
  closingGather omitting
    { bytesTransferred := 0
      intervalStartTime := 0
      intervalEndTime := 0
      intervalPacketCount := 0
      intervalOutoforderPackets := 0
      intervalCntError := 0
      packetCount := 0
      jitter := 0
      outoforderPackets := 0
      cntError := 0
      omitted := false } times

/-- A whole call of `iperf_reset_stats` with no step of the worker in between. -/
def plainReset (now : Nat) : List Action := .resetStats :: List.replicate 9 (.engine now)

/-- A send before a reset and a send after it. -/
def sendsAroundReset : List Action :=
  [.call 7 true, .worker, .worker] ++ plainReset 3 ++ [.call 5 true, .worker, .worker]

/-- A send that is between its two additions while a reset runs, and a last gather. -/
def sendAcrossReset : List Action :=
  [.call 7 true, .worker] ++ plainReset 3 ++ [.worker] ++ plainGather false [4, 4, 4, 4]

/-- A worker that is idle throughout the reset meets the condition. -/
theorem intervalBytes_eq_total_of_idleWorker : ∃ machine final,
    execute (step false) (Machine.start true 0) sendsAroundReset = some machine ∧
      execute (step false) machine (plainGather false [4, 4, 4, 4]) = some final ∧
      bytesGathered final.ledger.gathered =
        (if true then final.stream.result.bytesSent - final.stream.result.bytesSentOmit
          else final.stream.result.bytesReceived) := by
  have runs : ((execute (step false) (Machine.start true 0) sendsAroundReset).map fun machine =>
      (machine.worker, (execute (step false) machine (plainGather false [4, 4, 4, 4])).map
        fun final => (final.engine, final.ledger.published, final.ledger.inFlight))) =
      some (.idle, some (.idle, 0, 0)) := by
    decide +kernel
  simp only [Option.map_eq_some_iff, Prod.mk.injEq] at runs
  obtain ⟨machine, run, stopped, final, closing, returned, published, inFlight⟩ := runs
  refine ⟨machine, final, run, closing, ?_⟩
  apply (intervalBytes_eq_total_iff run stopped closing returned).mpr
  rw [published, inFlight]

/-- A send that is between its two additions when the reset runs is counted by the first
interval after the reset and not by the total. -/
theorem omitReset_miscounts :
    (execute (step false) (Machine.start true 0) sendAcrossReset).map
      (fun final => (final.worker, final.engine, bytesGathered final.ledger.gathered,
        final.stream.result.bytesSent - final.stream.result.bytesSentOmit)) =
    some (.idle, .idle, 7, 0) := by
  decide +kernel

end Conservation

/-! ### Packet counters -/

/-- The three counters that an entry holds both in total and for its interval alone. -/
inductive PacketCounter where
  | packets
  | lost
  | outOfOrder
deriving DecidableEq, Repr

namespace PacketCounter

/-- `packet_count`, `cnt_error` and `outoforder_packets` of an entry. -/
def cumulative : PacketCounter → IntervalResults → BitVec 64
  | .packets => IntervalResults.packetCount
  | .lost => IntervalResults.cntError
  | .outOfOrder => IntervalResults.outoforderPackets

/-- `interval_packet_count`, `interval_cnt_error` and `interval_outoforder_packets`. -/
def interval : PacketCounter → IntervalResults → BitVec 64
  | .packets => IntervalResults.intervalPacketCount
  | .lost => IntervalResults.intervalCntError
  | .outOfOrder => IntervalResults.intervalOutoforderPackets

/-- What the run summary subtracts from the counter. -/
def omitted : PacketCounter → Stream → BitVec 64
  | .packets => Stream.omittedPacketCount
  | .lost => Stream.omittedCntError
  | .outOfOrder => Stream.omittedOutoforderPackets

/-- The counter of the previous entry, or zero when there is none. -/
def previous (counter : PacketCounter) (irp : Option IntervalResults) : BitVec 64 :=
  irp.elim 0 counter.cumulative

theorem interval_subtractLast (counter : PacketCounter) (irp : Option IntervalResults)
    (temp : IntervalResults) :
    counter.interval (subtractLast irp temp) =
      counter.cumulative (subtractLast irp temp) - counter.previous irp := by
  cases counter <;> rfl

end PacketCounter

/-- The interval values of what was gathered since the reset telescope to the entry in the
list when the reset began. -/
structure Telescoped (counter : PacketCounter) (machine : Machine) : Prop where
  sum : (machine.ledger.gathered.map counter.interval).sum =
    counter.previous machine.stream.lastInterval - counter.previous machine.ledger.base
  last : ∀ entry, machine.ledger.gathered.getLast? = some entry →
    machine.stream.lastInterval = some entry
  adding : ∀ temp, machine.engine = .addToIntervalList temp →
    counter.interval temp =
      counter.cumulative temp - counter.previous machine.stream.lastInterval

theorem telescoped_start (counter : PacketCounter) (sender : Bool) (startTime : Nat) :
    Telescoped counter (Machine.start sender startTime) := by
  constructor
  · exact (sub_self _).symm
  · intro entry none
    cases none
  · intro temp elsewhere
    cases elsewhere

theorem engineStep_lastInterval (other : ∀ temp, point ≠ .addToIntervalList temp) :
    (engineStep udp now sp point).1.lastInterval = sp.lastInterval := by
  cases point with
  | addToIntervalList temp => exact absurd rfl (other temp)
  | _ => rfl

theorem engineStep_adding {temp : IntervalResults}
    (adding : (engineStep true now sp point).2 = .addToIntervalList temp)
    (counter : PacketCounter) :
    counter.interval temp = counter.cumulative temp - counter.previous sp.lastInterval := by
  cases point <;> simp only [engineStep, reduceCtorEq, if_true] at adding
  cases adding
  exact counter.interval_subtractLast _ _

theorem recordEngine_gathered (other : ∀ temp, machine.engine ≠ .addToIntervalList temp) :
    machine.recordEngine.gathered = machine.ledger.gathered := by
  unfold Machine.recordEngine
  cases point : machine.engine with
  | addToIntervalList temp => exact absurd point (other temp)
  | omitBytesSent | clearBytesReceived => simp only; split_ifs <;> rfl
  | _ => rfl

@[simp] theorem recordEngine_base (machine : Machine) :
    machine.recordEngine.base = machine.ledger.base := by
  unfold Machine.recordEngine
  cases machine.engine with
  | omitBytesSent | clearBytesReceived => simp only; split_ifs <;> rfl
  | _ => rfl

theorem telescoped_engine {counter : PacketCounter} (telescoped : Telescoped counter machine)
    (now : Nat) :
    Telescoped counter { machine with
      stream := (engineStep true now machine.stream machine.engine).1
      engine := (engineStep true now machine.stream machine.engine).2
      ledger := machine.recordEngine } := by
  by_cases adds : ∃ temp, machine.engine = .addToIntervalList temp
  · obtain ⟨temp, point⟩ := adds
    have added := telescoped.adding temp point
    have sum := telescoped.sum
    obtain ⟨stream, engine, worker, ledger⟩ := machine
    cases point
    constructor
    · simp only [Machine.recordEngine, engineStep, Stream.lastInterval, addToIntervalList_last,
        PacketCounter.previous, Option.elim_some, List.map_append, List.sum_append, List.map_cons,
        List.map_nil, List.sum_singleton] at sum added ⊢
      rw [sum, added]
      abel
    · intro entry last
      simp only [Machine.recordEngine, List.getLast?_append, List.getLast?_singleton,
        Option.some_or] at last
      simpa [engineStep, Stream.lastInterval] using last
    · intro next elsewhere
      cases elsewhere
  · have other : ∀ temp, machine.engine ≠ .addToIntervalList temp := by
      intro temp point
      exact adds ⟨temp, point⟩
    constructor
    · simp only [recordEngine_gathered other, recordEngine_base, engineStep_lastInterval other]
      exact telescoped.sum
    · simp only [recordEngine_gathered other, engineStep_lastInterval other]
      exact telescoped.last
    · intro temp adding
      simp only [engineStep_lastInterval other]
      exact engineStep_adding adding counter

theorem telescoped_keeps (counter : PacketCounter) : Keeps true (Telescoped counter) where
  call := fun telescoped _ _ _ => ⟨telescoped.sum, telescoped.last, telescoped.adding⟩
  worker := by
    rintro ⟨stream, engine, worker, ledger⟩ ⟨sum, last, adding⟩
    have record : ∀ kept : Machine, kept.recordWorker.gathered = kept.ledger.gathered ∧
        kept.recordWorker.base = kept.ledger.base := by
      intro kept
      unfold Machine.recordWorker
      split <;> exact ⟨rfl, rfl⟩
    constructor
    · simp only [record]
      cases worker <;> exact sum
    · simp only [record]
      cases worker <;> exact last
    · cases worker <;> exact adding
  packets := by
    rintro machine ⟨sum, last, adding⟩ update
    cases update <;> exact ⟨sum, last, adding⟩
  statsCallback := by
    rintro machine ⟨sum, last, -⟩ - omitting temp
    exact ⟨sum, last, fun _ elsewhere => by cases elsewhere⟩
  resetStats := by
    rintro machine - -
    refine ⟨?_, ?_, ?_⟩
    · exact (sub_self _).symm
    · intro entry none
      cases none
    · intro temp elsewhere
      cases elsewhere
  engine := telescoped_engine

/-- The intervals gathered since the reset agree with the summary on every counter exactly
when the reset omitted what the last entry before it had already counted. -/
theorem intervalPackets_eq_summary_iff {sender : Bool} {startTime : Nat}
    {actions : List Action} {final : Machine} {last : IntervalResults}
    (run : execute (step true) (Machine.start sender startTime) actions = some final)
    (gathered : final.ledger.gathered.getLast? = some last) :
    (∀ counter : PacketCounter, (final.ledger.gathered.map counter.interval).sum =
        counter.cumulative last - counter.omitted final.stream) ↔
      ∀ counter : PacketCounter,
        counter.previous final.ledger.base = counter.omitted final.stream := by
  apply forall_congr'
  intro counter
  have telescoped := (telescoped_keeps counter).run run (telescoped_start counter sender startTime)
  have previous : counter.previous final.stream.lastInterval = counter.cumulative last := by
    rw [telescoped.last last gathered]
    rfl
  rw [telescoped.sum, previous]
  exact sub_right_inj

/-- Packets, a gather, a reset right after it, more packets and a last gather. -/
def gatherBeforeReset : List Action :=
  [.packets (.packetCount 5)] ++ plainGather true (List.replicate 8 1) ++ plainReset 1 ++
    [.packets (.packetCount 9)] ++ plainGather false (List.replicate 8 2)

/-- Packets, a reset before any gather, and a last gather. -/
def resetBeforeGather : List Action :=
  [.packets (.packetCount 5)] ++ plainReset 1 ++ plainGather false (List.replicate 8 2)

/-- A reset right after a gather meets the condition. -/
theorem intervalPackets_eq_summary_of_alignedReset : ∃ final last,
    execute (step true) (Machine.start false 0) gatherBeforeReset = some final ∧
      final.ledger.gathered.getLast? = some last ∧
      (final.ledger.gathered.map PacketCounter.packets.interval).sum =
        PacketCounter.packets.cumulative last - PacketCounter.packets.omitted final.stream := by
  have runs : ((execute (step true) (Machine.start false 0) gatherBeforeReset).map fun final =>
      (final.ledger.gathered.getLast?.isSome,
        [PacketCounter.packets, .lost, .outOfOrder].map fun counter =>
          counter.previous final.ledger.base - counter.omitted final.stream)) =
      some (true, [0, 0, 0]) := by
    decide +kernel
  simp only [Option.map_eq_some_iff, Prod.mk.injEq, Option.isSome_iff_exists, List.map_cons,
    List.map_nil, List.cons.injEq, sub_eq_zero] at runs
  obtain ⟨final, run, ⟨last, gathered⟩, packets, lost, outOfOrder, -⟩ := runs
  refine ⟨final, last, run, gathered, ?_⟩
  refine (intervalPackets_eq_summary_iff run gathered).mpr ?_ _
  intro counter
  cases counter with
  | packets => exact packets
  | lost => exact lost
  | outOfOrder => exact outOfOrder

/-- Packets that arrive after the last gather before the reset are omitted by the summary
and counted by the first interval after the reset. -/
theorem omitReset_miscounts_packets :
    (execute (step true) (Machine.start false 0) resetBeforeGather).map
      (fun final => (final.ledger.gathered.map IntervalResults.intervalPacketCount,
        final.stream.packetCount - final.stream.omittedPacketCount)) =
    some ([5], 0) := by
  decide +kernel

end IperfSwift.Stats
