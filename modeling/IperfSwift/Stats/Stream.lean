import Mathlib.Data.BitVec
import Mathlib.Data.UInt
import Mathlib.Tactic

/-!
Contract: the counters of one stream, and the atomic steps in which the stream's
worker and the engine thread move them.

Owns: the interval entry and its one-entry list; the steps of `iperf_tcp_send` and
`iperf_tcp_recv` on the counters; the steps of `iperf_stats_callback` and
`iperf_reset_stats` on one stream, each atomic load, store or exchange on its own.

Does not own: the values the kernel reports for a TCP connection, or the check of the
server's total rate. No counter depends on either.

Byte counters are `iperf_size_t`, packet counters `int64_t`, and both wrap. Jitter is
the bit pattern of a `double`, which is loaded and stored and never computed with here.
Times are microseconds.
-/

set_option autoImplicit false

namespace IperfSwift.Stats

/-- `struct iperf_interval_results`. -/
structure IntervalResults where
  bytesTransferred : UInt64
  intervalStartTime : Nat
  intervalEndTime : Nat
  intervalPacketCount : BitVec 64
  intervalOutoforderPackets : BitVec 64
  intervalCntError : BitVec 64
  packetCount : BitVec 64
  jitter : UInt64
  outoforderPackets : BitVec 64
  cntError : BitVec 64
  omitted : Bool
deriving DecidableEq, Repr

/-- `struct iperf_stream_result`. -/
structure StreamResult where
  bytesReceived : UInt64
  bytesSent : UInt64
  bytesReceivedThisInterval : UInt64
  bytesSentThisInterval : UInt64
  bytesSentOmit : UInt64
  startTime : Nat
  endTime : Nat
  intervalResults : List IntervalResults
deriving DecidableEq, Repr

/-- The part of `struct iperf_stream` that statistics read and write. -/
structure Stream where
  sender : Bool
  packetCount : BitVec 64
  omittedPacketCount : BitVec 64
  jitter : UInt64
  outoforderPackets : BitVec 64
  omittedOutoforderPackets : BitVec 64
  cntError : BitVec 64
  omittedCntError : BitVec 64
  result : StreamResult
deriving DecidableEq, Repr

/-- A stream as `iperf_new_stream` leaves it, started at `startTime`. -/
def Stream.new (sender : Bool) (startTime : Nat) : Stream where
  sender := sender
  packetCount := 0
  omittedPacketCount := 0
  jitter := 0
  outoforderPackets := 0
  omittedOutoforderPackets := 0
  cntError := 0
  omittedCntError := 0
  result :=
    { bytesReceived := 0
      bytesSent := 0
      bytesReceivedThisInterval := 0
      bytesSentThisInterval := 0
      bytesSentOmit := 0
      startTime := startTime
      endTime := startTime
      intervalResults := [] }

/-- Only the last interval is kept: the old last entry is removed first. -/
def addToIntervalList (rp : StreamResult) (new : IntervalResults) : StreamResult :=
  { rp with intervalResults := rp.intervalResults.dropLast ++ [new] }

/-- `TAILQ_LAST` of the stream's intervals. -/
def Stream.lastInterval (sp : Stream) : Option IntervalResults :=
  sp.result.intervalResults.getLast?

@[simp] theorem addToIntervalList_last (rp : StreamResult) (new : IntervalResults) :
    (addToIntervalList rp new).intervalResults.getLast? = some new := by
  simp [addToIntervalList]

/-! ### The worker -/

/-- The next atomic step of the stream's worker. -/
inductive WorkerPoint where
  | idle
  | addBytesSent (r : UInt64)
  | addBytesSentThisInterval (r : UInt64)
  | addBytesReceived (r : UInt64)
  | addBytesReceivedThisInterval (r : UInt64)
deriving DecidableEq, Repr

/-- What is left of `iperf_tcp_send` once the write has returned `r`. -/
def iperfTcpSend (r : Int) : WorkerPoint :=
  if r < 0 then .idle else .addBytesSent (UInt64.ofNat r.toNat)

/-- What is left of `iperf_tcp_recv` once the read has returned `r` and the test's
state was compared with `TEST_RUNNING`. -/
def iperfTcpRecv (r : Int) (running : Bool) : WorkerPoint :=
  if r < 0 then .idle
  else if running then .addBytesReceived (UInt64.ofNat r.toNat) else .idle

/-- The call a worker makes next, by the stream's direction. -/
def Stream.call (sp : Stream) (r : Int) (running : Bool) : WorkerPoint :=
  if sp.sender then iperfTcpSend r else iperfTcpRecv r running

def workerStep (sp : Stream) : WorkerPoint → Stream × WorkerPoint
  | .idle => (sp, .idle)
  | .addBytesSent r =>
      ({ sp with result.bytesSent := sp.result.bytesSent + r }, .addBytesSentThisInterval r)
  | .addBytesSentThisInterval r =>
      ({ sp with result.bytesSentThisInterval := sp.result.bytesSentThisInterval + r }, .idle)
  | .addBytesReceived r =>
      ({ sp with result.bytesReceived := sp.result.bytesReceived + r },
        .addBytesReceivedThisInterval r)
  | .addBytesReceivedThisInterval r =>
      ({ sp with result.bytesReceivedThisInterval := sp.result.bytesReceivedThisInterval + r },
        .idle)

/-- One store of a UDP worker to the counters it owns. -/
inductive PacketUpdate where
  | packetCount (value : BitVec 64)
  | outoforderPackets (value : BitVec 64)
  | cntError (value : BitVec 64)
  | jitter (value : UInt64)
deriving DecidableEq, Repr

def PacketUpdate.apply (sp : Stream) : PacketUpdate → Stream
  | .packetCount value => { sp with packetCount := value }
  | .outoforderPackets value => { sp with outoforderPackets := value }
  | .cntError value => { sp with cntError := value }
  | .jitter value => { sp with jitter := value }

/-! ### The engine thread -/

/-- The next atomic step of the engine thread. The steps of `iperf_stats_callback`
carry `temp`, its local interval entry, as far as it has been filled in. -/
inductive EnginePoint where
  | idle
  | exchangeSent (temp : IntervalResults)
  | exchangeReceived (temp : IntervalResults) (sent : UInt64)
  | readTimes (temp : IntervalResults)
  | samplePacketCount (temp : IntervalResults)
  | sampleJitter (temp : IntervalResults)
  | sampleOutoforderPackets (temp : IntervalResults)
  | sampleCntError (temp : IntervalResults)
  | addToIntervalList (temp : IntervalResults)
  | omitPacketCount
  | omitCntError
  | omitOutoforderPackets
  | clearJitter
  | omitBytesSent
  | clearBytesReceived
  | clearBytesSentThisInterval
  | clearBytesReceivedThisInterval
  | restartTimes
deriving DecidableEq, Repr

/-- Enter `iperf_stats_callback`. `temp` is uninitialised apart from its flag. -/
def iperfStatsCallback (omitting : Bool) (temp : IntervalResults) : EnginePoint :=
  .exchangeSent { temp with omitted := omitting }

/-- Enter `iperf_reset_stats`. -/
def iperfResetStats : EnginePoint := .omitPacketCount

/-- Differences to the previous entry, taken once every counter has been sampled. -/
def subtractLast (irp : Option IntervalResults) (temp : IntervalResults) : IntervalResults :=
  { temp with
    intervalPacketCount := temp.packetCount - (irp.elim 0 IntervalResults.packetCount)
    intervalOutoforderPackets :=
      temp.outoforderPackets - (irp.elim 0 IntervalResults.outoforderPackets)
    intervalCntError := temp.cntError - (irp.elim 0 IntervalResults.cntError) }

@[simp] theorem subtractLast_bytesTransferred (irp : Option IntervalResults)
    (temp : IntervalResults) : (subtractLast irp temp).bytesTransferred = temp.bytesTransferred :=
  rfl

/-- Where an interval that ends now began. -/
def Stream.intervalStart (sp : Stream) : Nat :=
  match sp.lastInterval with
  | some _ => sp.result.endTime
  | none => sp.result.startTime

def engineStep (udp : Bool) (now : Nat) (sp : Stream) : EnginePoint → Stream × EnginePoint
  | .idle => (sp, .idle)
  | .exchangeSent temp =>
      ({ sp with result.bytesSentThisInterval := 0 },
        .exchangeReceived temp sp.result.bytesSentThisInterval)
  | .exchangeReceived temp sent =>
      ({ sp with result.bytesReceivedThisInterval := 0 },
        .readTimes { temp with
          bytesTransferred := if sp.sender then sent else sp.result.bytesReceivedThisInterval })
  | .readTimes temp =>
      let temp := { temp with intervalStartTime := sp.intervalStart, intervalEndTime := now }
      ({ sp with result.endTime := now },
        if udp then .samplePacketCount temp else .addToIntervalList temp)
  | .samplePacketCount temp =>
      (sp, .sampleJitter { temp with packetCount := sp.packetCount })
  | .sampleJitter temp =>
      (sp, .sampleOutoforderPackets { temp with jitter := sp.jitter })
  | .sampleOutoforderPackets temp =>
      (sp, .sampleCntError { temp with outoforderPackets := sp.outoforderPackets })
  | .sampleCntError temp =>
      (sp, .addToIntervalList (subtractLast sp.lastInterval { temp with cntError := sp.cntError }))
  | .addToIntervalList temp =>
      ({ sp with result := Stats.addToIntervalList sp.result temp }, .idle)
  -- The omitted values are the engine's own, so loading a counter and keeping it is one step.
  | .omitPacketCount => ({ sp with omittedPacketCount := sp.packetCount }, .omitCntError)
  | .omitCntError => ({ sp with omittedCntError := sp.cntError }, .omitOutoforderPackets)
  | .omitOutoforderPackets =>
      ({ sp with omittedOutoforderPackets := sp.outoforderPackets }, .clearJitter)
  | .clearJitter => ({ sp with jitter := 0 }, .omitBytesSent)
  | .omitBytesSent =>
      ({ sp with result.bytesSentOmit := sp.result.bytesSent }, .clearBytesReceived)
  | .clearBytesReceived =>
      ({ sp with result.bytesReceived := 0 }, .clearBytesSentThisInterval)
  | .clearBytesSentThisInterval =>
      ({ sp with result.bytesSentThisInterval := 0 }, .clearBytesReceivedThisInterval)
  | .clearBytesReceivedThisInterval =>
      ({ sp with result.bytesReceivedThisInterval := 0 }, .restartTimes)
  | .restartTimes =>
      ({ sp with result.startTime := now, result.endTime := now }, .idle)

end IperfSwift.Stats
