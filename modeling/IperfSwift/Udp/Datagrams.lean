import IperfSwift.Params.Server
import Mathlib.Data.BitVec

/-!
Contract: the receive and send paths of a UDP stream, and which bytes of the stream's
buffer they touch.

Owns: the size of the buffer `iperf_new_stream` maps; `iperf_udp_recv` and
`iperf_udp_send` with their walks over the datagrams in the buffer; the wrappers they
read and write through; that every access stays inside the buffer and both walks end.

Does not own: jitter, which is computed from the two timestamps and decides nothing; the
byte counters, which are those of every other stream.
-/

set_option autoImplicit false

namespace IperfSwift.Udp

open IperfSwift.Lib IperfSwift.CJson

variable {size : Int} {test : Test} {settings : Settings}

/-- The switches of `iperf_config.h` that the UDP path is compiled under. -/
structure Build where
  haveMsgTrunc : Bool
  haveUdpGro : Bool
  haveUdpSegment : Bool
deriving DecidableEq, Repr

/-- `include/iperf_config.h`. -/
def iperfConfig : Build where
  haveMsgTrunc := true
  haveUdpGro := false
  haveUdpSegment := false

def netHarderror : Int := -2

/-- An `int` passed as a `size_t`. -/
def toSizeT (size : Int) : Nat := (size % 2 ^ 64).toNat

/-! ### The buffer -/

/-- A run of bytes of the buffer that is read or written. -/
structure Access where
  offset : Int
  length : Int
deriving DecidableEq, Repr

def Access.Inside (size : Int) (access : Access) : Prop :=
  0 ≤ access.offset ∧ access.offset + access.length ≤ size

structure Stream where
  /-- Length of the mapping at `sp->buffer`. -/
  bufferSize : Int
  packetCount : BitVec 64
  cntError : BitVec 64
  outoforderPackets : BitVec 64
deriving DecidableEq, Repr

/-- The variable `size` of `iperf_new_stream`. -/
def bufferSize (test : Test) : Int :=
  let size := test.settings.blksize
  let size :=
    if test.protocol = .Pudp ∧ test.settings.gso ≠ 0 ∧ size < test.settings.gsoBfSize then
      test.settings.gsoBfSize
    else size
  if test.protocol = .Pudp ∧ test.settings.gro ≠ 0 ∧ size < test.settings.groBfSize then
    test.settings.groBfSize
  else size

/-- `iperf_new_stream`, where `granted` says that every system call on the way succeeded.
`mmap` refuses an empty mapping and `ftruncate` a negative length. -/
def iperfNewStream (test : Test) (granted : Bool) : Option Stream :=
  if granted ∧ 0 < bufferSize test then
    some { bufferSize := bufferSize test, packetCount := 0, cntError := 0, outoforderPackets := 0 }
  else none

/-- The outcome of one `setsockopt` decides whether an accepted stream keeps offloading. -/
def iperfUdpGso (build : Build) (granted : Bool) (settings : Settings) : Settings :=
  if build.haveUdpSegment ∧ granted then settings else { settings with gso := 0 }

def iperfUdpGro (build : Build) (granted : Bool) (settings : Settings) : Settings :=
  if build.haveUdpGro ∧ granted then settings else { settings with gro := 0 }

/-- What `iperf_udp_accept` does to the shared settings. -/
def iperfUdpAccept (build : Build) (gsoGranted groGranted : Bool) (settings : Settings) :
    Settings :=
  let settings := if settings.gso ≠ 0 then iperfUdpGso build gsoGranted settings else settings
  if settings.gro ≠ 0 then iperfUdpGro build groGranted settings else settings

/-! ### Receiving -/

/-- The outcome of one `recv` or `read` on the socket. -/
inductive Arrival where
  | datagram (length : Nat)
  | again
  | failed
deriving DecidableEq, Repr

/-- A return value together with what was stored through the buffer pointer. -/
structure Filled where
  r : Int
  accesses : List Access
deriving DecidableEq, Repr

/-- What `recv` returns for a datagram, with or without `MSG_TRUNC`. -/
def recvReturn (trunc : Bool) (length nleft : Nat) : Nat :=
  if trunc then length else min length nleft

/-- `bytes_copied` of `Nrecv_no_select`. -/
def bytesCopied (r nleft : Nat) : Nat := if r > nleft then nleft else r

theorem bytesCopied_le (r nleft : Nat) : bytesCopied r nleft ≤ nleft := by
  unfold bytesCopied
  split_ifs <;> omega

/-- `Nrecv_no_select`. With `MSG_TRUNC` a call returns the length of the whole datagram and
stores at most what was asked for. No further arrival is `EAGAIN`. -/
def nrecvNoSelect (trunc : Bool) (count : Nat) : List Arrival → Nat → Filled
  | [], nleft => { r := count - nleft, accesses := [] }
  | arrival :: rest, nleft =>
      if nleft = 0 then { r := count - nleft, accesses := [] }
      else
        match arrival with
        | .failed => { r := netHarderror, accesses := [] }
        | .again => { r := count - nleft, accesses := [] }
        | .datagram length =>
            if recvReturn trunc length nleft = 0 then { r := count - nleft, accesses := [] }
            else
              let copied := bytesCopied (recvReturn trunc length nleft) nleft
              let later := nrecvNoSelect trunc count rest (nleft - copied)
              { later with accesses := ⟨count - nleft, copied⟩ :: later.accesses }

/-- `Nread_gro`. -/
def nreadGro (build : Build) (count : Nat) (arrival : Arrival) : Filled :=
  if build.haveUdpGro then
    if count = 0 then { r := netHarderror, accesses := [] }
    else
      let count := if maxUdpBlocksize.toNat < count then maxUdpBlocksize.toNat else count
      match arrival with
      | .failed => { r := netHarderror, accesses := [] }
      | .again => { r := 0, accesses := [] }
      | .datagram length =>
          { r := min length count, accesses := [⟨0, min length count⟩] }
  else { r := netHarderror, accesses := [] }

/-- The bytes at an offset as a number in network order. -/
def bigEndian (memory : Int → Byte) (offset : Int) (length : Nat) : Nat :=
  (List.range length).foldl (fun value index => 256 * value + (memory (offset + index)).toNat) 0

/-- What a sequence number does to the packet counters. -/
def countPacket (pcount : BitVec 64) (sp : Stream) : Stream :=
  if sp.packetCount + 1 ≤ pcount then
    { sp with
      cntError :=
        if sp.packetCount + 1 < pcount then sp.cntError + (pcount - 1 - sp.packetCount)
        else sp.cntError
      packetCount := pcount }
  else
    { sp with
      outoforderPackets := sp.outoforderPackets + 1
      cntError := if 0 < sp.cntError.toInt then sp.cntError - 1 else sp.cntError }

/-- A walk over the buffer: what it has touched and the stream it updates. -/
structure Walk where
  accesses : List Access
  stream : Stream
deriving DecidableEq, Repr

/-- `sizeof(uint32_t) * 3`. -/
def minPktSize : Int := 12

/-- Seconds, microseconds and the sequence number, read from the start of a datagram. -/
def readHeader (counters64 : Bool) (memory : Int → Byte) (offset : Int) (walk : Walk) : Walk :=
  let width : Nat := if counters64 then 8 else 4
  { accesses := walk.accesses ++ [⟨offset, 4⟩, ⟨offset + 4, 4⟩, ⟨offset + 8, width⟩]
    stream := countPacket (.ofNat 64 (bigEndian memory (offset + 8) width)) walk.stream }

/-- The loop of `iperf_udp_recv`. `offset` is `dgram_buf` and `limit` is `dgram_buf_end`,
both relative to the buffer. No value means that the iterations did not suffice. -/
def recvLoop (counters64 : Bool) (memory : Int → Byte) (dgramSz limit : Int) :
    Nat → Int → Int → Walk → Option Walk
  | 0, _, _, _ => none
  | iterations + 1, offset, bufSz, walk =>
      if ¬ (dgramSz ≤ bufSz ∧ offset + dgramSz ≤ limit) then some walk
      else if bufSz < minPktSize then some walk
      else if counters64 ∧ bufSz < 16 then some walk
      else
        recvLoop counters64 memory dgramSz limit iterations (offset + dgramSz) (bufSz - dgramSz)
          (readHeader counters64 memory offset walk)

structure Received where
  r : Int
  accesses : List Access
  stream : Stream
deriving DecidableEq, Repr

/-- `sock_opt` is `MSG_TRUNC`. -/
def skipsCopy (build : Build) (settings : Settings) : Bool :=
  build.haveMsgTrunc ∧ settings.skipRxCopy ≠ 0

/-- The variable `size` of `iperf_udp_recv` for a read without coalescing. -/
def recvSize (build : Build) (settings : Settings) : Int :=
  if skipsCopy build settings then 16 else settings.blksize

/-- The read at the top of `iperf_udp_recv`. -/
def fill (build : Build) (settings : Settings) (arrivals : List Arrival) : Filled :=
  if settings.gro ≠ 0 then
    nreadGro build (toSizeT settings.groBfSize) (arrivals.head?.getD .again)
  else
    nrecvNoSelect (skipsCopy build settings) (toSizeT (recvSize build settings)) arrivals
      (toSizeT (recvSize build settings))

/-- `iperf_udp_recv`. `running` is the comparison with `TEST_RUNNING` and `memory` the
buffer as the read left it. -/
def iperfUdpRecv (build : Build) (test : Test) (running : Bool) (arrivals : List Arrival)
    (memory : Int → Byte) (sp : Stream) : Option Received :=
  let filled := fill build test.settings arrivals
  let dgramSz := test.settings.blksize
  if filled.r ≤ 0 then some { r := filled.r, accesses := filled.accesses, stream := sp }
  else if dgramSz ≤ 0 then some { r := -1, accesses := filled.accesses, stream := sp }
  else if running then
    (recvLoop (test.udpCounters64bit ≠ 0) memory dgramSz filled.r (filled.r.toNat + 1) 0 filled.r
      { accesses := filled.accesses, stream := sp }).map fun walk =>
        { r := filled.r, accesses := walk.accesses, stream := walk.stream }
  else some { r := filled.r, accesses := filled.accesses, stream := sp }

/-! ### Sending -/

/-- Seconds, microseconds and the sequence number, written to the start of a datagram. -/
def writeHeader (counters64 : Bool) (offset : Int) (walk : Walk) : Walk :=
  { accesses := walk.accesses ++
      [⟨offset, 4⟩, ⟨offset + 4, 4⟩, ⟨offset + 8, if counters64 then 8 else 4⟩]
    stream := { walk.stream with packetCount := walk.stream.packetCount + 1 } }

/-- The loop of `iperf_udp_send`. -/
def sendLoop (counters64 : Bool) (dgramSz limit : Int) :
    Nat → Int → Int → Walk → Option Walk
  | 0, _, _, _ => none
  | iterations + 1, offset, bufSz, walk =>
      if ¬ (0 < bufSz ∧ offset + dgramSz ≤ limit) then some walk
      else if bufSz < dgramSz then some walk
      else
        sendLoop counters64 dgramSz limit iterations (offset + dgramSz) (bufSz - dgramSz)
          (writeHeader counters64 offset walk)

/-- The stride and the length of the walk, and the segmentation flag after its check. -/
structure Segments where
  dgramSz : Int
  bufSz : Int
  gso : Int
deriving DecidableEq, Repr

def segments (settings : Settings) : Segments :=
  if settings.gso ≠ 0 then
    if settings.gsoDgSize ≤ 0 ∨ settings.gsoDgSize < minPktSize ∨
        settings.gsoDgSize > settings.gsoBfSize then
      { dgramSz := settings.blksize, bufSz := settings.blksize, gso := 0 }
    else { dgramSz := settings.gsoDgSize, bufSz := settings.gsoBfSize, gso := settings.gso }
  else { dgramSz := settings.blksize, bufSz := settings.blksize, gso := 0 }

structure Sent where
  r : Int
  accesses : List Access
  stream : Stream
  settings : Settings
deriving DecidableEq, Repr

/-- The segmentation flag when it is looked at again for the write. The settings are shared
with the other streams' workers, one of which may have switched it off. -/
def gsoAtWrite (settings : Settings) (cleared : Bool) : Int :=
  if cleared then 0 else (segments settings).gso

/-- How much of the buffer is handed to the system call. -/
def writeSize (settings : Settings) (cleared : Bool) : Int :=
  if gsoAtWrite settings cleared ≠ 0 then settings.gsoBfSize else settings.blksize

/-- `iperf_udp_send`. `written` is what the system call returned, if it was made: without
`UDP_SEGMENT` the segmenting write fails at once. -/
def iperfUdpSend (build : Build) (test : Test) (cleared : Bool) (written : Int) (sp : Stream) :
    Option Sent :=
  let chosen := segments test.settings
  let refused := gsoAtWrite test.settings cleared ≠ 0 ∧ ¬ build.haveUdpSegment
  let r := if refused then netHarderror else written
  (sendLoop (test.udpCounters64bit ≠ 0) chosen.dgramSz chosen.bufSz (chosen.bufSz.toNat + 1) 0
      chosen.bufSz { accesses := [], stream := sp }).map fun walk =>
    { r := r
      accesses := walk.accesses ++
        (if refused then [] else [⟨0, toSizeT (writeSize test.settings cleared)⟩])
      stream :=
        if r ≤ 0 then { walk.stream with packetCount := walk.stream.packetCount - 1 }
        else walk.stream
      settings := { test.settings with gso := gsoAtWrite test.settings cleared } }

/-! ### Everything stays inside the buffer -/

/-- Every access of a list lies in a buffer of the given size. -/
def AllInside (size : Int) (accesses : List Access) : Prop :=
  ∀ access ∈ accesses, access.Inside size

theorem AllInside.mono {small large : Int} {accesses : List Access}
    (inside : AllInside small accesses) (le : small ≤ large) : AllInside large accesses := by
  intro access member
  obtain ⟨lower, upper⟩ := inside access member
  exact ⟨lower, by omega⟩

theorem AllInside.append {first second : List Access} (left : AllInside size first)
    (right : AllInside size second) : AllInside size (first ++ second) := by
  intro access member
  rcases List.mem_append.mp member with early | late
  · exact left access early
  · exact right access late

theorem AllInside.nil (size : Int) : AllInside size [] := by
  intro access member
  cases member

/-- `Nrecv_no_select` returns at most what it was asked for, also with `MSG_TRUNC`. -/
theorem nrecvNoSelect_inside (trunc : Bool) (count : Nat) (arrivals : List Arrival) {nleft : Nat}
    (bound : nleft ≤ count) :
    (nrecvNoSelect trunc count arrivals nleft).r ≤ count ∧
      AllInside count (nrecvNoSelect trunc count arrivals nleft).accesses := by
  induction arrivals generalizing nleft with
  | nil => exact ⟨by simp [nrecvNoSelect], .nil _⟩
  | cons arrival rest inductionHypothesis =>
      have stopped : (count : Int) - nleft ≤ count := by omega
      unfold nrecvNoSelect
      split_ifs with full
      · exact ⟨stopped, .nil _⟩
      cases arrival with
      | failed => exact ⟨by simp only [netHarderror]; omega, .nil _⟩
      | again => exact ⟨stopped, .nil _⟩
      | datagram length =>
          by_cases closed : recvReturn trunc length nleft = 0
          · simp only [if_pos closed]
            exact ⟨stopped, .nil _⟩
          simp only [if_neg closed]
          have copied := bytesCopied_le (recvReturn trunc length nleft) nleft
          generalize bytesCopied (recvReturn trunc length nleft) nleft = amount at copied ⊢
          obtain ⟨le, inside⟩ := inductionHypothesis (show nleft - amount ≤ count by omega)
          refine ⟨le, ?_⟩
          intro access member
          rcases List.mem_cons.mp member with rfl | later
          · constructor <;> dsimp only <;> omega
          · exact inside access later

theorem nreadGro_inside (build : Build) (count : Nat) (arrival : Arrival) :
    (nreadGro build count arrival).r ≤ count ∧
      AllInside count (nreadGro build count arrival).accesses := by
  have failure : netHarderror ≤ (count : Int) := by
    simp only [netHarderror]
    omega
  unfold nreadGro
  by_cases built : build.haveUdpGro = true
  · rw [if_pos built]
    by_cases empty : count = 0
    · rw [if_pos empty]
      exact ⟨failure, .nil _⟩
    rw [if_neg empty]
    have capped :
        (if maxUdpBlocksize.toNat < count then maxUdpBlocksize.toNat else count) ≤ count := by
      split_ifs <;> omega
    cases arrival with
    | failed => exact ⟨failure, .nil _⟩
    | again => exact ⟨by simp, .nil _⟩
    | datagram length =>
        dsimp only
        refine ⟨by omega, ?_⟩
        intro access member
        rw [List.mem_singleton] at member
        subst member
        constructor <;> dsimp only <;> omega
  · rw [if_neg built]
    exact ⟨failure, .nil _⟩

theorem toSizeT_le (nonneg : 0 ≤ size) : (toSizeT size : Int) ≤ size := by
  unfold toSizeT
  omega

/-- The receive loop touches only bytes below `limit`, and ends. -/
theorem recvLoop_inside {counters64 : Bool} {memory : Int → Byte} {dgramSz limit : Int}
    (positive : 0 < dgramSz) {iterations : Nat} {offset bufSz : Int} {walk : Walk}
    (start : 0 ≤ offset) (rest : offset + bufSz = limit) (within : limit ≤ size)
    (enough : bufSz < iterations) (some : 0 < iterations) (inside : AllInside size walk.accesses) :
    ∃ after, recvLoop counters64 memory dgramSz limit iterations offset bufSz walk = .some after ∧
      AllInside size after.accesses := by
  induction iterations generalizing offset bufSz walk with
  | zero => exact absurd some (lt_irrefl 0)
  | succ iterations inductionHypothesis =>
      unfold recvLoop
      split_ifs with more short shortCounter
      · exact ⟨walk, rfl, inside⟩
      · exact ⟨walk, rfl, inside⟩
      · simp only [minPktSize] at short
        apply inductionHypothesis
        · omega
        · omega
        · push_cast at enough; omega
        · push_cast at enough; omega
        · apply inside.append
          intro access member
          simp only [List.mem_cons, List.not_mem_nil, or_false] at member
          rcases member with rfl | rfl | rfl
          · constructor <;> dsimp only <;> omega
          · constructor <;> dsimp only <;> omega
          · cases counters64 <;> constructor <;> simp at shortCounter ⊢ <;> omega
      · exact ⟨walk, rfl, inside⟩

/-- The send loop touches only bytes below `limit` when a header fits into a datagram. -/
theorem sendLoop_inside {counters64 : Bool} {dgramSz limit : Int}
    (header : minUdpBlocksize ≤ dgramSz) {iterations : Nat} {offset bufSz : Int} {walk : Walk}
    (start : 0 ≤ offset) (rest : offset + bufSz = limit) (within : limit ≤ size)
    (enough : bufSz < iterations) (some : 0 < iterations) (inside : AllInside size walk.accesses) :
    ∃ after, sendLoop counters64 dgramSz limit iterations offset bufSz walk = .some after ∧
      AllInside size after.accesses := by
  simp only [minUdpBlocksize] at header
  induction iterations generalizing offset bufSz walk with
  | zero => exact absurd some (lt_irrefl 0)
  | succ iterations inductionHypothesis =>
      unfold sendLoop
      split_ifs with more short
      · exact ⟨walk, rfl, inside⟩
      · apply inductionHypothesis
        · omega
        · omega
        · push_cast at enough; omega
        · push_cast at enough; omega
        · apply inside.append
          intro access member
          simp only [List.mem_cons, List.not_mem_nil, or_false] at member
          rcases member with rfl | rfl | rfl
          · constructor <;> dsimp only <;> omega
          · constructor <;> dsimp only <;> omega
          · cases counters64 <;> constructor <;> simp <;> omega
      · exact ⟨walk, rfl, inside⟩

/-! ### Accepted parameters -/

/-- Settings change after they were accepted only in that offloading is switched off. -/
structure Weakened (before after : Settings) : Prop where
  same : after = { before with gso := after.gso, gro := after.gro }
  gso : after.gso = before.gso ∨ after.gso = 0
  gro : after.gro = before.gro ∨ after.gro = 0

theorem weakened_iperfUdpAccept (build : Build) (gsoGranted groGranted : Bool)
    (settings : Settings) :
    Weakened settings (iperfUdpAccept build gsoGranted groGranted settings) := by
  unfold iperfUdpAccept iperfUdpGso iperfUdpGro
  dsimp only
  split_ifs <;> exact ⟨rfl, by simp, by simp⟩

variable {build : Build}

theorem weakened_iperfUdpSend {cleared : Bool} {written : Int} {sp : Stream} {sent : Sent}
    (ran : iperfUdpSend build test cleared written sp = some sent) :
    Weakened test.settings sent.settings := by
  unfold iperfUdpSend at ran
  obtain ⟨walk, -, rfl⟩ := Option.map_eq_some_iff.mp ran
  refine ⟨rfl, ?_, Or.inl rfl⟩
  dsimp only [gsoAtWrite, segments]
  split_ifs <;> simp

theorem Weakened.sized {before after : Settings} (weakened : Weakened before after)
    (sized : Sized before) : Sized after := by
  obtain ⟨same, gso, -⟩ := weakened
  obtain ⟨lower, upper, segment⟩ := sized
  rw [same]
  refine ⟨lower, upper, ?_⟩
  intro on
  apply segment
  rcases gso with kept | off
  · exact kept ▸ on
  · exact absurd off on

/-- What the size of the buffer covers. -/
theorem bufferSize_covers {test : Test} (udp : test.protocol = .Pudp) :
    test.settings.blksize ≤ bufferSize test ∧
      (test.settings.gso ≠ 0 → test.settings.gsoBfSize ≤ bufferSize test) ∧
      (test.settings.gro ≠ 0 → test.settings.groBfSize ≤ bufferSize test) := by
  unfold bufferSize
  simp only [udp, true_and]
  split_ifs <;> refine ⟨?_, ?_, ?_⟩ <;> omega

/-- The buffer covers every size the two paths may work with. -/
structure Covers (build : Build) (settings : Settings) (size : Int) : Prop where
  sized : Sized settings
  block : settings.blksize ≤ size
  segments : settings.gso ≠ 0 → settings.gsoBfSize ≤ size
  -- A size that was narrowed below zero is a huge `size_t` for the coalescing read.
  coalesced : settings.gro ≠ 0 → build.haveUdpGro = true →
    0 ≤ settings.groBfSize ∧ settings.groBfSize ≤ size

theorem fill_inside (covers : Covers build settings size) (arrivals : List Arrival) :
    (fill build settings arrivals).r ≤ size ∧
      AllInside size (fill build settings arrivals).accesses := by
  have lower := covers.sized.lower
  have block := covers.block
  simp only [minUdpBlocksize] at lower
  unfold fill
  split_ifs with coalesce
  · by_cases built : build.haveUdpGro = true
    · obtain ⟨nonneg, le⟩ := covers.coalesced coalesce built
      obtain ⟨returned, inside⟩ := nreadGro_inside build (toSizeT settings.groBfSize)
        (arrivals.head?.getD .again)
      have count := toSizeT_le nonneg
      exact ⟨by omega, inside.mono (by omega)⟩
    · simp only [nreadGro, if_neg built, netHarderror]
      exact ⟨by omega, .nil _⟩
  · have bounds : 0 ≤ recvSize build settings ∧ recvSize build settings ≤ settings.blksize := by
      unfold recvSize
      split_ifs <;> omega
    have count := toSizeT_le bounds.1
    obtain ⟨returned, inside⟩ := nrecvNoSelect_inside (skipsCopy build settings)
      (toSizeT (recvSize build settings)) arrivals (le_refl _)
    exact ⟨by omega, inside.mono (by omega)⟩

theorem iperfUdpRecv_inside (covers : Covers build test.settings size) (running : Bool)
    (arrivals : List Arrival) (memory : Int → Byte) (sp : Stream) :
    ∃ received, iperfUdpRecv build test running arrivals memory sp = some received ∧
      AllInside size received.accesses := by
  obtain ⟨returned, inside⟩ := fill_inside covers arrivals
  unfold iperfUdpRecv
  dsimp only
  split_ifs with nothing stride counted
  · exact ⟨_, rfl, inside⟩
  · exact ⟨_, rfl, inside⟩
  · have walked : ∃ after, recvLoop (decide (test.udpCounters64bit ≠ 0)) memory
        test.settings.blksize (fill build test.settings arrivals).r
        ((fill build test.settings arrivals).r.toNat + 1) 0 (fill build test.settings arrivals).r
        ⟨(fill build test.settings arrivals).accesses, sp⟩ = some after ∧
        AllInside size after.accesses := by
      apply recvLoop_inside
      · omega
      · exact le_refl 0
      · exact zero_add _
      · exact returned
      · omega
      · omega
      · exact inside
    obtain ⟨after, ran, touched⟩ := walked
    rw [ran]
    exact ⟨_, rfl, touched⟩
  · exact ⟨_, rfl, inside⟩

/-- The stride and the length of the send path's walk. -/
theorem segments_inside (covers : Covers build settings size) :
    minUdpBlocksize ≤ (segments settings).dgramSz ∧ 0 ≤ (segments settings).bufSz ∧
      (segments settings).bufSz ≤ size := by
  have lower := covers.sized.lower
  have block := covers.block
  simp only [minUdpBlocksize] at lower ⊢
  unfold segments
  split_ifs with offload invalid
  · exact ⟨lower, by dsimp only; omega, block⟩
  · have stride := covers.sized.segment offload
    have fits := covers.segments offload
    refine ⟨?_, ?_, fits⟩ <;> dsimp only <;> omega
  · exact ⟨lower, by dsimp only; omega, block⟩

theorem writeSize_inside (covers : Covers build settings size) (cleared : Bool) :
    0 ≤ writeSize settings cleared ∧ writeSize settings cleared ≤ size := by
  have lower := covers.sized.lower
  have block := covers.block
  simp only [minUdpBlocksize] at lower
  unfold writeSize
  split_ifs with segmenting
  · unfold gsoAtWrite segments at segmenting
    split_ifs at segmenting with off offload invalid
    · exact absurd rfl segmenting
    · exact absurd rfl segmenting
    · exact ⟨by omega, covers.segments offload⟩
    · exact absurd rfl segmenting
  · exact ⟨by omega, block⟩

theorem iperfUdpSend_inside (covers : Covers build test.settings size) (cleared : Bool)
    (written : Int) (sp : Stream) :
    ∃ sent, iperfUdpSend build test cleared written sp = some sent ∧
      AllInside size sent.accesses := by
  obtain ⟨header, nonneg, fits⟩ := segments_inside covers
  have walked : ∃ after, sendLoop (decide (test.udpCounters64bit ≠ 0))
      (segments test.settings).dgramSz (segments test.settings).bufSz
      ((segments test.settings).bufSz.toNat + 1) 0 (segments test.settings).bufSz ⟨[], sp⟩ =
        some after ∧ AllInside size after.accesses := by
    apply sendLoop_inside
    · exact header
    · exact le_refl 0
    · exact zero_add _
    · exact fits
    · omega
    · omega
    · exact .nil _
  obtain ⟨after, ran, touched⟩ := walked
  unfold iperfUdpSend
  dsimp only
  rw [ran]
  refine ⟨_, rfl, touched.append ?_⟩
  obtain ⟨size_nonneg, size_le⟩ := writeSize_inside covers cleared
  have count := toSizeT_le size_nonneg
  intro access member
  split_ifs at member with refused
  · cases member
  · rw [List.mem_singleton] at member
    subst member
    constructor <;> dsimp only <;> omega

/-- After accepted parameters, the buffer of every stream covers what the two paths use. The
coalescing read needs more than acceptance gives where it is compiled in. -/
theorem covers_of_accepted {j : Option (Node Int)} {hasSendfile : Bool}
    {created current : Settings} {granted : Bool} {sp : Stream}
    (accepted : (getParameters j hasSendfile test).r = 0)
    (udp : (getParameters j hasSendfile test).test.protocol = .Pudp)
    (before : Weakened (getParameters j hasSendfile test).test.settings created)
    (opened : iperfNewStream { (getParameters j hasSendfile test).test with settings := created }
      granted = some sp) (after : Weakened created current)
    (coalescing : build.haveUdpGro = true → 0 ≤ current.groBfSize) :
    Covers build current sp.bufferSize := by
  have sized := before.sized (getParameters_sized accepted udp)
  unfold iperfNewStream at opened
  split_ifs at opened
  cases opened
  obtain ⟨block, segments, coalesced⟩ := @bufferSize_covers
    { (getParameters j hasSendfile test).test with settings := created } udp
  dsimp only at block segments coalesced ⊢
  have current_sized := after.sized sized
  obtain ⟨same, gso, gro⟩ := after
  constructor
  · exact current_sized
  · rw [same]
    exact block
  · intro on
    rw [same]
    apply segments
    rcases gso with kept | off
    · exact kept ▸ on
    · exact absurd off on
  · intro on built
    refine ⟨coalescing built, ?_⟩
    rw [same]
    apply coalesced
    rcases gro with kept | off
    · exact kept ▸ on
    · exact absurd off on

/-- No accepted parameter document and no datagram makes the UDP path leave its buffer, and
both of its walks end. -/
theorem udp_stays_inside_buffer {j : Option (Node Int)} {hasSendfile : Bool} {test : Test}
    {created current : Settings} {granted : Bool} {sp : Stream}
    (accepted : (getParameters j hasSendfile test).r = 0)
    (udp : (getParameters j hasSendfile test).test.protocol = .Pudp)
    (before : Weakened (getParameters j hasSendfile test).test.settings created)
    (opened : iperfNewStream { (getParameters j hasSendfile test).test with settings := created }
      granted = some sp)
    (after : Weakened created current) :
    (∀ running arrivals memory stream, ∃ received,
      iperfUdpRecv iperfConfig
          { (getParameters j hasSendfile test).test with settings := current }
          running arrivals memory stream = some received ∧
        ∀ access ∈ received.accesses, access.Inside sp.bufferSize) ∧
    ∀ cleared written stream, ∃ sent,
      iperfUdpSend iperfConfig
          { (getParameters j hasSendfile test).test with settings := current }
          cleared written stream = some sent ∧
        ∀ access ∈ sent.accesses, access.Inside sp.bufferSize := by
  have covers : Covers iperfConfig current sp.bufferSize := by
    apply covers_of_accepted accepted udp before opened after
    intro built
    cases built
  constructor
  · intro running arrivals memory stream
    exact iperfUdpRecv_inside covers running arrivals memory stream
  · intro cleared written stream
    exact iperfUdpSend_inside covers cleared written stream

/-- The smallest block, wide counters and truncating reads, with sizes beyond an `int`. -/
def smallBlockDocument : Node Int :=
  .object [(bytesOf "udp", .bool true), (bytesOf "len", .number (2 ^ 32 + 16)),
    (bytesOf "gso_bf_size", .number (2 ^ 31)), (bytesOf "udp_counters_64bit", .number 1),
    (bytesOf "skip_rx_copy", .number 1)]

/-- The largest datagram on a stream with the smallest buffer. -/
theorem udp_stays_inside_smallest_buffer : ∃ received,
    iperfUdpRecv iperfConfig (getParameters (some smallBlockDocument) true Params.plainServer.test).test true
        [.datagram 65507] (fun _ => 0)
        { bufferSize := 16, packetCount := 0, cntError := 0, outoforderPackets := 0 } =
      some received ∧ ∀ access ∈ received.accesses, access.Inside 16 := by
  have accepted : (getParameters (some smallBlockDocument) true Params.plainServer.test).r = 0 := by
    decide +kernel
  have udp : (getParameters (some smallBlockDocument) true Params.plainServer.test).test.protocol = .Pudp := by
    decide +kernel
  have opened : iperfNewStream (getParameters (some smallBlockDocument) true Params.plainServer.test).test
      true = some { bufferSize := 16, packetCount := 0, cntError := 0, outoforderPackets := 0 } := by
    decide +kernel
  have unchanged : ∀ settings : Settings, Weakened settings settings :=
    fun settings => ⟨rfl, Or.inl rfl, Or.inl rfl⟩
  exact (udp_stays_inside_buffer accepted udp (unchanged _) opened (unchanged _)).1 true
    [.datagram 65507] (fun _ => 0) _

end IperfSwift.Udp
