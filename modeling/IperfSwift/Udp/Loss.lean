import IperfSwift.Udp.Datagrams

/-!
Contract: what the packet counters of a UDP receiver say about the datagrams that came.

Owns: one call of `iperf_udp_recv` for a datagram of the negotiated block size; the
largest number, the losses and the overtaken packets of any sequence of arrivals; and
that losses do not depend on the order.

Does not own: duplicates, coalesced reads and truncated copies.
-/

set_option autoImplicit false

namespace IperfSwift.Udp

open IperfSwift.Lib

variable {packets : List Nat} {packet : Nat} {sp : Stream}

/-! ### What the counters stand for -/

/-- The largest number received, and zero before the first. -/
def largest (packets : List Nat) : Nat := packets.foldr max 0

/-- How many packets arrived after a larger one. -/
def overtaken (packets : List Nat) : Nat :=
  (List.range packets.length).countP fun index =>
    (packets.take index).any fun earlier => packets.getD index 0 < earlier

theorem largest_append (packets : List Nat) (packet : Nat) :
    largest (packets ++ [packet]) = max (largest packets) packet := by
  induction packets with
  | nil => simp [largest]
  | cons first rest inductionHypothesis =>
      simp only [largest, List.cons_append, List.foldr_cons] at inductionHypothesis ⊢
      rw [inductionHypothesis, max_assoc]

theorem le_largest (received : packet ∈ packets) : packet ≤ largest packets := by
  induction packets with
  | nil => cases received
  | cons first rest inductionHypothesis =>
      rcases List.mem_cons.mp received with rfl | later
      · exact le_max_left _ _
      · exact (inductionHypothesis later).trans (le_max_right _ _)

theorem largest_mem (some : packets ≠ []) : largest packets ∈ packets := by
  induction packets with
  | nil => exact absurd rfl some
  | cons first rest inductionHypothesis =>
      by_cases none : rest = []
      · simp [none, largest]
      · rcases le_total first (largest rest) with smaller | larger
        · rw [largest, List.foldr_cons, ← largest, max_eq_right smaller]
          exact List.mem_cons_of_mem _ (inductionHypothesis none)
        · rw [largest, List.foldr_cons, ← largest, max_eq_left larger]
          exact List.mem_cons_self

theorem largest_le_of_subset {others : List Nat} (subset : packets ⊆ others) :
    largest packets ≤ largest others := by
  by_cases none : packets = []
  · rw [none]
    exact Nat.zero_le _
  · exact le_largest (subset (largest_mem none))

/-- Different positive numbers: there are no more of them than the largest says. -/
theorem length_le_largest (distinct : packets.Nodup) (positive : ∀ packet ∈ packets, 0 < packet) :
    packets.length ≤ largest packets := by
  have inside : packets.toFinset ⊆ Finset.Icc 1 (largest packets) := by
    intro packet received
    rw [List.mem_toFinset] at received
    exact Finset.mem_Icc.mpr ⟨positive packet received, le_largest received⟩
  have count := Finset.card_le_card inside
  rwa [List.toFinset_card_of_nodup distinct, Nat.card_Icc, Nat.add_sub_cancel] at count

theorem any_larger_iff (packets : List Nat) (packet : Nat) :
    (packets.any fun earlier => packet < earlier) = true ↔ packet < largest packets := by
  rw [List.any_eq_true]
  constructor
  · rintro ⟨earlier, received, larger⟩
    exact (of_decide_eq_true larger).trans_le (le_largest received)
  · intro larger
    have some : packets ≠ [] := by
      rintro rfl
      exact absurd larger (Nat.not_lt_zero _)
    exact ⟨largest packets, largest_mem some, decide_eq_true larger⟩

theorem overtaken_append (packets : List Nat) (packet : Nat) :
    overtaken (packets ++ [packet]) =
      overtaken packets + if packet < largest packets then 1 else 0 := by
  have before : ∀ index ∈ List.range packets.length,
      ((((packets ++ [packet]).take index).any fun earlier =>
          (packets ++ [packet]).getD index 0 < earlier) = true ↔
        ((packets.take index).any fun earlier => packets.getD index 0 < earlier) = true) := by
    intro index inside
    rw [List.mem_range] at inside
    rw [List.take_append_of_le_length inside.le, List.getD_eq_getElem?_getD,
      List.getElem?_append_left inside, ← List.getD_eq_getElem?_getD]
  have last : (((packets ++ [packet]).take packets.length).any fun earlier =>
      (packets ++ [packet]).getD packets.length 0 < earlier) =
        decide (packet < largest packets) := by
    rw [List.take_left, Bool.eq_iff_iff, decide_eq_true_iff, ← any_larger_iff]
    simp
  rw [overtaken, overtaken, List.length_append, List.length_singleton, List.range_succ,
    List.countP_append, List.countP_congr before, List.countP_singleton, last]
  simp only [decide_eq_true_eq]

/-! ### One packet -/

/-- The counters after some packets. -/
structure Counted (packets : List Nat) (sp : Stream) : Prop where
  packetCount : sp.packetCount.toNat = largest packets
  cntError : sp.cntError.toNat = largest packets - packets.length
  outoforderPackets : sp.outoforderPackets.toNat = overtaken packets

/-- Sequence numbers as a sender gives them. -/
structure Numbered (packets : List Nat) : Prop where
  distinct : packets.Nodup
  low : ∀ packet ∈ packets, 1 ≤ packet
  high : ∀ packet ∈ packets, packet ≤ 2 ^ 63 - 2

theorem Numbered.largest_le (numbered : Numbered packets) : largest packets ≤ 2 ^ 63 - 2 := by
  by_cases some : packets = []
  · rw [some]
    exact Nat.zero_le _
  · exact numbered.high _ (largest_mem some)

theorem Numbered.length_le (numbered : Numbered packets) : packets.length ≤ largest packets :=
  length_le_largest numbered.distinct numbered.low

theorem Numbered.of_prefix {more : List Nat} (numbered : Numbered more) (start : packets <+: more) :
    Numbered packets :=
  ⟨numbered.distinct.sublist start.sublist, fun packet received =>
    numbered.low packet (start.subset received), fun packet received =>
    numbered.high packet (start.subset received)⟩

theorem overtaken_le (packets : List Nat) : overtaken packets ≤ packets.length := by
  have count := List.countP_le_length (l := List.range packets.length) (p := fun index =>
    (packets.take index).any fun earlier => packets.getD index 0 < earlier)
  rwa [List.length_range] at count

/-- A packet that comes late was counted as lost before. -/
theorem Numbered.lost (numbered : Numbered (packets ++ [packet]))
    (late : packet < largest packets) : packets.length + 1 ≤ largest packets := by
  have count := numbered.length_le
  rwa [largest_append, max_eq_left late.le, List.length_append, List.length_singleton] at count

theorem countPacket_counted (numbered : Numbered (packets ++ [packet]))
    (counted : Counted packets sp) :
    Counted (packets ++ [packet]) (countPacket (.ofNat 64 packet) sp) := by
  have earlier := numbered.of_prefix (List.prefix_append packets [packet])
  have fits := numbered.high packet (by simp)
  have bound := earlier.largest_le
  have shorter := earlier.length_le
  have few := overtaken_le packets
  have number : (BitVec.ofNat 64 packet).toNat = packet := by
    rw [BitVec.toNat_ofNat]
    omega
  obtain ⟨packetCount, cntError, outoforder⟩ := counted
  by_cases forward : largest packets < packet
  · -- The numbers in between are counted as lost; it does not matter if there are none.
    have ahead : sp.packetCount + 1 ≤ BitVec.ofNat 64 packet := by bv_omega
    have lost : (if sp.packetCount + 1 < BitVec.ofNat 64 packet then
        sp.cntError + (BitVec.ofNat 64 packet - 1 - sp.packetCount) else sp.cntError).toNat =
          packet - (packets.length + 1) := by
      split_ifs with gap <;> bv_omega
    rw [countPacket, if_pos ahead]
    refine ⟨?_, ?_, ?_⟩
    · rw [largest_append, max_eq_right forward.le, number]
    · rw [largest_append, max_eq_right forward.le, List.length_append, List.length_singleton]
      exact lost
    · have inOrder : ¬ packet < largest packets := by omega
      rw [overtaken_append, if_neg inOrder, Nat.add_zero]
      exact outoforder
  · have different : packet ≠ largest packets := by
      rintro rfl
      have some : packets ≠ [] := by
        rintro rfl
        have positive := numbered.low (largest []) (by simp)
        simp [largest] at positive
      exact (List.disjoint_of_nodup_append numbered.distinct) (largest_mem some) (by simp)
    have late : packet < largest packets := by omega
    have lost := numbered.lost late
    have behind : ¬ sp.packetCount + 1 ≤ BitVec.ofNat 64 packet := by bv_omega
    have some : 0 < sp.cntError.toInt := by
      rw [BitVec.toInt_eq_toNat_of_lt (by omega)]
      omega
    rw [countPacket, if_neg behind, if_pos some]
    refine ⟨?_, ?_, ?_⟩
    · rw [largest_append, max_eq_left late.le]
      exact packetCount
    · rw [largest_append, max_eq_left late.le, List.length_append, List.length_singleton]
      bv_omega
    · rw [overtaken_append, if_pos late]
      bv_omega

/-! ### Calls of `iperf_udp_recv` -/

/-- The sequence number in a datagram with 64-bit counters. -/
def sequenceNumber (memory : Int → Byte) : Nat := bigEndian memory 8 8

/-- One call after the other, each for one datagram of the block size. `waiting` is what has
arrived behind it. -/
def receiveAll (build : Build) (test : Test) (waiting : List Arrival) :
    List (Int → Byte) → Stream → Option Stream
  | [], sp => some sp
  | memory :: rest, sp =>
      (iperfUdpRecv build test true (.datagram test.settings.blksize.toNat :: waiting) memory
        sp).bind fun received => receiveAll build test waiting rest received.stream

/-- The read fills the buffer with exactly one datagram. -/
theorem nrecvNoSelect_whole {count : Nat} (positive : 0 < count) (waiting : List Arrival) :
    nrecvNoSelect false count (.datagram count :: waiting) count =
      { r := count, accesses := [⟨0, count⟩] } := by
  have rest : nrecvNoSelect false count waiting 0 = { r := count, accesses := [] } := by
    cases waiting <;> simp [nrecvNoSelect]
  rw [nrecvNoSelect, if_neg positive.ne']
  have whole : recvReturn false count count = count := by simp [recvReturn]
  have copied : bytesCopied count count = count := by simp [bytesCopied]
  simp only [whole, copied, positive.ne', if_false, Nat.sub_self, rest, sub_self]

theorem recvLoop_one {memory : Int → Byte} {size : Int} (large : 16 ≤ size) {iterations : Nat}
    (walk : Walk) :
    recvLoop true memory size size (iterations + 2) 0 size walk =
      some (readHeader true memory 0 walk) := by
  have enough : ¬ ¬ (size ≤ size ∧ 0 + size ≤ size) := by omega
  have header : ¬ size < minPktSize := by
    rw [minPktSize]
    omega
  have wide : ¬ ((true : Bool) = true ∧ size < 16) := by omega
  have done : ¬ (size ≤ size - size ∧ 0 + size + size ≤ size) := by omega
  rw [recvLoop, if_neg enough, if_neg header, if_neg wide, recvLoop, if_pos done]

/-- A datagram of the negotiated size is counted once. -/
theorem iperfUdpRecv_stream {build : Build} {test : Test} (sized : Sized test.settings)
    (counters : test.udpCounters64bit ≠ 0) (gro : test.settings.gro = 0)
    (copies : test.settings.skipRxCopy = 0) (waiting : List Arrival) (memory : Int → Byte)
    (sp : Stream) :
    (iperfUdpRecv build test true (.datagram test.settings.blksize.toNat :: waiting) memory
        sp).map Received.stream =
      some (countPacket (.ofNat 64 (sequenceNumber memory)) sp) := by
  have lower := sized.lower
  have upper := sized.upper
  rw [minUdpBlocksize] at lower
  rw [maxUdpBlocksize] at upper
  have size : toSizeT test.settings.blksize = test.settings.blksize.toNat := by
    rw [toSizeT]
    omega
  have filled : fill build test.settings (.datagram test.settings.blksize.toNat :: waiting) =
      { r := test.settings.blksize, accesses := [⟨0, test.settings.blksize⟩] } := by
    have noTrunc : skipsCopy build test.settings = false := by simp [skipsCopy, copies]
    have whole : ((test.settings.blksize.toNat : Nat) : Int) = test.settings.blksize := by omega
    rw [fill, if_neg (not_not.mpr gro), recvSize, noTrunc, if_neg Bool.false_ne_true, size,
      nrecvNoSelect_whole (by omega), whole]
  obtain ⟨iterations, fuel⟩ : ∃ iterations, test.settings.blksize.toNat + 1 = iterations + 2 :=
    ⟨test.settings.blksize.toNat - 1, by omega⟩
  rw [iperfUdpRecv, filled]
  dsimp only
  rw [if_neg (by omega), if_neg (by omega), if_pos rfl, fuel, decide_eq_true counters,
    recvLoop_one (by omega)]
  rfl

section Receiving

variable {build : Build} {test : Test} {waiting : List Arrival}

/-- Every call keeps the counters in step with what has arrived. -/
theorem receiveAll_counted (sized : Sized test.settings) (counters : test.udpCounters64bit ≠ 0)
    (gro : test.settings.gro = 0) (copies : test.settings.skipRxCopy = 0)
    {datagrams : List (Int → Byte)} {packets : List Nat} {sp : Stream}
    (numbered : Numbered (packets ++ datagrams.map sequenceNumber))
    (counted : Counted packets sp) :
    ∃ final, receiveAll build test waiting datagrams sp = some final ∧
      Counted (packets ++ datagrams.map sequenceNumber) final := by
  induction datagrams generalizing packets sp with
  | nil =>
      rw [List.map_nil, List.append_nil]
      exact ⟨sp, rfl, counted⟩
  | cons memory rest inductionHypothesis =>
      rw [List.map_cons, List.append_cons] at numbered ⊢
      have step := countPacket_counted (numbered.of_prefix (List.prefix_append _ _)) counted
      obtain ⟨final, run, reached⟩ := inductionHypothesis numbered step
      obtain ⟨received, call, stream⟩ := Option.map_eq_some_iff.mp
        (@iperfUdpRecv_stream build test sized counters gro copies waiting memory sp)
      refine ⟨final, ?_, reached⟩
      rw [receiveAll, call, Option.bind_some, stream]
      exact run

/-- The counters as the `int64_t` they are. -/
theorem Counted.toInt (numbered : Numbered packets) (counted : Counted packets sp) :
    sp.packetCount.toInt = largest packets ∧
      sp.cntError.toInt = sp.packetCount.toInt - packets.length ∧
      sp.outoforderPackets.toInt = overtaken packets := by
  obtain ⟨packetCount, cntError, outoforder⟩ := counted
  have bound := numbered.largest_le
  have shorter := numbered.length_le
  have few := overtaken_le packets
  have count := BitVec.toInt_eq_toNat_of_lt (x := sp.packetCount) (by omega)
  have errors := BitVec.toInt_eq_toNat_of_lt (x := sp.cntError) (by omega)
  have order := BitVec.toInt_eq_toNat_of_lt (x := sp.outoforderPackets) (by omega)
  omega

end Receiving

/-- A new stream before its first datagram. -/
structure Stream.Unused (sp : Stream) : Prop where
  packetCount : sp.packetCount = 0
  cntError : sp.cntError = 0
  outoforderPackets : sp.outoforderPackets = 0

theorem Stream.Unused.counted (unused : sp.Unused) : Counted [] sp := by
  obtain ⟨packetCount, cntError, outoforder⟩ := unused
  refine ⟨?_, ?_, ?_⟩
  · rw [packetCount]
    rfl
  · rw [cntError]
    rfl
  · rw [outoforder]
    rfl

/-- After any of the datagrams, in whatever order they come: the largest number, the numbers
below it that have not come, and the packets that were overtaken. A packet that comes late
always takes a loss back. The losses are the same for every order of the same datagrams. -/
theorem iperfUdpRecv_losses (build : Build) (test : Test) (waiting : List Arrival)
    (datagrams : List (Int → Byte)) (sp : Stream) (sized : Sized test.settings)
    (counters : test.udpCounters64bit ≠ 0) (gro : test.settings.gro = 0)
    (copies : test.settings.skipRxCopy = 0) (unused : sp.Unused)
    (numbered : Numbered (datagrams.map sequenceNumber)) :
    (∀ seen, seen <+: datagrams →
      ∃ reached, receiveAll build test waiting seen sp = some reached ∧
        reached.packetCount.toInt = largest (seen.map sequenceNumber) ∧
        reached.cntError.toInt = reached.packetCount.toInt - seen.length ∧
        0 ≤ reached.cntError.toInt ∧
        reached.outoforderPackets.toInt = overtaken (seen.map sequenceNumber) ∧
        ∀ next, seen ++ [next] <+: datagrams →
          sequenceNumber next < largest (seen.map sequenceNumber) →
            0 < reached.cntError.toInt) ∧
    ∀ others, (∀ number, number ∈ others.map sequenceNumber ↔
        number ∈ datagrams.map sequenceNumber) →
      (others.map sequenceNumber).Nodup →
        (receiveAll build test waiting others sp).map Stream.cntError =
          (receiveAll build test waiting datagrams sp).map Stream.cntError := by
  constructor
  · intro seen start
    have begun := numbered.of_prefix (start.map sequenceNumber)
    obtain ⟨reached, run, counted⟩ := @receiveAll_counted build test waiting sized counters gro
      copies seen [] sp begun unused.counted
    rw [List.nil_append] at counted
    obtain ⟨count, errors, order⟩ := counted.toInt begun
    rw [List.length_map] at errors
    have shorter := begun.length_le
    rw [List.length_map] at shorter
    refine ⟨reached, run, count, errors, by omega, order, fun next further late => ?_⟩
    have longer := numbered.of_prefix (further.map sequenceNumber)
    rw [List.map_append, List.map_singleton] at longer
    have lost := longer.lost late
    rw [List.length_map] at lost
    omega
  · intro others same distinct
    have numbered' : Numbered (others.map sequenceNumber) :=
      ⟨distinct, fun number received => numbered.low number ((same number).mp received),
        fun number received => numbered.high number ((same number).mp received)⟩
    obtain ⟨first, run, counted⟩ := @receiveAll_counted build test waiting sized counters gro
      copies datagrams [] sp numbered unused.counted
    obtain ⟨second, run', counted'⟩ := @receiveAll_counted build test waiting sized counters gro
      copies others [] sp numbered' unused.counted
    have permutation := (List.perm_ext_iff_of_nodup distinct numbered.distinct).mpr same
    have sameLargest : largest (others.map sequenceNumber) =
        largest (datagrams.map sequenceNumber) :=
      Nat.le_antisymm (largest_le_of_subset permutation.subset)
        (largest_le_of_subset permutation.symm.subset)
    have errors : second.cntError = first.cntError := by
      rw [← BitVec.toNat_inj, counted'.cntError, counted.cntError, List.nil_append,
        List.nil_append, sameLargest, permutation.length_eq]
    rw [run, run', Option.map_some, Option.map_some, errors]

/-- A datagram with a small sequence number. -/
def smallDatagram (number : Byte) : Int → Byte := fun offset => if offset = 15 then number else 0

/-- A UDP test with 64-bit counters and blocks of 16 bytes. -/
def counterTest : Test :=
  { Params.plainServer.test with
    protocol := .Pudp
    udpCounters64bit := 1
    settings := { Params.plainServer.test.settings with blksize := 16 } }

/-- Packets 4, 1 and 3: one is lost, two are overtaken. -/
theorem losses_of_threeDatagrams :
    ∃ reached,
      receiveAll iperfConfig counterTest [] [smallDatagram 4, smallDatagram 1, smallDatagram 3]
        ⟨16, 0, 0, 0⟩ = some reached ∧
      reached.packetCount.toInt = 4 ∧ reached.cntError.toInt = reached.packetCount.toInt - 3 ∧
      reached.outoforderPackets.toInt = 2 := by
  have numbered : Numbered
      ([smallDatagram 4, smallDatagram 1, smallDatagram 3].map sequenceNumber) := by
    have numbers : [smallDatagram 4, smallDatagram 1, smallDatagram 3].map sequenceNumber =
        [4, 1, 3] := by
      decide +kernel
    rw [numbers]
    exact ⟨by decide, by decide, by decide⟩
  have losses := (iperfUdpRecv_losses iperfConfig counterTest [] _ ⟨16, 0, 0, 0⟩
    ⟨by decide, by decide, fun on => absurd rfl on⟩ (by decide) rfl rfl ⟨rfl, rfl, rfl⟩
    numbered).1 _ List.prefix_rfl
  obtain ⟨reached, run, count, errors, -, order, -⟩ := losses
  refine ⟨reached, run, count.trans ?_, errors, order.trans ?_⟩
  · decide +kernel
  · decide +kernel

end IperfSwift.Udp
