import IperfSwift.Output.Rules

/-!
Contract: reading a frame does not depend on how the transport cuts it up.

Owns: what it means for a read function to deliver given bytes in pieces; the
simulation of the buffered feed by the plain stream; the bounds on every read;
and the resulting statement about two calls of `iperf_read_bounded_results`.

Does not own: which frames are accepted.
-/

set_option autoImplicit false

namespace IperfSwift.Output

open IperfSwift.Lib
open IperfSwift.Lib.Program
open IperfSwift.CJson

variable {σ σ' κ κ' ν : Type}
variable {context : κ} {frameLength : Nat} {feed : Feed κ} {read : ReadFunction κ}

/-! ### Readers -/

/-- What a read function does when it has no more bytes. -/
inductive Ending where
  | endOfInput
  | failed (errno : Errno)
deriving DecidableEq, Repr

namespace Ending

def result : Ending → ReadResult
  | .endOfInput => .data []
  | .failed errno => .failed errno

/-- The error `peek` reports for it. -/
def error : Ending → Errno
  | .endOfInput => EPROTO
  | .failed errno => if errno ≠ 0 then errno else EPROTO

theorem error_ne_zero (ending : Ending) : ending.error ≠ 0 := by
  cases ending with
  | endOfInput => decide
  | failed errno =>
      by_cases unset : errno = 0
      · simp [error, unset, EPROTO]
      · simp [error, unset]

end Ending

/-- A read function that hands out bytes in pieces of 1 up to the requested capacity and
then ends. `ahead` says which bytes it still has in a context. -/
structure Delivery (read : ReadFunction κ) (ending : Ending) (ahead : κ → List Byte → Prop) :
    Prop where
  piece : ∀ context bytes capacity, ahead context bytes → bytes ≠ [] → 0 < capacity →
    ∃ first rest, bytes = first ++ rest ∧ first ≠ [] ∧ first.length ≤ capacity ∧
      (read context capacity).1 = .data first ∧ ahead (read context capacity).2 rest
  ended : ∀ context capacity, ahead context [] → 0 < capacity →
    (read context capacity).1 = ending.result

/-- The read function delivers exactly these bytes from this context on. -/
def Delivers (read : ReadFunction κ) (context : κ) (bytes : List Byte) (ending : Ending) : Prop :=
  ∃ ahead, Delivery read ending ahead ∧ ahead context bytes

/-! ### The feed and the stream -/

/-- The frame as a plain stream: its delivered bytes, and how many never come. -/
def frameStream (frameLength : Nat) (bytes : List Byte) (ending : Ending) : Stream :=
  ⟨bytes.take frameLength, frameLength - bytes.length, ending.error⟩

/-- A feed in the middle of a frame, and what is left of the stream. -/
structure FeedStream (bytes : List Byte) (ending : Ending) (ahead : κ → List Byte → Prop)
    (feed : Feed κ) (stream : Stream) : Prop where
  ahead : ahead feed.context (bytes.drop feed.bytesRead)
  streamBytes : stream.bytes = feed.pending ++ (bytes.drop feed.bytesRead).take feed.remaining
  lost : stream.lost = feed.remaining - (bytes.drop feed.bytesRead).length
  ending : stream.ending = ending.error

section Simulation

variable {bytes : List Byte} {ending : Ending} {ahead : κ → List Byte → Prop}
  {read : ReadFunction κ} {feed : Feed κ} {stream : Stream}

theorem FeedStream.left (related : FeedStream bytes ending ahead feed stream) :
    feed.left = stream.left := by
  simp only [Feed.left, Stream.left, related.streamBytes, related.lost, List.length_append,
    List.length_take]
  omega

/-- A refill that finds bytes: the stream does not move. -/
theorem refill_of_piece {first : List Byte} {byte : Byte} {rest : List Byte}
    (related : FeedStream bytes ending ahead feed stream) (empty : feed.pending = [])
    (split : bytes.drop feed.bytesRead = (byte :: first) ++ rest)
    (fits : (byte :: first).length ≤ min feed.remaining inputBuffer)
    (found : (read feed.context (min feed.remaining inputBuffer)).1 = .data (byte :: first))
    (after : ahead (read feed.context (min feed.remaining inputBuffer)).2 rest) :
    (feed.refill read).1 = .byte byte ∧ (feed.refill read).2.pending = byte :: first ∧
      FeedStream bytes ending ahead (feed.refill read).2 stream := by
  have notLong : ¬ min feed.remaining inputBuffer < (byte :: first).length := by omega
  have inFrame : (byte :: first).length ≤ feed.remaining := fits.trans (min_le_left _ _)
  have dropped : bytes.drop (feed.bytesRead + (byte :: first).length) = rest := by
    rw [← List.drop_drop, split, List.drop_left]
  simp only [Feed.refill, found, notLong, if_false]
  refine ⟨trivial, trivial, ?_, ?_, ?_, related.ending⟩
  · rw [dropped]
    exact after
  · rw [related.streamBytes, empty, List.nil_append, dropped, split, List.take_append,
      List.take_of_length_le inFrame]
  · rw [related.lost, dropped, split, List.length_append, Nat.sub_add_eq]

theorem refill_of_end (ended : (read feed.context (min feed.remaining inputBuffer)).1 =
    ending.result) :
    (feed.refill read).1 = .failed ending.error ∧ (feed.refill read).2.left = feed.left := by
  cases ending with
  | endOfInput | failed errno => simp [Feed.refill, ended, Ending.result, Ending.error, Feed.left]

/-- What both inputs show, and that the relation survives whatever is not a failure. -/
theorem peek_feedStream (delivery : Delivery read ending ahead)
    (related : FeedStream bytes ending ahead feed stream) :
    (∃ byte rest, (feed.peek read).1 = .byte byte ∧ stream.peek = (.byte byte, stream) ∧
        (feed.peek read).2.pending = byte :: rest ∧
        FeedStream bytes ending ahead (feed.peek read).2 stream) ∨
      ((feed.peek read) = (.finished, feed) ∧ stream.peek = (.finished, stream)) ∨
      ((feed.peek read).1 = .failed ending.error ∧
        stream.peek = (.failed ending.error, stream) ∧ (feed.peek read).2.left = feed.left) := by
  cases pending : feed.pending with
  | cons byte rest =>
      refine .inl ⟨byte, rest, ?_⟩
      simp [Feed.peek, Stream.peek, pending, related.streamBytes, related]
  | nil =>
      have streamBytes := related.streamBytes
      rw [pending, List.nil_append] at streamBytes
      by_cases whole : feed.remaining = 0
      · refine .inr (.inl ?_)
        have nothingLost : stream.lost = 0 := by
          rw [related.lost, whole, Nat.zero_sub]
        simp [Feed.peek, Stream.peek, pending, whole, streamBytes, nothingLost]
      · have positive : 0 < min feed.remaining inputBuffer :=
          lt_min (Nat.pos_of_ne_zero whole) (by decide)
        have refilled : feed.peek read = feed.refill read := by
          simp [Feed.peek, pending, whole]
        rw [refilled]
        by_cases spent : bytes.drop feed.bytesRead = []
        · refine .inr (.inr ?_)
          have ended := delivery.ended _ _ (spent ▸ related.ahead) positive
          obtain ⟨failed, sameLeft⟩ := refill_of_end ended
          have lost : stream.lost ≠ 0 := by
            rw [related.lost, spent]
            exact whole
          refine ⟨failed, ?_, sameLeft⟩
          simp [Stream.peek, streamBytes, spent, lost, related.ending]
        · obtain ⟨first, rest, split, nonempty, fits, found, after⟩ :=
            delivery.piece _ _ _ related.ahead spent positive
          obtain ⟨byte, first, rfl⟩ := List.exists_cons_of_ne_nil nonempty
          obtain ⟨shown, nowPending, still⟩ :=
            refill_of_piece related pending split fits found after
          refine .inl ⟨byte, first, shown, ?_, nowPending, still⟩
          simp [Stream.peek, still.streamBytes, nowPending]

theorem advance_feedStream {byte : Byte} {rest : List Byte}
    (related : FeedStream bytes ending ahead feed stream) (pending : feed.pending = byte :: rest) :
    FeedStream bytes ending ahead feed.advance stream.advance where
  ahead := related.ahead
  streamBytes := by simp [Stream.advance, Feed.advance, related.streamBytes, pending]
  lost := related.lost
  ending := related.ending

/-- The plain stream simulates a feed whose read function delivers the same bytes. -/
theorem feed_simulation (delivery : Delivery read ending ahead) :
    Simulation (FeedStream bytes ending ahead) (Feed.source read) Stream.source where
  samePeek := by
    intro feed stream related
    change (feed.peek read).1 = stream.peek.1
    rcases peek_feedStream delivery related with ⟨byte, rest, shown, same, -⟩ | ⟨shown, same⟩ |
      ⟨shown, same, -⟩ <;> rw [shown, same]
  left := fun _ _ related => related.left
  leftAfter := by
    intro feed stream related
    change (feed.peek read).2.left = stream.peek.2.left
    rcases peek_feedStream delivery related with ⟨byte, rest, -, same, -, still⟩ |
      ⟨shown, same⟩ | ⟨-, same, sameLeft⟩
    · rw [same]
      exact still.left
    · rw [shown, same]
      exact related.left
    · rw [same, sameLeft]
      exact related.left
  byte := by
    intro feed stream byte related found
    change FeedStream bytes ending ahead (feed.peek read).2 stream.peek.2 ∧
      FeedStream bytes ending ahead (feed.peek read).2.advance stream.peek.2.advance
    change (feed.peek read).1 = _ at found
    rcases peek_feedStream delivery related with ⟨shownByte, rest, -, same, pending, still⟩ |
      ⟨shown, -⟩ | ⟨shown, -, -⟩
    · rw [same]
      exact ⟨still, advance_feedStream still pending⟩
    · simp [shown] at found
    · simp [shown] at found
  finished := by
    intro feed stream related found
    change FeedStream bytes ending ahead (feed.peek read).2 stream.peek.2
    change (feed.peek read).1 = _ at found
    rcases peek_feedStream delivery related with ⟨byte, rest, shown, -⟩ | ⟨shown, same⟩ |
      ⟨shown, -, -⟩
    · simp [shown] at found
    · rw [shown, same]
      exact related
    · simp [shown] at found
  failed := by
    intro feed stream error related found
    change (feed.peek read).1 = _ at found
    rcases peek_feedStream delivery related with ⟨byte, rest, shown, -⟩ | ⟨shown, -⟩ |
      ⟨shown, -, -⟩
    · simp [shown] at found
    · simp [shown] at found
    · rw [shown, Peeked.failed.injEq] at found
      exact found ▸ ending.error_ne_zero

theorem feedStream_start (frameLength : Nat) (start : ahead context bytes) :
    FeedStream bytes ending ahead ⟨context, frameLength, [], 0, []⟩
      (frameStream frameLength bytes ending) :=
  ⟨start, rfl, rfl, rfl⟩

end Simulation

/-! ### Calls over related inputs -/

theorem readBoundedResults_agree {inputs : σ → σ' → Prop} {source : Source σ}
    {source' : Source σ'} (simulation : Simulation inputs source source')
    (convert : List Byte → ν) (frameLength outputLimit : Nat) {input : σ} {input' : σ'}
    (related : inputs input input') (heap : Heap) :
    let call := readBoundedResults source convert frameLength outputLimit input heap
    let call' := readBoundedResults source' convert frameLength outputLimit input' heap
    call.result = call'.result ∧ call.output = call'.output ∧ call.metrics = call'.metrics ∧
      call.heap = call'.heap := by
  obtain ⟨sameResult, after⟩ := simulation.related_root _ _
    (simulation.sameScan related
      (startState outputLimit (Heap.malloc (resultCoreMaxBytes + 1) heap).2))
  have sameScan := after.scan
  simp only [readBoundedResults, sameResult, sameScan]
  split_ifs
  · exact ⟨rfl, rfl, rfl, rfl⟩
  · exact ⟨rfl, rfl, rfl, rfl⟩
  · cases (parseCore convert _).1 <;> exact ⟨rfl, rfl, rfl, rfl⟩
  · simp only [finishRead, sameScan]
    trivial
  · exact ⟨rfl, rfl, rfl, rfl⟩

@[simp] theorem finishRead_input (result : Option (Parsed (Node ν))) (parser : Parser σ) :
    (finishRead result parser).input = parser.input := by
  cases result <;> rfl

/-- A call leaves its input alone and fails, or leaves it where `root` stopped. -/
theorem readBoundedResults_input (source : Source σ) (convert : List Byte → ν)
    (frameLength outputLimit : Nat) (input : σ) (heap : Heap) :
    let call := readBoundedResults source convert frameLength outputLimit input heap
    let scanned := root source
      ⟨input, startState outputLimit (Heap.malloc (resultCoreMaxBytes + 1) heap).2⟩
    (call.input = input ∧ ∀ tree, call.result ≠ .ok tree) ∨
      (call.input = scanned.2.input ∧ ∀ tree, call.result = .ok tree → scanned.1 = true) := by
  dsimp only [readBoundedResults]
  split_ifs with badLimit badLength granted succeeded
  · exact .inl ⟨rfl, by simp⟩
  · exact .inl ⟨rfl, by simp⟩
  · exact .inr ⟨by simp, fun _ _ => succeeded⟩
  · exact .inr ⟨by simp, fun _ ok => by simp [finishRead] at ok⟩
  · exact .inl ⟨rfl, by simp⟩

/-! ### Every read stays in the frame -/

/-- No request reaches past the frame or is larger than the input buffer. -/
structure WithinFrame (frameLength : Nat) (feed : Feed κ) : Prop where
  arrived : feed.bytesRead + feed.remaining = frameLength
  requests : ∀ request ∈ feed.requests,
    request.offset + request.capacity ≤ frameLength ∧ request.capacity ≤ inputBuffer

theorem withinFrame_refill (read : ReadFunction κ) (within : WithinFrame frameLength feed) :
    WithinFrame frameLength (feed.refill read).2 := by
  have arrived := within.arrived
  have requests : ∀ request ∈ feed.requests ++
      [⟨feed.bytesRead, min feed.remaining inputBuffer⟩],
      request.offset + request.capacity ≤ frameLength ∧ request.capacity ≤ inputBuffer := by
    intro request member
    rcases List.mem_append.mp member with old | new
    · exact within.requests request old
    · rw [List.mem_singleton.mp new]
      exact ⟨by dsimp only; omega, min_le_right _ _⟩
  unfold Feed.refill
  dsimp only
  split
  · exact ⟨arrived, requests⟩
  · exact ⟨arrived, requests⟩
  · split
    · exact ⟨arrived, requests⟩
    · exact ⟨by dsimp only; omega, requests⟩

theorem withinFrame_peek (read : ReadFunction κ) (within : WithinFrame frameLength feed) :
    WithinFrame frameLength (feed.peek read).2 := by
  unfold Feed.peek
  split
  · exact within
  · split
    · exact within
    · exact withinFrame_refill read within

/-- Whatever the read function does, every request of a call stays in the frame. -/
theorem withinFrame_call (convert : List Byte → ν) (frameLength outputLimit : Nat)
    (read : ReadFunction κ) (context : κ) (heap : Heap) :
    WithinFrame frameLength
      (iperfReadBoundedResults convert frameLength outputLimit read context heap).input := by
  have start : WithinFrame frameLength (⟨context, frameLength, [], 0, []⟩ : Feed κ) :=
    ⟨Nat.zero_add _, by simp⟩
  have keeps : Keeps (fun parser => WithinFrame frameLength parser.input) (Feed.source read) :=
    keeps_input (fun _ within => withinFrame_peek read within)
      (fun _ within => ⟨within.arrived, within.requests⟩)
  rcases readBoundedResults_input (Feed.source read) convert frameLength outputLimit
    ⟨context, frameLength, [], 0, []⟩ heap with ⟨same, -⟩ | ⟨same, -⟩
  · exact same ▸ start
  · exact same ▸ keeps.preserves_root (fun _ within => within) _ start

theorem feed_failed_ne_zero (read : ReadFunction κ) (feed : Feed κ) (error : Errno)
    (failed : ((Feed.source read).peek feed).1 = .failed error) : error ≠ 0 := by
  change (feed.peek read).1 = .failed error at failed
  unfold Feed.peek at failed
  split at failed
  · simp at failed
  · split at failed
    · simp at failed
    · unfold Feed.refill at failed
      dsimp only at failed
      split at failed
      next errno _ =>
        rw [Peeked.failed.injEq] at failed
        exact failed ▸ (Ending.failed errno).error_ne_zero
      next =>
        rw [Peeked.failed.injEq] at failed
        exact failed ▸ by decide
      next =>
        split at failed
        · rw [Peeked.failed.injEq] at failed
          exact failed ▸ by decide
        · simp at failed

theorem feed_finished (finished : (feed.peek read).1 = .finished) :
    feed.pending = [] ∧ feed.remaining = 0 ∧ (feed.peek read).2 = feed := by
  unfold Feed.peek at finished ⊢
  split at finished
  · simp at finished
  next empty =>
    split at finished
    next whole => simp [empty, whole]
    next =>
      unfold Feed.refill at finished
      dsimp only at finished
      split at finished
      · simp at finished
      · simp at finished
      · split at finished <;> simp at finished

/-- A successful call has consumed its frame to the last byte. -/
theorem consumed_of_ok {convert : List Byte → ν} {outputLimit : Nat} {heap : Heap}
    {tree : Parsed (Node ν)}
    (ok : (iperfReadBoundedResults convert frameLength outputLimit read context heap).result =
      .ok tree) :
    (iperfReadBoundedResults convert frameLength outputLimit read context heap).input.bytesRead =
        frameLength ∧
      (iperfReadBoundedResults convert frameLength outputLimit read context heap).input.pending =
        [] := by
  have within := withinFrame_call convert frameLength outputLimit read context heap
  rcases readBoundedResults_input (Feed.source read) convert frameLength outputLimit
    ⟨context, frameLength, [], 0, []⟩ heap with ⟨-, never⟩ | ⟨same, succeeds⟩
  · exact absurd ok (never tree)
  · obtain ⟨-, feed, found, final⟩ := root_succeeded (feed_failed_ne_zero read)
      (Prod.ext (succeeds tree ok) rfl)
    obtain ⟨empty, whole, unmoved⟩ := feed_finished found
    have atEnd : (iperfReadBoundedResults convert frameLength outputLimit read context
        heap).input = feed := same.trans (final.trans unmoved)
    have arrived := within.arrived
    rw [atEnd] at arrived ⊢
    exact ⟨by omega, empty⟩

/-- After a successful call the read function stands at the first byte behind the frame. -/
theorem delivers_of_ok {convert : List Byte → ν} {outputLimit : Nat} {bytes : List Byte}
    {ending : Ending} {heap : Heap} {tree : Parsed (Node ν)}
    (delivers : Delivers read context bytes ending)
    (ok : (iperfReadBoundedResults convert frameLength outputLimit read context heap).result =
      .ok tree) :
    Delivers read
      (iperfReadBoundedResults convert frameLength outputLimit read context heap).input.context
      (bytes.drop frameLength) ending := by
  obtain ⟨ahead, delivery, start⟩ := delivers
  have consumed := (consumed_of_ok ok).1
  rcases readBoundedResults_input (Feed.source read) convert frameLength outputLimit
    ⟨context, frameLength, [], 0, []⟩ heap with ⟨-, never⟩ | ⟨same, succeeds⟩
  · exact absurd ok (never tree)
  · obtain ⟨clean, -⟩ := root_succeeded (feed_failed_ne_zero read)
      (Prod.ext (succeeds tree ok) rfl)
    have simulation : Simulation (FeedStream bytes ending ahead) (Feed.source read)
        Stream.source := feed_simulation delivery
    have after := (simulation.related_root _ _
      (simulation.sameScan (feedStream_start frameLength start) _)).2.inputs clean
    have final := after.ahead
    rw [← same, show (readBoundedResults (Feed.source read) convert frameLength outputLimit _
      heap).input.bytesRead = frameLength from consumed] at final
    exact ⟨ahead, delivery, final⟩

/-- Two read functions that deliver the same bytes, in whatever pieces, lead to the same
result, error, output, metrics and heap. Whatever a read function does, no request
reaches past the frame; and a call that succeeds has consumed exactly the frame. -/
theorem iperfReadBoundedResults_fragmentation (convert : List Byte → ν)
    (frameLength outputLimit : Nat) (bytes : List Byte) (ending : Ending) (heap : Heap)
    {read : ReadFunction κ} {read' : ReadFunction κ'} {context : κ} {context' : κ'}
    (delivers : Delivers read context bytes ending)
    (delivers' : Delivers read' context' bytes ending) :
    let call := iperfReadBoundedResults convert frameLength outputLimit read context heap
    let call' := iperfReadBoundedResults convert frameLength outputLimit read' context' heap
    (call.result = call'.result ∧ call.output = call'.output ∧ call.metrics = call'.metrics ∧
        call.heap = call'.heap) ∧
      (∀ (ω : Type) (wild : ReadFunction ω) (start : ω),
        let anyCall := iperfReadBoundedResults convert frameLength outputLimit wild start heap
        (∀ request ∈ anyCall.input.requests,
          request.offset + request.capacity ≤ frameLength ∧ request.capacity ≤ 4096) ∧
        ∀ tree, anyCall.result = .ok tree →
          anyCall.input.bytesRead = frameLength ∧ anyCall.input.pending = []) ∧
      ∀ tree, call.result = .ok tree →
        Delivers read call.input.context (bytes.drop frameLength) ending := by
  refine ⟨?_, fun _ wild start => ⟨?_, fun _ ok => consumed_of_ok ok⟩,
    fun _ ok => delivers_of_ok delivers ok⟩
  · obtain ⟨ahead, delivery, started⟩ := delivers
    obtain ⟨ahead', delivery', started'⟩ := delivers'
    have plain := readBoundedResults_agree (feed_simulation delivery) convert frameLength
      outputLimit (feedStream_start frameLength started) heap
    have plain' := readBoundedResults_agree (feed_simulation delivery') convert frameLength
      outputLimit (feedStream_start frameLength started') heap
    exact ⟨plain.1.trans plain'.1.symm, plain.2.1.trans plain'.2.1.symm,
      plain.2.2.1.trans plain'.2.2.1.symm, plain.2.2.2.trans plain'.2.2.2.symm⟩
  · exact (withinFrame_call convert frameLength outputLimit wild start heap).requests

/-- A read function over bytes in memory that hands out at most `size` at a time. -/
def memoryReader (size : Nat) : ReadFunction (List Byte) := fun bytes capacity =>
  (.data (bytes.take (min size capacity)), bytes.drop (min size capacity))

theorem memoryReader_delivers {size : Nat} (positive : 0 < size) (bytes : List Byte) :
    Delivers (memoryReader size) bytes bytes .endOfInput := by
  refine ⟨fun context ahead => context = ahead, ⟨?_, ?_⟩, rfl⟩
  · rintro context _ capacity rfl nonempty room
    refine ⟨_, _, (List.take_append_drop (min size capacity) context).symm, ?_, ?_, rfl, rfl⟩
    · have some : 0 < min size capacity := lt_min positive room
      simp only [ne_eq, List.take_eq_nil_iff, nonempty, or_false]
      omega
    · simp only [List.length_take]
      omega
  · rintro context capacity rfl -
    simp [memoryReader, Ending.result]

theorem fragmentation_of_memoryReader :
    let frame := bytesOf "\x7b\"a\":1\x7d"
    let call := iperfReadBoundedResults id 7 1 (memoryReader 1) (frame ++ [13]) ⟨fun _ => true, []⟩
    let call' := iperfReadBoundedResults id 7 1 (memoryReader 5) (frame ++ [13])
      ⟨fun _ => true, []⟩
    call.result = call'.result ∧ call.output = call'.output := by
  intro frame call call'
  have agree := (iperfReadBoundedResults_fragmentation id 7 1 (frame ++ [13]) .endOfInput
    ⟨fun _ => true, []⟩ (memoryReader_delivers (by decide : 0 < 1) _)
    (memoryReader_delivers (by decide : 0 < 5) _)).1
  exact ⟨agree.1, agree.2.1⟩

end IperfSwift.Output
