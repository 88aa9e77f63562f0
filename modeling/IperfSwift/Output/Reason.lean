import IperfSwift.Output.Failure

/-!
Contract: when the reason of a failing result read tells limits apart from
transport failures.

Owns: frames that are too big; and the exact condition under which the reported
reason is faithful.

A frame that is too deep, has too many values or too long a core or name is refused
by the scanner with the error `EFBIG`, and every error but two is reported as a
failure of the read function. So exactly the frames that exceed a limit are
misreported.

Does not own: the first failure of a call.
-/

set_option autoImplicit false

namespace IperfSwift.Output

open IperfSwift.Lib
open IperfSwift.Lib.Program

variable {κ ν : Type}

/-! ### The reported reason -/

/-- The frame of a call is refused at an event with which it exceeds a limit. -/
def ExceedsAt (read : ReadFunction κ) (context : κ) (frameLength outputLimit : Nat) (heap : Heap)
    (limit : Limit) : Prop :=
  ∃ stream before event after middle, Scans read context frameLength outputLimit heap stream ∧
    stream.reading.1 = before ++ event :: after ∧
    perform before (callStart outputLimit heap) = (true, middle) ∧ ¬ event.NulKey ∧
    Exceeds (tallyOf before) event limit

/-- The frame is too deep, has too many values, too many values or bytes in its core text, or
a member with too long a name. -/
def TooBig (read : ReadFunction κ) (context : κ) (frameLength outputLimit : Nat) (heap : Heap) :
    Prop :=
  ∃ limit, ExceedsAt read context frameLength outputLimit heap limit

/-- The frame is too deep, or has too many values, core values or core bytes. -/
def LimitExceeded (read : ReadFunction κ) (context : κ) (frameLength outputLimit : Nat)
    (heap : Heap) : Prop :=
  ∃ limit, limit ≠ .keyLength ∧ ExceedsAt read context frameLength outputLimit heap limit

/-- The reason of a failing call tells limits apart from transport failures. -/
structure ReasonFaithful (convert : List Byte → ν) (frameLength outputLimit : Nat)
    (read : ReadFunction κ) (context : κ) (heap : Heap) : Prop where
  transport :
    (iperfReadBoundedResults convert frameLength outputLimit read context heap).output.reason =
      .readFailure →
    ∃ errno, .failed errno ∈ replies read context
      (iperfReadBoundedResults convert frameLength outputLimit read context heap).input
  limit : LimitExceeded read context frameLength outputLimit heap →
    (iperfReadBoundedResults convert frameLength outputLimit read context heap).output.reason ∈
      [OutputReason.byteLimit, .nodeLimit, .depthLimit]

section Call

variable {read : ReadFunction κ} {context : κ} {frameLength outputLimit : Nat} {heap : Heap}

/-- The stream with another error at its end is read alike. -/
theorem scanned_until_fault {stream : Stream}
    (scans : Scans read context frameLength outputLimit heap stream) {ending' : Errno}
    (nonzero' : ending' ≠ 0) :
    let scan := scanned read context frameLength outputLimit heap
    (scan.2.scan.error = scanError (callStart outputLimit heap) { stream with ending := ending' } ∧
        ∀ errno, .failed errno ∉ replies read context scan.2.input) ∨
      (Faulted read context stream.ending scan.2.input ∧
        scanError (callStart outputLimit heap) { stream with ending := ending' } = ending') := by
  intro scan
  have same : stream.lost = ([] : List Byte).length + stream.lost := (Nat.zero_add _).symm
  rcases alike_or_faulted scans.arrives (callStart outputLimit heap) same nonzero' with
    ⟨-, sameScan, none⟩ | ⟨⟨faulted, -⟩, other⟩
  · rw [List.append_nil] at sameScan
    exact .inl ⟨congrArg ScanState.error sameScan, none⟩
  · rw [List.append_nil] at other
    exact .inr ⟨faulted, other rfl⟩

/-- A frame that is too big fails the scan, and the read function has not failed by then. -/
theorem ExceedsAt.scanned {limit : Limit}
    (exceeds : ExceedsAt read context frameLength outputLimit heap limit) :
    let scan := scanned read context frameLength outputLimit heap
    scan.1 = false ∧ scan.2.scan.error = EFBIG ∧
      ∀ errno, .failed errno ∉ replies read context scan.2.input := by
  intro scan
  obtain ⟨stream, before, event, after, middle, scans, reading, performed, named, exceeds⟩ := exceeds
  have foreign : (1000 : Errno) ≠ 0 := by decide
  have failing : Failing (callStart outputLimit heap) { stream with ending := 1000 } EFBIG :=
    .event reading performed (.limit named exceeds)
  obtain ⟨refused, -⟩ := scanError_of_failing (begins_callStart outputLimit heap) foreign failing
  rcases scanned_until_fault scans foreign with ⟨error, none⟩ | ⟨-, other⟩
  · rw [refused] at error
    refine ⟨Bool.eq_false_of_not_eq_true fun succeeded => ?_, error, none⟩
    exact absurd (error.symm.trans (scanned_clean succeeded)) (by decide)
  · exact absurd (refused.symm.trans other) (by decide)

/-- Where a text is cut off, the read function was at fault. -/
theorem faulted_of_cut {stream : Stream} {after : ScanState}
    (scans : Scans read context frameLength outputLimit heap stream) (lost : stream.lost ≠ 0)
    (performed : perform stream.reading.1 (callStart outputLimit heap) = (true, after))
    (short : stream.reading.2 = .cut)
    (error : (scanned read context frameLength outputLimit heap).2.scan.error = stream.ending) :
    Faulted read context stream.ending
      (scanned read context frameLength outputLimit heap).2.input := by
  obtain ⟨ending', nonzero', other⟩ : ∃ ending' : Errno, ending' ≠ 0 ∧ stream.ending ≠ ending' := by
    by_cases same : stream.ending = 1000
    · exact ⟨1001, by decide, by rw [same]; decide⟩
    · exact ⟨1000, by decide, same⟩
  have failing : Failing (callStart outputLimit heap) { stream with ending := ending' } ending' :=
    .cut lost performed short
  rcases scanned_until_fault scans nonzero' with ⟨scanned, -⟩ | ⟨faulted, -⟩
  · rw [(scanError_of_failing (begins_callStart outputLimit heap) nonzero' failing).1] at scanned
    exact absurd (error.symm.trans scanned) other
  · exact faulted

theorem ReaderFault.failed {capacity : Nat} {reply : ReadResult} {error : Errno}
    (fault : ReaderFault capacity reply error) (other : error ≠ EPROTO) :
    ∃ errno, reply = .failed errno := by
  cases fault with
  | negative => exact ⟨_, rfl⟩
  | _ => exact absurd rfl other

theorem readFailure_of_reasonOf {error : Errno} (reason : reasonOf error = .readFailure) :
    error ≠ ENOMEM ∧ error ≠ EPROTO := by
  constructor <;> rintro rfl <;> cases reason

/-- A call that fails for neither lack of memory nor invalid data, with a frame that is not too
big, got a negative reply. -/
theorem failed_reply (convert : List Byte → ν) (valid : ValidCall frameLength outputLimit)
    (granted : (Heap.malloc (resultCoreMaxBytes + 1) heap).1 = true)
    (failed : (scanned read context frameLength outputLimit heap).1 = false)
    (fits : ¬ TooBig read context frameLength outputLimit heap)
    (reason : (iperfReadBoundedResults convert frameLength outputLimit read context
      heap).output.reason = .readFailure) :
    ∃ errno, .failed errno ∈ replies read context
      (iperfReadBoundedResults convert frameLength outputLimit read context heap).input := by
  obtain ⟨-, output, input⟩ := call_of_scanned convert valid granted failed
  rw [output] at reason
  obtain ⟨memory, data⟩ := readFailure_of_reasonOf reason
  obtain ⟨stream, arrives, ending⟩ := exists_arrives read (callFeed context frameLength)
  have scans : Scans read context frameLength outputLimit heap stream :=
    ⟨valid, granted, arrives, ending⟩
  have failing := failing_of_scanError (begins_callStart outputLimit heap) ending
    (scanned_error arrives ▸ scanned_failed failed)
  rw [← scanned_error arrives] at failing
  generalize same : (scanned read context frameLength outputLimit heap).2.scan.error = error
    at failing memory data
  cases failing with
  | event reading performed refusal =>
      cases refusal with
      | limit named exceeds =>
          exact absurd ⟨_, _, _, _, _, _, scans, reading, performed, named, exceeds⟩ fits
      | nulKey => exact absurd rfl data
      | memory => exact absurd rfl memory
  | text => exact absurd rfl data
  | cut lost performed short =>
      obtain ⟨reply, replied, capacity, fault⟩ := faulted_of_cut scans lost performed short same
      obtain ⟨errno, rfl⟩ := fault.failed data
      rw [input]
      exact ⟨errno, replied⟩

end Call

/-- The reason of a failing call is faithful exactly when the frame is not too big. -/
theorem reasonFaithful_iff (convert : List Byte → ν) (frameLength outputLimit : Nat)
    (read : ReadFunction κ) (context : κ) (heap : Heap) (positive : 1 ≤ outputLimit)
    (small : outputLimit ≤ outputMaxBytes) {error : Errno}
    (failed : (iperfReadBoundedResults convert frameLength outputLimit read context heap).result =
      .error error) :
    ReasonFaithful convert frameLength outputLimit read context heap ↔
      ¬ TooBig read context frameLength outputLimit heap := by
  constructor
  · intro faithful tooBig
    obtain ⟨limit, exceeds⟩ := tooBig
    obtain ⟨scanFailed, large, none⟩ := exceeds.scanned
    obtain ⟨stream, _, _, _, _, scans, -⟩ := exceeds
    obtain ⟨-, output, input⟩ := call_of_scanned convert scans.valid scans.granted scanFailed
    have reason := congrArg ServerOutput.reason output
    rw [large] at reason
    obtain ⟨errno, replied⟩ := faithful.transport reason
    rw [input] at replied
    exact none errno replied
  · intro fits
    refine ⟨fun reason => ?_, fun ⟨limit, _, exceeds⟩ => absurd ⟨limit, exceeds⟩ fits⟩
    rcases (call_failure convert positive small failed).2 with
      ⟨-, -, output⟩ | ⟨valid, output, rfl | ⟨granted, scanFailed⟩⟩
    · rw [output] at reason
      cases reason
    · rw [output] at reason
      cases reason
    · exact failed_reply convert valid granted scanFailed fits reason

theorem reasonFaithful_of_malformedFrame :
    malformedRead.output.reason = .invalidData ∧
      ReasonFaithful id malformedFrame.length 1 (memoryReader 8) malformedFrame
        ⟨fun _ => true, []⟩ := by
  refine ⟨by decide +kernel, (reasonFaithful_iff id malformedFrame.length 1 (memoryReader 8)
    malformedFrame ⟨fun _ => true, []⟩ (by decide) (by decide) malformedRead_result).mpr ?_⟩
  rintro ⟨limit, exceeds⟩
  have protocol : (scanned (memoryReader 8) malformedFrame malformedFrame.length 1
      ⟨fun _ => true, []⟩).2.scan.error = EPROTO := by decide +kernel
  exact absurd (protocol.symm.trans exceeds.scanned.2.1) (by decide)

/-! ### A frame that is too deep -/

theorem memoryReader_replies (size : Nat) (bytes : List Byte) (requests : List ReadRequest)
    (errno : Errno) : .failed errno ∉ (answer (memoryReader size) bytes requests).1 := by
  induction requests generalizing bytes with
  | nil => exact List.not_mem_nil
  | cons request requests inductionHypothesis =>
      rw [answer, List.mem_cons, not_or]
      exact ⟨ReadResult.noConfusion, inductionHypothesis _⟩

/-- Arrays in arrays, one more than allowed. -/
def deepFrame : List Byte :=
  bytesOf "\x7b\"a\":" ++ List.replicate 65 91 ++ List.replicate 65 93 ++ bytesOf "\x7d"

def deepRead : ReadOutcome (List Byte) (Feed (List Byte)) :=
  iperfReadBoundedResults id deepFrame.length 1 (memoryReader 4096) deepFrame ⟨fun _ => true, []⟩

/-- The frame is refused for its depth. The reason says that the read function failed, which
it never does. -/
theorem readFailure_of_deepFrame :
    deepRead.result.isOk = false ∧ deepRead.output.reason = .readFailure ∧
      (∀ errno, .failed errno ∉ replies (memoryReader 4096) deepFrame deepRead.input) ∧
      ¬ ReasonFaithful id deepFrame.length 1 (memoryReader 4096) deepFrame
        ⟨fun _ => true, []⟩ := by
  have reason : deepRead.output.reason = .readFailure := by decide +kernel
  have none : ∀ errno, .failed errno ∉ replies (memoryReader 4096) deepFrame deepRead.input :=
    memoryReader_replies 4096 deepFrame deepRead.input.requests
  refine ⟨by decide +kernel, reason, none, fun faithful => ?_⟩
  rw [deepRead] at reason none
  obtain ⟨errno, replied⟩ := faithful.transport reason
  exact none errno replied

end IperfSwift.Output
