import IperfSwift.Output.Causes
import IperfSwift.Output.Replies

/-!
Contract: a result read that fails delivers nothing and names its first cause.

Owns: the first failure of a call; the theorem that every failing call has one, reports
its error, and could have no other.

Does not own: calls that succeed; how well the reported reason tells failures
apart.
-/

set_option autoImplicit false

namespace IperfSwift.Output

open IperfSwift.Lib
open IperfSwift.CJson

variable {κ ν σ : Type}
variable {stream : Stream} {error : Errno}

/-! ### The read function -/

/-- The feed that is left when these bytes have been handed out. -/
inductive Hands (read : ReadFunction κ) : Feed κ → List Byte → Feed κ → Prop where
  | nothing (feed : Feed κ) : Hands read feed [] feed
  | pending {feed last : Feed κ} {byte : Byte} {rest bytes : List Byte}
      (next : feed.pending = byte :: rest) (later : Hands read feed.advance bytes last) :
      Hands read feed (byte :: bytes) last
  | piece {feed last : Feed κ} {byte : Byte} {bytes : List Byte} (empty : feed.pending = [])
      (remains : feed.remaining ≠ 0) (result : (feed.refill read).1 = .byte byte)
      (later : Hands read (feed.refill read).2 bytes last) : Hands read feed bytes last

/-- Bytes are lost where the read function does something wrong. -/
theorem Arrives.fault {read : ReadFunction κ} {feed : Feed κ} (arrives : Arrives read feed stream)
    (lost : stream.lost ≠ 0) :
    ∃ last, Hands read feed stream.bytes last ∧ last.pending = [] ∧ last.remaining ≠ 0 ∧
      ReaderFault (min last.remaining inputBuffer)
        (read last.context (min last.remaining inputBuffer)).1 stream.ending := by
  induction arrives with
  | pending next later inductionHypothesis =>
      obtain ⟨last, hands, stalls⟩ := inductionHypothesis lost
      exact ⟨last, .pending next hands, stalls⟩
  | whole ending empty nothingLeft => exact absurd rfl lost
  | @failed feed error empty remains result =>
      exact ⟨feed, .nothing feed, empty, remains, fault_of_refill result⟩
  | piece empty remains result later inductionHypothesis =>
      obtain ⟨last, hands, stalls⟩ := inductionHypothesis lost
      exact ⟨last, .piece empty remains result hands, stalls⟩

/-! ### Failing calls -/

/-- The state a scan starts from, once the buffer for the core text is granted. -/
def callStart (outputLimit : Nat) (heap : Heap) : ScanState :=
  startState outputLimit (Heap.malloc (resultCoreMaxBytes + 1) heap).2

theorem begins_callStart (outputLimit : Nat) (heap : Heap) : Begins (callStart outputLimit heap) :=
  ⟨rfl, rfl⟩

/-- A call that scans the bytes that its read function delivers. -/
structure Scans (read : ReadFunction κ) (context : κ) (frameLength outputLimit : Nat) (heap : Heap)
    (stream : Stream) : Prop where
  valid : ValidCall frameLength outputLimit
  granted : (Heap.malloc (resultCoreMaxBytes + 1) heap).1 = true
  arrives : Arrives read (callFeed context frameLength) stream
  ending : stream.ending ≠ 0

/-- The first thing that goes wrong in a call with a valid output limit, and its error: the
length of the frame, memory for its core text, the first of its events that is refused, its
text where it is refused, the read function where it stops, or memory for the tree. -/
inductive FirstFailure (convert : List Byte → ν) (read : ReadFunction κ) (context : κ)
    (frameLength outputLimit : Nat) (heap : Heap) : Errno → Prop where
  | length (outside : frameLength = 0 ∨ resultFrameMaxBytes < frameLength) :
      FirstFailure convert read context frameLength outputLimit heap EFBIG
  | buffer (valid : ValidCall frameLength outputLimit)
      (refused : (Heap.malloc (resultCoreMaxBytes + 1) heap).1 = false) :
      FirstFailure convert read context frameLength outputLimit heap ENOMEM
  | event {stream : Stream} {before after : List Event} {event : Event} {middle : ScanState}
      {error : Errno} (scans : Scans read context frameLength outputLimit heap stream)
      (reading : stream.reading.1 = before ++ event :: after)
      (performed : perform before (callStart outputLimit heap) = (true, middle))
      (refusal : Refusal before middle event error) :
      FirstFailure convert read context frameLength outputLimit heap error
  | text {stream : Stream} {after : ScanState}
      (scans : Scans read context frameLength outputLimit heap stream)
      (performed : perform stream.reading.1 (callStart outputLimit heap) = (true, after))
      (refused : stream.reading.2 = .refused) :
      FirstFailure convert read context frameLength outputLimit heap EPROTO
  | reader {stream : Stream} {after : ScanState} {last : Feed κ}
      (scans : Scans read context frameLength outputLimit heap stream)
      (performed : perform stream.reading.1 (callStart outputLimit heap) = (true, after))
      (lost : stream.lost ≠ 0) (short : stream.reading.2 = .cut)
      (hands : Hands read (callFeed context frameLength) stream.bytes last)
      (empty : last.pending = []) (remains : last.remaining ≠ 0)
      (fault : ReaderFault (min last.remaining inputBuffer)
        (read last.context (min last.remaining inputBuffer)).1 stream.ending) :
      FirstFailure convert read context frameLength outputLimit heap stream.ending
  | tree (valid : ValidCall frameLength outputLimit)
      (granted : (Heap.malloc (resultCoreMaxBytes + 1) heap).1 = true)
      (scans : (scanned read context frameLength outputLimit heap).1 = true)
      (nothing : (parseCore convert
        (scanned read context frameLength outputLimit heap).2.scan).1 = none)
      (refused : refusedSince (scanned read context frameLength outputLimit heap).2.scan.heap
        (cJSONParseWithLengthOpts convert
          ((scanned read context frameLength outputLimit heap).2.scan.core ++ [0]) true
          (scanned read context frameLength outputLimit heap).2.scan.heap).2 = true) :
      FirstFailure convert read context frameLength outputLimit heap ENOMEM

/-- How the error of a failing call is reported as a reason, once the scan has begun. -/
def reasonOf (error : Errno) : OutputReason :=
  if error = ENOMEM then .allocationFailure
  else if error = EPROTO then .invalidData
  else .readFailure

theorem reasonOf_ne_none (error : Errno) : reasonOf error ≠ .none := by
  unfold reasonOf
  split
  · decide
  · split <;> decide

/-- What is returned without a result. -/
theorem finishRead_none (input : σ) {scan : ScanState} (same : scan.error = error)
    (nonzero : error ≠ 0) :
    (finishRead (none : Option (Parsed (Node ν))) ⟨input, scan⟩).result = .error error ∧
      (finishRead (none : Option (Parsed (Node ν))) ⟨input, scan⟩).output =
        { state := .invalid, reason := reasonOf error } := by
  subst same
  exact ⟨congrArg Except.error (if_pos nonzero), rfl⟩

section Call

variable {read : ReadFunction κ} {context : κ} {frameLength outputLimit : Nat} {heap : Heap}

/-- The error of a scan is the one of the bytes that arrive. -/
theorem scanned_error (arrives : Arrives read (callFeed context frameLength) stream) :
    (scanned read context frameLength outputLimit heap).2.scan.error =
      scanError (callStart outputLimit heap) stream := by
  have simulation := arrives_simulation read
  obtain ⟨-, after⟩ := simulation.related_root _ _
    (simulation.sameScan arrives (callStart outputLimit heap))
  exact congrArg ScanState.error after.scan

/-- A scan that reports no success has an error. -/
theorem scanned_failed (failed : (scanned read context frameLength outputLimit heap).1 = false) :
    (scanned read context frameLength outputLimit heap).2.scan.error ≠ 0 := by
  obtain ⟨stream, arrives, -⟩ := exists_arrives read (callFeed context frameLength)
  have nonzero : EPROTO ≠ 0 := by decide
  have lost : stream.lost = (List.replicate stream.lost (0 : Byte)).length + 0 := by simp
  -- The same bytes, with all that is lost there after all.
  rcases alike_or_faulted arrives (callStart outputLimit heap) lost nonzero with
    ⟨sameResult, sameScan, -⟩ | ⟨⟨-, stopped⟩, -⟩
  · intro clean
    have run : root Stream.source (position EPROTO (stream.bytes ++
        List.replicate stream.lost 0) (callStart outputLimit heap)) = (false, _) :=
      Prod.ext (sameResult.symm.trans failed) rfl
    obtain ⟨_, _, _, _, _, ⟨succeeded, _⟩, _⟩ := exact_root.sound rfl run
      ((congrArg ScanState.error sameScan).symm.trans clean)
    cases succeeded
  · exact stopped

/-- The causes of a failing scan in terms of a call. -/
theorem firstFailure_of_failing (convert : List Byte → ν)
    (scans : Scans read context frameLength outputLimit heap stream)
    (failing : Failing (callStart outputLimit heap) stream error) :
    FirstFailure convert read context frameLength outputLimit heap error := by
  cases failing with
  | event reading performed refusal => exact .event scans reading performed refusal
  | text performed refused => exact .text scans performed refused
  | cut lost performed short =>
      obtain ⟨last, hands, empty, remains, fault⟩ := scans.arrives.fault lost
      exact .reader scans performed lost short hands empty remains fault

theorem firstFailure_of_scanned (convert : List Byte → ν)
    (valid : ValidCall frameLength outputLimit)
    (granted : (Heap.malloc (resultCoreMaxBytes + 1) heap).1 = true)
    (failed : (scanned read context frameLength outputLimit heap).1 = false) :
    FirstFailure convert read context frameLength outputLimit heap
      (scanned read context frameLength outputLimit heap).2.scan.error := by
  obtain ⟨stream, arrives, ending⟩ := exists_arrives read (callFeed context frameLength)
  have nonzero := scanned_failed failed
  rw [scanned_error arrives] at nonzero ⊢
  exact firstFailure_of_failing convert ⟨valid, granted, arrives, ending⟩
    (failing_of_scanError (begins_callStart outputLimit heap) ending nonzero)

/-- What a call returns when its scan fails. -/
theorem call_of_scanned (convert : List Byte → ν) (valid : ValidCall frameLength outputLimit)
    (granted : (Heap.malloc (resultCoreMaxBytes + 1) heap).1 = true)
    (failed : (scanned read context frameLength outputLimit heap).1 = false) :
    let outcome := iperfReadBoundedResults convert frameLength outputLimit read context heap
    let scan := (scanned read context frameLength outputLimit heap).2
    outcome.result = .error scan.scan.error ∧
      outcome.output = { state := .invalid, reason := reasonOf scan.scan.error } ∧
      outcome.input = scan.input := by
  intro outcome scan
  have same : outcome = finishRead none scan := by
    rw [show outcome = _ from iperfReadBoundedResults_valid valid convert]
    dsimp only
    rw [if_pos granted, if_neg (Bool.eq_false_iff.mp failed)]
  rw [same]
  obtain ⟨result, output⟩ := finishRead_none scan.input rfl (scanned_failed failed)
  exact ⟨result, output, rfl⟩

/-- cJSON refuses the core text of a scan for lack of memory only. -/
theorem refused_of_parseCore (convert : List Byte → ν)
    (scans : (scanned read context frameLength outputLimit heap).1 = true)
    (nothing : (parseCore convert
      (scanned read context frameLength outputLimit heap).2.scan).1 = none) :
    refusedSince (scanned read context frameLength outputLimit heap).2.scan.heap
      (cJSONParseWithLengthOpts convert
        ((scanned read context frameLength outputLimit heap).2.scan.core ++ [0]) true
        (scanned read context frameLength outputLimit heap).2.scan.heap).2 = true := by
  obtain ⟨document, documented, -, core⟩ := document_of_scanned context scans
  rw [parseCore_fst] at nothing
  rcases obtains_core convert documented
    (scanned read context frameLength outputLimit heap).2.scan.heap with done | ⟨_, failed, refuses⟩
  · rw [← core] at done
    rw [done] at nothing
    cases nothing
  · rw [← core] at failed
    rw [failed]
    exact refusedSince_of_refuses refuses

theorem scanned_clean (scans : (scanned read context frameLength outputLimit heap).1 = true) :
    (scanned read context frameLength outputLimit heap).2.scan.error = 0 :=
  (root_succeeded (feed_failed_ne_zero read) (Prod.ext scans rfl)).1

theorem error_of_parseCore (convert : List Byte → ν) {state : ScanState} (clean : state.error = 0)
    (nothing : (parseCore convert state).1 = none)
    (refused : refusedSince state.heap (cJSONParseWithLengthOpts convert (state.core ++ [0]) true
      state.heap).2 = true) : (parseCore convert state).2.error = ENOMEM := by
  rw [parseCore_fst] at nothing
  simp only [parseCore, nothing, refused, if_true]
  simp [fail, clean]

/-- A failing call has a first failure, reports its error, and leaves no output but a reason.
Behind a valid length it has run out of memory or its scan has failed. -/
theorem call_failure (convert : List Byte → ν) (positive : 1 ≤ outputLimit)
    (small : outputLimit ≤ outputMaxBytes)
    (failed : (iperfReadBoundedResults convert frameLength outputLimit read context heap).result =
      .error error) :
    FirstFailure convert read context frameLength outputLimit heap error ∧
      ((¬ ValidCall frameLength outputLimit ∧ error = EFBIG ∧
          (iperfReadBoundedResults convert frameLength outputLimit read context heap).output =
            { state := .invalid, reason := .byteLimit }) ∨
        (ValidCall frameLength outputLimit ∧
          (iperfReadBoundedResults convert frameLength outputLimit read context heap).output =
            { state := .invalid, reason := reasonOf error } ∧
          (error = ENOMEM ∨ ((Heap.malloc (resultCoreMaxBytes + 1) heap).1 = true ∧
            (scanned read context frameLength outputLimit heap).1 = false)))) := by
  by_cases outside : frameLength = 0 ∨ resultFrameMaxBytes < frameLength
  · have goodLimit : ¬ (outputLimit = 0 ∨ outputMaxBytes < outputLimit) := by omega
    have invalid : ¬ ValidCall frameLength outputLimit := by
      intro valid
      have nonempty := valid.nonempty
      have short := valid.short
      omega
    rw [iperfReadBoundedResults, readBoundedResults, if_neg goodLimit, if_pos outside] at failed ⊢
    obtain rfl := Except.error.inj failed
    exact ⟨.length outside, .inl ⟨invalid, rfl, rfl⟩⟩
  · have valid : ValidCall frameLength outputLimit := ⟨by omega, by omega, positive, small⟩
    rw [iperfReadBoundedResults_valid valid] at failed ⊢
    dsimp only at failed ⊢
    by_cases granted : (Heap.malloc (resultCoreMaxBytes + 1) heap).1 = true
    · rw [if_pos granted] at failed ⊢
      by_cases scans : (scanned read context frameLength outputLimit heap).1 = true
      · rw [if_pos scans] at failed ⊢
        cases found : (parseCore convert
            (scanned read context frameLength outputLimit heap).2.scan).1 with
        | some tree =>
            rw [found, finishRead] at failed
            cases failed
        | none =>
            have refused := refused_of_parseCore convert scans found
            have memory := error_of_parseCore convert (scanned_clean scans) found refused
            rw [found] at failed
            obtain ⟨result, output⟩ := finishRead_none _ memory (by decide)
            obtain rfl := Except.error.inj (result.symm.trans failed)
            exact ⟨.tree valid granted scans found refused, .inr ⟨valid, output, .inl rfl⟩⟩
      · have fails := Bool.eq_false_of_not_eq_true scans
        have first := firstFailure_of_scanned convert valid granted fails
        rw [if_neg scans] at failed ⊢
        obtain ⟨result, output⟩ := finishRead_none _ rfl (scanned_failed fails)
        obtain rfl := Except.error.inj (result.symm.trans failed)
        exact ⟨first, .inr ⟨valid, output, .inr ⟨granted, fails⟩⟩⟩
    · have refused := Bool.eq_false_of_not_eq_true granted
      rw [if_neg granted] at failed ⊢
      obtain rfl := Except.error.inj failed
      exact ⟨.buffer valid refused, .inr ⟨valid, rfl, .inl rfl⟩⟩

/-- A scan that fails on the bytes that arrive fails the call with its error. -/
theorem result_of_failing (convert : List Byte → ν)
    (scans : Scans read context frameLength outputLimit heap stream)
    (failing : Failing (callStart outputLimit heap) stream error) :
    (iperfReadBoundedResults convert frameLength outputLimit read context heap).result =
      .error error := by
  obtain ⟨same, nonzero⟩ :=
    scanError_of_failing (begins_callStart outputLimit heap) scans.ending failing
  rw [← scanned_error scans.arrives] at same
  have failed : (scanned read context frameLength outputLimit heap).1 = false := by
    exact Bool.eq_false_of_not_eq_true fun scanned =>
      nonzero (same.symm.trans (scanned_clean scanned))
  rw [(call_of_scanned convert scans.valid scans.granted failed).1, same]

/-- A first failure is what the call reports. -/
theorem FirstFailure.result {convert : List Byte → ν} (positive : 1 ≤ outputLimit)
    (small : outputLimit ≤ outputMaxBytes)
    (first : FirstFailure convert read context frameLength outputLimit heap error) :
    (iperfReadBoundedResults convert frameLength outputLimit read context heap).result =
      .error error := by
  cases first with
  | length outside =>
      have goodLimit : ¬ (outputLimit = 0 ∨ outputMaxBytes < outputLimit) := by omega
      rw [iperfReadBoundedResults, readBoundedResults, if_neg goodLimit, if_pos outside]
  | buffer valid refused =>
      rw [iperfReadBoundedResults_valid valid]
      dsimp only
      rw [if_neg (by rw [refused]; decide)]
  | event scans reading performed refusal =>
      exact result_of_failing convert scans (.event reading performed refusal)
  | text scans performed refused =>
      exact result_of_failing convert scans (.text performed refused)
  | reader scans performed lost short =>
      exact result_of_failing convert scans (.cut lost performed short)
  | tree valid granted scans nothing refused =>
      have memory := error_of_parseCore convert (scanned_clean scans) nothing refused
      rw [iperfReadBoundedResults_valid valid]
      dsimp only
      rw [if_pos granted, if_pos scans, nothing]
      exact (finishRead_none _ memory (by decide)).1

/-- A result read that fails delivers nothing, and its error is the one of the first thing that
goes wrong, which no other error is. -/
theorem iperfReadBoundedResults_failure (convert : List Byte → ν) (frameLength outputLimit : Nat)
    (read : ReadFunction κ) (context : κ) (heap : Heap) (positive : 1 ≤ outputLimit)
    (small : outputLimit ≤ outputMaxBytes) {error : Errno}
    (failed : (iperfReadBoundedResults convert frameLength outputLimit read context heap).result =
      .error error) :
    let output := (iperfReadBoundedResults convert frameLength outputLimit read context heap).output
    output.value = none ∧ output.held.length = 0 ∧ output.observedBytes = 0 ∧
      output.format = .none ∧ output.state = .invalid ∧
      ∀ other, FirstFailure convert read context frameLength outputLimit heap other ↔
        other = error := by
  intro output
  obtain ⟨first, left⟩ := call_failure convert positive small failed
  have cleared : ∃ reason, output = { state := .invalid, reason := reason } := by
    rcases left with ⟨-, -, same⟩ | ⟨-, same, -⟩
    · exact ⟨_, same⟩
    · exact ⟨_, same⟩
  obtain ⟨reason, same⟩ := cleared
  rw [same]
  refine ⟨rfl, rfl, rfl, rfl, rfl, fun other => ⟨fun otherFirst => ?_, ?_⟩⟩
  · exact Except.error.inj ((otherFirst.result positive small).symm.trans failed)
  · rintro rfl
    exact first

end Call

/-- A frame that turns out to be malformed behind its output text. -/
def malformedFrame : List Byte := bytesOf "\x7b\"server_output_text\":\"x\"]"

def malformedRead : ReadOutcome (List Byte) (Feed (List Byte)) :=
  iperfReadBoundedResults id malformedFrame.length 1 (memoryReader 8) malformedFrame
    ⟨fun _ => true, []⟩

theorem malformedRead_result : malformedRead.result = .error EPROTO := by
  have valid : ValidCall malformedFrame.length 1 :=
    ⟨by decide, by decide, by decide, by decide⟩
  have failed : (scanned (memoryReader 8) malformedFrame malformedFrame.length 1
      ⟨fun _ => true, []⟩).1 = false := by decide +kernel
  have error : (scanned (memoryReader 8) malformedFrame malformedFrame.length 1
      ⟨fun _ => true, []⟩).2.scan.error = EPROTO := by decide +kernel
  rw [malformedRead, (call_of_scanned id valid rfl failed).1, error]

theorem failure_of_malformedFrame :
    malformedRead.output.value = none ∧ malformedRead.output.state = .invalid ∧
      ∀ other, FirstFailure id (memoryReader 8) malformedFrame malformedFrame.length 1
        ⟨fun _ => true, []⟩ other ↔ other = EPROTO := by
  obtain ⟨value, -, -, -, state, first⟩ := iperfReadBoundedResults_failure id malformedFrame.length
    1 (memoryReader 8) malformedFrame ⟨fun _ => true, []⟩ (by decide) (by decide)
    malformedRead_result
  exact ⟨value, state, first⟩

end IperfSwift.Output
