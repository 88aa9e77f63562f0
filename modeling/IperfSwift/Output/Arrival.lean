import IperfSwift.Output.Language

/-!
Contract: whatever a read function does, its frame is some stream of bytes.

Owns: the stream that a feed turns out to be, for a read function without any
promise; the simulation of the feed by it; and that a successful scan has read
a documented frame even then.

Does not own: what a call does with that frame.
-/

set_option autoImplicit false

namespace IperfSwift.Output

open IperfSwift.Lib

variable {κ : Type} {read : ReadFunction κ}
variable {feed : Feed κ} {stream : Stream}

/-! ### The stream behind a feed -/

/-- What is left of a frame, as its read function will deliver it. -/
inductive Arrives (read : ReadFunction κ) : Feed κ → Stream → Prop where
  | pending {feed : Feed κ} {stream : Stream} {byte : Byte} {rest : List Byte}
      (next : feed.pending = byte :: rest) (later : Arrives read feed.advance stream) :
      Arrives read feed { stream with bytes := byte :: stream.bytes }
  | whole {feed : Feed κ} (ending : Errno) (empty : feed.pending = [])
      (nothingLeft : feed.remaining = 0) : Arrives read feed ⟨[], 0, ending⟩
  | failed {feed : Feed κ} {error : Errno} (empty : feed.pending = [])
      (remains : feed.remaining ≠ 0) (result : (feed.refill read).1 = .failed error) :
      Arrives read feed ⟨[], feed.remaining, error⟩
  | piece {feed : Feed κ} {stream : Stream} {byte : Byte} (empty : feed.pending = [])
      (remains : feed.remaining ≠ 0) (result : (feed.refill read).1 = .byte byte)
      (later : Arrives read (feed.refill read).2 stream) : Arrives read feed stream

/-- The two ways a refill can end. -/
theorem refill_cases (read : ReadFunction κ) (feed : Feed κ) :
    (∃ error, (feed.refill read).1 = .failed error ∧ error ≠ 0 ∧
        (feed.refill read).2.left = feed.left) ∨
      ∃ byte rest, (feed.refill read).1 = .byte byte ∧
        (feed.refill read).2.pending = byte :: rest ∧
        (feed.refill read).2.remaining + (byte :: rest).length = feed.remaining := by
  unfold Feed.refill
  dsimp only
  split
  next errno _ => exact .inl ⟨_, rfl, (Ending.failed errno).error_ne_zero, rfl⟩
  next => exact .inl ⟨EPROTO, rfl, by decide, rfl⟩
  next first rest _ =>
    split_ifs with tooLong
    · exact .inl ⟨EPROTO, rfl, by decide, rfl⟩
    · refine .inr ⟨first, rest, rfl, rfl, ?_⟩
      dsimp only
      omega

/-- Every feed is some stream: each byte and each refill brings it closer to its end. -/
theorem exists_arrives (read : ReadFunction κ) (feed : Feed κ) :
    ∃ stream, Arrives read feed stream ∧ stream.ending ≠ 0 := by
  induction measured : 2 * feed.remaining + feed.pending.length using Nat.strong_induction_on
    generalizing feed with
  | _ size inductionHypothesis =>
      cases next : feed.pending with
      | cons byte rest =>
          have smaller : 2 * feed.advance.remaining + feed.advance.pending.length < size := by
            rw [← measured, Feed.advance, next]
            exact Nat.lt_succ_self _
          obtain ⟨stream, arrives, nonzero⟩ := inductionHypothesis _ smaller feed.advance rfl
          exact ⟨_, .pending next arrives, nonzero⟩
      | nil =>
          by_cases nothingLeft : feed.remaining = 0
          · exact ⟨_, .whole EPROTO next nothingLeft, by decide⟩
          · rcases refill_cases read feed with
              ⟨error, failed, nonzero, -⟩ | ⟨byte, rest, found, now, less⟩
            · exact ⟨_, .failed next nothingLeft failed, nonzero⟩
            · have smaller : 2 * (feed.refill read).2.remaining +
                  (feed.refill read).2.pending.length < size := by
                rw [now]
                rw [next] at measured
                simp only [List.length_cons, List.length_nil] at less measured ⊢
                omega
              obtain ⟨stream, arrives, nonzero⟩ := inductionHypothesis _ smaller _ rfl
              exact ⟨stream, .piece next nothingLeft found arrives, nonzero⟩

/-- A feed with a pending byte is a stream with that byte in front. -/
theorem Arrives.exists_later (arrives : Arrives read feed stream) {byte : Byte} {rest : List Byte}
    (next : feed.pending = byte :: rest) :
    ∃ later, stream = { later with bytes := byte :: later.bytes } ∧
      Arrives read feed.advance later := by
  cases arrives with
  | @pending _ later first _ isNext laterArrives =>
      obtain ⟨rfl, -⟩ := List.cons.inj (next.symm.trans isNext)
      exact ⟨later, rfl, laterArrives⟩
  | whole ending empty nothingLeft | failed empty remains result
  | piece empty remains result later => cases next.symm.trans empty

theorem Arrives.left {feed : Feed κ} {stream : Stream} (arrives : Arrives read feed stream) :
    feed.left = stream.left := by
  induction arrives with
  | @pending feed stream byte rest next later inductionHypothesis =>
      simp only [Feed.left, Feed.advance, Stream.left, next, List.tail_cons,
        List.length_cons] at inductionHypothesis ⊢
      omega
  | whole ending empty nothingLeft => simp [Feed.left, Stream.left, empty, nothingLeft]
  | failed empty remains result => simp [Feed.left, Stream.left, empty]
  | @piece feed stream byte empty remains result later inductionHypothesis =>
      rcases refill_cases read feed with ⟨error, failed, -⟩ | ⟨first, rest, -, now, less⟩
      · rw [failed] at result
        cases result
      · rw [← inductionHypothesis, Feed.left, Feed.left, empty, now]
        simp only [List.length_cons, List.length_nil] at less ⊢
        omega

/-- What both inputs show. -/
theorem Arrives.peek_cases (arrives : Arrives read feed stream) :
    (∃ byte rest, (feed.peek read).1 = .byte byte ∧ stream.peek = (.byte byte, stream) ∧
        (feed.peek read).2.pending = byte :: rest ∧ Arrives read (feed.peek read).2 stream) ∨
      (feed.peek read = (.finished, feed) ∧ stream.peek = (.finished, stream)) ∨
      ∃ error, (feed.peek read).1 = .failed error ∧ stream.peek = (.failed error, stream) ∧
        (feed.peek read).2.left = feed.left ∧ error ≠ 0 := by
  have refills : ∀ {feed : Feed κ}, feed.pending = [] → feed.remaining ≠ 0 →
      feed.peek read = feed.refill read := by
    intro feed empty remains
    simp [Feed.peek, empty, remains]
  cases arrives with
  | @pending _ later byte rest next laterArrives =>
      have shown : feed.peek read = (.byte byte, feed) := by simp [Feed.peek, next]
      rw [shown]
      exact .inl ⟨byte, rest, rfl, rfl, next, .pending next laterArrives⟩
  | whole ending empty nothingLeft =>
      exact .inr (.inl ⟨by simp [Feed.peek, empty, nothingLeft], rfl⟩)
  | @failed _ error empty remains result =>
      rw [refills empty remains]
      rcases refill_cases read feed with ⟨shown, failed, nonzero, sameLeft⟩ | ⟨_, _, found, -⟩
      · rw [result, Peeked.failed.injEq] at failed
        refine .inr (.inr ⟨error, result, ?_, sameLeft, failed ▸ nonzero⟩)
        simp [Stream.peek, remains]
      · rw [result] at found
        cases found
  | @piece _ _ byte empty remains result later =>
      rw [refills empty remains]
      rcases refill_cases read feed with ⟨_, failed, -⟩ | ⟨first, rest, found, now, -⟩
      · rw [result] at failed
        cases failed
      · rw [result, Peeked.byte.injEq] at found
        subst found
        obtain ⟨tail, shape, -⟩ := later.exists_later now
        refine .inl ⟨byte, rest, result, ?_, now, later⟩
        rw [shape]
        rfl

/-- The stream simulates the feed, whatever the read function does. -/
theorem arrives_simulation (read : ReadFunction κ) :
    Simulation (Arrives read) (Feed.source read) Stream.source where
  samePeek := by
    intro feed stream arrives
    change (feed.peek read).1 = stream.peek.1
    rcases arrives.peek_cases with ⟨byte, rest, shown, same, -⟩ | ⟨shown, same⟩ |
      ⟨error, shown, same, -⟩ <;> rw [shown, same]
  left := fun _ _ arrives => arrives.left
  leftAfter := by
    intro feed stream arrives
    change (feed.peek read).2.left = stream.peek.2.left
    rcases arrives.peek_cases with ⟨byte, rest, -, same, -, still⟩ | ⟨shown, same⟩ |
      ⟨error, -, same, sameLeft, -⟩
    · rw [same]
      exact still.left
    · rw [shown, same]
      exact arrives.left
    · rw [same, sameLeft]
      exact arrives.left
  byte := by
    intro feed stream byte arrives found
    change Arrives read (feed.peek read).2 stream.peek.2 ∧
      Arrives read (feed.peek read).2.advance stream.peek.2.advance
    change (feed.peek read).1 = _ at found
    rcases arrives.peek_cases with ⟨shown, rest, -, same, next, still⟩ | ⟨shown, -⟩ |
      ⟨error, shown, -⟩
    · rw [same]
      obtain ⟨later, rfl, laterArrives⟩ := still.exists_later next
      exact ⟨still, laterArrives⟩
    · simp [shown] at found
    · simp [shown] at found
  finished := by
    intro feed stream arrives found
    change Arrives read (feed.peek read).2 stream.peek.2
    change (feed.peek read).1 = _ at found
    rcases arrives.peek_cases with ⟨byte, rest, shown, -⟩ | ⟨shown, same⟩ | ⟨error, shown, -⟩
    · simp [shown] at found
    · rw [shown, same]
      exact arrives
    · simp [shown] at found
  failed := by
    intro feed stream error arrives found
    change (feed.peek read).1 = _ at found
    rcases arrives.peek_cases with ⟨byte, rest, shown, -⟩ | ⟨shown, -⟩ |
      ⟨other, shown, -, -, nonzero⟩
    · simp [shown] at found
    · simp [shown] at found
    · rw [shown, Peeked.failed.injEq] at found
      exact found ▸ nonzero

/-! ### Successful scans -/

theorem Arrives.lost_of_finished (arrives : Arrives read feed stream) (empty : feed.pending = [])
    (nothingLeft : feed.remaining = 0) : stream.lost = 0 := by
  cases arrives with
  | pending next later => cases next.symm.trans empty
  | whole ending _ _ => rfl
  | failed _ remains _ | piece _ remains _ _ => exact absurd nothingLeft remains

theorem root_stream_lost (stream : Stream) (scan : ScanState) :
    (root Stream.source ⟨stream, scan⟩).2.input.lost = stream.lost := by
  have keeps : Keeps (fun parser => parser.input.lost = stream.lost) Stream.source := by
    refine @keeps_input _ (fun input : Stream => input.lost = stream.lost) Stream.source
      (fun input same => ?_) fun _ same => same
    change input.peek.2.lost = stream.lost
    unfold Stream.peek
    split
    · exact same
    · split <;> exact same
  exact keeps.preserves_root (fun _ same => same) ⟨stream, scan⟩ rfl

/-- A scan that succeeds has read a documented frame, whoever delivered it. -/
theorem document_of_scanned (context : κ) {frameLength outputLimit : Nat} {heap : Heap}
    (succeeded : (scanned read context frameLength outputLimit heap).1 = true) :
    ∃ document, Documented document ∧
      perform (documentEvents document)
          (startState outputLimit (Heap.malloc (resultCoreMaxBytes + 1) heap).2) =
        (true, (scanned read context frameLength outputLimit heap).2.scan) ∧
      (scanned read context frameLength outputLimit heap).2.scan.core = coreText document := by
  obtain ⟨stream, arrives, -⟩ := exists_arrives read ⟨context, frameLength, [], 0, []⟩
  have simulation := arrives_simulation read
  obtain ⟨sameResult, after⟩ := simulation.related_root _ _ (simulation.sameScan arrives
    (startState outputLimit (Heap.malloc (resultCoreMaxBytes + 1) heap).2))
  obtain ⟨clean, feed, found, atEnd⟩ :=
    root_succeeded (feed_failed_ne_zero read) (Prod.ext succeeded rfl)
  -- The feed has ended, so nothing of the stream was lost.
  have whole : stream.lost = 0 := by
    obtain ⟨empty, nothingLeft, unmoved⟩ := feed_finished found
    have final := after.inputs clean
    rw [atEnd.trans unmoved] at final
    rw [← root_stream_lost stream]
    exact final.lost_of_finished empty nothingLeft
  obtain ⟨bytes, lost, ending⟩ := stream
  obtain rfl : lost = 0 := whole
  obtain ⟨trace, rest, scan, final, -, ⟨-, -, document, rfl, shaped⟩, run⟩ := exact_root.sound rfl
    (Prod.ext (sameResult.symm.trans succeeded) rfl) (after.scan ▸ clean)
  have sameScan : (scanned read context frameLength outputLimit heap).2.scan = scan :=
    after.scan.trans (congrArg Parser.scan final)
  obtain ⟨documented, core⟩ := documented_of_perform shaped run
  rw [sameScan]
  exact ⟨document, documented, run, core⟩

end IperfSwift.Output
