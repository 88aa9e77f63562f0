import IperfSwift.Output.Arrival

/-!
Contract: what a read function has replied when a scan is over.

Owns: what a read function does wrong; the replies of a read function over a whole
call; and the coupling of a scan of a feed with one of a stream that goes on where the
feed fails, which says what was replied.

Does not own: why a scan fails; the reason that is reported.
-/

set_option autoImplicit false

namespace IperfSwift.Output

open IperfSwift.Lib
open IperfSwift.Lib.Program

variable {κ : Type}
variable {error : Errno} {stream : Stream}

/-- The feed of a call. -/
def callFeed (context : κ) (frameLength : Nat) : Feed κ := ⟨context, frameLength, [], 0, []⟩

/-! ### Faults -/

/-- What a read function does wrong when it is asked for so many bytes at most, and the error
that stands for it. -/
inductive ReaderFault (capacity : Nat) : ReadResult → Errno → Prop where
  | negative {errno : Errno} (set : errno ≠ 0) : ReaderFault capacity (.failed errno) errno
  | unset : ReaderFault capacity (.failed 0) EPROTO
  | ended : ReaderFault capacity (.data []) EPROTO
  | overrun {bytes : List Byte} (long : capacity < bytes.length) :
      ReaderFault capacity (.data bytes) EPROTO

theorem fault_of_refill {read : ReadFunction κ} {feed : Feed κ}
    (failed : (feed.refill read).1 = .failed error) :
    ReaderFault (min feed.remaining inputBuffer)
      (read feed.context (min feed.remaining inputBuffer)).1 error := by
  unfold Feed.refill at failed
  dsimp only at failed
  cases outcome : (read feed.context (min feed.remaining inputBuffer)).1 with
  | failed errno =>
      rw [outcome] at failed
      obtain rfl := Peeked.failed.inj failed
      by_cases set : errno = 0
      · rw [set]
        exact .unset
      · rw [if_pos set]
        exact .negative set
  | data bytes =>
      rw [outcome] at failed
      cases bytes with
      | nil =>
          obtain rfl := Peeked.failed.inj failed
          exact .ended
      | cons first rest =>
          dsimp only at failed
          by_cases long : min feed.remaining inputBuffer < (first :: rest).length
          · rw [if_pos long] at failed
            obtain rfl := Peeked.failed.inj failed
            exact .overrun long
          · rw [if_neg long] at failed
            cases failed

/-! ### What a read function has replied -/

/-- The replies to requests that are made one after the other, and the context then. -/
def answer (read : ReadFunction κ) : κ → List ReadRequest → List ReadResult × κ
  | context, [] => ([], context)
  | context, request :: requests =>
      let reply := read context request.capacity
      let later := answer read reply.2 requests
      (reply.1 :: later.1, later.2)

/-- Every reply of the read function in a call that ends with this feed. -/
def replies (read : ReadFunction κ) (context : κ) (feed : Feed κ) : List ReadResult :=
  (answer read context feed.requests).1

theorem answer_append (read : ReadFunction κ) (context : κ) (requests : List ReadRequest)
    (request : ReadRequest) :
    answer read context (requests ++ [request]) =
      ((answer read context requests).1 ++
          [(read (answer read context requests).2 request.capacity).1],
        (read (answer read context requests).2 request.capacity).2) := by
  induction requests generalizing context with
  | nil => rfl
  | cons first requests inductionHypothesis =>
      simp only [List.cons_append, answer, inductionHypothesis]

/-- A feed that has kept its record, with no fault of the read function on it. -/
structure Unfaulted (read : ReadFunction κ) (start : κ) (feed : Feed κ) : Prop where
  context : (answer read start feed.requests).2 = feed.context
  none : ∀ errno, .failed errno ∉ replies read start feed

/-- One of the replies was a fault with this error. -/
def Faulted (read : ReadFunction κ) (start : κ) (error : Errno) (feed : Feed κ) : Prop :=
  ∃ reply ∈ replies read start feed, ∃ capacity, ReaderFault capacity reply error

section Record

variable {read : ReadFunction κ} {start : κ} {feed : Feed κ}

theorem refill_record (read : ReadFunction κ) (feed : Feed κ) :
    (feed.refill read).2.requests =
        feed.requests ++ [⟨feed.bytesRead, min feed.remaining inputBuffer⟩] ∧
      (feed.refill read).2.context = (read feed.context (min feed.remaining inputBuffer)).2 := by
  unfold Feed.refill
  dsimp only
  split
  · exact ⟨rfl, rfl⟩
  · exact ⟨rfl, rfl⟩
  · split <;> exact ⟨rfl, rfl⟩

/-- A refill adds one reply. -/
theorem Unfaulted.refill_replies (unfaulted : Unfaulted read start feed) :
    replies read start (feed.refill read).2 = replies read start feed ++
      [(read feed.context (min feed.remaining inputBuffer)).1] := by
  rw [replies, (refill_record read feed).1, answer_append, unfaulted.context]
  rfl

theorem Unfaulted.refill {byte : Byte} (unfaulted : Unfaulted read start feed)
    (found : (feed.refill read).1 = .byte byte) : Unfaulted read start (feed.refill read).2 := by
  refine ⟨?_, fun errno replied => ?_⟩
  · rw [(refill_record read feed).1, (refill_record read feed).2, answer_append, unfaulted.context]
  · rw [unfaulted.refill_replies, List.mem_append, List.mem_singleton] at replied
    rcases replied with before | now
    · exact unfaulted.none errno before
    · rw [Feed.refill, ← now] at found
      cases found

theorem Unfaulted.faulted (unfaulted : Unfaulted read start feed)
    (failed : (feed.refill read).1 = .failed error) :
    Faulted read start error (feed.refill read).2 := by
  refine ⟨_, ?_, _, fault_of_refill failed⟩
  rw [unfaulted.refill_replies]
  exact List.mem_append_right _ (List.mem_singleton_self _)

/-- A look at the input leaves it as it is or refills it. -/
theorem peek_or_refill (read : ReadFunction κ) (feed : Feed κ) :
    (∃ shown, feed.peek read = (shown, feed) ∧ ∀ error, shown ≠ .failed error) ∨
      feed.peek read = feed.refill read := by
  unfold Feed.peek
  split
  · exact .inl ⟨_, rfl, by simp⟩
  · split
    · exact .inl ⟨_, rfl, by simp⟩
    · exact .inr rfl

theorem Unfaulted.peek_faulted (unfaulted : Unfaulted read start feed)
    (failed : (feed.peek read).1 = .failed error) :
    Faulted read start error (feed.peek read).2 := by
  rcases peek_or_refill read feed with ⟨shown, same, fine⟩ | refills
  · rw [same] at failed
    exact absurd failed (fine error)
  · rw [refills] at failed ⊢
    exact unfaulted.faulted failed

theorem Unfaulted.peek (unfaulted : Unfaulted read start feed)
    (fine : ∀ error, (feed.peek read).1 ≠ .failed error) :
    Unfaulted read start (feed.peek read).2 := by
  rcases peek_or_refill read feed with ⟨shown, same, -⟩ | refills
  · rwa [same]
  · rw [refills] at fine ⊢
    rcases refill_cases read feed with ⟨error, failed, -⟩ | ⟨byte, rest, found, -⟩
    · exact absurd failed (fine error)
    · exact unfaulted.refill found

end Record

/-! ### Scans until a fault -/

theorem Stream.peek_finished_iff :
    stream.peek.1 = .finished ↔ stream.bytes = [] ∧ stream.lost = 0 := by
  cases bytes : stream.bytes <;> by_cases lost : stream.lost = 0 <;>
    simp [Stream.peek, bytes, lost]

theorem Stream.peek_failed_iff :
    stream.peek.1 = .failed error ↔ stream.bytes = [] ∧ stream.lost ≠ 0 ∧ stream.ending = error := by
  cases bytes : stream.bytes <;> by_cases lost : stream.lost = 0 <;>
    simp [Stream.peek, bytes, lost]

/-- Parsers in the same state. Where the first has lost its input, the other may have some
more bytes, and an error of its own at the end. -/
structure Reading (read : ReadFunction κ) (start : κ) (ending : Errno) (more : List Byte)
    (ending' : Errno) (parser : Parser (Feed κ)) (parser' : Parser Stream) : Prop where
  scan : parser.scan = parser'.scan
  arrives : ∃ bytes lost, Arrives read parser.input ⟨bytes, more.length + lost, ending⟩ ∧
    parser'.input = ⟨bytes ++ more, lost, ending'⟩
  unfaulted : Unfaulted read start parser.input

/-- The scans are alike until the read function is at fault. If the other stream ends there
too, it fails as well. -/
def reading (read : ReadFunction κ) (start : κ) (ending : Errno) (more : List Byte)
    (ending' : Errno) : Coupling (Parser (Feed κ)) (Parser Stream) where
  relation := Reading read start ending more ending'
  stopped := fun parser => Faulted read start ending parser.input ∧ parser.scan.error ≠ 0
  stopped' := fun parser' => more = [] → parser'.scan.error = ending'

section Reading

variable {read : ReadFunction κ} {start : κ} {ending ending' : Errno} {more : List Byte}

theorem reading_peek_cases {parser : Parser (Feed κ)} {parser' : Parser Stream}
    (related : Reading read start ending more ending' parser parser') :
    ((peek (Feed.source read) parser).1 = (peek Stream.source parser').1 ∧
        Reading read start ending more ending' (peek (Feed.source read) parser).2
          (peek Stream.source parser').2 ∧
        ∀ byte, (peek (Feed.source read) parser).1 = some byte →
          Reading read start ending more ending'
            (advance (Feed.source read) (peek (Feed.source read) parser).2).2
            (advance Stream.source (peek Stream.source parser').2).2) ∨
      (Faulted read start ending (peek (Feed.source read) parser).2.input ∧
          (peek (Feed.source read) parser).2.scan.error ≠ 0) ∧
        (more = [] → (peek Stream.source parser').2.scan.error = ending') := by
  obtain ⟨feed, scan⟩ := parser
  obtain ⟨_, _⟩ := parser'
  obtain ⟨rfl, ⟨bytes, lost, arrives, rfl⟩, unfaulted⟩ := related
  dsimp only at arrives unfaulted
  by_cases clean : scan.error = 0
  · rcases arrives.peek_cases with ⟨byte, rest, shown, same, next, still⟩ | ⟨shown, same⟩ |
      ⟨error, shown, same, -, nonzero⟩
    · have after := unfaulted.peek (by simp [shown])
      obtain ⟨later, shape, laterArrives⟩ := still.exists_later next
      obtain ⟨rfl, lostLater, rfl⟩ := Stream.mk.inj shape
      have laterSame : later = ⟨later.bytes, more.length + lost, later.ending⟩ := by rw [lostLater]
      simp only [peek, clean, Feed.source, Stream.source, Stream.peek, shown, ne_eq,
        not_true_eq_false, if_false, List.cons_append]
      exact .inl ⟨trivial, ⟨rfl, ⟨_, lost, still, rfl⟩, after⟩,
        fun _ _ => ⟨rfl, ⟨_, lost, laterSame ▸ laterArrives, rfl⟩, after.context, after.none⟩⟩
    · obtain ⟨rfl, nothing⟩ := Stream.peek_finished_iff.mp (congrArg Prod.fst same)
      obtain ⟨noMore, rfl⟩ := Nat.add_eq_zero_iff.mp nothing
      obtain rfl := List.length_eq_zero_iff.mp noMore
      simp only [peek, clean, Feed.source, Stream.source, Stream.peek, shown, ne_eq,
        not_true_eq_false, if_false, if_true, List.append_nil]
      exact .inl ⟨trivial, ⟨rfl, ⟨[], 0, arrives, rfl⟩, unfaulted⟩, by simp⟩
    · obtain ⟨rfl, some, rfl⟩ := Stream.peek_failed_iff.mp (congrArg Prod.fst same)
      have faulted := unfaulted.peek_faulted shown
      simp only [peek, clean, Feed.source, shown, ne_eq, not_true_eq_false, if_false]
      refine .inr ⟨⟨faulted, by simpa [fail, clean] using nonzero⟩, ?_⟩
      rintro rfl
      have lostSome : lost ≠ 0 := by simpa using some
      simp [Stream.source, Stream.peek, lostSome, fail, clean]
  · refine .inl ⟨?_, ?_, ?_⟩
    · simp [peek, clean]
    · simp only [peek, clean, ne_eq, not_false_eq_true, if_true]
      exact ⟨rfl, ⟨bytes, lost, arrives, rfl⟩, unfaulted⟩
    · simp [peek, clean]

theorem reading_lockstep (nonzero' : ending' ≠ 0) :
    Lockstep (reading read start ending more ending') (Feed.source read) Stream.source where
  scan := fun _ _ related => related.scan
  left := by
    intro parser parser' related
    obtain ⟨bytes, lost, arrives, same⟩ := related.arrives
    have left : parser.input.left = _ := arrives.left
    simp only [Stream.source, Feed.source, same, left, Stream.left, List.length_append]
    omega
  lift := fun sticky =>
    { keeps := fun parser ⟨faulted, failed⟩ =>
        ⟨faulted, (sticky parser.scan failed).trans_ne failed⟩
      keeps' := fun parser same nothing =>
        (sticky parser.scan ((same nothing).trans_ne nonzero')).trans (same nothing)
      step := fun parser parser' related =>
        .inl ⟨by simp only [lift, related.scan], by simp only [lift, related.scan],
          related.arrives, related.unfaulted⟩ }
  looks := by
    intro parser stopped
    rw [peek, if_pos stopped.2]
    exact stopped
  looks' := by
    intro parser same nothing
    rw [peek_of_error ((same nothing).trans_ne nonzero')]
    exact same nothing
  steps := fun _ stopped => stopped
  steps' := fun _ same => same
  peek := fun _ _ related => reading_peek_cases related

/-- A scan of a feed beside one of a stream that starts with the same bytes. -/
theorem alike_or_faulted {context : κ} {frameLength : Nat}
    (arrives : Arrives read (callFeed context frameLength) stream) (scan : ScanState) {lost : Nat}
    (same : stream.lost = more.length + lost) (nonzero' : ending' ≠ 0) :
    let run := root (Feed.source read) ⟨callFeed context frameLength, scan⟩
    let run' := root Stream.source ⟨⟨stream.bytes ++ more, lost, ending'⟩, scan⟩
    (run.1 = run'.1 ∧ run.2.scan = run'.2.scan ∧
        ∀ errno, .failed errno ∉ replies read context run.2.input) ∨
      (Faulted read context stream.ending run.2.input ∧ run.2.scan.error ≠ 0) ∧
        (more = [] → run'.2.scan.error = ending') := by
  intro run run'
  have arrives' : Arrives read (callFeed context frameLength)
      ⟨stream.bytes, more.length + lost, stream.ending⟩ := same ▸ arrives
  have related : Reading read context stream.ending more ending'
      ⟨callFeed context frameLength, scan⟩ ⟨⟨stream.bytes ++ more, lost, ending'⟩, scan⟩ :=
    ⟨rfl, ⟨_, lost, arrives', rfl⟩, rfl, fun _ replied => List.not_mem_nil replied⟩
  rcases (reading_lockstep nonzero').coupled_root.step _ _ related with ⟨result, after⟩ | stopped
  · exact .inl ⟨result, after.scan, after.unfaulted.none⟩
  · exact .inr stopped

end Reading

end IperfSwift.Output
