import IperfSwift.Socket.Transfer

/-!
Contract: result framing over a socket neither loses nor invents bytes.

Owns: the four-byte header; the read and the write adapter of
`iperf_bounded_socket.c` with the blocking mode of the descriptor; and the
theorem about every run of both.

Does not own: the retry loops; what the scanner makes of a frame.
-/

set_option autoImplicit false

namespace IperfSwift.Socket

open IperfSwift.Lib
open IperfSwift.CJson
open IperfSwift.Output

variable {ν : Type}
variable {start connection : Connection}

/-! ### The header -/

/-- `htonl`, as the bytes in memory. -/
def networkBytes (length : Nat) : List Byte :=
  [.ofNat (length / 2 ^ 24), .ofNat (length / 2 ^ 16), .ofNat (length / 2 ^ 8), .ofNat length]

/-- `ntohl`. -/
def networkValue (header : List Byte) : Nat :=
  header.foldl (fun value byte => value * 256 + byte.toNat) 0

/-- The loop that receives the header. Every pass adds a byte, so four are enough. -/
def readHeader : Nat → List Byte → Connection → Except Errno (List Byte) × Connection
  | 0, header, connection => (.ok header, connection)
  | allowance + 1, header, connection =>
      if header.length < 4 then
        let reply := socketRead connection (4 - header.length)
        match reply.1 with
        | .failed errno => (.error errno, reply.2)
        | .data [] => (.error EPROTO, reply.2)
        | .data (byte :: rest) => readHeader allowance (header ++ byte :: rest) reply.2
      else (.ok header, connection)

/-! ### The blocking mode -/

/-- The status flags of a descriptor: `O_NONBLOCK` and the others. -/
structure Flags where
  nonblock : Bool
  others : Nat
deriving DecidableEq, Repr

/-- The errors that `fcntl` reports: on reading the flags, on setting them and on setting them
back. -/
structure FcntlReplies where
  get : Option Errno
  set : Option Errno
  restore : Option Errno

/-- `nonblocking`. -/
def nonblocking (replies : FcntlReplies) (flags : Flags) : Except Errno Unit × Flags :=
  match replies.get with
  | some errno => (.error errno, flags)
  | none =>
      if flags.nonblock then (.ok (), flags)
      else
        match replies.set with
        | some errno => (.error errno, flags)
        | none => (.ok (), { flags with nonblock := true })

/-- `restore`: `flags` are the ones to go back to. -/
def restore (replies : FcntlReplies) (flags current : Flags) : Except Errno Unit × Flags :=
  if flags.nonblock then (.ok (), current)
  else
    match replies.restore with
    | some errno => (.error errno, current)
    | none => (.ok (), flags)

/-! ### Reading -/

/-- `IPERF_RESULT_READ_TIMEOUT_MS`. -/
def resultReadTimeoutMs : Nat := 30000

/-- `deadline_ns`, in 64 bits. -/
def deadlineAfter (now timeoutMs : Nat) : Nat := (now + timeoutMs * 1000000) % 2 ^ 64

/-- What a read adapter leaves. `body` is the connection on which the scanner was started, and
its input at the end. -/
structure SocketOutcome (ν : Type) where
  result : Except Errno (Parsed (Node ν))
  output : ServerOutput
  metrics : ReadMetrics
  heap : Heap
  connection : Connection
  body : Option (Connection × Feed Connection)

/-- A read that ends in front of the scanner. -/
def unread (errno : Errno) (heap : Heap) (connection : Connection) : SocketOutcome ν :=
  ⟨.error errno, { state := .invalid, reason := .readFailure }, {}, heap, connection, none⟩

/-- `read_results_socket`. `clock` is what the clock says first. -/
def readResultsSocket (convert : List Byte → ν) (fd : Int) (outputLimit timeoutMs : Nat)
    (clock : Except Errno Nat) (connection : Connection) (heap : Heap) : SocketOutcome ν :=
  if outputLimit = 0 ∨ outputMaxBytes < outputLimit ∨ timeoutMs = 0 ∨
      resultReadTimeoutMs < timeoutMs ∨ fd < 0 then
    unread (if fd < 0 then EBADF else EINVAL) heap connection
  else
    match clock with
    | .error errno => unread errno heap connection
    | .ok now =>
        let header := readHeader 4 [] { connection with deadline := deadlineAfter now timeoutMs }
        match header.1 with
        | .error errno => unread errno heap header.2
        | .ok bytes =>
            let call := iperfReadBoundedResults convert (networkValue bytes) outputLimit socketRead
              header.2 heap
            ⟨call.result, call.output, call.metrics, call.heap, call.input.context,
              some (header.2, call.input)⟩

/-- A call of an adapter: what it leaves, the flags of the descriptor and whether it has
returned. -/
structure SocketCall (α : Type) where
  outcome : α
  flags : Flags
  returned : Bool

/-- `cJSON_Delete` and `iperf_clear_server_output` on a finished read. -/
def dropped (outcome : SocketOutcome ν) (outputLimit : Nat) : Heap :=
  let deleted :=
    match outcome.result with
    | .ok parsed => outcome.heap.releaseAll parsed.owned
    | .error _ => outcome.heap
  match outcome.output.value with
  | some _ => deleted.free (outputLimit + 1)
  | none => deleted

/-- `iperf_read_bounded_results_socket`. -/
def iperfReadBoundedResultsSocket (convert : List Byte → ν) (fd : Int)
    (outputLimit timeoutMs : Nat) (replies : FcntlReplies) (flags : Flags)
    (clock : Except Errno Nat) (connection : Connection) (heap : Heap) :
    SocketCall (SocketOutcome ν) :=
  let entered := nonblocking replies flags
  match entered.1 with
  | .error errno => ⟨unread errno heap connection, entered.2, true⟩
  | .ok _ =>
      let outcome := readResultsSocket convert fd outputLimit timeoutMs clock connection heap
      if outcome.connection.suspended then ⟨outcome, entered.2, false⟩
      else
        let restored := restore replies flags entered.2
        match restored.1 with
        | .error errno =>
            ⟨{ outcome with
                result := .error errno
                output := { state := .invalid, reason := .readFailure }
                heap := dropped outcome outputLimit },
              restored.2, true⟩
        | .ok _ => ⟨outcome, restored.2, true⟩

/-! ### Writing -/

/-- `write_results_socket`. -/
def writeResultsSocket (fd : Int) (bytes : List Byte) (timeoutMs : Nat)
    (clock : Except Errno Nat) (schedule : List Turn) : Progress (Except Errno Unit) :=
  if fd < 0 ∨ bytes.length = 0 ∨ resultFrameMaxBytes < bytes.length ∨ timeoutMs = 0 ∨
      resultReadTimeoutMs < timeoutMs then
    ⟨some (.error EINVAL), [], schedule⟩
  else
    match clock with
    | .error errno => ⟨some (.error errno), [], schedule⟩
    | .ok now =>
        let deadline := deadlineAfter now timeoutMs
        let header := socketWrite deadline (networkBytes bytes.length) schedule
        match header.result with
        | some (.ok _) => (socketWrite deadline bytes header.later).after header.events
        | _ => header

/-- `iperf_write_bounded_results_socket`. -/
def iperfWriteBoundedResultsSocket (fd : Int) (bytes : List Byte) (timeoutMs : Nat)
    (replies : FcntlReplies) (flags : Flags) (clock : Except Errno Nat) (schedule : List Turn) :
    SocketCall (Progress (Except Errno Unit)) :=
  let entered := nonblocking replies flags
  match entered.1 with
  | .error errno => ⟨⟨some (.error errno), [], schedule⟩, entered.2, true⟩
  | .ok _ =>
      let progress := writeResultsSocket fd bytes timeoutMs clock schedule
      match progress.result with
      | none => ⟨progress, entered.2, false⟩
      | some _ =>
          let restored := restore replies flags entered.2
          match restored.1 with
          | .error errno => ⟨{ progress with result := some (.error errno) }, restored.2, true⟩
          | .ok _ => ⟨progress, restored.2, true⟩

/-! ### What the header loop does -/

/-- A connection from which bytes were received since another moment. -/
structure Gains (start : Connection) (gained : List Byte) (later : Connection) : Prop where
  split : start.incoming = gained ++ later.incoming
  moves : moved later.log = moved start.log ++ gained
  obeys : Obeys later.log

theorem gains_refl (obeys : Obeys start.log) : Gains start [] start :=
  ⟨rfl, (List.append_nil _).symm, obeys⟩

theorem Gains.trans {middle later : Connection} {first second : List Byte}
    (gains : Gains start first middle) (more : Gains middle second later) :
    Gains start (first ++ second) later where
  split := by rw [gains.split, more.split, List.append_assoc]
  moves := by rw [more.moves, gains.moves, List.append_assoc]
  obeys := more.obeys

theorem gains_socketRead (never : .cancelled ∉ start.log) (capacity : Nat) :
    Gains start (ReadResult.bytes (socketRead start capacity).1) (socketRead start capacity).2 ∧
      (.cancelled ∈ (socketRead start capacity).2.log →
        ∃ errno, (socketRead start capacity).1 = .failed errno) := by
  obtain ⟨split, -, events, log, moves, obeys, stops⟩ := socketRead_spec start capacity
  refine ⟨⟨split, ?_, ?_⟩, fun found => stops ?_⟩
  · rw [log, moved_append, moves]
  · rw [log]
    exact Obeys.append never obeys
  · rw [log] at found
    exact (List.mem_append.mp found).resolve_left never

theorem readHeader_spec (allowance : Nat) {header : List Byte} (short : header.length ≤ 4)
    {start : Connection} (never : .cancelled ∉ start.log) :
    ∃ gained, Gains start gained (readHeader allowance header start).2 ∧
      header.length + gained.length ≤ 4 ∧
      ∀ bytes, (readHeader allowance header start).1 = .ok bytes →
        bytes = header ++ gained ∧ .cancelled ∉ (readHeader allowance header start).2.log ∧
          (4 ≤ header.length + allowance → bytes.length = 4) := by
  induction allowance generalizing header start with
  | zero =>
      refine ⟨[], gains_refl (obeys_of_not_mem never), short, fun bytes ok => ?_⟩
      obtain rfl := Except.ok.inj ok
      exact ⟨(List.append_nil _).symm, never, fun enough => by omega⟩
  | succ allowance inductionHypothesis =>
      rw [readHeader]
      split_ifs with missing
      · dsimp only
        obtain ⟨gains, stops⟩ := gains_socketRead never (4 - header.length)
        have fits := (socketRead_spec start (4 - header.length)).2.1
        cases reply : (socketRead start (4 - header.length)).1 with
        | failed errno =>
            rw [reply] at gains fits
            exact ⟨[], gains, short, fun bytes ok => (by cases ok)⟩
        | data bytes =>
            rw [reply] at gains fits
            have quiet : .cancelled ∉ (socketRead start (4 - header.length)).2.log := by
              intro found
              obtain ⟨errno, failed⟩ := stops found
              cases reply.symm.trans failed
            cases bytes with
            | nil =>
                exact ⟨[], gains, short, fun bytes ok => (by cases ok)⟩
            | cons byte rest =>
                dsimp only [ReadResult.bytes] at gains fits ⊢
                have together : (header ++ byte :: rest).length ≤ 4 := by
                  rw [List.length_append]
                  omega
                obtain ⟨gained, more, total, complete⟩ := inductionHypothesis together quiet
                refine ⟨byte :: rest ++ gained, gains.trans more, ?_, fun bytes ok => ?_⟩
                · simp only [List.length_append, List.length_cons] at total ⊢
                  omega
                · obtain ⟨whole, still, length⟩ := complete bytes ok
                  refine ⟨by rw [whole, List.append_assoc], still, fun enough => length ?_⟩
                  simp only [List.length_append, List.length_cons]
                  omega
      · refine ⟨[], gains_refl (obeys_of_not_mem never), short, fun bytes ok => ?_⟩
        obtain rfl := Except.ok.inj ok
        exact ⟨(List.append_nil _).symm, never, fun _ => by omega⟩

/-! ### What the scanner is given -/

/-- The bytes the scanner is given by the read function. -/
def presented (start : Connection) (feed : Feed Connection) : List Byte :=
  (replies socketRead start feed).flatMap ReadResult.bytes

/-- The record of a scan in progress. -/
structure Presents (start : Connection) (frameLength : Nat) (feed : Feed Connection) : Prop where
  context : (answer socketRead start feed.requests).2 = feed.context
  gains : Gains start (presented start feed) feed.context
  count : (presented start feed).length + feed.remaining = frameLength

theorem refill_remaining {κ : Type} {read : ReadFunction κ} {feed : Feed κ}
    (fits : (ReadResult.bytes (read feed.context (min feed.remaining inputBuffer)).1).length ≤
      min feed.remaining inputBuffer) :
    (ReadResult.bytes (read feed.context (min feed.remaining inputBuffer)).1).length +
      (feed.refill read).2.remaining = feed.remaining := by
  revert fits
  unfold Feed.refill
  dsimp only
  cases (read feed.context (min feed.remaining inputBuffer)).1 with
  | failed errno => simp [ReadResult.bytes]
  | data bytes =>
      intro fits
      cases bytes with
      | nil => simp [ReadResult.bytes]
      | cons first rest =>
          dsimp only [ReadResult.bytes] at fits ⊢
          rw [if_neg (not_lt.mpr fits)]
          dsimp only
          omega

theorem refill_failed {κ : Type} {read : ReadFunction κ} {feed : Feed κ} {errno : Errno}
    (failed : (read feed.context (min feed.remaining inputBuffer)).1 = .failed errno) :
    ∃ error, error ≠ 0 ∧ (feed.refill read).1 = .failed error := by
  refine ⟨_, (Ending.failed errno).error_ne_zero, ?_⟩
  unfold Feed.refill
  dsimp only
  rw [failed]
  rfl

theorem presents_refill {frameLength : Nat} {feed : Feed Connection}
    (presents : Presents start frameLength feed) (never : .cancelled ∉ feed.context.log) :
    Presents start frameLength (feed.refill socketRead).2 ∧
      (.cancelled ∈ (feed.refill socketRead).2.context.log →
        ∃ error, error ≠ 0 ∧ (feed.refill socketRead).1 = .failed error) := by
  obtain ⟨requests, context⟩ := refill_record socketRead feed
  obtain ⟨gains, stops⟩ := gains_socketRead never (min feed.remaining inputBuffer)
  have fits := (socketRead_spec feed.context (min feed.remaining inputBuffer)).2.1
  have more : presented start (feed.refill socketRead).2 = presented start feed ++
      ReadResult.bytes (socketRead feed.context (min feed.remaining inputBuffer)).1 := by
    rw [presented, replies, requests, answer_append, presents.context]
    simp [presented, replies]
  refine ⟨⟨?_, ?_, ?_⟩, fun found => ?_⟩
  · rw [requests, context, answer_append, presents.context]
  · rw [more, context]
    exact presents.gains.trans gains
  · have left := refill_remaining fits
    have count := presents.count
    rw [more, List.length_append]
    omega
  · rw [context] at found
    obtain ⟨errno, failed⟩ := stops found
    exact refill_failed failed

theorem keeps_presents (start : Connection) (frameLength : Nat) :
    Keeps (fun parser => Presents start frameLength parser.input ∧
      (.cancelled ∈ parser.input.context.log → parser.scan.error ≠ 0)) (Feed.source socketRead) := by
  refine @keeps_input_until _ (Presents start frameLength)
    (fun feed => .cancelled ∈ feed.context.log) (Feed.source socketRead) ?_ ?_ fun _ found => found
  · intro feed presents never
    change Presents start frameLength (feed.peek socketRead).2 ∧
      (.cancelled ∈ (feed.peek socketRead).2.context.log →
        ∃ error, error ≠ 0 ∧ (feed.peek socketRead).1 = .failed error)
    rcases peek_or_refill socketRead feed with ⟨shown, same, -⟩ | refills
    · rw [same]
      exact ⟨presents, fun found => absurd found never⟩
    · rw [refills]
      exact presents_refill presents never
  · exact fun feed presents => ⟨presents.context, presents.gains, presents.count⟩

theorem presents_callFeed (never : .cancelled ∉ start.log) (frameLength : Nat) :
    Presents start frameLength (callFeed start frameLength) :=
  ⟨rfl, gains_refl (obeys_of_not_mem never), Nat.zero_add frameLength⟩

/-- What a scan over the socket is given, and all of it if it succeeds. -/
theorem presents_call (convert : List Byte → ν) (never : .cancelled ∉ start.log)
    (frameLength outputLimit : Nat) (heap : Heap) :
    let call := iperfReadBoundedResults convert frameLength outputLimit socketRead start heap
    Presents start frameLength call.input ∧
      ∀ parsed, call.result = .ok parsed → call.input.remaining = 0 := by
  intro call
  have preserved := (keeps_presents start frameLength).preserves_root
    (fun _ holds => ⟨holds.1, fun found => (sticky_fail EFBIG).ne_zero (holds.2 found)⟩)
    ⟨callFeed start frameLength, startState outputLimit (Heap.malloc (resultCoreMaxBytes + 1) heap).2⟩
    ⟨presents_callFeed never frameLength, fun found => absurd found never⟩
  rcases readBoundedResults_input (Feed.source socketRead) convert frameLength outputLimit
    (callFeed start frameLength) heap with ⟨same, failed⟩ | ⟨same, succeeded⟩
  · refine ⟨?_, fun parsed ok => absurd ok (failed parsed)⟩
    rw [show call.input = _ from same]
    exact presents_callFeed never frameLength
  · rw [show call.input = _ from same]
    refine ⟨preserved.1, fun parsed ok => ?_⟩
    obtain ⟨-, feed, found, atEnd⟩ := root_succeeded (feed_failed_ne_zero socketRead)
      (Prod.ext (succeeded parsed ok) rfl)
    obtain ⟨-, nothingLeft, unmoved⟩ := feed_finished found
    rw [atEnd]
    exact (congrArg Feed.remaining unmoved).trans nothingLeft

/-- A frame of a forbidden length is not read at all. -/
theorem call_of_outside (convert : List Byte → ν) {frameLength : Nat}
    (outside : frameLength = 0 ∨ resultFrameMaxBytes < frameLength) (outputLimit : Nat)
    (start : Connection) (heap : Heap) :
    (iperfReadBoundedResults convert frameLength outputLimit socketRead start heap).input =
      callFeed start frameLength := by
  rw [iperfReadBoundedResults, readBoundedResults]
  split
  · rfl
  · rfl

/-! ### Reading a frame -/

/-- The length that the first four bytes of a stream declare. -/
def declared (incoming : List Byte) : Nat := networkValue (incoming.take 4)

/-- What a read adapter has done with a connection when it ends. -/
structure Reads (incoming : List Byte) (outcome : SocketOutcome ν) : Prop where
  split : incoming = moved outcome.connection.log ++ outcome.connection.incoming
  obeys : Obeys outcome.connection.log
  unread : outcome.body = none →
    (moved outcome.connection.log).length ≤ 4 ∧ ∃ errno, outcome.result = .error errno
  read : ∀ start feed, outcome.body = some (start, feed) →
    moved outcome.connection.log = incoming.take 4 ++ presented start feed ∧
      (incoming.take 4).length = 4 ∧
      (presented start feed).length + feed.remaining = declared incoming ∧
      (∀ parsed, outcome.result = .ok parsed → feed.remaining = 0) ∧
      (declared incoming = 0 ∨ resultFrameMaxBytes < declared incoming → presented start feed = [])

theorem reads_unread (fresh : connection.log = []) (errno : Errno) (heap : Heap) :
    Reads connection.incoming (unread errno heap connection : SocketOutcome ν) where
  split := by simp [Socket.unread, fresh]
  obeys := by
    rw [Socket.unread, fresh]
    exact obeys_of_not_mem List.not_mem_nil
  unread := fun _ => ⟨by simp [Socket.unread, fresh], errno, rfl⟩
  read := fun _ _ none => (by cases none)

theorem reads_readResultsSocket (convert : List Byte → ν) (fd : Int) (outputLimit timeoutMs : Nat)
    (clock : Except Errno Nat) (fresh : connection.log = []) (heap : Heap) :
    Reads connection.incoming
      (readResultsSocket convert fd outputLimit timeoutMs clock connection heap) := by
  unfold readResultsSocket
  split
  · exact reads_unread fresh _ heap
  cases clock with
  | error errno => exact reads_unread fresh errno heap
  | ok now =>
      dsimp only
      generalize begun : { connection with deadline := deadlineAfter now timeoutMs } = started
      have incoming : started.incoming = connection.incoming := by rw [← begun]
      have log : started.log = [] := by rw [← begun]; exact fresh
      have never : .cancelled ∉ started.log := by simp [log]
      obtain ⟨gained, gains, short, complete⟩ := @readHeader_spec 4 [] (by decide) started never
      have moves := gains.moves
      have split := gains.split
      rw [log, moved_nil, List.nil_append] at moves
      rw [incoming] at split
      cases header : (readHeader 4 [] started).1 with
      | error errno =>
          refine ⟨?_, gains.obeys, fun _ => ⟨?_, errno, rfl⟩, fun _ _ none => (by cases none)⟩
          · change _ = moved (readHeader 4 [] started).2.log ++ _
            rw [moves]
            exact split
          · change (moved (readHeader 4 [] started).2.log).length ≤ 4
            rw [moves]
            simpa using short
      | ok bytes =>
          obtain ⟨whole, still, length⟩ := complete bytes header
          rw [List.nil_append] at whole
          subst whole
          have four : bytes.length = 4 := length (by simp)
          have front : connection.incoming.take 4 = bytes := by
            rw [split, ← four, List.take_left]
          obtain ⟨presents, done⟩ :=
            presents_call convert still (networkValue bytes) outputLimit heap
          have all := gains.trans presents.gains
          have allMoves := all.moves
          rw [log, moved_nil, List.nil_append] at allMoves
          refine ⟨?_, all.obeys, fun none => (by cases none), ?_⟩
          · have allSplit := all.split
            rw [incoming] at allSplit
            rw [allMoves]
            exact allSplit
          · rintro start feed same
            obtain ⟨rfl, rfl⟩ := Prod.mk.inj (Option.some.inj same)
            rw [declared, front]
            refine ⟨allMoves, four, presents.count, done, fun outside => ?_⟩
            rw [call_of_outside convert outside]
            rfl

/-! ### The mode of the descriptor -/

theorem nonblocking_cases (replies : FcntlReplies) (flags : Flags) :
    (∃ errno, nonblocking replies flags = (.error errno, flags)) ∨
      nonblocking replies flags = (.ok (), { flags with nonblock := true }) := by
  unfold nonblocking
  split
  · exact .inl ⟨_, rfl⟩
  · split
    next already =>
      obtain ⟨nonblock, others⟩ := flags
      obtain rfl : nonblock = true := already
      exact .inr rfl
    next =>
      split
      · exact .inl ⟨_, rfl⟩
      · exact .inr rfl

theorem restore_cases (replies : FcntlReplies) (flags : Flags) :
    (restore replies flags { flags with nonblock := true } = (.ok (), flags)) ∨
      (replies.restore.isSome = true ∧ ∃ errno, restore replies flags
        { flags with nonblock := true } = (.error errno, { flags with nonblock := true })) := by
  unfold restore
  split
  next already =>
    obtain ⟨nonblock, others⟩ := flags
    obtain rfl : nonblock = true := already
    exact .inl rfl
  next =>
    cases replies.restore with
    | some errno => exact .inr ⟨rfl, errno, rfl⟩
    | none => exact .inl rfl

/-! ### Faithful calls -/

/-- The bytes a call has received. -/
def consumed (call : SocketCall (SocketOutcome ν)) : List Byte := moved call.outcome.connection.log

/-- The bytes its scanner was given. -/
def given (call : SocketCall (SocketOutcome ν)) : List Byte :=
  match call.outcome.body with
  | none => []
  | some (start, feed) => presented start feed

/-- A read neither loses nor invents bytes. -/
structure ReadFaithful (replies : FcntlReplies) (flags : Flags) (incoming : List Byte)
    (call : SocketCall (SocketOutcome ν)) : Prop where
  order : incoming = consumed call ++ call.outcome.connection.incoming
  presents : ∃ more, (incoming.drop 4).take (declared incoming) = given call ++ more
  whole : ∀ parsed, call.outcome.result = .ok parsed →
    (consumed call).length = 4 + declared incoming ∧
      given call = (incoming.drop 4).take (declared incoming)
  refused : 4 ≤ (consumed call).length →
    declared incoming = 0 ∨ resultFrameMaxBytes < declared incoming → (consumed call).length = 4
  cancelled : Obeys call.outcome.connection.log
  mode : call.returned = true → call.flags = flags ∨ (replies.restore.isSome = true ∧
    (∃ errno, call.outcome.result = .error errno) ∧
    call.outcome.output = { state := .invalid, reason := .readFailure })

/-- A write sends a frame, or the beginning of one. -/
structure WriteFaithful (replies : FcntlReplies) (flags : Flags) (payload : List Byte)
    (call : SocketCall (Progress (Except Errno Unit))) : Prop where
  begins : ∃ more, networkBytes payload.length ++ payload = moved call.outcome.events ++ more
  whole : call.outcome.result = some (.ok ()) →
    moved call.outcome.events = networkBytes payload.length ++ payload
  cancelled : Obeys call.outcome.events
  mode : call.returned = true → call.flags = flags ∨ (replies.restore.isSome = true ∧
    ∃ errno, call.outcome.result = some (.error errno))

/-- What holds of a read holds of its call, however the call ends. -/
theorem Reads.faithful {incoming : List Byte} {outcome : SocketOutcome ν}
    (reads : Reads incoming outcome) {call : SocketCall (SocketOutcome ν)}
    (connection : call.outcome.connection = outcome.connection)
    (body : call.outcome.body = outcome.body)
    (result : ∀ parsed, call.outcome.result = .ok parsed → outcome.result = .ok parsed)
    {replies : FcntlReplies} {flags : Flags}
    (mode : call.returned = true → call.flags = flags ∨ (replies.restore.isSome = true ∧
      (∃ errno, call.outcome.result = .error errno) ∧
      call.outcome.output = { state := .invalid, reason := .readFailure })) :
    ReadFaithful replies flags incoming call := by
  have split := reads.split
  cases found : outcome.body with
  | none =>
      obtain ⟨short, errno, failed⟩ := reads.unread found
      have nothing : given call = [] := by rw [given, body, found]
      refine ⟨?_, ?_, ?_, ?_, ?_, mode⟩
      · rw [consumed, connection]
        exact split
      · exact ⟨_, by rw [nothing, List.nil_append]⟩
      · intro parsed ok
        cases failed.symm.trans (result parsed ok)
      · intro long _
        rw [consumed, connection] at long ⊢
        omega
      · rw [connection]
        exact reads.obeys
  | some both =>
      obtain ⟨start, feed⟩ := both
      obtain ⟨moves, four, count, done, outside⟩ := reads.read start feed found
      have isGiven : given call = presented start feed := by rw [given, body, found]
      have rest : incoming.drop 4 = presented start feed ++ outcome.connection.incoming := by
        rw [moves, List.append_assoc] at split
        exact List.append_cancel_left ((List.take_append_drop 4 incoming).trans split)
      have isConsumed : (consumed call).length = 4 + (presented start feed).length := by
        rw [consumed, connection, moves, List.length_append, four]
      refine ⟨?_, ?_, ?_, ?_, ?_, mode⟩
      · rw [consumed, connection]
        exact split
      · refine ⟨outcome.connection.incoming.take
          (declared incoming - (presented start feed).length), ?_⟩
        rw [rest, isGiven, List.take_append, List.take_of_length_le (by omega)]
      · intro parsed ok
        have nothingLeft := done parsed (result parsed ok)
        refine ⟨by omega, ?_⟩
        rw [isGiven, rest, List.take_append_of_le_length (by omega),
          List.take_of_length_le (by omega)]
      · intro _ forbidden
        rw [isConsumed, outside forbidden]
        rfl
      · rw [connection]
        exact reads.obeys

theorem readFaithful_call (convert : List Byte → ν) (fd : Int) (outputLimit timeoutMs : Nat)
    (replies : FcntlReplies) (flags : Flags) (clock : Except Errno Nat)
    (fresh : connection.log = []) (heap : Heap) :
    ReadFaithful replies flags connection.incoming
      (iperfReadBoundedResultsSocket convert fd outputLimit timeoutMs replies flags clock
        connection heap) := by
  unfold iperfReadBoundedResultsSocket
  rcases nonblocking_cases replies flags with ⟨errno, failed⟩ | entered
  · rw [failed]
    exact (reads_unread fresh errno heap).faithful rfl rfl (fun _ ok => ok) fun _ => .inl rfl
  · have reads := reads_readResultsSocket convert fd outputLimit timeoutMs clock fresh heap
    rw [entered]
    dsimp only
    split
    · exact reads.faithful rfl rfl (fun _ ok => ok) fun returned => (by cases returned)
    · rcases restore_cases replies flags with restored | ⟨fails, errno, failed⟩
      · rw [restored]
        exact reads.faithful rfl rfl (fun _ ok => ok) fun _ => .inl rfl
      · rw [failed]
        exact reads.faithful rfl rfl (fun _ ok => (by cases ok))
          fun _ => .inr ⟨fails, ⟨errno, rfl⟩, rfl⟩

theorem sends_writeResultsSocket (fd : Int) (payload : List Byte) (timeoutMs : Nat)
    (clock : Except Errno Nat) (schedule : List Turn) :
    Sends (networkBytes payload.length ++ payload)
      (writeResultsSocket fd payload timeoutMs clock schedule) := by
  have nothing : Obeys [] := obeys_of_not_mem List.not_mem_nil
  unfold writeResultsSocket
  split
  · exact sends_error rfl nothing EINVAL schedule
  cases clock with
  | error errno => exact sends_error rfl nothing errno schedule
  | ok now =>
      dsimp only
      have header := sends_socketWrite (deadlineAfter now timeoutMs) (networkBytes payload.length)
        schedule
      generalize socketWrite (deadlineAfter now timeoutMs) (networkBytes payload.length)
        schedule = progress at header ⊢
      split
      next _ done =>
        have never : .cancelled ∉ progress.events := by
          intro found
          obtain ⟨errno, failed⟩ := header.stops found
          cases done.symm.trans failed
        have body := (sends_socketWrite (deadlineAfter now timeoutMs) payload progress.later).after
          never
        rwa [header.whole done] at body
      next unfinished =>
        obtain ⟨rest, split⟩ := header.moves
        refine ⟨⟨rest ++ payload, ?_⟩, fun done => absurd done (unfinished ()), header.obeys,
          header.stops⟩
        rw [← List.append_assoc, ← split]

/-- What holds of a write holds of its call, however the call ends. -/
theorem Sends.faithful {payload : List Byte} {progress : Progress (Except Errno Unit)}
    (sends : Sends (networkBytes payload.length ++ payload) progress)
    {call : SocketCall (Progress (Except Errno Unit))}
    (events : call.outcome.events = progress.events)
    (result : call.outcome.result = some (.ok ()) → progress.result = some (.ok ()))
    {replies : FcntlReplies} {flags : Flags}
    (mode : call.returned = true → call.flags = flags ∨ (replies.restore.isSome = true ∧
      ∃ errno, call.outcome.result = some (.error errno))) :
    WriteFaithful replies flags payload call := by
  refine ⟨?_, fun done => ?_, ?_, mode⟩
  · rw [events]
    exact sends.moves
  · rw [events]
    exact sends.whole (result done)
  · rw [events]
    exact sends.obeys

theorem writeFaithful_call (fd : Int) (payload : List Byte) (timeoutMs : Nat)
    (replies : FcntlReplies) (flags : Flags) (clock : Except Errno Nat) (schedule : List Turn) :
    WriteFaithful replies flags payload
      (iperfWriteBoundedResultsSocket fd payload timeoutMs replies flags clock schedule) := by
  unfold iperfWriteBoundedResultsSocket
  rcases nonblocking_cases replies flags with ⟨errno, failed⟩ | entered
  · rw [failed]
    have nothing : Obeys [] := obeys_of_not_mem List.not_mem_nil
    exact (sends_error rfl nothing errno schedule).faithful rfl id fun _ => .inl rfl
  · have sends := sends_writeResultsSocket fd payload timeoutMs clock schedule
    rw [entered]
    dsimp only
    split
    · exact sends.faithful rfl id fun returned => (by cases returned)
    · rcases restore_cases replies flags with restored | ⟨fails, errno, failed⟩
      · rw [restored]
        exact sends.faithful rfl id fun _ => .inl rfl
      · rw [failed]
        exact sends.faithful rfl (fun done => (by cases done)) fun _ => .inr ⟨fails, errno, rfl⟩

/-! ### Frames -/

theorem networkValue_networkBytes {length : Nat} (small : length < 2 ^ 32) :
    networkValue (networkBytes length) = length := by
  simp only [networkValue, networkBytes, List.foldl_cons, List.foldl_nil, UInt8.toNat_ofNat']
  omega

theorem declared_frame {payload : List Byte} (short : payload.length ≤ resultFrameMaxBytes)
    (rest : List Byte) :
    declared (networkBytes payload.length ++ payload ++ rest) = payload.length ∧
      ((networkBytes payload.length ++ payload ++ rest).drop 4).take payload.length = payload := by
  have small : payload.length < 2 ^ 32 := lt_of_le_of_lt short (by decide)
  have four : (networkBytes payload.length).length = 4 := rfl
  rw [declared, List.append_assoc, ← four, List.take_left, List.drop_left, List.take_left,
    networkValue_networkBytes small]
  exact ⟨rfl, rfl⟩

/-- Under every schedule a write sends a frame or the beginning of one, and a read of what
follows on that stream takes the frame off and nothing behind it. -/
theorem resultFraming_faithful (payload : List Byte)
    (short : payload.length ≤ resultFrameMaxBytes) :
    (∀ fd timeoutMs replies flags clock schedule, WriteFaithful replies flags payload
      (iperfWriteBoundedResultsSocket fd payload timeoutMs replies flags clock schedule)) ∧
    ∀ (convert : List Byte → ν) fd outputLimit timeoutMs replies flags clock connection heap,
      connection.log = [] →
      let call := iperfReadBoundedResultsSocket convert fd outputLimit timeoutMs replies flags
        clock connection heap
      ReadFaithful replies flags connection.incoming call ∧
      ∀ rest, connection.incoming = networkBytes payload.length ++ payload ++ rest →
        (∃ more, payload = given call ++ more) ∧
        ∀ parsed, call.outcome.result = .ok parsed →
          consumed call = networkBytes payload.length ++ payload ∧ given call = payload ∧
            call.outcome.connection.incoming = rest := by
  refine ⟨fun fd timeoutMs => writeFaithful_call fd payload timeoutMs, ?_⟩
  intro convert fd outputLimit timeoutMs replies flags clock connection heap fresh call
  have faithful : ReadFaithful replies flags connection.incoming call :=
    readFaithful_call convert fd outputLimit timeoutMs replies flags clock fresh heap
  refine ⟨faithful, fun rest stream => ?_⟩
  obtain ⟨length, body⟩ := declared_frame short rest
  obtain ⟨more, presents⟩ := faithful.presents
  rw [stream, length, body] at presents
  refine ⟨⟨more, presents⟩, fun parsed ok => ?_⟩
  obtain ⟨count, all⟩ := faithful.whole parsed ok
  rw [stream, length] at count all
  rw [body] at all
  have order := faithful.order
  rw [stream] at order
  have sameLength : (networkBytes payload.length ++ payload).length = (consumed call).length := by
    rw [count, List.length_append]
    rfl
  obtain ⟨frame, later⟩ := List.append_inj order sameLength
  exact ⟨frame.symm, all, later.symm⟩

/-- A pass in which one byte can be moved, at this time. -/
def oneByte (now : Nat) : Turn := ⟨false, .ok now, .ready, .ok 1⟩

/-- An interrupted poll, a timeout, a transfer that would block, and then one byte a pass. -/
def roughSchedule : List Turn :=
  [⟨false, .ok 1, .failed EINTR, .ok 1⟩, ⟨false, .ok 2, .timedOut, .ok 1⟩,
    ⟨false, .ok 3, .ready, .error EAGAIN⟩] ++ List.replicate 6 (oneByte 4)

/-- A connection on which the frame of an empty object arrives, and a byte of something else. -/
def objectConnection : Connection :=
  ⟨0, networkBytes 2 ++ bytesOf "\x7b\x7d" ++ [9], roughSchedule, [], false⟩

def objectRead : SocketCall (SocketOutcome (List Byte)) :=
  iperfReadBoundedResultsSocket id 3 1 1000 ⟨none, none, none⟩ ⟨false, 2⟩ (.ok 0) objectConnection
    ⟨fun _ => true, []⟩

theorem framing_of_emptyObject :
    objectRead.outcome.result.isOk = true ∧
      consumed objectRead = networkBytes 2 ++ bytesOf "\x7b\x7d" ∧
      objectRead.outcome.connection.incoming = [9] ∧ objectRead.flags = ⟨false, 2⟩ := by
  have succeeds : objectRead.outcome.result.isOk = true := by decide +kernel
  have faithful := (@resultFraming_faithful (List Byte) (bytesOf "\x7b\x7d") (by decide)).2 id 3 1
    1000 ⟨none, none, none⟩ ⟨false, 2⟩ (.ok 0) objectConnection ⟨fun _ => true, []⟩ rfl
  rw [← objectRead] at faithful
  cases result : objectRead.outcome.result with
  | error errno =>
      rw [result] at succeeds
      cases succeeds
  | ok parsed =>
      obtain ⟨frame, -, rest⟩ := (faithful.2 [9] rfl).2 parsed result
      refine ⟨rfl, frame, rest, ?_⟩
      rcases faithful.1.mode (by decide +kernel) with kept | ⟨fails, -⟩
      · exact kept
      · cases fails

end IperfSwift.Socket
