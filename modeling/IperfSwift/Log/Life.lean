import IperfSwift.Lib.Schedule
import IperfSwift.Log.Retention

/-!
Contract: the log budget of a persistent server over its whole life.

Owns: what any write does to the shared state; the cycles of opening, writing and
closing that share one status, with every failure the system can answer; the
invariant that holds between any two calls, and that a disabled log stays so.

Does not own: which bytes a log holds when nothing fails.
-/

set_option autoImplicit false

namespace IperfSwift.Log

open IperfSwift.Lib
open IperfSwift.Output

variable {before middle world : World} {log : BoundedLog}

theorem rememberError_set (slot error : Errno) : rememberError slot error ≠ 0 := by
  rw [rememberError]
  split_ifs with clear nonzero
  · exact nonzero
  · decide
  · exact clear

/-! ### Bytes that reach the file -/

/-- At most `count` bytes went to the end of the file and were counted. -/
structure Wrote (count : Nat) (before after : World) : Prop where
  appended : ∃ part : List Byte, part.length ≤ count ∧ after.file = before.file ++ part ∧
    after.status.bytesWritten = before.status.bytesWritten + part.length
  limit : after.status.limit = before.status.limit
  attempted : after.status.attempted = before.status.attempted
  truncated : after.status.truncated = before.status.truncated
  openErrno : after.status.openErrno = before.status.openErrno
  closeErrno : after.status.closeErrno = before.status.closeErrno
  writeErrno : before.status.writeErrno ≠ 0 → after.status.writeErrno ≠ 0
  opens : after.opens = before.opens
  markers : after.markers = before.markers

theorem Wrote.refl (count : Nat) (world : World) : Wrote count world world :=
  ⟨⟨[], Nat.zero_le _, (List.append_nil _).symm, rfl⟩, rfl, rfl, rfl, rfl, rfl, id, rfl, rfl⟩

theorem Wrote.trans {first second : Nat} {after : World} (one : Wrote first before middle)
    (two : Wrote second middle after) : Wrote (first + second) before after := by
  obtain ⟨part, partLength, file, counted⟩ := one.appended
  obtain ⟨part', partLength', file', counted'⟩ := two.appended
  refine ⟨⟨part ++ part', ?_, ?_, ?_⟩, two.limit.trans one.limit,
    two.attempted.trans one.attempted, two.truncated.trans one.truncated,
    two.openErrno.trans one.openErrno, two.closeErrno.trans one.closeErrno,
    two.writeErrno ∘ one.writeErrno, two.opens.trans one.opens, two.markers.trans one.markers⟩
  · rw [List.length_append]
    exact Nat.add_le_add partLength partLength'
  · rw [file', file, List.append_assoc]
  · rw [counted', counted, List.length_append, Nat.add_assoc]

theorem Wrote.length_le {count : Nat} {after : World} (wrote : Wrote count before after) :
    after.file.length ≤ before.file.length + count := by
  obtain ⟨part, partLength, file, -⟩ := wrote.appended
  rw [file, List.length_append]
  exact Nat.add_le_add_left partLength _

theorem fwrite_isPrefix (bytes : List Byte) (replies : List WriteReply) :
    (fwrite bytes replies).1 <+: bytes := by
  cases replies with
  | nil => exact List.prefix_rfl
  | cons reply rest => exact List.take_prefix _ _

theorem writeBytes_wrote (sink : Bool) (bytes : List Byte) (world : World) :
    Wrote bytes.length world (writeBytes sink bytes world) := by
  rw [writeBytes]
  split_ifs with idle
  · exact Wrote.refl _ _
  · refine ⟨⟨(fwrite bytes world.replies).1, (fwrite_isPrefix _ _).length_le, rfl, rfl⟩, rfl, rfl,
      rfl, rfl, rfl, fun failed => ?_, rfl, rfl⟩
    exact absurd (.inr (.inr failed)) idle

theorem writeBytes_noSink (bytes : List Byte) (world : World) :
    writeBytes false bytes world = world := by
  rw [writeBytes, if_pos (.inr (.inl rfl))]

/-! ### What a call may do -/

/-- The file only grows and what it gains is counted; errors stay, and a marker comes with
truncation. -/
structure Moves (before after : World) : Prop where
  appended : ∃ part : List Byte, after.file = before.file ++ part ∧
    after.status.bytesWritten = before.status.bytesWritten + part.length
  limit : after.status.limit = before.status.limit
  attempted : before.status.attempted = true → after.status.attempted = true
  disabled : before.status.Disabled → after.status.Disabled
  truncated : before.status.truncated = true → after.status.truncated = true
  markers : after.markers = before.markers ∨
    before.status.truncated = false ∧ after.status.truncated = true ∧
      after.markers = before.markers + 1

theorem Moves.trans {after : World} (one : Moves before middle) (two : Moves middle after) :
    Moves before after := by
  obtain ⟨part, file, counted⟩ := one.appended
  obtain ⟨part', file', counted'⟩ := two.appended
  refine ⟨⟨part ++ part', ?_, ?_⟩, two.limit.trans one.limit, two.attempted ∘ one.attempted,
    two.disabled ∘ one.disabled, two.truncated ∘ one.truncated, ?_⟩
  · rw [file', file, List.append_assoc]
  · rw [counted', counted, List.length_append, Nat.add_assoc]
  · rcases one.markers with same | ⟨clear, set, more⟩
    · rw [← same]
      rcases two.markers with same' | ⟨clear', set', more'⟩
      · exact .inl same'
      · refine .inr ⟨?_, set', more'⟩
        by_contra already
        rw [one.truncated (by simpa using already)] at clear'
        cases clear'
    · rcases two.markers with same' | ⟨clear', -, -⟩
      · exact .inr ⟨clear, two.truncated set, same'.trans more⟩
      · rw [set] at clear'
        cases clear'

theorem Wrote.moves {count : Nat} {after : World} (wrote : Wrote count before after) :
    Moves before after := by
  obtain ⟨part, -, file, counted⟩ := wrote.appended
  refine ⟨⟨part, file, counted⟩, wrote.limit, fun set => wrote.attempted.trans set,
    fun disabled => ?_, fun set => wrote.truncated.trans set, .inl wrote.markers⟩
  rcases disabled with truncated | openErrno | writeErrno | closeErrno
  · exact .inl (wrote.truncated.trans truncated)
  · exact .inr (.inl (wrote.openErrno ▸ openErrno))
  · exact .inr (.inr (.inl (wrote.writeErrno writeErrno)))
  · exact .inr (.inr (.inr (wrote.closeErrno ▸ closeErrno)))

/-- A change of the status alone. -/
theorem Moves.of_status {world : World} {status : LogStatus}
    (counted : status.bytesWritten = world.status.bytesWritten)
    (limit : status.limit = world.status.limit)
    (attempted : world.status.attempted = true → status.attempted = true)
    (disabled : world.status.Disabled → status.Disabled)
    (truncated : world.status.truncated = true → status.truncated = true) :
    Moves world { world with status := status } :=
  ⟨⟨[], (List.append_nil _).symm, counted⟩, limit, attempted, disabled, truncated, .inl rfl⟩

/-! ### An open log -/

/-- How long the file can get before the log is closed. -/
def reach (log : BoundedLog) (world : World) : Nat :=
  world.file.length + log.tail.length + (log.capacity - log.accepted)

/-- The tail holds the last bytes that were accepted. -/
structure Held (log : BoundedLog) (world : World) : Prop where
  within : log.accepted ≤ log.capacity
  tail : world.status.truncated = false → log.tail.length = min tailSize log.accepted

/-- A write to an open log: the file does not get longer than it could before. -/
structure Continues (log : BoundedLog) (world : World) (after : BoundedLog × World) : Prop where
  moves : Moves world after.2
  opens : after.2.opens = world.opens
  sink : after.1.sink = log.sink
  held : Held after.1 after.2
  reach : reach after.1 after.2 ≤ reach log world
  quiet : log.sink = false → after.2.file = world.file

theorem Continues.refl (held : Held log world) : Continues log world (log, world) :=
  ⟨(Wrote.refl 0 world).moves, rfl, rfl, held, le_rfl, fun _ => rfl⟩

theorem Continues.trans {middle after : BoundedLog × World} (one : Continues log world middle)
    (two : Continues middle.1 middle.2 after) : Continues log world after :=
  ⟨one.moves.trans two.moves, two.opens.trans one.opens, two.sink.trans one.sink, two.held,
    two.reach.trans one.reach,
    fun none => (two.quiet (one.sink.trans none)).trans (one.quiet none)⟩

theorem retainPrefix_wrote (log : BoundedLog) (bytes : List Byte) (world : World) :
    Wrote (log.tail.length + bytes.length - tailSize) world (retainPrefix log bytes world).2 := by
  rw [retainPrefix]
  dsimp only
  generalize flushed : log.tail.length + bytes.length - tailSize = flush
  have wrote := (writeBytes_wrote log.sink (log.tail.take (min flush log.tail.length)) world).trans
    (writeBytes_wrote log.sink (bytes.take (flush - min flush log.tail.length)) _)
  have count : (log.tail.take (min flush log.tail.length)).length +
      (bytes.take (flush - min flush log.tail.length)).length = flush := by
    simp only [List.length_take]
    omega
  rwa [count] at wrote

theorem retainPrefix_tail_length (log : BoundedLog) (bytes : List Byte) (world : World) :
    (retainPrefix log bytes world).1.tail.length =
      min tailSize (log.tail.length + bytes.length) := by
  simp only [retainPrefix, List.length_append, List.length_drop]
  omega

/-- Bytes that fit are accepted. -/
theorem retainPrefix_continues {log : BoundedLog} {world : World} {bytes : List Byte}
    (held : Held log world) (clear : world.status.truncated = false)
    (room : bytes.length ≤ log.capacity - log.accepted) :
    Continues log world
      ({ (retainPrefix log bytes world).1 with
          accepted := (retainPrefix log bytes world).1.accepted + bytes.length },
        (retainPrefix log bytes world).2) := by
  have wrote := retainPrefix_wrote log bytes world
  have longer := wrote.length_le
  have tail := retainPrefix_tail_length log bytes world
  have full := held.tail clear
  have within := held.within
  refine ⟨wrote.moves, wrote.opens, rfl, ⟨?_, fun _ => ?_⟩, ?_, fun none => ?_⟩
  · change log.accepted + bytes.length ≤ log.capacity
    omega
  · change (retainPrefix log bytes world).1.tail.length = min tailSize (log.accepted + bytes.length)
    omega
  · change (retainPrefix log bytes world).2.file.length +
        (retainPrefix log bytes world).1.tail.length +
        (log.capacity - (log.accepted + bytes.length)) ≤ reach log world
    rw [reach]
    omega
  · rw [retainPrefix, none, writeBytes_noSink, writeBytes_noSink]

theorem marker_length : marker.length = markerSize := by
  decide +kernel

/-- Truncation replaces the end of the tail by the marker, which is no longer. -/
theorem truncate_continues (held : Held log world) (clear : world.status.truncated = false)
    (enough : markerSize ≤ log.tail.length) : Continues log world (truncate log world) := by
  have prefixLength := utf8Prefix_le (log.tail.take (log.tail.length - markerSize))
  rw [List.length_take] at prefixLength
  rw [truncate]
  dsimp only
  generalize utf8Prefix (log.tail.take (log.tail.length - markerSize)) = count at prefixLength ⊢
  have kept := writeBytes_wrote log.sink (log.tail.take count)
    { world with status := { world.status with truncated := true } }
  generalize keptIs : writeBytes log.sink (log.tail.take count)
    { world with status := { world.status with truncated := true } } = middle at kept ⊢
  have ended := writeBytes_wrote log.sink marker { middle with markers := middle.markers + 1 }
  obtain ⟨part, partLength, file, counted⟩ := kept.appended
  obtain ⟨part', partLength', file', counted'⟩ := ended.appended
  have truncated := ended.truncated.trans kept.truncated
  refine ⟨⟨⟨part ++ part', ?_, ?_⟩, ended.limit.trans kept.limit,
      fun set => (ended.attempted.trans kept.attempted).trans set, fun _ => .inl truncated,
      fun _ => truncated, .inr ⟨clear, truncated, ?_⟩⟩,
    ended.opens.trans kept.opens, rfl, ⟨held.within, fun untruncated => ?_⟩, ?_, fun none => ?_⟩
  · rw [file', file, List.append_assoc]
  · rw [counted', counted, List.length_append, Nat.add_assoc]
  · rw [ended.markers, kept.markers]
  · rw [truncated] at untruncated
    cases untruncated
  · have keptLength := kept.length_le
    have endedLength := ended.length_le
    rw [List.length_take] at keptLength
    rw [marker_length] at endedLength
    simp only [reach, List.length_nil]
    dsimp only at keptLength endedLength
    omega
  · rw [none, writeBytes_noSink]
    rw [none, writeBytes_noSink] at keptIs
    rw [← keptIs]

theorem boundedWrite_continues (held : Held log world) (bytes : List Byte) :
    Continues log world (boundedWrite log bytes world) := by
  rw [boundedWrite]
  split_ifs with empty disabled small
  · exact Continues.refl held
  · exact Continues.refl held
  · refine ⟨Moves.of_status rfl rfl id (fun _ => .inl rfl) fun _ => rfl, rfl, rfl,
      ⟨held.within, fun untruncated => ?_⟩, le_rfl, fun _ => rfl⟩
    cases untruncated
  · simp only [not_or, not_not, Bool.not_eq_true] at disabled
    have clear := disabled.1
    have within := held.within
    have length : (bytes.take (min bytes.length (log.capacity - log.accepted))).length =
        min bytes.length (log.capacity - log.accepted) := by
      rw [List.length_take]
      omega
    have retained := @retainPrefix_continues log world
      (bytes.take (min bytes.length (log.capacity - log.accepted))) held clear (by omega)
    rw [length] at retained
    have stillClear := (retainPrefix_wrote log
      (bytes.take (min bytes.length (log.capacity - log.accepted))) world).truncated.trans clear
    have tail := retained.held.tail stillClear
    dsimp only
    split_ifs with long
    · refine retained.trans (truncate_continues retained.held stillClear ?_)
      change _ = min tailSize
        (log.accepted + min bytes.length (log.capacity - log.accepted)) at tail
      rw [tail, tailSize]
      omega
    · exact retained

/-! ### Opening and closing -/

/-- Only the status is touched. -/
structure Noted (before after : World) : Prop where
  moves : Moves before after
  file : after.file = before.file
  opens : after.opens = before.opens

theorem Noted.refl (world : World) : Noted world world :=
  ⟨(Wrote.refl 0 world).moves, rfl, rfl⟩

theorem Noted.trans {after : World} (one : Noted before middle) (two : Noted middle after) :
    Noted before after :=
  ⟨one.moves.trans two.moves, two.file.trans one.file, two.opens.trans one.opens⟩

theorem Noted.openError (world : World) (error : Errno) : Noted world (world.openError error) := by
  refine ⟨Moves.of_status rfl rfl id (fun _ => ?_) id, rfl, rfl⟩
  exact .inr (.inl (rememberError_set _ _))

/-- Closing writes at most the tail. -/
theorem boundedClose_moves (log : BoundedLog) (reply : Option Errno) (world : World) :
    Moves world (boundedClose log reply world) ∧
      (boundedClose log reply world).opens = world.opens := by
  have wrote := writeBytes_wrote log.sink log.tail world
  have marked (error : Errno) : Moves (writeBytes log.sink log.tail world)
      { writeBytes log.sink log.tail world with
        status := { (writeBytes log.sink log.tail world).status with
          closeErrno := rememberError (writeBytes log.sink log.tail world).status.closeErrno
            error } } :=
    Moves.of_status rfl rfl id (fun _ => .inr (.inr (.inr (rememberError_set _ _)))) id
  cases sink : log.sink <;> cases reply <;> simp only [boundedClose, sink] at wrote marked ⊢
  case true.some error => exact ⟨wrote.moves.trans (marked error), wrote.opens⟩
  all_goals exact ⟨wrote.moves, wrote.opens⟩

theorem boundedClose_length (log : BoundedLog) (reply : Option Errno) (world : World) :
    (boundedClose log reply world).file.length ≤ world.file.length + log.tail.length := by
  rw [(boundedClose_written log reply world).1]
  exact (writeBytes_wrote log.sink log.tail world).length_le

theorem boundedClose_noSink (none : log.sink = false) (reply : Option Errno) (world : World) :
    (boundedClose log reply world).file = world.file := by
  rw [(boundedClose_written log reply world).1, none, writeBytes_noSink]

/-- A log is set up and the file stays as it is. -/
structure Begins (world : World) (after : Option BoundedLog × World) : Prop where
  moves : Moves world after.2
  file : after.2.file = world.file
  attempted : after.2.status.attempted = true
  held : ∀ log, after.1 = some log → Held log after.2
  reach : ∀ log, after.1 = some log → log.sink = true →
    reach log after.2 ≤ max world.status.limit world.file.length

theorem Noted.wrapped (world : World) (sink : Bool) (existing : Nat) :
    Noted world (world.wrapped sink existing) :=
  ⟨Moves.of_status rfl rfl (fun _ => rfl) id id, rfl, rfl⟩

theorem Noted.limited (world : World) (existing : Nat) :
    Noted world (world.limited existing).2 := by
  rw [World.limited]
  split_ifs
  · exact Noted.openError _ _
  · exact Noted.openError _ _
  · exact Noted.refl _

theorem Noted.unbuffered (world : World) (sink : Bool) (reply : Option Errno) :
    Noted world (world.unbuffered sink reply) := by
  cases sink <;> cases reply
  case true.some error => exact Noted.openError _ _
  all_goals exact Noted.refl _

theorem iperfBoundedLogWrap_noted (sink : Bool) (existing : Nat) (replies : OpenReplies)
    (world : World) :
    Noted (world.wrapped sink existing) (iperfBoundedLogWrap sink existing replies world).2 := by
  have ready := (Noted.limited (world.wrapped sink existing) existing).trans
    (Noted.unbuffered _ sink replies.setvbuf)
  rw [iperfBoundedLogWrap]
  split_ifs with allocated
  · cases replies.funopen with
    | none => exact ready
    | some error =>
        refine (ready.trans ?_).trans (Noted.openError _ error)
        obtain ⟨moves, opens⟩ := boundedClose_moves
          ⟨sink, ((world.wrapped sink existing).limited existing).1, 0, []⟩ replies.fclose
          (((world.wrapped sink existing).limited existing).2.unbuffered sink replies.setvbuf)
        exact ⟨moves, (boundedClose_empty rfl _ _).1, opens⟩
  · exact Noted.openError _ _

/-- The log of a sink may grow the file up to the limit. -/
theorem iperfBoundedLogWrap_log {sink : Bool} {existing : Nat} {replies : OpenReplies}
    (wrapped : (iperfBoundedLogWrap sink existing replies world).1 = some log) :
    log.sink = sink ∧ log.accepted = 0 ∧ log.tail = [] ∧
      existing + log.capacity ≤ max world.status.limit existing := by
  have room : existing + ((world.wrapped sink existing).limited existing).1 ≤
      max world.status.limit existing := by
    have limit : (world.wrapped sink existing).status.limit = world.status.limit := rfl
    rw [World.limited, limit]
    split_ifs <;> dsimp only <;> omega
  rw [iperfBoundedLogWrap] at wrapped
  split_ifs at wrapped with allocated
  · cases created : replies.funopen with
    | none =>
        rw [created] at wrapped
        obtain rfl := Option.some.inj wrapped
        exact ⟨rfl, rfl, rfl, room⟩
    | some error =>
        rw [created] at wrapped
        cases wrapped

theorem iperfBoundedLogWrap_begins {sink : Bool} {existing : Nat} (world : World)
    (replies : OpenReplies) (size : sink = true → existing = world.file.length) :
    Begins world (iperfBoundedLogWrap sink existing replies world) := by
  have wrapping := iperfBoundedLogWrap_noted sink existing replies world
  have noted := (Noted.wrapped world sink existing).trans wrapping
  refine ⟨noted.moves, noted.file, wrapping.moves.attempted rfl, fun log wrapped => ?_, fun log wrapped isSink => ?_⟩
  · obtain ⟨-, accepted, tail, -⟩ := iperfBoundedLogWrap_log wrapped
    refine ⟨by omega, fun _ => ?_⟩
    rw [tail, accepted, List.length_nil, Nat.min_zero]
  · obtain ⟨same, accepted, tail, room⟩ := iperfBoundedLogWrap_log wrapped
    rw [size (same.symm.trans isSink)] at room
    rw [reach, noted.file, tail, accepted, List.length_nil]
    exact room

/-- A later step of the call, with the same limit and file, begins the log. -/
theorem Begins.after {after : Option BoundedLog × World} (begins : Begins world after)
    (moves : Moves before world) (file : world.file = before.file) : Begins before after := by
  refine ⟨moves.trans begins.moves, begins.file.trans file, begins.attempted, begins.held, ?_⟩
  rw [← file, ← moves.limit]
  exact begins.reach

theorem iperfBoundedLogOpen_begins (replies : OpenReplies) (world : World) :
    Begins world (iperfBoundedLogOpen replies world) := by
  have noSink (existing : Nat) (later : World) :
      Begins later (iperfBoundedLogWrap false existing replies later) :=
    iperfBoundedLogWrap_begins later replies fun isSink => by cases isSink
  have opened : Moves world { world with opens := world.opens + 1 } :=
    ⟨⟨[], (List.append_nil _).symm, rfl⟩, rfl, id, id, id, .inl rfl⟩
  have failed (existing : Nat) (error : Errno) {later : World} (moves : Moves world later)
      (file : later.file = world.file) :
      Begins world (iperfBoundedLogWrap false existing replies (later.openError error)) :=
    (noSink existing _).after (moves.trans (Noted.openError _ _).moves) file
  rw [iperfBoundedLogOpen]
  by_cases disabled : world.status.attempted = true ∧ world.status.Disabled
  · rw [if_pos disabled]
    exact noSink _ _
  · rw [if_neg disabled]
    dsimp only
    split
    · exact failed 0 _ opened rfl
    · split
      · exact failed 0 _ opened rfl
      · split
        · have known := opened.trans
            (@Moves.of_status _ { world.status with fileSizeKnown := true } rfl rfl id id id)
          split
          · exact failed _ _ known rfl
          · exact (iperfBoundedLogWrap_begins _ replies fun _ => rfl).after known rfl
        · exact failed 0 _ opened rfl

/-- A disabled log is opened without a sink. -/
theorem iperfBoundedLogOpen_disabled {replies : OpenReplies} {world : World}
    (attempted : world.status.attempted = true) (disabled : world.status.Disabled) :
    (iperfBoundedLogOpen replies world).2.opens = world.opens ∧
      ∀ log, (iperfBoundedLogOpen replies world).1 = some log → log.sink = false := by
  rw [iperfBoundedLogOpen, if_pos ⟨attempted, disabled⟩]
  exact ⟨(iperfBoundedLogWrap_noted _ _ _ _).opens,
    fun log wrapped => (iperfBoundedLogWrap_log wrapped).1⟩

/-! ### Cycles of a server -/

/-- The shared state and the log that is open at the moment. -/
structure Life where
  world : World
  current : Option BoundedLog
deriving DecidableEq, Repr

inductive Call where
  | openLog (replies : OpenReplies)
  | write (bytes : List Byte)
  | close (reply : Option Errno)
deriving DecidableEq, Repr

/-- One call. A log is opened when none is open; the other calls are made on an open log. -/
def Life.step (life : Life) : Call → Option Life
  | .openLog replies =>
      match life.current with
      | some _ => none
      | none =>
          let opened := iperfBoundedLogOpen replies life.world
          some ⟨opened.2, opened.1⟩
  | .write bytes =>
      life.current.map fun log =>
        let written := boundedWrite log bytes life.world
        ⟨written.2, some written.1⟩
  | .close reply => life.current.map fun log => ⟨boundedClose log reply life.world, none⟩

/-- Before the first cycle. -/
def Life.fresh (limit : Nat) (initial : List Byte) (replies : List WriteReply) : Life :=
  ⟨⟨{ limit := limit }, initial, replies, 0, 0⟩, none⟩

variable {life next : Life} {call : Call}

/-- What one call does: it begins a log, continues it or ends it. -/
theorem step_cases (stepped : life.step call = some next) :
    (∃ replies, call = .openLog replies ∧ life.current = none ∧
      next = ⟨(iperfBoundedLogOpen replies life.world).2,
        (iperfBoundedLogOpen replies life.world).1⟩) ∨
    (∃ bytes log, call = .write bytes ∧ life.current = some log ∧
      next = ⟨(boundedWrite log bytes life.world).2, some (boundedWrite log bytes life.world).1⟩) ∨
    ∃ reply log, call = .close reply ∧ life.current = some log ∧
      next = ⟨boundedClose log reply life.world, none⟩ := by
  cases call with
  | openLog replies =>
      cases current : life.current with
      | some log =>
          rw [Life.step, current] at stepped
          cases stepped
      | none =>
          rw [Life.step, current] at stepped
          exact .inl ⟨replies, rfl, rfl, (Option.some.inj stepped).symm⟩
  | write bytes =>
      obtain ⟨log, current, after⟩ := Option.map_eq_some_iff.mp stepped
      exact .inr (.inl ⟨bytes, log, rfl, current, after.symm⟩)
  | close reply =>
      obtain ⟨log, current, after⟩ := Option.map_eq_some_iff.mp stepped
      exact .inr (.inr ⟨reply, log, rfl, current, after.symm⟩)

/-- The budget holds, and the log that is open can not break it. -/
structure WithinBudget (limit : Nat) (initial : List Byte) (life : Life) : Prop where
  sameLimit : life.world.status.limit = limit
  appended : ∃ part : List Byte, life.world.file = initial ++ part ∧
    life.world.status.bytesWritten = part.length
  size : life.world.file.length ≤ max limit initial.length
  markers : life.world.markers ≤ 1
  marked : life.world.markers = 1 → life.world.status.truncated = true
  attempted : life.world.status.attempted = true ∨
    life.current = none ∧ ¬ life.world.status.Disabled
  held : ∀ log, life.current = some log → Held log life.world
  reach : ∀ log, life.current = some log → log.sink = true →
    reach log life.world ≤ max limit initial.length

/-- The part of the invariant that is about the shared state follows from `Moves`. -/
theorem WithinBudget.moves {limit : Nat} {initial : List Byte}
    (within : WithinBudget limit initial life) (moves : Moves life.world next.world)
    (size : next.world.file.length ≤ max limit initial.length)
    (attempted : next.world.status.attempted = true)
    (held : ∀ log, next.current = some log → Held log next.world)
    (reaches : ∀ log, next.current = some log → log.sink = true →
      Log.reach log next.world ≤ max limit initial.length) : WithinBudget limit initial next := by
  obtain ⟨part, file, counted⟩ := within.appended
  obtain ⟨part', file', counted'⟩ := moves.appended
  have atMost := within.markers
  have marked := within.marked
  refine ⟨moves.limit.trans within.sameLimit, ⟨part ++ part', ?_, ?_⟩, size, ?_, fun once => ?_,
    .inl attempted, held, reaches⟩
  · rw [file', file, List.append_assoc]
  · rw [counted', counted, List.length_append]
  · rcases moves.markers with same | ⟨clear, -, more⟩
    · omega
    · have unmarked : life.world.markers ≠ 1 := fun once => by
        rw [marked once] at clear
        cases clear
      omega
  · rcases moves.markers with same | ⟨-, set, -⟩
    · exact moves.truncated (marked (same ▸ once))
    · exact set

theorem WithinBudget.step {limit : Nat} {initial : List Byte}
    (within : WithinBudget limit initial life) (stepped : life.step call = some next) :
    WithinBudget limit initial next := by
  have size := within.size
  rcases step_cases stepped with ⟨replies, -, current, rfl⟩ | ⟨bytes, log, -, current, rfl⟩ |
    ⟨reply, log, -, current, rfl⟩
  · have begins := iperfBoundedLogOpen_begins replies life.world
    refine within.moves begins.moves ?_ begins.attempted begins.held fun log opened sink => ?_
    · rw [begins.file]
      exact size
    · have room := begins.reach log opened sink
      rw [within.sameLimit] at room
      exact room.trans (max_le (le_max_left _ _) size)
  · have continues := boundedWrite_continues (within.held log current) bytes
    have attempted : life.world.status.attempted = true :=
      within.attempted.resolve_right fun idle => by
        rw [current] at idle
        cases idle.1
    refine within.moves continues.moves ?_ (continues.moves.attempted attempted) ?_ ?_
    · cases sink : log.sink with
      | true =>
          have room := continues.reach.trans (within.reach log current sink)
          rw [Log.reach] at room
          dsimp only
          omega
      | false =>
          rw [continues.quiet sink]
          exact size
    · rintro _ ⟨rfl⟩
      exact continues.held
    · rintro _ ⟨rfl⟩ sink
      exact continues.reach.trans (within.reach log current (continues.sink ▸ sink))
  · have attempted : life.world.status.attempted = true :=
      within.attempted.resolve_right fun idle => by
        rw [current] at idle
        cases idle.1
    have moves := (boundedClose_moves log reply life.world).1
    refine within.moves moves ?_ (moves.attempted attempted) nofun
      nofun
    cases sink : log.sink with
    | true =>
        have room := within.reach log current sink
        have closed := boundedClose_length log reply life.world
        rw [Log.reach] at room
        dsimp only
        omega
    | false =>
        rw [boundedClose_noSink sink]
        exact size

theorem withinBudget_fresh (limit : Nat) (initial : List Byte) (replies : List WriteReply) :
    WithinBudget limit initial (Life.fresh limit initial replies) := by
  refine ⟨rfl, ⟨[], (List.append_nil _).symm, rfl⟩, le_max_right _ _, Nat.zero_le _,
    nofun, .inr ⟨rfl, ?_⟩, nofun,
    nofun⟩
  simp [LogStatus.Disabled, Life.fresh]

/-- A disabled log has no sink any more. -/
structure Dormant (file : List Byte) (opens : Nat) (life : Life) : Prop where
  disabled : life.world.status.Disabled
  attempted : life.world.status.attempted = true
  held : ∀ log, life.current = some log → Held log life.world
  noSink : ∀ log, life.current = some log → log.sink = false
  file : life.world.file = file
  opens : life.world.opens = opens

theorem Dormant.step {file : List Byte} {opens : Nat} (dormant : Dormant file opens life)
    (stepped : life.step call = some next) : Dormant file opens next := by
  rcases step_cases stepped with ⟨replies, -, -, rfl⟩ | ⟨bytes, log, -, current, rfl⟩ |
    ⟨reply, log, -, current, rfl⟩
  · have begins := iperfBoundedLogOpen_begins replies life.world
    obtain ⟨unopened, noSink⟩ :=
      @iperfBoundedLogOpen_disabled replies _ dormant.attempted dormant.disabled
    exact ⟨begins.moves.disabled dormant.disabled, begins.attempted, begins.held, noSink,
      begins.file.trans dormant.file, unopened.trans dormant.opens⟩
  · have continues := boundedWrite_continues (dormant.held log current) bytes
    have noSink := dormant.noSink log current
    refine ⟨continues.moves.disabled dormant.disabled,
      continues.moves.attempted dormant.attempted, ?_, ?_,
      (continues.quiet noSink).trans dormant.file, continues.opens.trans dormant.opens⟩
    · rintro _ ⟨rfl⟩
      exact continues.held
    · rintro _ ⟨rfl⟩
      exact continues.sink.trans noSink
  · obtain ⟨moves, opens⟩ := boundedClose_moves log reply life.world
    exact ⟨moves.disabled dormant.disabled, moves.attempted dormant.attempted,
      nofun, nofun,
      (boundedClose_noSink (dormant.noSink log current) _ _).trans dormant.file,
      opens.trans dormant.opens⟩

/-- After any calls, with any answers of the system, the budget holds; and a server whose log
is disabled between two cycles neither opens the path nor appends again. -/
theorem boundedLog_withinBudget (limit : Nat) (initial : List Byte) (replies : List WriteReply)
    (calls : List Call) (life : Life)
    (run : execute Life.step (Life.fresh limit initial replies) calls = some life) :
    (∃ part : List Byte, life.world.file = initial ++ part ∧
      life.world.status.bytesWritten = part.length) ∧
    life.world.file.length ≤ max limit initial.length ∧
    life.world.markers ≤ 1 ∧
    (life.world.status.Disabled → life.current = none → ∀ later final,
      execute Life.step life later = some final →
        final.world.file = life.world.file ∧ final.world.opens = life.world.opens) := by
  have within := execute_invariant WithinBudget.step run (withinBudget_fresh limit initial replies)
  refine ⟨within.appended, within.size, within.markers, fun disabled idle later final rest => ?_⟩
  have attempted := within.attempted.resolve_right fun enabled => enabled.2 disabled
  have noLog (log : BoundedLog) : life.current ≠ some log := by
    rw [idle]
    exact nofun
  have dormant : Dormant life.world.file life.world.opens life :=
    ⟨disabled, attempted, fun log current => absurd current (noLog log),
      fun log current => absurd current (noLog log), rfl, rfl⟩
  have final := execute_invariant Dormant.step rest dormant
  exact ⟨final.file, final.opens⟩

/-- A short write in the first cycle: the tail is lost and the next cycle has no sink. -/
def shortWriteCalls : List Call :=
  let succeeding : OpenReplies := ⟨none, none, true, none, true, none, none, none⟩
  [.openLog succeeding, .write (List.replicate 40 0x61), .close none, .openLog succeeding,
    .write [0x62], .close none]

def shortWriteLife : Life :=
  ⟨⟨⟨64, 5, 6, true, true, false, 0, EIO, 0⟩, 0x78 :: List.replicate 5 0x61, [], 1, 0⟩, none⟩

theorem withinBudget_of_shortWrite :
    execute Life.step (Life.fresh 64 [0x78] [⟨5, true, 0⟩]) shortWriteCalls =
        some shortWriteLife ∧
      shortWriteLife.world.file.length ≤ max 64 1 ∧ shortWriteLife.world.status.Disabled := by
  have run : execute Life.step (Life.fresh 64 [0x78] [⟨5, true, 0⟩]) shortWriteCalls =
      some shortWriteLife := by
    decide +kernel
  exact ⟨run, (boundedLog_withinBudget 64 [0x78] _ _ _ run).2.1, by decide⟩

end IperfSwift.Log
