import IperfSwift.Log.Life

/-!
Contract: the file size that a log reports.

Owns: what every call does to `file_bytes` and `file_size_known`; the size as the
last `fstat` saw it, with what the log appended since; and when the two agree.

Nobody else writes to the file, so what `fstat` says is its length.

Does not own: whether the size is within the budget.
-/

set_option autoImplicit false

namespace IperfSwift.Log

open IperfSwift.Lib
open IperfSwift.Output

variable {before after : World} {life : Life} {call : Call}

/-! ### Counting -/

/-- What the file gains is added to `file_bytes`. -/
structure Counts (before after : World) : Prop where
  known : after.status.fileSizeKnown = before.status.fileSizeKnown
  gained : ∃ count, after.file.length = before.file.length + count ∧
    after.status.fileBytes = before.status.fileBytes + count

/-- Neither the size nor the file is touched. -/
theorem Counts.of_same (known : after.status.fileSizeKnown = before.status.fileSizeKnown)
    (file : after.file = before.file) (size : after.status.fileBytes = before.status.fileBytes) :
    Counts before after :=
  ⟨known, 0, by rw [file, Nat.add_zero], size⟩

theorem Counts.trans {middle : World} (one : Counts before middle) (two : Counts middle after) :
    Counts before after := by
  obtain ⟨count, file, size⟩ := one.gained
  obtain ⟨count', file', size'⟩ := two.gained
  exact ⟨two.known.trans one.known, count + count', by omega, by omega⟩

theorem writeBytes_counts (sink : Bool) (bytes : List Byte) (world : World) :
    Counts world (writeBytes sink bytes world) := by
  rw [writeBytes]
  split_ifs
  · exact .of_same rfl rfl rfl
  · exact ⟨rfl, _, List.length_append, rfl⟩

theorem retainPrefix_counts (log : BoundedLog) (bytes : List Byte) (world : World) :
    Counts world (retainPrefix log bytes world).2 :=
  (writeBytes_counts _ _ _).trans (writeBytes_counts _ _ _)

theorem truncate_counts (log : BoundedLog) (world : World) :
    Counts world (truncate log world).2 := by
  rw [truncate]
  dsimp only
  generalize log.tail.take (utf8Prefix (log.tail.take (log.tail.length - markerSize))) = kept
  have marked : Counts world { world with status := { world.status with truncated := true } } :=
    .of_same rfl rfl rfl
  have written := marked.trans (writeBytes_counts log.sink kept _)
  generalize writeBytes log.sink kept
    { world with status := { world.status with truncated := true } } = middle at written ⊢
  have counted : Counts middle { middle with markers := middle.markers + 1 } :=
    .of_same rfl rfl rfl
  exact (written.trans counted).trans (writeBytes_counts log.sink marker _)

theorem boundedWrite_counts (log : BoundedLog) (bytes : List Byte) (world : World) :
    Counts world (boundedWrite log bytes world).2 := by
  rw [boundedWrite]
  split_ifs
  · exact .of_same rfl rfl rfl
  · exact .of_same rfl rfl rfl
  · exact .of_same rfl rfl rfl
  · dsimp only
    split_ifs
    · exact (retainPrefix_counts _ _ _).trans (truncate_counts _ _)
    · exact retainPrefix_counts _ _ _

theorem boundedClose_counts (log : BoundedLog) (reply : Option Errno) (world : World) :
    Counts world (boundedClose log reply world) := by
  have flushed := writeBytes_counts log.sink log.tail world
  cases sink : log.sink <;> cases reply <;> simp only [boundedClose, sink] at flushed ⊢
  case true.some error => exact flushed.trans (.of_same rfl rfl rfl)
  all_goals exact flushed

/-! ### Opening -/

theorem openError_counts (world : World) (error : Errno) :
    Counts world (world.openError error) :=
  .of_same rfl rfl rfl

theorem limited_counts (world : World) (existing : Nat) :
    Counts world (world.limited existing).2 := by
  rw [World.limited]
  split_ifs
  · exact openError_counts _ _
  · exact openError_counts _ _
  · exact .of_same rfl rfl rfl

theorem unbuffered_counts (world : World) (sink : Bool) (reply : Option Errno) :
    Counts world (world.unbuffered sink reply) := by
  cases sink <;> cases reply
  case true.some error => exact openError_counts _ _
  all_goals exact .of_same rfl rfl rfl

theorem iperfBoundedLogWrap_counts (sink : Bool) (existing : Nat) (replies : OpenReplies)
    (world : World) :
    Counts (world.wrapped sink existing) (iperfBoundedLogWrap sink existing replies world).2 := by
  have ready := (limited_counts (world.wrapped sink existing) existing).trans
    (unbuffered_counts _ sink replies.setvbuf)
  rw [iperfBoundedLogWrap]
  split_ifs
  · cases replies.funopen with
    | none => exact ready
    | some error => exact (ready.trans (boundedClose_counts _ _ _)).trans (openError_counts _ _)
  · exact openError_counts _ _

/-- Wrapping takes over the size it is given. -/
theorem iperfBoundedLogWrap_size (sink : Bool) (existing : Nat) (replies : OpenReplies)
    (world : World) :
    (iperfBoundedLogWrap sink existing replies world).2.status.fileBytes = existing ∧
      (iperfBoundedLogWrap sink existing replies world).2.status.fileSizeKnown =
        (world.status.fileSizeKnown || sink) := by
  have counts := iperfBoundedLogWrap_counts sink existing replies world
  obtain ⟨count, file, size⟩ := counts.gained
  rw [(iperfBoundedLogWrap_noted sink existing replies world).file] at file
  refine ⟨?_, counts.known⟩
  change _ = existing + count at size
  omega

/-- `fstat` says how long the file is. -/
def OpenReplies.Inspected (replies : OpenReplies) : Prop :=
  replies.openPath = none ∧ replies.fstat = none

instance (replies : OpenReplies) : Decidable replies.Inspected := inferInstanceAs (Decidable (_ ∧ _))

/-- The log is disabled and the path is left alone. -/
abbrev World.Idle (world : World) : Prop :=
  world.status.attempted = true ∧ world.status.Disabled

theorem iperfBoundedLogOpen_idle {replies : OpenReplies} {world : World} (idle : world.Idle) :
    (iperfBoundedLogOpen replies world).2.status.fileBytes = world.status.fileBytes ∧
      (iperfBoundedLogOpen replies world).2.status.fileSizeKnown =
        world.status.fileSizeKnown := by
  rw [iperfBoundedLogOpen, if_pos idle]
  have size := iperfBoundedLogWrap_size false world.status.fileBytes replies world
  rwa [Bool.or_false] at size

theorem iperfBoundedLogOpen_inspected {replies : OpenReplies} {world : World}
    (tried : ¬ world.Idle) (inspected : replies.Inspected) (regular : replies.regular = true) :
    (iperfBoundedLogOpen replies world).2.status.fileBytes = world.file.length ∧
      (iperfBoundedLogOpen replies world).2.status.fileSizeKnown = true := by
  rw [iperfBoundedLogOpen, if_neg tried, inspected.1, inspected.2, regular]
  dsimp only
  cases replies.fdopen with
  | none => exact iperfBoundedLogWrap_size true world.file.length replies _
  | some error => exact iperfBoundedLogWrap_size false world.file.length replies _

/-- A file that could not be opened or inspected is taken to be empty. -/
theorem iperfBoundedLogOpen_failed {replies : OpenReplies} {world : World}
    (tried : ¬ world.Idle) (failed : ¬ replies.Inspected) :
    (iperfBoundedLogOpen replies world).2.status.fileBytes = 0 ∧
      (iperfBoundedLogOpen replies world).2.status.fileSizeKnown =
        world.status.fileSizeKnown := by
  have wrapped (error : Errno) := iperfBoundedLogWrap_size false 0 replies
    (World.openError { world with opens := world.opens + 1 } error)
  simp only [Bool.or_false] at wrapped
  rw [iperfBoundedLogOpen, if_neg tried]
  dsimp only
  cases opened : replies.openPath with
  | some error => exact wrapped error
  | none =>
      cases seen : replies.fstat with
      | some error => exact wrapped error
      | none => exact absurd ⟨opened, seen⟩ failed

/-! ### The size that was seen -/

/-- The server with the size that the last successful `fstat` returned, plus what the log has
appended since. -/
structure Watched where
  life : Life
  observed : Option Nat
deriving DecidableEq, Repr

/-- The call inspects the file. -/
def Life.Observes (life : Life) : Call → Prop
  | .openLog replies => ¬ life.world.Idle ∧ replies.Inspected
  | _ => False

instance (life : Life) (call : Call) : Decidable (life.Observes call) := by
  cases call
  · exact inferInstanceAs (Decidable (_ ∧ _))
  · exact inferInstanceAs (Decidable False)
  · exact inferInstanceAs (Decidable False)

def Watched.step (watched : Watched) (call : Call) : Option Watched :=
  (watched.life.step call).map fun after =>
    let seen :=
      if watched.life.Observes call then some watched.life.world.file.length
      else watched.observed
    ⟨after, seen.map (· + (after.world.file.length - watched.life.world.file.length))⟩

def Watched.fresh (limit : Nat) (initial : List Byte) (replies : List WriteReply) : Watched :=
  ⟨Life.fresh limit initial replies, none⟩

/-- The size that is reported as known is the one that was seen. -/
def SizeKept (watched : Watched) : Prop :=
  watched.life.world.status.fileSizeKnown = true →
    watched.observed = some watched.life.world.status.fileBytes

/-- The path is tried again with a known size of a file that is not empty, and can not be
opened or inspected. -/
def Life.Forgets (life : Life) : Call → Prop
  | .openLog replies =>
      life.current = none ∧ ¬ life.world.Idle ∧ life.world.status.fileSizeKnown = true ∧
        life.world.file ≠ [] ∧ ¬ replies.Inspected
  | _ => False

/-- A call that forgets the size can be made. -/
theorem Life.Forgets.enabled (forgets : life.Forgets call) :
    ∃ next, life.step call = some next := by
  cases call with
  | openLog replies => simp only [Life.step, forgets.1, Option.some.injEq, exists_eq']
  | write bytes | close reply => exact forgets.elim

/-- The size that was seen is the length of the file. -/
def Seen (watched : Watched) : Prop :=
  watched.life.world.status.fileSizeKnown = true →
    watched.observed = some watched.life.world.file.length

/-- The size that is reported is the length of the file. -/
def Reported (world : World) : Prop :=
  world.status.fileSizeKnown = true → world.status.fileBytes = world.file.length

theorem sizeKept_iff_reported {watched : Watched} (seen : Seen watched) :
    SizeKept watched ↔ Reported watched.life.world := by
  refine forall_congr' fun known => ?_
  rw [seen known, Option.some_inj]
  exact eq_comm

theorem Reported.counts (reported : Reported before) (counts : Counts before after) :
    Reported after := by
  obtain ⟨count, file, size⟩ := counts.gained
  intro known
  have same := reported (counts.known ▸ known)
  omega

/-- What a call does to the size: it is seen anew, it is lost, or it is counted on. -/
theorem step_size {next : Life} (stepped : life.step call = some next)
    (regular : ∀ replies, call = .openLog replies → replies.regular = true) :
    (life.Observes call ∧ next.world.file = life.world.file ∧
      next.world.status.fileBytes = life.world.file.length) ∨
    (∃ replies, call = .openLog replies ∧ life.current = none ∧ ¬ life.world.Idle ∧
      ¬ replies.Inspected ∧ next.world.file = life.world.file ∧
      next.world.status.fileSizeKnown = life.world.status.fileSizeKnown ∧
      next.world.status.fileBytes = 0) ∨
    (¬ life.Observes call ∧ ¬ life.Forgets call ∧ Counts life.world next.world) := by
  rcases step_cases stepped with ⟨replies, rfl, current, rfl⟩ | ⟨bytes, log, rfl, -, rfl⟩ |
    ⟨reply, log, rfl, -, rfl⟩
  · have file := (iperfBoundedLogOpen_begins replies life.world).file
    by_cases idle : life.world.Idle
    · obtain ⟨size, known⟩ := @iperfBoundedLogOpen_idle replies _ idle
      exact .inr (.inr ⟨fun sees => sees.1 idle, fun forgets => forgets.2.1 idle,
        .of_same known file size⟩)
    · by_cases inspected : replies.Inspected
      · exact .inl ⟨⟨idle, inspected⟩, file,
          (iperfBoundedLogOpen_inspected idle inspected (regular replies rfl)).1⟩
      · obtain ⟨size, known⟩ := iperfBoundedLogOpen_failed idle inspected
        exact .inr (.inl ⟨replies, rfl, current, idle, inspected, file, known, size⟩)
  · exact .inr (.inr ⟨id, id, boundedWrite_counts log bytes life.world⟩)
  · exact .inr (.inr ⟨id, id, boundedClose_counts log reply life.world⟩)

theorem Seen.step {watched next : Watched} (seen : Seen watched)
    (regular : ∀ replies, call = .openLog replies → replies.regular = true)
    (stepped : watched.step call = some next) : Seen next := by
  obtain ⟨after, moved, rfl⟩ := Option.map_eq_some_iff.mp stepped
  intro known
  dsimp only at known ⊢
  rcases step_size moved regular with ⟨observes, file, -⟩ |
    ⟨replies, rfl, -, -, failed, file, same, -⟩ | ⟨unseen, -, counts⟩
  · rw [if_pos observes, Option.map_some, file, Nat.sub_self, Nat.add_zero]
  · have unseen : ¬ watched.life.Observes (.openLog replies) := fun sees => failed sees.2
    rw [if_neg unseen, seen (same ▸ known), Option.map_some, file, Nat.sub_self, Nat.add_zero]
  · obtain ⟨count, file, -⟩ := counts.gained
    rw [if_neg unseen, seen (counts.known ▸ known), Option.map_some, file,
      Nat.add_sub_cancel_left]

/-- A call keeps the reported size unless it forgets it, and a call that does loses it. -/
theorem reported_step {next : Life} (reported : Reported life.world)
    (regular : ∀ replies, call = .openLog replies → replies.regular = true)
    (stepped : life.step call = some next) : Reported next.world ↔ ¬ life.Forgets call := by
  rcases step_size stepped regular with ⟨observes, file, size⟩ |
    ⟨replies, rfl, current, tried, failed, file, same, size⟩ | ⟨-, remembers, counts⟩
  · refine iff_of_true (fun _ => by rw [size, file]) ?_
    cases call with
    | openLog replies => exact fun forgets => forgets.2.2.2.2 observes.2
    | write bytes | close reply => exact id
  · constructor
    · rintro kept ⟨-, -, known, content, -⟩
      have length := kept (same.trans known)
      rw [size, file] at length
      exact content (List.length_eq_zero_iff.mp length.symm)
    · intro remembers known
      rw [same] at known
      have empty : life.world.file = [] := by
        by_contra content
        exact remembers ⟨current, tried, known, content, failed⟩
      rw [size, file, empty]
      rfl
  · exact iff_of_true (reported.counts counts) remembers

/-! ### Whole runs -/

section Runs

variable {limit : Nat} {initial : List Byte} {replies : List WriteReply} {calls : List Call}

/-- The size that was seen is the length of the file in every run. -/
theorem seen_run {final : Watched}
    (regular : ∀ answers, .openLog answers ∈ calls → answers.regular = true)
    (run : execute Watched.step (Watched.fresh limit initial replies) calls = some final) :
    Seen final := by
  induction calls using List.reverseRecOn generalizing final with
  | nil =>
      cases run
      exact nofun
  | append_singleton before call inductionHypothesis =>
      obtain ⟨middle, start, last⟩ := execute_append.mp run
      obtain ⟨next, stepped, done⟩ := execute_cons.mp last
      cases done
      refine (inductionHypothesis (fun answers called => ?_) start).step ?_ stepped
      · exact regular answers (List.mem_append_left _ called)
      · rintro answers rfl
        exact regular answers (by simp)

end Runs

/-- Over whole runs: the reported size is the one that was seen, after every call, if and only
if no call forgets it. -/
theorem sizeKept_iff (limit : Nat) (initial : List Byte) (replies : List WriteReply)
    (calls : List Call) (regular : ∀ answers, .openLog answers ∈ calls → answers.regular = true) :
    (∀ before middle, before <+: calls →
      execute Watched.step (Watched.fresh limit initial replies) before = some middle →
        SizeKept middle) ↔
    ∀ before call middle, before ++ [call] <+: calls →
      execute Watched.step (Watched.fresh limit initial replies) before = some middle →
        ¬ middle.life.Forgets call := by
  have regularPrefix {before : List Call} (start : before <+: calls) (answers : OpenReplies)
      (called : .openLog answers ∈ before) : answers.regular = true :=
    regular answers (start.subset called)
  constructor
  · intro kept before call middle start run forgets
    have earlier : before <+: calls := (List.prefix_append before [call]).trans start
    obtain ⟨after, moved⟩ := forgets.enabled
    have stepped : ∃ next, middle.step call = some next ∧ next.life = after :=
      ⟨_, by rw [Watched.step, moved, Option.map_some], rfl⟩
    obtain ⟨next, stepped, rfl⟩ := stepped
    have run' : execute Watched.step (Watched.fresh limit initial replies) (before ++ [call]) =
        some next :=
      execute_append.mpr ⟨middle, run, execute_cons.mpr ⟨next, stepped, rfl⟩⟩
    have reported := (sizeKept_iff_reported (seen_run (regularPrefix earlier) run)).mp
      (kept before middle earlier run)
    have reported' := (sizeKept_iff_reported (seen_run (regularPrefix start) run')).mp
      (kept _ next start run')
    refine (reported_step reported ?_ moved).mp reported' forgets
    rintro answers rfl
    exact regularPrefix start answers (by simp)
  · intro remembers before
    induction before using List.reverseRecOn with
    | nil =>
        intro middle _ run
        cases run
        exact nofun
    | append_singleton before call inductionHypothesis =>
        intro next start run
        have earlier : before <+: calls := (List.prefix_append before [call]).trans start
        obtain ⟨middle, run', last⟩ := execute_append.mp run
        obtain ⟨next, stepped, done⟩ := execute_cons.mp last
        cases done
        obtain ⟨after, moved, rfl⟩ := Option.map_eq_some_iff.mp stepped
        have reported := (sizeKept_iff_reported (seen_run (regularPrefix earlier) run')).mp
          (inductionHypothesis middle earlier run')
        refine (sizeKept_iff_reported (seen_run (regularPrefix start) run)).mpr
          ((reported_step reported ?_ moved).mpr (remembers before call middle start run'))
        rintro answers rfl
        exact regularPrefix start answers (by simp)

/-- A cycle that appends five bytes, and what follows it. -/
def helloCalls (rest : List Call) : List Call :=
  .openLog ⟨none, none, true, none, true, none, none, none⟩ ::
    .write [0x68, 0x65, 0x6c, 0x6c, 0x6f] :: .close none :: rest

/-- A second cycle that opens the file again and appends one byte. -/
def appendingCalls : List Call :=
  helloCalls [.openLog ⟨none, none, true, none, true, none, none, none⟩, .write [0x21], .close none]

/-- A second cycle that can not open the path any more. -/
def lostPathCalls : List Call :=
  helloCalls [.openLog ⟨some 13, none, true, none, true, none, none, none⟩]

theorem sizeKept_of_appending :
    (execute Watched.step (Watched.fresh 64 [] []) appendingCalls).map
        (fun final => (final.observed, final.life.world.status.fileBytes)) = some (some 6, 6) ∧
      ∀ before middle, before <+: appendingCalls →
        execute Watched.step (Watched.fresh 64 [] []) before = some middle →
          SizeKept middle := by
  have opens : ∀ answers, .openLog answers ∈ appendingCalls →
      answers = ⟨none, none, true, none, true, none, none, none⟩ := by
    simp [appendingCalls, helloCalls]
  have regular : ∀ answers, .openLog answers ∈ appendingCalls → answers.regular = true :=
    fun answers called => by rw [opens answers called]
  refine ⟨by decide +kernel, (sizeKept_iff 64 [] [] _ regular).mpr fun before call middle start _ => ?_⟩
  cases call with
  | openLog answers =>
      -- Every open can inspect the file.
      have plain := opens answers (start.subset (by simp))
      exact fun forgets => forgets.2.2.2.2 (by rw [plain]; exact ⟨rfl, rfl⟩)
  | write bytes | close reply => exact id

/-- The file still holds the five bytes that the log has written, and its size is reported
as 0. -/
theorem sizeLost_of_lostPath :
    ∃ final, execute Watched.step (Watched.fresh 64 [] []) lostPathCalls = some final ∧
      final.life.world.status.fileSizeKnown = true ∧ final.observed = some 5 ∧
      final.life.world.status.fileBytes = 0 := by
  refine ⟨⟨⟨⟨⟨64, 5, 0, true, true, false, 13, 0, 0⟩, [0x68, 0x65, 0x6c, 0x6c, 0x6f], [], 2, 0⟩,
    some ⟨false, 64, 0, []⟩⟩, some 5⟩, ?_⟩
  decide +kernel

end IperfSwift.Log
