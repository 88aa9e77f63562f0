import IperfSwift.Output.Reason

/-!
Contract: the retry loops of `iperf_bounded_socket.c` under any schedule.

Owns: one pass of a loop and what the system answers in it; `socket_read` as a
read function of the scanner; `socket_write`; and what they move, whatever the
schedule is.

A schedule is a finite list of passes. A loop that has used it up is still
running, and what it has moved by then is what it has moved at that time: all
finite schedules together are all runs of the loop, also the endless ones.

Does not own: the frame that is sent or received.
-/

set_option autoImplicit false

namespace IperfSwift.Socket

open IperfSwift.Lib
open IperfSwift.Output

/-! ### One pass -/

def EINTR : Errno := 4

def EBADF : Errno := 9

def EPIPE : Errno := 32

/-- Also `EWOULDBLOCK`. -/
def EAGAIN : Errno := 35

def ETIMEDOUT : Errno := 60

def ECANCELED : Errno := 89

/-- The answer of `poll`, with `POLLNVAL` among the events or without it. -/
inductive PollReply where
  | failed (errno : Errno)
  | timedOut
  | invalid
  | ready
deriving DecidableEq, Repr

/-- What the system answers in one pass of a loop, as far as it is asked. `transfer` is the
number of bytes that `recv` or `send` moves, if there are as many. -/
structure Turn where
  cancelled : Bool
  clock : Except Errno Nat
  poll : PollReply
  transfer : Except Errno Nat

inductive Event where
  | cancelled
  | waited (milliseconds : Nat)
  | received (bytes : List Byte)
  | sent (bytes : List Byte)
deriving DecidableEq, Repr

/-- How the checks in front of a transfer end. -/
inductive Gate where
  | stop (errno : Errno)
  | again
  | go
deriving DecidableEq, Repr

/-- The checks that `socket_read` and `socket_write` make before each transfer. -/
def gate (deadline : Nat) (turn : Turn) : Gate × List Event :=
  if turn.cancelled then (.stop ECANCELED, [.cancelled])
  else
    match turn.clock with
    | .error errno => (.stop errno, [])
    | .ok now =>
        if deadline ≤ now then (.stop ETIMEDOUT, [])
        else
          let waited := .waited (min ((deadline - now + 999999) / 1000000) 100)
          match turn.poll with
          | .failed errno => (if errno = EINTR then .again else .stop errno, [waited])
          | .timedOut => (.again, [waited])
          | .invalid => (.stop EBADF, [waited])
          | .ready => (.go, [waited])

/-- A transfer that would block or was interrupted is tried again. -/
def retries (errno : Errno) : Bool := errno = EAGAIN || errno = EINTR

/-! ### Receiving -/

/-- How far a loop has come. It has no result while it is running. -/
structure Progress (α : Type) where
  result : Option α
  events : List Event
  later : List Turn

/-- The events of a pass in front of those of the passes after it. -/
def Progress.after {α : Type} (progress : Progress α) (events : List Event) : Progress α :=
  { progress with events := events ++ progress.events }

/-- The loop of `socket_read`. `recv` takes bytes from the front of what the peer has sent. -/
def receive (deadline capacity : Nat) (incoming : List Byte) : List Turn → Progress ReadResult
  | [] => ⟨none, [], []⟩
  | turn :: later =>
      let checked := gate deadline turn
      match checked.1 with
      | .stop errno => ⟨some (.failed errno), checked.2, later⟩
      | .again => (receive deadline capacity incoming later).after checked.2
      | .go =>
          match turn.transfer with
          | .error errno =>
              if retries errno then (receive deadline capacity incoming later).after checked.2
              else ⟨some (.failed errno), checked.2, later⟩
          | .ok count =>
              let bytes := incoming.take (min count capacity)
              ⟨some (.data bytes), checked.2 ++ [.received bytes], later⟩

/-- `struct socket_reader` with the descriptor behind it: the bytes of the peer that have not
been received, the passes to come and what has happened. -/
structure Connection where
  deadline : Nat
  incoming : List Byte
  schedule : List Turn
  log : List Event
  suspended : Bool

def ReadResult.bytes : ReadResult → List Byte
  | .data bytes => bytes
  | .failed _ => []

/-- `socket_read`. Without a result it is still running; the scanner makes no further step
then, for which an error stands. -/
def socketRead : ReadFunction Connection := fun connection capacity =>
  let progress := receive connection.deadline capacity connection.incoming connection.schedule
  let log := connection.log ++ progress.events
  match progress.result with
  | none => (.failed 0, { connection with schedule := [], log := log, suspended := true })
  | some result =>
      (result,
        { connection with
          incoming := connection.incoming.drop (ReadResult.bytes result).length
          schedule := progress.later
          log := log })

/-! ### Sending -/

/-- `socket_write`, from the byte at `sent` on. -/
def socketWrite (deadline : Nat) : List Byte → List Turn → Progress (Except Errno Unit)
  | [], schedule => ⟨some (.ok ()), [], schedule⟩
  | _ :: _, [] => ⟨none, [], []⟩
  | byte :: rest, turn :: later =>
      let bytes := byte :: rest
      let checked := gate deadline turn
      match checked.1 with
      | .stop errno => ⟨some (.error errno), checked.2, later⟩
      | .again => (socketWrite deadline bytes later).after checked.2
      | .go =>
          match turn.transfer with
          | .error errno =>
              if retries errno then (socketWrite deadline bytes later).after checked.2
              else ⟨some (.error errno), checked.2, later⟩
          | .ok count =>
              let chunk := bytes.take (min count (min bytes.length 4096))
              if chunk = [] then ⟨some (.error EPIPE), checked.2, later⟩
              else
                (socketWrite deadline (bytes.drop chunk.length) later).after
                  (checked.2 ++ [.sent chunk])

/-! ### What has been moved -/

def Event.moved : Event → List Byte
  | .received bytes => bytes
  | .sent bytes => bytes
  | _ => []

/-- The bytes that were moved, in their order. -/
def moved (events : List Event) : List Byte := events.flatMap Event.moved

@[simp] theorem moved_nil : moved [] = [] := rfl

@[simp] theorem moved_append (first second : List Event) :
    moved (first ++ second) = moved first ++ moved second :=
  List.flatMap_append

@[simp] theorem moved_singleton (event : Event) : moved [event] = event.moved :=
  List.flatMap_singleton ..

/-- No byte is moved behind a cancellation check that returned true. -/
def Obeys (log : List Event) : Prop :=
  ∀ before after, log = before ++ .cancelled :: after → moved after = []

theorem obeys_of_not_mem {log : List Event} (never : Event.cancelled ∉ log) : Obeys log := by
  rintro before after rfl
  exact absurd (List.mem_append_right _ (List.mem_cons_self ..)) never

/-- Nothing was cancelled before, so the new events decide. -/
theorem Obeys.append {log events : List Event} (never : Event.cancelled ∉ log)
    (obeys : Obeys events) : Obeys (log ++ events) := by
  intro before after split
  rcases List.append_eq_append_iff.mp split with ⟨middle, -, rest⟩ | ⟨middle, front, rest⟩
  · exact obeys middle after rest
  · cases middle with
    | nil => exact obeys [] after rest.symm
    | cons event middle =>
        obtain ⟨rfl, -⟩ := List.cons.inj rest
        exact absurd (front ▸ List.mem_append_right _ (List.mem_cons_self ..)) never

/-! ### What the loops do -/

/-- The checks move nothing, and a check that finds a cancellation stops the loop. -/
structure Checked (checked : Gate × List Event) : Prop where
  still : moved checked.2 = []
  obeys : Obeys checked.2
  stops : .cancelled ∈ checked.2 → ∃ errno, checked.1 = .stop errno

theorem checked_gate (deadline : Nat) (turn : Turn) : Checked (gate deadline turn) := by
  have waited : ∀ (outcome : Gate) (milliseconds : Nat),
      Checked (outcome, [.waited milliseconds]) := by
    intro outcome milliseconds
    exact ⟨rfl, obeys_of_not_mem (by simp), by simp⟩
  unfold gate
  split
  · refine ⟨rfl, ?_, fun _ => ⟨ECANCELED, rfl⟩⟩
    intro before after split
    cases before with
    | nil =>
        obtain ⟨-, rfl⟩ := List.cons.inj split
        rfl
    | cons event before => simp at split
  · split
    · exact ⟨rfl, obeys_of_not_mem (by simp), by simp⟩
    · split
      · exact ⟨rfl, obeys_of_not_mem (by simp), by simp⟩
      · dsimp only
        split <;> exact waited _ _

/-- A pass that does not stop has found no cancellation. -/
theorem Checked.not_mem {checked : Gate × List Event} (holds : Checked checked)
    (goes : ∀ errno, checked.1 ≠ .stop errno) : .cancelled ∉ checked.2 := by
  intro found
  obtain ⟨errno, stops⟩ := holds.stops found
  exact goes errno stops

/-- What has been received by the end of a loop. -/
structure Receives (capacity : Nat) (incoming : List Byte) (progress : Progress ReadResult) :
    Prop where
  moves : moved progress.events = (progress.result.map ReadResult.bytes).getD []
  taken : ∀ bytes, progress.result = some (.data bytes) →
    bytes = incoming.take bytes.length ∧ bytes.length ≤ capacity
  obeys : Obeys progress.events
  stops : .cancelled ∈ progress.events → ∃ errno, progress.result = some (.failed errno)

theorem Receives.after {capacity : Nat} {incoming : List Byte} {progress : Progress ReadResult}
    (receives : Receives capacity incoming progress) {events : List Event}
    (still : moved events = []) (never : .cancelled ∉ events) :
    Receives capacity incoming (progress.after events) where
  moves := by
    rw [Progress.after, moved_append, still, List.nil_append]
    exact receives.moves
  taken := receives.taken
  obeys := Obeys.append never receives.obeys
  stops := by
    intro found
    rcases List.mem_append.mp found with here | there
    · exact absurd here never
    · exact receives.stops there

theorem receives_receive (deadline capacity : Nat) (incoming : List Byte) (schedule : List Turn) :
    Receives capacity incoming (receive deadline capacity incoming schedule) := by
  induction schedule with
  | nil => exact ⟨rfl, by simp [receive], obeys_of_not_mem (by simp [receive]), by simp [receive]⟩
  | cons turn later inductionHypothesis =>
      have checked := checked_gate deadline turn
      rw [receive]
      cases outcome : (gate deadline turn).1 with
      | stop errno =>
          exact ⟨checked.still, by simp, checked.obeys, fun _ => ⟨errno, rfl⟩⟩
      | again =>
          exact inductionHypothesis.after checked.still (checked.not_mem (by simp [outcome]))
      | go =>
          have never := checked.not_mem (by simp [outcome])
          dsimp only
          cases turn.transfer with
          | error errno =>
              dsimp only
              split
              · exact inductionHypothesis.after checked.still never
              · exact ⟨checked.still, by simp, checked.obeys, fun _ => ⟨errno, rfl⟩⟩
          | ok count =>
              dsimp only
              have nothing : .cancelled ∉ (gate deadline turn).2 ++
                  [.received (incoming.take (min count capacity))] := by
                simp [never]
              refine ⟨?_, ?_, obeys_of_not_mem nothing, fun found => absurd found nothing⟩
              · simp [checked.still, Event.moved, ReadResult.bytes]
              · intro bytes same
                obtain rfl := ReadResult.data.inj (Option.some.inj same)
                refine ⟨?_, ?_⟩
                · rw [List.length_take, List.take_eq_take_iff]
                  simp
                · rw [List.length_take]
                  omega

/-- What has been sent by the end of a loop. -/
structure Sends (bytes : List Byte) (progress : Progress (Except Errno Unit)) : Prop where
  moves : ∃ rest, bytes = moved progress.events ++ rest
  whole : progress.result = some (.ok ()) → moved progress.events = bytes
  obeys : Obeys progress.events
  stops : .cancelled ∈ progress.events → ∃ errno, progress.result = some (.error errno)

theorem Sends.after {bytes : List Byte} {progress : Progress (Except Errno Unit)}
    (sends : Sends bytes progress) {events : List Event} (never : .cancelled ∉ events) :
    Sends (moved events ++ bytes) (progress.after events) where
  moves := by
    obtain ⟨rest, split⟩ := sends.moves
    refine ⟨rest, ?_⟩
    rw [Progress.after, moved_append, List.append_assoc, ← split]
  whole := by
    intro done
    rw [Progress.after, moved_append, sends.whole done]
  obeys := Obeys.append never sends.obeys
  stops := by
    intro found
    rcases List.mem_append.mp found with here | there
    · exact absurd here never
    · exact sends.stops there

/-- A loop that fails in its first pass. -/
theorem sends_error {bytes : List Byte} {events : List Event} (still : moved events = [])
    (obeys : Obeys events) (errno : Errno) (later : List Turn) :
    Sends bytes ⟨some (.error errno), events, later⟩ :=
  ⟨⟨bytes, by rw [still, List.nil_append]⟩, by simp, obeys, fun _ => ⟨errno, rfl⟩⟩

theorem sends_socketWrite (deadline : Nat) (bytes : List Byte) (schedule : List Turn) :
    Sends bytes (socketWrite deadline bytes schedule) := by
  induction schedule generalizing bytes with
  | nil =>
      cases bytes with
      | nil => exact ⟨⟨[], rfl⟩, fun _ => rfl, obeys_of_not_mem (by simp [socketWrite]),
          by simp [socketWrite]⟩
      | cons byte rest => exact ⟨⟨byte :: rest, rfl⟩, by simp [socketWrite],
          obeys_of_not_mem (by simp [socketWrite]), by simp [socketWrite]⟩
  | cons turn later inductionHypothesis =>
      cases bytes with
      | nil => exact ⟨⟨[], rfl⟩, fun _ => rfl, obeys_of_not_mem (by simp [socketWrite]),
          by simp [socketWrite]⟩
      | cons byte rest =>
          have checked := checked_gate deadline turn
          have retried : (∀ errno, (gate deadline turn).1 ≠ .stop errno) →
              Sends (byte :: rest)
                ((socketWrite deadline (byte :: rest) later).after (gate deadline turn).2) := by
            intro goes
            have sends := (inductionHypothesis (byte :: rest)).after (checked.not_mem goes)
            rwa [checked.still, List.nil_append] at sends
          rw [socketWrite]
          cases outcome : (gate deadline turn).1 with
          | stop errno => exact sends_error checked.still checked.obeys errno later
          | again => exact retried (by simp [outcome])
          | go =>
              dsimp only
              cases turn.transfer with
              | error errno =>
                  dsimp only
                  split
                  · exact retried (by simp [outcome])
                  · exact sends_error checked.still checked.obeys errno later
              | ok count =>
                  dsimp only
                  generalize chunkIs : (byte :: rest).take (min count
                    (min (byte :: rest).length 4096)) = chunk
                  split
                  · exact sends_error checked.still checked.obeys EPIPE later
                  · have never : .cancelled ∉ (gate deadline turn).2 ++ [.sent chunk] := by
                      have before := checked.not_mem (by simp [outcome])
                      simp [before]
                    have sends := (inductionHypothesis
                      ((byte :: rest).drop chunk.length)).after never
                    have front : chunk = (byte :: rest).take chunk.length := by
                      rw [← chunkIs, List.length_take, List.take_eq_take_iff]
                      simp
                    rw [moved_append, checked.still, List.nil_append, moved_singleton,
                      Event.moved] at sends
                    nth_rewrite 1 [front] at sends
                    rwa [List.take_append_drop] at sends

/-! ### The read function -/

theorem socketRead_spec (connection : Connection) (capacity : Nat) :
    connection.incoming = ReadResult.bytes (socketRead connection capacity).1 ++
        (socketRead connection capacity).2.incoming ∧
      (ReadResult.bytes (socketRead connection capacity).1).length ≤ capacity ∧
      (∃ events, (socketRead connection capacity).2.log = connection.log ++ events ∧
        moved events = ReadResult.bytes (socketRead connection capacity).1 ∧ Obeys events ∧
        (.cancelled ∈ events → ∃ errno, (socketRead connection capacity).1 = .failed errno)) := by
  have receives := receives_receive connection.deadline capacity connection.incoming
    connection.schedule
  generalize progressIs : receive connection.deadline capacity connection.incoming
    connection.schedule = progress at receives
  rw [socketRead, progressIs]
  cases result : progress.result with
  | none =>
      have moves := receives.moves
      rw [result] at moves
      exact ⟨rfl, Nat.zero_le _, progress.events, rfl, moves, receives.obeys,
        fun _ => ⟨0, rfl⟩⟩
  | some reply =>
      have moves := receives.moves
      rw [result] at moves
      refine ⟨?_, ?_, progress.events, rfl, moves, receives.obeys, fun found => ?_⟩
      · cases reply with
        | failed errno => rfl
        | data bytes =>
            have split := List.take_append_drop bytes.length connection.incoming
            rw [← (receives.taken bytes result).1] at split
            exact split.symm
      · cases reply with
        | failed errno => exact Nat.zero_le _
        | data bytes => exact (receives.taken bytes result).2
      · obtain ⟨errno, failed⟩ := receives.stops found
        exact ⟨errno, Option.some.inj (result.symm.trans failed)⟩

end IperfSwift.Socket
