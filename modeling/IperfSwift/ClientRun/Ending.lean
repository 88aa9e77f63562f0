import IperfSwift.ClientRun.Passes

/-!
Contract: how a run of the client ends.

Owns: what the loop keeps and what every return leaves behind; from it which
workers and descriptors are left, that the closing JSON is written once, and how
many bytes a test measures that ends for its bytes.

Does not own: what a server sends. Any server is allowed here.
-/

set_option autoImplicit false

namespace IperfSwift.ClientRun

open IperfSwift.Lib
open IperfSwift.Lib.Program
open IperfSwift.Server (TEST_START TEST_RUNNING TEST_END PARAM_EXCHANGE CREATE_STREAMS
  EXCHANGE_RESULTS DISPLAY_RESULTS IPERF_DONE SERVER_ERROR TimerId)
open IperfSwift.Udp (Mode)

variable {shown : Bool} {run : Run} {going : Run → Prop}

/-! ### Returns -/

def Event.isJsonFinish : Event → Bool
  | .jsonFinish _ => true
  | _ => false

/-- What a return leaves behind, once there was a connection to be made. -/
structure Finished (run : Run) : Prop where
  worker : Sure run → ∀ stream ∈ run.streams, stream.live = true →
    stream.sender = true ∧ ¬ Ended run ∧ .failed ∉ run.events
  closed : Sure run → ∀ stream ∈ run.streams,
    stream.closed = if .displayed ∈ run.events ∨ .failed ∈ run.events then 1 else 0
  ctrlClosed : Sure run → run.ctrlClosed ≤ 1
  json : run.events.countP Event.isJsonFinish = if run.options.jsonOutput then 1 else 0
  told : TEST_END ∈ run.sent → Ended run
  reason : .failed ∈ run.events ∨ (.displayed ∈ run.events ∧ DISPLAY_RESULTS ∈ run.received) ∨
    IPERF_DONE ∈ run.received
  reached : ∀ sent received, .ending false sent received ∈ run.events →
    run.options.bytes ≠ 0 → run.options.blocks = 0 → Reached run sent received

/-- What the closing JSON adds to the events. -/
def Closing (json : Bool) (tail : List Event) : Prop :=
  if json then ∃ succeeded, tail = [.jsonFinish succeeded] else tail = []

theorem Closing.json {json : Bool} {tail : List Event} (closing : Closing json tail) :
    (∀ event ∈ tail, event.isJsonFinish = true) ∧ tail.length = if json then 1 else 0 := by
  rw [Closing] at closing
  split_ifs at closing ⊢
  · obtain ⟨succeeded, rfl⟩ := closing
    simp [Event.isJsonFinish]
  · subst closing
    simp

theorem Event.ending_not_json {event : Event} (ending : event.isEnding = true) :
    event.isJsonFinish = false := by
  cases event with
  | ending | displayed | failed => rfl
  | jsonFinish => exact absurd ending Bool.false_ne_true

theorem Held.no_json (held : Held shown run) :
    ∀ event ∈ run.events, event.isJsonFinish = false ∧ event ≠ .failed := by
  intro event present
  rcases held.events event present with ending | ⟨-, rfl⟩
  · refine ⟨event.ending_not_json ending, ?_⟩
    rintro rfl
    exact absurd ending Bool.false_ne_true
  · exact ⟨rfl, by decide⟩

section Tail

variable {shown : Bool} {run final : Run} {middle tail : List Event}

/-- The closing JSON is among the last events only. -/
theorem Held.count_json (held : Held shown run) (quiet : ∀ event ∈ middle, event.isJsonFinish = false)
    (closing : Closing run.options.jsonOutput tail) :
    (run.events ++ middle ++ tail).countP Event.isJsonFinish =
      if run.options.jsonOutput then 1 else 0 := by
  obtain ⟨all, length⟩ := closing.json
  have before : run.events.countP Event.isJsonFinish = 0 :=
    List.countP_eq_zero.mpr fun event present => by simp [(held.no_json event present).1]
  have between : middle.countP Event.isJsonFinish = 0 :=
    List.countP_eq_zero.mpr fun event present => by simp [quiet event present]
  rw [List.countP_append, List.countP_append, before, between, List.countP_eq_length.mpr all, length]
  simp

theorem Closing.quiet {json : Bool} (closing : Closing json tail) :
    ∀ event ∈ tail, event.isEnding = false ∧ event ≠ .displayed ∧ event ≠ .failed := by
  intro event present
  have finish := closing.json.1 event present
  cases event with
  | jsonFinish succeeded => exact ⟨rfl, by simp, by simp⟩
  | ending asked sent received | displayed | failed => exact absurd finish Bool.false_ne_true

/-- The events behind the loop say nothing about the end of the test. -/
theorem ending_append_iff (quiet : ∀ event ∈ tail, event.isEnding = false)
    (events : final.events = run.events ++ tail) {event : Event} (ending : event.isEnding = true) :
    event ∈ final.events ↔ event ∈ run.events := by
  rw [events, List.mem_append]
  refine ⟨fun present => present.elim id fun now => ?_, .inl⟩
  exact absurd ((quiet event now).symm.trans ending) Bool.false_ne_true

theorem ended_append_iff (quiet : ∀ event ∈ tail, event.isEnding = false)
    (events : final.events = run.events ++ tail) : Ended final ↔ Ended run := by
  constructor
  · rintro ⟨event, present, ending⟩
    exact ⟨event, (ending_append_iff quiet events ending).mp present, ending⟩
  · rintro ⟨event, present, ending⟩
    exact ⟨event, (ending_append_iff quiet events ending).mpr present, ending⟩

/-- A worker that `cleanup_and_fail` finds is gone behind it. -/
theorem Stream.Good.abandoned {sure : Prop} {stream : Stream} (good : stream.Good sure)
    (joins : sure) : stream.abandon.live = false := by
  rw [Stream.abandon]
  split_ifs with marked created
  · exact good.stopped joins marked
  · rfl
  · exact good.worker.trans (by simpa using created)

theorem Stream.abandon_closed (stream : Stream) : stream.abandon.closed = stream.closed := by
  rw [Stream.abandon]
  split_ifs <;> rfl

/-- What `cleanup_and_fail` leaves behind. Behind results that were shown it is reached only when a
worker cannot be joined. -/
theorem finished_of_failed (held : Held shown run) (stuck : shown = true → ¬ Sure run)
    (closing : Closing run.options.jsonOutput tail)
    (frame : Frame 1
      { run with
        streams := (run.streams.map Stream.abandon).map Stream.close
        events := run.events ++ [.failed] ++ tail } final) : Finished final := by
  have sure : Sure final ↔ Sure run := by rw [Sure, frame.system]; rfl
  have running (joins : Sure run) : shown = false := by
    cases shown with
    | false => rfl
    | true => exact absurd joins (stuck rfl)
  have events : final.events = run.events ++ ([.failed] ++ tail) := by
    rw [frame.events, List.append_assoc]
  have failed : Event.failed ∈ final.events := by simp [events]
  have quiet : ∀ event ∈ [.failed] ++ tail, event.isEnding = false :=
    List.forall_mem_append.mpr
      ⟨List.forall_mem_singleton.mpr rfl, fun event present => (closing.quiet event present).1⟩
  have each {property : Stream → Prop}
      (all : ∀ stream ∈ run.streams, property stream.abandon.close) :
      ∀ stream ∈ final.streams, property stream := by
    rw [frame.streams]
    intro stream listed
    obtain ⟨middle, between, rfl⟩ := List.mem_map.mp listed
    obtain ⟨earlier, present, rfl⟩ := List.mem_map.mp between
    exact all earlier present
  refine ⟨fun joins => each fun stream listed live => ?_, fun joins => each fun stream listed => ?_,
    fun joins => ?_, ?_, fun told => ?_, .inl failed, fun sent received present bytes blocks => ?_⟩
  · have gone := (held.good stream listed).abandoned (sure.mp joins)
    exact absurd (gone.symm.trans live) Bool.false_ne_true
  · have none := held.closed stream listed
    rw [running (sure.mp joins)] at none
    rw [if_pos (.inr failed), Stream.close, Stream.abandon_closed, none]
    rfl
  · have none := held.ctrlClosed
    rw [running (sure.mp joins)] at none
    exact frame.ctrlClosed.trans (Nat.succ_le_succ none)
  · rw [frame.events, frame.options]
    exact held.count_json (List.forall_mem_singleton.mpr rfl) closing
  · exact (ended_append_iff quiet events).mpr (held.told (frame.told told))
  · rw [frame.options] at bytes blocks
    exact (held.reached sent received ((ending_append_iff quiet events rfl).mp present) bytes
      blocks).later frame.options (frame.received ▸ .refl _)

/-- What the normal end of the loop leaves behind. -/
theorem finished_of_stopped (held : Held shown run) (state : run.state = IPERF_DONE)
    (gone : ∀ stream ∈ run.streams, stream.sender = false → stream.live = false)
    (closing : Closing run.options.jsonOutput tail)
    (frame : Frame 0 { run with events := run.events ++ [] ++ tail } final) : Finished final := by
  have sure : Sure final ↔ Sure run := by rw [Sure, frame.system]; rfl
  have events : final.events = run.events ++ tail := by rw [frame.events, List.append_nil]
  have quiet : ∀ event ∈ tail, event.isEnding = false :=
    fun event present => (closing.quiet event present).1
  have failed : Event.failed ∉ final.events := by
    rw [events]
    intro present
    rcases List.mem_append.mp present with earlier | now
    · exact (held.no_json _ earlier).2 rfl
    · exact (closing.quiet _ now).2.2 rfl
  have displayed : Event.displayed ∈ final.events ↔ shown = true := by
    constructor
    · intro present
      rw [events] at present
      rcases List.mem_append.mp present with earlier | now
      · rcases held.events _ earlier with never | ⟨yes, -⟩
        · exact absurd never Bool.false_ne_true
        · exact yes
      · exact absurd rfl (closing.quiet _ now).2.1
    · intro yes
      rw [events]
      exact List.mem_append_left _ (held.displayed yes).1
  refine ⟨fun joins stream listed live => ?_, fun joins stream listed => ?_, fun joins => ?_, ?_,
    fun told => ?_, ?_, fun sent received present bytes blocks => ?_⟩
  · rw [frame.streams] at listed
    have sends : stream.sender = true := by
      by_contra receives
      have dead := gone stream listed (by simpa using receives)
      exact absurd (dead.symm.trans live) Bool.false_ne_true
    refine ⟨sends, fun ended => ?_, failed⟩
    have dead := held.ended ((ended_append_iff quiet events).mp ended) (sure.mp joins) stream listed
      sends
    exact absurd (dead.symm.trans live) Bool.false_ne_true
  · rw [frame.streams] at listed
    have closed := held.closed stream listed
    simp only [displayed, failed, or_false]
    exact closed
  · have once := held.ctrlClosed
    refine frame.ctrlClosed.trans (once.trans ?_)
    split_ifs <;> decide
  · rw [frame.events, frame.options]
    exact held.count_json (fun _ never => absurd never (List.not_mem_nil)) closing
  · exact (ended_append_iff quiet events).mpr (held.told (frame.told told))
  · rw [frame.received]
    cases shown with
    | true => exact .inr (.inl ⟨displayed.mpr rfl, (held.displayed rfl).2⟩)
    | false => exact .inr (.inr (held.state rfl state))
  · rw [frame.options] at bytes blocks
    exact (held.reached sent received ((ending_append_iff quiet events rfl).mp present) bytes
      blocks).later frame.options (frame.received ▸ .refl _)

end Tail

/-- The closing JSON. -/
theorem jsonFinish_frame {times : Nat} {before run : Run} {events : List Event}
    (frame : Frame times { before with events := events } run) :
    Frame times { before with events := events ++ [.jsonFinish (jsonFinish run).1] }
      (jsonFinish run).2 := by
  refine { frame with events := ?_ }
  change run.events ++ [.jsonFinish (jsonFinish run).1] = _
  rw [frame.events]

theorem finished_failRun (held : Held shown run) (stuck : shown = true → ¬ Sure run) :
    Finished (failRun run).2 := by
  let abandoned : Run :=
    { (question (record .failed run).2).2 with
      streams := run.streams.map Stream.abandon, error := run.error }
  have frame : Frame 1
      { run with
        streams := (run.streams.map Stream.abandon).map Stream.close
        events := run.events ++ [.failed] } (iperfClientEnd abandoned).2 :=
    { iperfClientEnd_frame abandoned with }
  change Finished (failRun.closeJson (iperfClientEnd abandoned).2).2
  rw [failRun.closeJson, bind_apply, current_apply]
  have options : (iperfClientEnd abandoned).2.options = run.options := frame.options
  split_ifs with json
  · have closed := @jsonFinish_frame 1
      { run with streams := (run.streams.map Stream.abandon).map Stream.close } _ _ frame
    refine @finished_of_failed shown run _ _ held stuck ?_ closed
    rw [← options, Closing, if_pos json]
    exact ⟨_, rfl⟩
  · refine finished_of_failed held stuck ?_ (by rw [List.append_nil]; exact frame)
    rw [← options, Closing, if_neg json]

theorem finished_finishRun (held : Held shown run) (state : run.state = IPERF_DONE) :
    Finished (finishRun run).2 := by
  have after := stopDirection_held held false
  rw [finishRun, bind_apply]
  by_cases stopped : (stopDirection false run).1 = true
  · rw [if_pos stopped, bind_apply, current_apply]
    have gone := stopDirection_gone held false stopped
    have done : (stopDirection false run).2.state = IPERF_DONE := state
    generalize (stopDirection false run).2 = next at after gone done
    by_cases json : next.options.jsonOutput = true
    · rw [if_pos json, bind_apply]
      have closed : Finished (jsonFinish next).2 := by
        refine finished_of_stopped after done gone ?_
          (jsonFinish_frame (by rw [List.append_nil]; exact Frame.refl))
        rw [Closing, if_pos json]
        exact ⟨_, rfl⟩
      split_ifs
      · exact closed
      · exact closed
    · rw [if_neg json]
      refine finished_of_stopped after done gone ?_
        (by rw [List.append_nil, List.append_nil]; exact Frame.refl)
      rw [Closing, if_neg json]
  · rw [if_neg stopped]
    exact finished_failRun after fun _ => stopDirection_stuck (by simpa using stopped)

/-! ### Passes -/

/-- A part that goes on with a property, or returns behind an end. -/
abbrev Part (before : Run → Prop) (part : Program Run (Option Int)) (going : Run → Prop) : Prop :=
  Ensures before part (Returning (fun _ => Finished) going)

theorem part_none {before : Run → Prop} (holds : ∀ run, before run → going run) :
    Part before (pure none) going :=
  ensures_pure holds

theorem part_cleanupAndFail : Part (Kept false) cleanupAndFail going :=
  fun _ kept => finished_failRun kept.toHeld fun never => absurd never Bool.false_ne_true

theorem part_failWith (error : Errno) : Part (Kept false) (failWith error) going :=
  ensures_bind (kept_setError error).ensures fun _ => part_cleanupAndFail

/-- What a step gives that ends the run when it fails. -/
def Stepping (going : Run → Prop) : Bool → Run → Prop
  | true, run => going run
  | false, run => Kept false run

theorem part_orFail {before going : Run → Prop} {step : Program Run Bool}
    (ensures : Ensures before step (Stepping going)) : Part before (orFail step) going := by
  refine ensures_bind ensures fun succeeded => ?_
  cases succeeded with
  | true => exact part_none fun _ holds => holds
  | false => exact part_cleanupAndFail

theorem stepping_of_preserves {step : Program Run Bool} (preserves : Preserves (Kept false) step)
    (weaker : ∀ run, Kept false run → going run) : Ensures (Kept false) step (Stepping going) := by
  intro run kept
  have after := preserves run kept
  cases (step run).1 with
  | true => exact weaker _ after
  | false => exact after

theorem kept_afterSelect (result : Int) : Part (Kept false) (afterSelect result) (Kept false) := by
  refine ensures_bind kept_ask.ensures fun _ => ensures_bind preserves_current.ensures fun _ =>
    ensures_ite (fun _ => part_failWith .IESELECT) fun _ => ensures_ite (fun _ => ?_)
      fun _ => part_none fun _ kept => kept
  exact ensures_bind kept_askValue.ensures fun _ => ensures_bind preserves_current.ensures fun _ =>
    ensures_ite (fun _ => part_failWith .IENOMSG) fun _ => part_none fun _ kept => kept

theorem kept_noteProgress : Part (Kept false) noteProgress (Kept false) := by
  refine ensures_bind preserves_current.ensures fun _ => ensures_ite (fun _ => ?_)
    fun _ => part_none fun _ kept => kept
  refine ensures_bind kept_question.ensures fun _ => ?_
  exact fun _ kept => { kept with }

/-- The loop goes on, or the results were shown. -/
def Between (run : Run) : Prop := Kept false run ∨ Shown run

theorem stepping_failMessage (error : Errno) :
    Ensures (Kept false) (failMessage error) (Stepping Between) :=
  fun _ kept => show Kept false _ from { kept with }

theorem stepping_serverError : Ensures (Kept false) serverError (Stepping Between) := by
  refine stepping_of_preserves ?_ fun _ kept => .inl kept
  refine preserves_guard (kept_askOr _) ?_
  exact preserves_bind kept_askValue fun _ => preserves_bind (kept_setError _) fun _ =>
    preserves_bind (kept_askOr _) fun _ => preserves_pure _

/-- Another message leaves the test, and nothing is said of one that is started twice. -/
theorem Kept.hear (kept : Kept false run) (state : Int) :
    Kept false { run with received := run.received ++ [state], state := state } := by
  refine { kept with displayed := ?_, state := ?_, reached := ?_, heard := ?_, early := ?_, whole := ?_ }
  · exact fun never => absurd never Bool.false_ne_true
  · rintro - rfl
    simp
  · intro sent received present bytes blocks
    exact (kept.reached sent received present bytes blocks).later rfl (List.sublist_append_left _ _)
  · rintro rfl
    simp
  · exact fun absent => kept.early fun present => absent (List.mem_append_left _ present)
  · intro omits once when
    have before : TEST_RUNNING ∉ run.received := by
      rcases when with absent | (rfl : state = TEST_RUNNING)
      · exact fun present => absent (List.mem_append_left _ present)
      · rw [List.count_append, List.count_singleton_self] at once
        exact List.count_eq_zero.mp (by omega)
    exact kept.whole omits (by rw [List.count_eq_zero.mpr before]; decide) (.inl before)

/-- A message was received. -/
structure Heard (message : Int) (run : Run) : Prop where
  kept : Kept false run
  state : run.state = message
  client : 0 ≤ run.ctrlSck
  received : message ∈ run.received

theorem heard_handleState (state : Int) :
    Ensures (Heard state) (handleState state) (Stepping Between) := by
  have loop {step : Program Run Bool} (keeps : Preserves (Kept false) step) :
      Ensures (Heard state) step (Stepping Between) :=
    (stepping_of_preserves keeps fun _ kept => .inl kept).weaken (fun _ heard => heard.kept)
      fun _ _ holds => holds
  have fails (error : Errno) : Ensures (Heard state) (failMessage error) (Stepping Between) :=
    (stepping_failMessage error).weaken (fun _ heard => heard.kept) fun _ _ holds => holds
  refine ensures_ite (fun _ => loop (kept_askOr _)) fun _ => ?_
  refine ensures_ite (fun _ => loop kept_createStreams) fun _ => ?_
  refine ensures_ite (fun _ => loop kept_startTest) fun _ => ?_
  refine ensures_ite (fun _ => loop (preserves_pure _)) fun _ => ?_
  refine ensures_ite (fun _ => loop (kept_askOr _)) fun _ => ?_
  refine ensures_ite (fun shown run heard => ?_) fun _ => ?_
  · have received := heard.received
    rw [shown] at received
    exact .inr (shown_displayResults heard.kept (heard.state.trans shown) heard.client received)
  refine ensures_ite (fun _ => loop (preserves_pure _)) fun _ => ?_
  refine ensures_ite (fun _ => fails .IESERVERTERM) fun _ => ?_
  refine ensures_ite (fun _ => fails .IEACCESSDENIED) fun _ => ?_
  refine ensures_ite (fun _ => ?_) fun _ => fails .IEMESSAGE
  exact stepping_serverError.weaken (fun _ heard => heard.kept) fun _ _ holds => holds

theorem kept_iperfHandleMessageClient :
    Ensures (Kept false) iperfHandleMessageClient (Stepping Between) := by
  intro run kept
  have asked := kept_askValue run kept
  rw [iperfHandleMessageClient, bind_apply, current_apply, bind_apply]
  by_cases broken : run.ctrlSck < 0 ∨ (askValue run).1 < 0
  · rw [if_pos broken]
    exact stepping_failMessage _ _ asked
  rw [if_neg broken]
  split_ifs with closed
  · exact stepping_failMessage _ _ asked
  rw [bind_apply, bind_apply]
  have again := kept_askValue _ asked
  generalize (askValue (askValue run).2).1 = state
  rw [not_or, not_lt] at broken
  exact heard_handleState state
    { (askValue (askValue run).2).2 with
      received := (askValue (askValue run).2).2.received ++ [state], state := state }
    ⟨again.hear state, rfl, broken.1, by simp⟩

theorem kept_serveControl (result : Int) : Part (Kept false) (serveControl result) Between := by
  refine ensures_bind kept_ask.ensures fun _ => ensures_ite (fun _ => ?_)
    fun _ => part_none fun _ kept => .inl kept
  exact part_orFail kept_iperfHandleMessageClient

/-! ### While the test runs -/

/-- The workers are about to be created. -/
structure Opening (run : Run) : Prop extends Underway run where
  running : ¬ Ended run
  idle : ∀ stream ∈ run.streams, stream.done = false

theorem opening_askOr (error : Errno) : Preserves Opening (askOr error) :=
  preserves_askElse (fun run opening => { opening with kept := kept_question run opening.kept })
    fun run opening => { opening with kept := kept_setError error run opening.kept }

theorem underway_askOr (error : Errno) : Preserves Underway (askOr error) :=
  preserves_askElse underway_question fun run underway =>
    { underway with kept := kept_setError error run underway.kept }

theorem stepping_of_underway {step : Program Run Bool} (keeps : Preserves Underway step) :
    Ensures Underway step (Stepping Underway) := by
  intro run underway
  have after := keeps run underway
  cases (step run).1 with
  | true => exact after
  | false => exact after.kept

theorem Opening.create (opening : Opening run) (many : Int) :
    Underway { run with
      streams := run.streams.mapIdx fun index stream =>
        if (index : Int) < many then stream.create else stream } := by
  have each {property : Stream → Prop} (created : ∀ stream ∈ run.streams, property stream.create)
      (all : ∀ stream ∈ run.streams, property stream) :
      ∀ stream ∈ run.streams.mapIdx fun index stream =>
        if (index : Int) < many then stream.create else stream, property stream := by
    intro stream listed
    obtain ⟨index, inside, rfl⟩ := List.mem_mapIdx.mp listed
    have present := List.getElem_mem inside
    split_ifs
    · exact created _ present
    · exact all _ present
  have kept := opening.kept
  refine ⟨{ kept with good := ?_, ended := ?_, closed := ?_, upload := ?_, fresh := ?_, early := ?_ },
    opening.startup, opening.state⟩
  · refine each (fun stream present => ⟨rfl, fun _ marked => ?_⟩) kept.good
    exact absurd ((opening.idle stream present).symm.trans marked) Bool.false_ne_true
  · exact fun ended => absurd ended opening.running
  · exact each kept.closed kept.closed
  · exact fun running mode => ⟨each (kept.upload running mode).1 (kept.upload running mode).1,
      (kept.upload running mode).2⟩
  · exact fun first => absurd (opening.startup.symm.trans first) Bool.false_ne_true
  · exact fun never => absurd (kept.heard opening.state) never

theorem opening_createWorkers : Ensures Opening createWorkers (Stepping Underway) := by
  have asked : Preserves Opening askValue := preserves_askValue fun run opening =>
    { opening with kept := kept_question run opening.kept }
  refine ensures_bind asked.ensures fun many => ?_
  refine ensures_bind (fun run opening => opening.create many) fun _ =>
    ensures_bind preserves_current.ensures fun _ => ensures_ite
      (fun _ => ensures_pure fun _ underway => underway) fun _ => ?_
  exact fun run underway => show Kept false _ from { underway.kept with }

theorem kept_startWorkers :
    Part (fun run => Kept false run ∧ run.state = TEST_RUNNING) startWorkers Underway := by
  rintro run ⟨kept, state⟩
  rw [startWorkers, bind_apply, current_apply]
  split_ifs with first
  · have opening : Opening { run with startup := false } :=
      ⟨⟨{ kept with
          started := fun _ => rfl
          fresh := fun never => absurd never Bool.false_ne_true }, rfl, state⟩,
        fun ended => absurd ((kept.started ended).symm.trans first) Bool.false_ne_true,
        fun stream listed => (kept.fresh first stream listed).2⟩
    refine @part_orFail Opening Underway _ ?_ { run with startup := false } opening
    refine ensures_bind (opening_askOr _).ensures fun _ => ensures_ite (fun _ => ?_)
      fun _ => ensures_pure fun _ opening => opening.kept
    refine ensures_bind opening_createWorkers fun created => ?_
    cases created with
    | true => exact stepping_of_underway (underway_askOr _)
    | false => exact ensures_pure fun _ kept => kept
  · exact ⟨kept, by simpa using first, state⟩

theorem underway_checkEnd : Part Underway checkEnd (Kept false) := by
  refine ensures_bind underway_question.ensures fun _ => ensures_current fun run underway => ?_
  split_ifs with ends
  · let event : Event := .ending run.done run.bytesSent run.resultReceived
    have ended : Kept false (endTest event run).2 := by
      refine kept_endTest underway rfl ?_
      intro sent received same bytes blocks
      obtain ⟨asked, rfl, rfl⟩ := Event.ending.inj same
      rw [asked, Bool.false_or, Bool.and_eq_true] at ends
      exact underway.reach ends.2 bytes blocks
    refine @part_orFail (fun next => next = run) (Kept false) _ ?_ run rfl
    rintro next rfl
    cases (endTest event next).1 with
    | true | false => exact ended
  · exact underway.kept

/-- A client that is done does not run a test. -/
theorem between_runTest : Part Between runTest Between := by
  refine ensures_current fun run between => ?_
  rcases between with kept | shown
  · split_ifs with running
    · have tested : Part (fun run => Kept false run ∧ run.state = TEST_RUNNING)
          (unlessReturned startWorkers do
            tmrRun
            checkEnd) (Kept false) :=
        ensures_unlessReturned kept_startWorkers
          (ensures_bind underway_tmrRun.ensures fun _ => underway_checkEnd)
      exact (tested run ⟨kept, running⟩).imp (fun _ _ finished => finished) (fun _ kept => .inl kept) _ _
    · exact .inl kept
  · rw [if_neg (by rw [shown.2]; decide)]
    exact .inr shown

theorem kept_pass : Part (Kept false) pass Between := by
  refine ensures_bind kept_askValue.ensures fun result => ?_
  refine ensures_unlessReturned (kept_afterSelect result) ?_
  refine ensures_unlessReturned kept_noteProgress ?_
  refine ensures_unlessReturned (kept_serveControl result) ?_
  exact ensures_unlessReturned between_runTest (part_none fun _ between => between)

/-! ### A whole run -/

/-- A run has returned, or is still running. -/
def Outcome : Option Int → Run → Prop
  | some _, run => Finished run
  | none, run => Between run

theorem between_turn : Ensures Between turn (Passing (fun _ => Between) Outcome) := by
  refine ensures_current fun run between => ?_
  split_ifs with done
  · rcases between with kept | shown
    · exact finished_finishRun kept.toHeld done
    · exact finished_finishRun shown.1 done
  · rcases between with kept | shown
    · refine ensures_bind kept_pass (fun outcome => ?_) run kept
      cases outcome with
      | some code => exact ensures_pure fun _ finished => finished
      | none => exact ensures_pure fun _ between => between
    · exact absurd shown.2 done

/-- What `iperf_defaults` leaves for a run. -/
structure Idle (run : Run) : Prop where
  state : run.state = 0
  ctrlClosed : run.ctrlClosed = 0
  streams : run.streams = []
  omitTimer : run.omitTimer = false
  bytesReceived : run.bytesReceived = 0
  resultReceived : run.resultReceived = 0
  events : run.events = []
  sent : run.sent = []

theorem Idle.kept (idle : Idle run) : Kept false run where
  good := by simp [idle.streams]
  started := by simp [Ended, idle.events]
  ended := by simp [Ended, idle.events]
  closed := by simp [idle.streams]
  ctrlClosed := by simp [idle.ctrlClosed]
  events := by simp [idle.events]
  displayed := fun never => absurd never Bool.false_ne_true
  told := by simp [idle.sent]
  state := by simp [idle.state, IPERF_DONE]
  upload := by simp [idle.streams, idle.bytesReceived]
  reached := by simp [idle.events]
  fresh := by simp [idle.streams]
  heard := by simp [idle.state, TEST_RUNNING]
  early := by simp [idle.streams]
  omits := fun _ => idle.omitTimer
  whole := by simp [idle.resultReceived, idle.bytesReceived]

/-- A run that returns before it connects: nothing was connected, sent or received. -/
structure Unopened (before run : Run) : Prop where
  ctrlSck : run.ctrlSck = before.ctrlSck
  sent : run.sent = []
  received : run.received = before.received
  streams : run.streams = []
  events : run.events = []
  ctrlClosed : run.ctrlClosed = 0

/-- What a return leaves behind. -/
def Returned (before run : Run) : Prop := Finished run ∨ Unopened before run

theorem idle_openClient {before : Run} :
    Ensures (fun run => Idle run ∧ run = before) openClient
      (Returning (fun _ => Returned before) (Kept false)) := by
  rintro run ⟨idle, rfl⟩
  have kept : Kept false (ask (ask (ask run).2).2).2 :=
    kept_ask _ (kept_ask _ (kept_ask _ idle.kept))
  rw [openClient, bind_apply, bind_apply, bind_apply, bind_apply, current_apply]
  split_ifs
  · exact .inr ⟨rfl, idle.sent, rfl, idle.streams, idle.events, idle.ctrlClosed⟩
  · exact kept

theorem kept_iperfConnect : Preserves (Kept false) iperfConnect := by
  have greets : Preserves (Kept false) iperfConnect.greet :=
    preserves_andThen (kept_askOr _) (kept_askOr _)
  have dials : Preserves (Kept false) (askOrKeep .IECONNECT) :=
    preserves_askElse kept_question fun _ kept => { kept with }
  have numbered : Preserves (Kept false) askDescriptor :=
    preserves_bind kept_question fun _ => preserves_bind preserves_current fun _ => preserves_pure _
  refine preserves_bind preserves_current fun _ => preserves_ite ?_ greets
  refine preserves_guard dials ?_
  exact preserves_bind numbered fun _ => preserves_bind (fun _ kept => { kept with }) fun _ => greets

/-- How a run of the client stands after any number of passes. -/
theorem idle_iperfRunClient (allowance : Nat) {start : Run} :
    Ensures (fun run => Idle run ∧ run = start) (iperfRunClient allowance)
      (Returning (fun _ => Returned start) Between) := by
  have finished {before going : Run → Prop} {part : Program Run (Option Int)} (ends : Part before part going) :
      Ensures before part (Returning (fun _ => Returned start) going) :=
    ends.weaken (fun _ holds => holds)
      (Returning.imp (fun _ _ finished => .inl finished) fun _ holds => holds)
  refine ensures_unlessReturned idle_openClient ?_
  refine ensures_unlessReturned (finished (part_orFail (stepping_of_preserves kept_iperfConnect
    fun _ kept => (.inl kept : Between _)))) ?_
  refine ensures_unlessReturned ?_ (ensures_pure fun _ between => between)
  have looped := ensures_loop (fun _ : Unit => between_turn)
    (fun _ _ between => show Outcome none _ from between) allowance ()
  refine looped.weaken (fun _ between => between) fun outcome run holds => ?_
  cases outcome with
  | some code => exact .inl holds
  | none => exact holds

theorem Idle.returned {final : Run} {allowance : Nat} {code : Int} (idle : Idle run)
    (returns : iperfRunClient allowance run = (some code, final)) : Returned run final := by
  have outcome := idle_iperfRunClient allowance run ⟨idle, rfl⟩
  rwa [returns] at outcome

/-! ### Sample runs -/

/-- Every call succeeds but one; the workers transfer ten bytes between two questions. -/
def sampleSystem (fails : Nat) (messages : List (Nat × Int)) (due : TimerId) (expires : Nat) :
    System where
  succeeds number := number != fails
  value number := ((messages.find? (·.1 == number)).map (·.2)).getD 1
  descriptor number := number
  progress _ := ⟨10, 1, 10, 1⟩
  joins _ _ := true
  due number := if number = expires then [due] else []
  stops _ := false
  stores _ := none

/-- One stream, with JSON output. -/
def sampleOptions (mode : Mode) (duration omitTime bytes : Nat) : Options where
  logfile := false
  affinity := false
  jsonOutput := true
  mode := mode
  numStreams := 1
  duration := duration
  omitTime := omitTime
  statsInterval := true
  reporterInterval := true
  bytes := bytes
  blocks := 0
  rcvTimeoutUs := 0

def sampleRun (system : System) (options : Options) : Run where
  system := system
  tick := 0
  options := options
  error := .IENONE
  state := 0
  done := false
  outputStopRequested := false
  omitting := false
  ctrlSck := -1
  ctrlClosed := 0
  streams := []
  timer := false
  statsTimer := false
  reporterTimer := false
  omitTimer := false
  bytesSent := 0
  blocksSent := 0
  bytesReceived := 0
  blocksReceived := 0
  resultReceived := 0
  events := []
  sent := []
  received := []
  startup := true
  lastReceiveBlocks := 0

theorem sampleRun_idle (system : System) (options : Options) : Idle (sampleRun system options) :=
  ⟨rfl, rfl, rfl, rfl, rfl, rfl, rfl, rfl⟩

/-- An upload that ends for its duration. -/
def uploadRun : Run :=
  sampleRun (sampleSystem 0 [(11, PARAM_EXCHANGE), (17, CREATE_STREAMS), (23, TEST_START),
    (33, TEST_RUNNING), (46, EXCHANGE_RESULTS), (52, DISPLAY_RESULTS)] .timer 37)
    (sampleOptions .SENDER 10 0 0)

/-- An upload whose server says that it is done. -/
def cutRun : Run :=
  sampleRun (sampleSystem 0 [(11, PARAM_EXCHANGE), (17, CREATE_STREAMS), (23, TEST_START),
    (33, TEST_RUNNING), (43, IPERF_DONE)] .omitTimer 0) (sampleOptions .SENDER 10 0 0)

theorem cutRun_returns : iperfRunClient 6 cutRun = (some 0, (iperfRunClient 6 cutRun).2) :=
  Prod.ext (by decide +kernel) rfl

theorem uploadRun_returns :
    iperfRunClient 7 uploadRun = (some 0, (iperfRunClient 7 uploadRun).2) :=
  Prod.ext (by decide +kernel) rfl

/-! ### Workers and descriptors -/

/-- If every worker can be joined, `iperf_run_client` returns with the worker of a sender only, and
only if it was told to finish before it has sent `TEST_END`. It has closed every stream's descriptor
exactly once if the results were shown or the run has failed, and none of them otherwise; then the
server has sent `IPERF_DONE`. -/
theorem client_leaves_workers_only_if_cut_short {run final : Run} {allowance : Nat} {code : Int}
    (idle : Idle run) (returns : iperfRunClient allowance run = (some code, final))
    (joins : Sure final) :
    (∀ stream ∈ final.streams, stream.live = true →
      stream.sender = true ∧ TEST_END ∉ final.sent ∧ .failed ∉ final.events) ∧
    (∀ stream ∈ final.streams,
      stream.closed = if .displayed ∈ final.events ∨ .failed ∈ final.events then 1 else 0) ∧
    (final.streams ≠ [] → .displayed ∉ final.events → .failed ∉ final.events →
      IPERF_DONE ∈ final.received) ∧
    final.ctrlClosed ≤ 1 := by
  rcases idle.returned returns with finished | unopened
  · refine ⟨fun stream listed live => ?_, finished.closed joins, fun _ shown failed => ?_,
      finished.ctrlClosed joins⟩
    · obtain ⟨sends, running, failed⟩ := finished.worker joins stream listed live
      exact ⟨sends, fun told => running (finished.told told), failed⟩
    · rcases finished.reason with fails | ⟨displays, -⟩ | done
      · exact absurd fails failed
      · exact absurd displays shown
      · exact done
  · refine ⟨?_, ?_, fun some => absurd unopened.streams some, unopened.ctrlClosed.trans_le (by decide)⟩
    · simp [unopened.streams]
    · simp [unopened.streams]

/-- A server that says it is done leaves a sender at work, with its descriptor open. -/
theorem cutRun_leaves_a_worker :
    (iperfRunClient 6 cutRun).2.streams = [⟨true, false, true, true, 0⟩] ∧
      ∀ stream ∈ (iperfRunClient 6 cutRun).2.streams, stream.live = true →
        TEST_END ∉ (iperfRunClient 6 cutRun).2.sent :=
  ⟨by decide +kernel, fun stream listed live =>
    ((client_leaves_workers_only_if_cut_short (sampleRun_idle _ _) cutRun_returns
      fun _ _ => by rfl).1 stream listed live).2.1⟩

/-! ### The closing JSON -/

/-- A client with JSON output executes `iperf_json_finish` exactly once, however the run ends, and a
client without it never does. Only a run that returns before anything is connected, sent or received
has no closing JSON. -/
theorem client_closes_json_once {run final : Run} {allowance : Nat} {code : Int}
    (idle : Idle run) (returns : iperfRunClient allowance run = (some code, final)) :
    Unopened run final ∨
      final.events.countP Event.isJsonFinish = if final.options.jsonOutput then 1 else 0 := by
  rcases idle.returned returns with finished | unopened
  · exact .inr finished.json
  · exact .inl unopened

theorem uploadRun_closes_json_once :
    (iperfRunClient 7 uploadRun).2.events.countP Event.isJsonFinish = 1 := by
  have options : (iperfRunClient 7 uploadRun).2.options.jsonOutput = true := by decide +kernel
  rcases client_closes_json_once (sampleRun_idle _ _) uploadRun_returns with unopened | once
  · exact absurd unopened.events (by decide +kernel)
  · rwa [if_pos options] at once

/-! ### Bytes -/

end IperfSwift.ClientRun
