import IperfSwift.ClientRun.Machine

/-!
Contract: what every pass of a client's loop keeps.

Owns: what holds of a stream and of a run before and behind `iperf_client_end`;
what the questions, the timers, the control messages and the end of a test keep of
it; and what `cleanup_and_fail` leaves behind.

Does not own: the loop, and what a run returns.
-/

set_option autoImplicit false

namespace IperfSwift.ClientRun

open IperfSwift.Lib
open IperfSwift.Lib.Program
open IperfSwift.Server (TEST_START TEST_RUNNING TEST_END PARAM_EXCHANGE CREATE_STREAMS
  EXCHANGE_RESULTS DISPLAY_RESULTS IPERF_DONE SERVER_ERROR TimerId)
open IperfSwift.Udp (Mode)

variable {run : Run} {sender : Bool} {joins : Nat → Bool}

/-! ### Phases -/

/-- Every worker can be cancelled and joined. -/
def Sure (run : Run) : Prop := ∀ number index, run.system.joins number index = true

def Event.isEnding : Event → Bool
  | .ending _ _ _ => true
  | _ => false

/-- The test was to end. -/
def Ended (run : Run) : Prop := ∃ event ∈ run.events, event.isEnding = true

/-- A stream of a client. A worker that was told to stop is gone, unless a stop has failed. -/
structure Stream.Good (sure : Prop) (stream : Stream) : Prop where
  worker : stream.live = stream.threadCreated
  stopped : sure → stream.done = true → stream.live = false

/-- The bytes that were asked for, when a test ends for them. A test that is started once receives
nothing in another state. -/
def Reached (run : Run) (sent received : Nat) : Prop :=
  (run.options.mode = .SENDER → run.options.bytes ≤ sent) ∧
    (run.options.omitTime = 0 → run.received.count TEST_RUNNING ≤ 1 →
      run.options.bytes ≤ sent ∨ run.options.bytes ≤ received)

theorem Reached.later {final : Run} {sent received : Nat} (reached : Reached run sent received)
    (options : final.options = run.options) (heard : run.received.Sublist final.received) :
    Reached final sent received := by
  rw [Reached, options]
  exact ⟨reached.1, fun omits once => reached.2 omits ((heard.count_le _).trans once)⟩

/-- What holds until the run ends; `shown` tells whether the results were shown. -/
structure Held (shown : Bool) (run : Run) : Prop where
  good : ∀ stream ∈ run.streams, stream.Good (Sure run)
  started : Ended run → run.startup = false
  ended : Ended run → Sure run → ∀ stream ∈ run.streams, stream.sender = true → stream.live = false
  closed : ∀ stream ∈ run.streams, stream.closed = if shown then 1 else 0
  ctrlClosed : run.ctrlClosed ≤ if shown then 1 else 0
  events : ∀ event ∈ run.events, event.isEnding = true ∨ shown = true ∧ event = .displayed
  displayed : shown = true → .displayed ∈ run.events ∧ DISPLAY_RESULTS ∈ run.received
  told : TEST_END ∈ run.sent → Ended run
  state : shown = false → run.state = IPERF_DONE → IPERF_DONE ∈ run.received
  upload : shown = false → run.options.mode = .SENDER →
    (∀ stream ∈ run.streams, stream.sender = true) ∧ run.bytesReceived = 0
  reached : ∀ sent received, .ending false sent received ∈ run.events →
    run.options.bytes ≠ 0 → run.options.blocks = 0 → Reached run sent received

/-- What holds in a pass: before the workers are created nobody touches the streams, and they are
created when the server has said that the test runs. Without an omit period the results count
everything that was received, as long as the test has run without a break. -/
structure Kept (shown : Bool) (run : Run) : Prop extends Held shown run where
  fresh : run.startup = true → ∀ stream ∈ run.streams, stream.live = false ∧ stream.done = false
  heard : run.state = TEST_RUNNING → TEST_RUNNING ∈ run.received
  early : TEST_RUNNING ∉ run.received → ∀ stream ∈ run.streams, stream.live = false
  omits : run.options.omitTime = 0 → run.omitTimer = false
  whole : run.options.omitTime = 0 → run.received.count TEST_RUNNING ≤ 1 →
    TEST_RUNNING ∉ run.received ∨ run.state = TEST_RUNNING → run.resultReceived = run.bytesReceived

/-! ### Questions -/

section Questions

variable {shown : Bool}

theorem works_false_of_upload (upload : ∀ stream ∈ run.streams, stream.sender = true) :
    run.works false = false := by
  rw [Run.works, List.any_eq_false]
  intro stream listed
  simp [upload stream listed]

theorem works_eq_false (idle : ∀ stream ∈ run.streams, stream.live = false) (sender : Bool) :
    run.works sender = false := by
  rw [Run.works, List.any_eq_false]
  intro stream listed
  simp [idle stream listed]

theorem held_question : Preserves (Held shown) question := by
  intro run kept
  refine { kept with upload := ?_ }
  intro running mode
  obtain ⟨upload, none⟩ := kept.upload running mode
  refine ⟨upload, ?_⟩
  simp [question, works_false_of_upload upload, none]

theorem kept_question : Preserves (Kept shown) question := by
  intro run kept
  refine { held_question run kept.toHeld with
    fresh := kept.fresh, heard := kept.heard, early := kept.early, omits := kept.omits, whole := ?_ }
  intro omits once when
  have same := kept.whole omits once when
  rcases when with before | running
  · simp [question, same, works_eq_false (kept.early before)]
  · simp [question, same, show run.state = TEST_RUNNING from running]

theorem kept_ask : Preserves (Kept shown) ask := preserves_ask kept_question

theorem kept_askValue : Preserves (Kept shown) askValue := preserves_askValue kept_question

theorem kept_setError (error : Errno) : Preserves (Kept shown) (setError error) :=
  fun _ kept => { kept with }

theorem kept_askOr (error : Errno) : Preserves (Kept shown) (askOr error) :=
  preserves_askElse kept_question (kept_setError error)

/-- Nothing changes the options. -/
theorem kept_askOr_of_options (fixed : Options → Prop) (error : Errno) :
    Preserves (fun run => Kept shown run ∧ fixed run.options) (askOr error) :=
  preserves_askElse (fun run holds => ⟨kept_question run holds.1, holds.2⟩)
    fun run holds => ⟨kept_setError error run holds.1, holds.2⟩

end Questions

/-! ### Timers -/

/-- The workers were created, and the test runs. -/
structure Underway (run : Run) : Prop where
  kept : Kept false run
  startup : run.startup = false
  state : run.state = TEST_RUNNING

theorem underway_question : Preserves Underway question :=
  fun run underway => ⟨kept_question run underway.kept, underway.startup, underway.state⟩

theorem kept_clientOmitTimerProc (kept : Kept false run) (set : run.omitTimer = true) :
    Kept false (clientOmitTimerProc run).2 :=
  -- Without an omit period there is no such timer.
  { kept with
    upload := kept.upload
    omits := fun _ => rfl
    whole := fun omits => absurd ((kept.omits omits).symm.trans set) (by decide) }

theorem underway_fire (due : TimerId) : Preserves Underway (fire due) := by
  intro run underway
  have kept := underway.kept
  rw [fire, bind_apply, current_apply]
  cases due with
  | timer => exact holds_when (fun _ => { underway with kept := { kept with } }) underway
  | statsTimer | reporterTimer =>
      exact holds_when (fun _ => underway_question run underway) underway
  | omitTimer =>
      exact holds_when (fun set => { underway with kept := kept_clientOmitTimerProc kept set })
        underway

theorem underway_fireAll (due : List TimerId) : Preserves Underway (fireAll due) := by
  induction due with
  | nil => exact preserves_pure _
  | cons first rest inductionHypothesis =>
      exact preserves_bind (underway_fire first) fun _ => inductionHypothesis

theorem underway_tmrRun : Preserves Underway tmrRun :=
  preserves_bind underway_question fun _ => preserves_bind preserves_current fun _ =>
    underway_fireAll _

theorem kept_createTimer {property : Run → Prop} (asked : Preserves property (askOr .IEINITTEST))
    (wanted : Bool) {set : Run → Run} (sets : ∀ run, property run → property (set run)) :
    Preserves property (createTimer wanted set) := by
  refine preserves_ite (preserves_guard asked ?_)
    (preserves_pure _)
  exact preserves_bind (fun run holds => sets run holds) fun _ => preserves_pure _

theorem kept_createClientTimers : Preserves (Kept false) createClientTimers := by
  refine preserves_guard (kept_askOr _) ?_
  refine preserves_bind (fun _ kept => { kept with }) fun _ =>
    preserves_bind preserves_current fun _ => ?_
  refine preserves_andThen (kept_createTimer (kept_askOr _) _ fun _ kept => { kept with }) ?_
  exact preserves_andThen (kept_createTimer (kept_askOr _) _ fun _ kept => { kept with })
    (kept_createTimer (kept_askOr _) _ fun _ kept => { kept with })

theorem kept_createClientOmitTimer : Preserves (Kept false) createClientOmitTimer := by
  intro run kept
  rw [createClientOmitTimer, bind_apply, current_apply]
  split_ifs with omits
  · exact { kept with omits := fun _ => rfl }
  · have created : Preserves (fun run => Kept false run ∧ run.options.omitTime ≠ 0)
        (createTimer true fun run => { run with omitTimer := true }) :=
      kept_createTimer (kept_askOr_of_options (·.omitTime ≠ 0) _) true fun _ holds =>
        ⟨{ holds.1 with omits := fun none => absurd none holds.2 }, holds.2⟩
    exact (created { run with omitting := true } ⟨{ kept with }, omits⟩).1

theorem kept_startTest : Preserves (Kept false) startTest :=
  preserves_andThen (kept_askOr _)
    (preserves_andThen kept_createClientTimers kept_createClientOmitTimer)

/-! ### Streams -/

theorem Stream.good_new (sure : Prop) (sender : Bool) : (Stream.new sender).Good sure :=
  ⟨rfl, fun _ _ => rfl⟩

/-- A new stream has no worker. -/
theorem Kept.add (kept : Kept false run) (direction : run.options.mode = .SENDER → sender = true) :
    Kept false { run with streams := run.streams ++ [Stream.new sender] } := by
  refine { kept with good := ?_, ended := ?_, closed := ?_, upload := ?_, fresh := ?_, early := ?_ }
  · exact List.forall_mem_append.mpr
      ⟨kept.good, List.forall_mem_singleton.mpr (Stream.good_new _ sender)⟩
  · intro ended sure
    exact List.forall_mem_append.mpr ⟨kept.ended ended sure, List.forall_mem_singleton.mpr fun _ => rfl⟩
  · exact List.forall_mem_append.mpr ⟨kept.closed, List.forall_mem_singleton.mpr rfl⟩
  · intro _ mode
    obtain ⟨upload, none⟩ := kept.upload rfl mode
    exact ⟨List.forall_mem_append.mpr
      ⟨upload, List.forall_mem_singleton.mpr (direction mode)⟩, none⟩
  · intro startup
    exact List.forall_mem_append.mpr
      ⟨kept.fresh startup, List.forall_mem_singleton.mpr ⟨rfl, rfl⟩⟩
  · exact fun before =>
      List.forall_mem_append.mpr ⟨kept.early before, List.forall_mem_singleton.mpr rfl⟩

theorem kept_addStreams {fixed : Options → Prop} {sender : Bool}
    (direction : ∀ options, fixed options → options.mode = .SENDER → sender = true)
    (remaining : Nat) :
    Preserves (fun run => Kept false run ∧ fixed run.options) (addStreams sender remaining) := by
  induction remaining with
  | zero => exact preserves_pure _
  | succ remaining inductionHypothesis =>
      refine preserves_guard (kept_askOr_of_options fixed _) ?_
      exact preserves_bind (fun _ holds => ⟨holds.1.add (direction _ holds.2), holds.2⟩) fun _ =>
        inductionHypothesis

theorem kept_createStreams : Preserves (Kept false) createStreams := by
  intro run kept
  have created {sender : Bool} (direction : run.options.mode = .SENDER → sender = true) :
      Preserves (fun next => Kept false next ∧ next.options = run.options)
        (iperfCreateStreams sender) := by
    refine preserves_bind preserves_current fun seen => ?_
    refine @kept_addStreams (· = run.options) sender ?_ seen.options.numStreams
    rintro options rfl
    exact direction
  rw [createStreams, bind_apply, current_apply]
  split_ifs with both
  · have never : run.options.mode ≠ .SENDER := by
      rw [both]
      decide
    have all := preserves_andThen (@created true fun upload => absurd upload never)
      (@created false fun upload => absurd upload never)
    exact (all run ⟨kept, rfl⟩).1
  · exact (created (fun upload => by simp [upload]) run ⟨kept, rfl⟩).1

/-! ### The end of a test -/

/-- What becomes of the streams when workers are stopped one by one. -/
theorem stopWorkers_each {chosen : Stream → Bool} {property : Stream → Prop}
    (joined : ∀ stream, property stream →
      property { stream with done := true, threadCreated := false, live := false })
    (idle : ∀ stream, property stream → stream.threadCreated = false →
      property { stream with done := true })
    (stuck : ∀ stream index, property stream → joins index = false →
      property { stream with done := true }) (streams : List Stream) (index : Nat)
    (each : ∀ stream ∈ streams, property stream) :
    ∀ stream ∈ (stopWorkers chosen joins index streams).1, property stream := by
  induction streams generalizing index with
  | nil => exact each
  | cons first rest inductionHypothesis =>
      obtain ⟨one, others⟩ := List.forall_mem_cons.mp each
      have after := inductionHypothesis (index + 1) others
      rw [stopWorkers]
      split_ifs with picked created succeeds
      · exact List.forall_mem_cons.mpr ⟨joined first one, after⟩
      · exact List.forall_mem_cons.mpr ⟨stuck first index one (by simpa using succeeds), others⟩
      · exact List.forall_mem_cons.mpr ⟨idle first one (by simpa using created), after⟩
      · exact List.forall_mem_cons.mpr ⟨one, after⟩

/-- Workers that are stopped are gone, if all of them can be joined. -/
theorem stopWorkers_gone (streams : List Stream) (index : Nat)
    (workers : ∀ stream ∈ streams, stream.live = stream.threadCreated)
    (succeeds : (stopWorkers (·.sender == sender) joins index streams).2 = true) :
    ∀ stream ∈ (stopWorkers (·.sender == sender) joins index streams).1,
      stream.sender = sender → stream.live = false := by
  induction streams generalizing index with
  | nil => simp [stopWorkers]
  | cons first rest inductionHypothesis =>
      obtain ⟨one, others⟩ := List.forall_mem_cons.mp workers
      have after := inductionHypothesis (index + 1) others
      rw [stopWorkers] at succeeds ⊢
      split_ifs at succeeds ⊢ with picked created joined
      · exact List.forall_mem_cons.mpr ⟨fun _ => rfl, after succeeds⟩
      · refine List.forall_mem_cons.mpr ⟨fun _ => ?_, after succeeds⟩
        exact one.trans (by simpa using created)
      · refine List.forall_mem_cons.mpr ⟨fun same => ?_, after succeeds⟩
        exact absurd (by simp [same]) picked

theorem stopWorkers_succeeds {chosen : Stream → Bool} (sure : ∀ index, joins index = true)
    (streams : List Stream) (index : Nat) : (stopWorkers chosen joins index streams).2 = true := by
  induction streams generalizing index with
  | nil => rfl
  | cons first rest inductionHypothesis =>
      have after := inductionHypothesis (index + 1)
      rw [stopWorkers]
      split_ifs with picked created joined
      · exact after
      · exact absurd (sure index) joined
      · exact after
      · exact after

theorem Stream.Good.joined {sure : Prop} {stream : Stream} :
    Stream.Good sure { stream with done := true, threadCreated := false, live := false } :=
  ⟨rfl, fun _ _ => rfl⟩

theorem Stream.Good.mark {sure : Prop} {stream : Stream} (good : stream.Good sure)
    (idle : sure → stream.threadCreated = false) : Stream.Good sure { stream with done := true } :=
  ⟨good.worker, fun holds _ => good.worker.trans (idle holds)⟩

/-- What the end of the workers in one direction keeps. -/
theorem stopDirection_held {shown : Bool} (kept : Held shown run) (sender : Bool) :
    Held shown (stopDirection sender run).2 := by
  have before := held_question run kept
  let joins := run.system.joins run.tick
  have each {property : Stream → Prop} (joined : ∀ stream, property stream →
        property { stream with done := true, threadCreated := false, live := false })
      (marked : ∀ stream, property stream → property { stream with done := true })
      (all : ∀ stream ∈ run.streams, property stream) :
      ∀ stream ∈ (stopDirection sender run).2.streams, property stream :=
    stopWorkers_each joined (fun stream holds _ => marked stream holds)
      (fun stream _ holds _ => marked stream holds) run.streams 0 all
  have good : ∀ stream ∈ (stopDirection sender run).2.streams, stream.Good (Sure run) :=
    stopWorkers_each (fun _ _ => .joined) (fun _ good idle => good.mark fun _ => idle)
      (fun _ index good stuck => good.mark fun sure =>
        absurd ((sure run.tick index).symm.trans stuck) (by decide)) run.streams 0 kept.good
  refine { before with good := good, ended := ?_, closed := ?_, upload := ?_ }
  · exact fun ended sure => each (fun _ _ _ => rfl) (fun _ dead => dead) (kept.ended ended sure)
  · exact each (fun _ closed => closed) (fun _ closed => closed) kept.closed
  · exact fun running mode =>
      ⟨each (fun _ sends => sends) (fun _ sends => sends) (kept.upload running mode).1,
        (before.upload running mode).2⟩

theorem stopDirection_gone {shown : Bool} (kept : Held shown run) (sender : Bool)
    (succeeds : (stopDirection sender run).1 = true) :
    ∀ stream ∈ (stopDirection sender run).2.streams,
      stream.sender = sender → stream.live = false :=
  stopWorkers_gone run.streams 0 (fun stream listed => (kept.good stream listed).worker) succeeds

theorem stopDirection_stuck (fails : (stopDirection sender run).1 = false) :
    ¬ Sure (stopDirection sender run).2 := by
  intro sure
  have succeeds : (stopDirection sender run).1 = true :=
    stopWorkers_succeeds (fun index => sure run.tick index) run.streams 0
  exact absurd (fails.symm.trans succeeds) (by decide)

/-- The counters say that a test can end. -/
theorem Underway.reach (underway : Underway run) (transferred : run.transferred = true)
    (bytes : run.options.bytes ≠ 0) (blocks : run.options.blocks = 0) :
    Reached run run.bytesSent run.resultReceived := by
  have counted : run.options.bytes ≤ run.bytesSent ∨ run.options.bytes ≤ run.bytesReceived := by
    simpa [Run.transferred, bytes, blocks] using transferred
  refine ⟨fun mode => ?_, fun omits once => ?_⟩
  · have none := (underway.kept.upload rfl mode).2
    omega
  · have same := underway.kept.whole omits once (.inr underway.state)
    omega

/-- The server is told when the test was to end. -/
theorem kept_tellEnd (kept : Kept false run) (ended : Ended run) :
    Kept false (setSendState TEST_END run).2 := by
  rw [setSendState, bind_apply, current_apply]
  split_ifs with client
  · refine kept_askOr .IESENDMESSAGE { run with state := TEST_END, sent := run.sent ++ [TEST_END] } ?_
    have other : TEST_END ≠ IPERF_DONE := by decide
    have past : TEST_END ≠ TEST_RUNNING := by decide
    exact { kept with
      told := fun _ => ended
      state := fun _ never => absurd never other
      heard := fun never => absurd never past
      whole := fun omits once when =>
        kept.whole omits once (.inl (when.resolve_right past)) }
  · exact kept

/-- The event is recorded when the senders are gone. -/
theorem Kept.record (kept : Kept false run) {event : Event} (ending : event.isEnding = true)
    (startup : run.startup = false)
    (gone : ∀ stream ∈ run.streams, stream.sender = true → stream.live = false)
    (reached : ∀ sent received, event = .ending false sent received → run.options.bytes ≠ 0 →
      run.options.blocks = 0 → Reached run sent received) : Kept false (record event run).2 := by
  have ended : Ended (ClientRun.record event run).2 :=
    ⟨event, List.mem_append_right _ (List.mem_singleton.mpr rfl), ending⟩
  refine { kept with
    started := fun _ => startup, ended := fun _ _ => gone, events := ?_, displayed := ?_,
    told := fun _ => ended, reached := ?_ }
  · exact List.forall_mem_append.mpr ⟨kept.events, List.forall_mem_singleton.mpr (.inl ending)⟩
  · exact fun never => absurd never Bool.false_ne_true
  · intro sent received present
    rcases List.mem_append.mp present with before | now
    · exact kept.reached sent received before
    · exact reached sent received (List.mem_singleton.mp now).symm

theorem kept_endTest (underway : Underway run) {event : Event} (ending : event.isEnding = true)
    (reached : ∀ sent received, event = .ending false sent received → run.options.bytes ≠ 0 →
      run.options.blocks = 0 → Reached run sent received) : Kept false (endTest event run).2 := by
  let silent : Run := { run with statsTimer := false, reporterTimer := false }
  have before : Kept false silent := { underway.kept with }
  have after : Kept false (stopDirection true silent).2 :=
    { stopDirection_held before.toHeld true with
      fresh := fun first => absurd (underway.startup.symm.trans first) Bool.false_ne_true
      heard := before.heard
      early := fun never => absurd (before.heard underway.state) never
      omits := before.omits
      whole := (kept_question silent before).whole }
  rw [endTest, bind_apply]
  change Kept false (andThen (stopDirection true) _ silent).2
  by_cases stopped : (stopDirection true silent).1 = true
  · rw [andThen_of_true stopped]
    have recorded := after.record ending underway.startup
      (stopDirection_gone before.toHeld true stopped) reached
    have ended : Ended (ClientRun.record event (stopDirection true silent).2).2 :=
      ⟨event, List.mem_append_right _ (List.mem_singleton.mpr rfl), ending⟩
    have marked : Kept false
        { (ClientRun.record event (stopDirection true silent).2).2 with done := true } :=
      { recorded with }
    exact kept_tellEnd (kept_question _ marked) ended
  · rw [andThen_of_false (by simpa using stopped)]
    exact after

/-! ### The end of a run -/

/-- Steps that change nothing but what the end of a run says and counts. They close the control
connection at most `times` times. -/
structure Frame (times : Nat) (before after : Run) : Prop where
  system : after.system = before.system
  options : after.options = before.options
  streams : after.streams = before.streams
  events : after.events = before.events
  received : after.received = before.received
  startup : after.startup = before.startup
  ctrlClosed : after.ctrlClosed ≤ before.ctrlClosed + times
  told : TEST_END ∈ after.sent → TEST_END ∈ before.sent

section Frame

variable {before : Run}

theorem Frame.refl : Frame 0 before before := ⟨rfl, rfl, rfl, rfl, rfl, rfl, le_rfl, id⟩

theorem Frame.relax (frame : Frame 0 before run) : Frame 1 before run :=
  { frame with ctrlClosed := frame.ctrlClosed.trans (Nat.le_succ _) }

theorem frame_question : Preserves (Frame 0 before) question := fun _ frame => { frame with }

theorem frame_askOr (error : Errno) : Preserves (Frame 0 before) (askOr error) :=
  preserves_askElse frame_question fun _ frame => { frame with }

theorem frame_tellDone : Preserves (Frame 0 before) (setSendState IPERF_DONE) := by
  refine preserves_bind preserves_current fun _ => preserves_ite ?_ (preserves_pure _)
  refine preserves_bind (fun _ frame => { frame with }) fun _ =>
    preserves_bind (fun run frame => ?_) fun _ => frame_askOr _
  refine { frame with told := fun present => frame.told ?_ }
  rcases List.mem_append.mp present with earlier | now
  · exact earlier
  · exact absurd (List.mem_singleton.mp now) (by decide)

theorem frame_closeControl :
    Ensures (Frame 0 before) iperfClientEnd.closeControl fun _ => Frame 1 before := by
  intro run frame
  have once := frame.ctrlClosed
  refine { frame with ctrlClosed := ?_ }
  rw [iperfClientEnd.closeControl, update_apply]
  dsimp only
  split_ifs <;> omega

end Frame

/-- `iperf_client_end` closes every descriptor and at most the control connection, and says no more
than that the client is done. -/
theorem iperfClientEnd_frame (run : Run) :
    Frame 1 { run with streams := run.streams.map Stream.close } (iperfClientEnd run).2 := by
  let closed : Run := { run with streams := run.streams.map Stream.close }
  have ends : Ensures (Frame 0 closed)
      (do
        let _ ← question
        let run ← current
        if 0 < run.state then do
          if ← setSendState IPERF_DONE then iperfClientEnd.closeControl else pure ()
        else iperfClientEnd.closeControl)
      fun _ => Frame 1 closed := by
    refine ensures_bind frame_question.ensures fun _ => ensures_bind preserves_current.ensures
      fun _ => ensures_ite (fun _ => ?_) fun _ => frame_closeControl
    exact ensures_bind frame_tellDone.ensures fun _ =>
      ensures_ite (fun _ => frame_closeControl) fun _ => ensures_pure fun _ frame => frame.relax
  exact ends closed .refl

theorem state_askOr {state : Int} (error : Errno) :
    Preserves (fun run : Run => run.state = state) (askOr error) :=
  preserves_askElse (fun _ same => same) fun _ same => same

/-- A client that can say so is done. -/
theorem iperfClientEnd_state {run : Run} (shown : run.state = DISPLAY_RESULTS)
    (client : 0 ≤ run.ctrlSck) : (iperfClientEnd run).2.state = IPERF_DONE := by
  rw [iperfClientEnd, bind_apply, bind_apply, bind_apply, update_apply, current_apply]
  have asked : (question { run with streams := run.streams.map Stream.close }).2.state =
      DISPLAY_RESULTS := shown
  have connected : 0 ≤ (question { run with streams := run.streams.map Stream.close }).2.ctrlSck :=
    client
  generalize (question { run with streams := run.streams.map Stream.close }).2 = next
    at asked connected
  have said : (setSendState IPERF_DONE next).2.state = IPERF_DONE := by
    rw [setSendState, bind_apply, current_apply, if_pos connected]
    exact state_askOr _ { next with state := IPERF_DONE, sent := next.sent ++ [IPERF_DONE] } rfl
  rw [if_pos (by rw [asked]; decide), bind_apply]
  split_ifs
  · exact said
  · exact said

/-- The results were shown, and the client is done. -/
def Shown (run : Run) : Prop := Held true run ∧ run.state = IPERF_DONE

theorem shown_displayResults (kept : Kept false run) (state : run.state = DISPLAY_RESULTS)
    (client : 0 ≤ run.ctrlSck) (heard : DISPLAY_RESULTS ∈ run.received) :
    Shown (displayResults run).2 := by
  have frame := iperfClientEnd_frame (record .displayed run).2
  have done := @iperfClientEnd_state (record .displayed run).2 state client
  change Shown (iperfClientEnd (record .displayed run).2).2
  generalize (iperfClientEnd (record .displayed run).2).2 = final at frame done
  have events : final.events = run.events ++ [.displayed] := frame.events
  have sure : Sure final ↔ Sure run := by rw [Sure, frame.system]; rfl
  have each {property : Stream → Prop} (closing : ∀ stream, property stream → property stream.close)
      (all : ∀ stream ∈ run.streams, property stream) : ∀ stream ∈ final.streams, property stream := by
    rw [frame.streams]
    intro stream listed
    obtain ⟨earlier, present, rfl⟩ := List.mem_map.mp listed
    exact closing earlier (all earlier present)
  have ended : Ended final ↔ Ended run := by
    simp [Ended, events, Event.isEnding]
  refine ⟨⟨?_, ?_, ?_, ?_, ?_, ?_, ?_, ?_, ?_, ?_, ?_⟩, done⟩
  · refine each (fun _ good => ⟨good.worker, good.stopped⟩) fun stream listed => ?_
    have good := kept.good stream listed
    exact ⟨good.worker, fun joins => good.stopped (sure.mp joins)⟩
  · intro finished
    exact frame.startup.trans (kept.started (ended.mp finished))
  · intro finished joins
    exact each (fun _ dead => dead) (kept.ended (ended.mp finished) (sure.mp joins))
  · rw [frame.streams]
    intro stream listed
    obtain ⟨earlier, present, rfl⟩ := List.mem_map.mp listed
    exact congrArg (· + 1) (kept.closed earlier present)
  · have none := kept.ctrlClosed
    have once := frame.ctrlClosed
    exact once.trans (Nat.succ_le_succ none)
  · rw [events]
    refine List.forall_mem_append.mpr ⟨fun event present => ?_, List.forall_mem_singleton.mpr
      (.inr ⟨rfl, rfl⟩)⟩
    rcases kept.events event present with ending | ⟨never, -⟩
    · exact .inl ending
    · exact absurd never Bool.false_ne_true
  · intro _
    refine ⟨by simp [events], ?_⟩
    rw [frame.received]
    exact heard
  · intro told
    exact ended.mpr (kept.told (frame.told told))
  · exact fun never => absurd never.symm Bool.false_ne_true
  · exact fun never => absurd never.symm Bool.false_ne_true
  · rw [events, frame.options]
    intro sent received present bytes blocks
    rcases List.mem_append.mp present with earlier | now
    · exact (kept.reached sent received earlier bytes blocks).later frame.options (frame.received ▸ .refl _)
    · exact absurd (List.mem_singleton.mp now) (by simp)

end IperfSwift.ClientRun
