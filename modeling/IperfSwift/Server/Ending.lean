import IperfSwift.Lifecycle.Outcome
import IperfSwift.Server.Parts

/-!
Contract: how a run of the server ends.

Owns: what holds between two passes of the loop, with the timers that fire in
between; what every return leaves behind; and from it that the workers are joined
and every descriptor is taken out of its stream once, what the watchdog and the
end of a test make of the return code, and that a complete exchange of results is
never followed by the closing JSON.

Does not own: the threads and the states of the runner.
-/

set_option autoImplicit false

namespace IperfSwift.Server

open IperfSwift.Lib
open IperfSwift.Lib.Program
open IperfSwift.Udp (Protocol)

variable {run : Run}

/-! ### Between two passes -/

/-- The error is the watchdog's, unless a worker has stored its own since. -/
def Blamed (run : Run) : Prop :=
  run.error = .IESERVERTESTDURATIONEXPIRED ∨
    ∃ number fault, run.system.stores number = some fault ∧ run.error = .worker fault

/-- The watchdog has ended the test. -/
structure Expired (run : Run) : Prop where
  event : ∃ sent, run.events = [.expired sent] ∧ (sent = true → Blamed run)
  done : run.done = true
  state : run.state ≠ IPERF_DONE
  ctrlSck : run.ctrlSck = -1

/-- What holds between two passes. -/
def Settled (run : Run) : Prop :=
  Sound run.view ∧ (run.events = [] ∨ Expired run ∨ Ended run)

/-- What a return with a code leaves behind. -/
structure Left (code : Int) (run : Run) : Prop where
  torn : Torn run.view
  outcome : run.events = [] ∨
    ((∃ sent, run.events = [.expired sent] ∧
        (run.bitrateLimitExceeded = false → sent = true → Blamed run)) ∧
      (run.bitrateLimitExceeded = false → code = 0)) ∨
    (run.events = [.ended] ∧ code = 0 ∧ ∀ stream ∈ run.streams, Released stream)

theorem left_of_down {code : Int} (down : Down [] false run.view) : Left code run :=
  ⟨down.1, .inl down.2.1⟩

theorem settled_of_handled (handled : Handled run) : Settled run := by
  rcases handled with ⟨sound, events, -⟩ | ⟨sound, ended⟩
  · exact ⟨sound, .inl events⟩
  · exact ⟨sound, .inr (.inr ended)⟩

/-- A test that nobody has ended. -/
theorem Settled.events_of_running (settled : Settled run) (running : run.done = false) :
    run.events = [] := by
  rcases settled.2 with none | expired | ended
  · exact none
  · exact absurd (expired.done.symm.trans running) (by decide)
  · exact absurd (ended.done.symm.trans running) (by decide)

/-- Steps that leave alone what a test has ended with. -/
theorem Settled.step {after : Run} (settled : Settled run) (sound : Sound after.view)
    (same : after.view = { run.view with timer := after.timer })
    (error : Blamed run → Blamed after) (done : run.done = true → after.done = true) :
    Settled after := by
  have events : after.events = run.events := congrArg View.events same
  have state : after.state = run.state := congrArg View.state same
  have ctrlSck : after.ctrlSck = run.ctrlSck := congrArg View.ctrlSck same
  have streams : after.streams = run.streams := congrArg View.streams same
  have rate : after.bitrateLimitExceeded = run.bitrateLimitExceeded :=
    congrArg View.bitrateLimitExceeded same
  refine ⟨sound, ?_⟩
  rcases settled.2 with none | expired | ended
  · exact .inl (events.trans none)
  · refine .inr (.inl ⟨?_, done expired.done, ?_, ?_⟩)
    · obtain ⟨sent, event, blamed⟩ := expired.event
      exact ⟨sent, events.trans event, fun told => error (blamed told)⟩
    · rw [state]
      exact expired.state
    · rw [ctrlSck]
      exact expired.ctrlSck
  · refine .inr (.inr ⟨events.trans ended.event, done ended.done, state.trans ended.state,
      rate.trans ended.rate, ?_⟩)
    rw [streams]
    exact ended.released

theorem blamed_question : Preserves Blamed question := by
  intro run blamed
  by_cases works : run.works = true
  · cases stored : run.system.stores run.tick with
    | none => simpa [Blamed, question, stored] using blamed
    | some fault => exact .inr ⟨run.tick, fault, stored, by simp [question, works, stored]⟩
  · simpa [Blamed, question, works] using blamed

theorem settled_question : Preserves Settled question := by
  intro run settled
  exact settled.step settled.1 rfl (blamed_question run) (done_question run)

theorem settled_ask : Preserves Settled ask := preserves_ask settled_question

/-! ### Timers -/

theorem blamed_sendError : Preserves Blamed sendError := by
  have asked : Preserves Blamed ask := preserves_ask blamed_question
  exact preserves_bind asked fun _ =>
    preserves_ite (preserves_bind asked fun _ => preserves_pure _) (preserves_pure _)

theorem done_sendError : Preserves (fun run : Run => run.done = true) sendError :=
  preserves_bind done_ask fun _ =>
    preserves_ite (preserves_bind done_ask fun _ => preserves_pure _) (preserves_pure _)

/-- The watchdog tells the client. -/
theorem sendExpiry_view (client : 0 ≤ run.ctrlSck) (done : run.done = true) :
    ∃ sent, (sendExpiry run).2.view =
        { run.view with
          state := SERVER_ERROR
          sent := run.sent ++ [SERVER_ERROR]
          events := run.events ++ [.expired sent] } ∧
      (sent = true → Blamed (sendExpiry run).2) ∧ (sendExpiry run).2.done = true := by
  have told := setSendState_view SERVER_ERROR run.view run rfl
  have marked := done_setSendState SERVER_ERROR run done
  rw [View.telling_of_client _ (show 0 ≤ run.view.ctrlSck from client)] at told
  rw [sendExpiry, bind_apply]
  generalize setSendState SERVER_ERROR run = answer at told marked
  have events : answer.2.events = run.events := congrArg View.events told
  split_ifs with sent
  · refine ⟨true, ?_, fun _ => ?_, ?_⟩
    · refine @keeps_sendError (fun view => view =
        { run.view with
          state := SERVER_ERROR
          sent := run.sent ++ [SERVER_ERROR]
          events := run.events ++ [.expired true] }) _ ?_
      change { answer.2.view with events := answer.2.events ++ [Event.expired true] } = _
      rw [told, events]
      rfl
    · exact blamed_sendError _ (.inl rfl)
    · exact done_sendError _ marked
  · refine ⟨false, ?_, fun never => absurd never Bool.false_ne_true, marked⟩
    change { answer.2.view with events := answer.2.events ++ [Event.expired false] } = _
    rw [told, events]
    rfl

/-- The watchdog ends a test. -/
theorem expired_of_running {run : Run} (sound : Sound run.view) (client : 0 ≤ run.ctrlSck)
    (timer : run.timer = false) (events : run.events = []) (done : run.done = true) :
    Settled (expireStreams (sendExpiry run).2).2 := by
  have other : SERVER_ERROR ≠ CREATE_STREAMS := by decide
  obtain ⟨sent, view, error, marked⟩ := sendExpiry_view client done
  generalize (sendExpiry run).2 = told at view error marked
  have soundTold : Sound told.view := by
    rw [view]
    exact { sound with
      early := by simp
      creating := fun creating => absurd creating other
      spoken := sound.spoken.append (harmless_serverError.allowed _) }
  have final := expireStreams_view told
  refine ⟨?_, .inr (.inl ⟨⟨sent, ?_, error⟩, ?_, ?_, rfl⟩)⟩
  · rw [final]
    refine soundTold.emptied ?_ ?_ ?_ ?_ ?_ _ _
    · rwa [view]
    · rwa [view]
    · rwa [view]
    · simp [view]
    · rw [view]
      exact sound.early events
  · change told.view.events = [.expired sent]
    rw [view]
    change run.events ++ [.expired sent] = [.expired sent]
    rw [events, List.nil_append]
  · exact done_question told marked
  · change told.view.state ≠ IPERF_DONE
    rw [view]
    show SERVER_ERROR ≠ IPERF_DONE
    decide

theorem settled_serverTimerProc (settled : Settled run) (watched : run.timer = true) :
    Settled (serverTimerProc run).2 := by
  have sound := settled.1
  have cleared : Sound { run.view with timer := false } :=
    { sound with watched := fun never => absurd never Bool.false_ne_true }
  have asked : Settled (question { run with timer := false }).2 :=
    settled.step cleared rfl (blamed_question { run with timer := false }) (done_question _)
  rw [serverTimerProc, bind_apply, bind_apply, bind_apply, current_apply, update_apply]
  split_ifs with done
  · exact asked
  · have events := asked.events_of_running (by simpa using done)
    exact @expired_of_running { (question { run with timer := false }).2 with done := true }
      cleared (sound.watched watched) rfl events rfl

/-- Statistics are gathered only while the test runs. -/
theorem settled_serverStatsTimerProc : Preserves Settled serverStatsTimerProc := by
  refine preserves_bind settled_question fun _ => ?_
  intro run settled
  rw [bind_apply, current_apply]
  split_ifs with done
  · exact settled
  · exact ⟨{ settled.1 with }, .inl (settled.events_of_running (by simpa using done))⟩

theorem settled_fire (due : TimerId) : Preserves Settled (fire due) := by
  intro run settled
  rw [fire, bind_apply, current_apply]
  cases due with
  | timer => exact holds_when (settled_serverTimerProc settled) settled
  | statsTimer => exact holds_when (fun _ => settled_serverStatsTimerProc run settled) settled
  | reporterTimer => exact holds_when (fun _ => settled_question run settled) settled
  | omitTimer => exact holds_when (fun _ => settled.step settled.1 rfl id id) settled

theorem settled_fireAll (due : List TimerId) : Preserves Settled (fireAll due) := by
  induction due with
  | nil => exact preserves_pure _
  | cons first rest inductionHypothesis =>
      exact preserves_bind (settled_fire first) fun _ => inductionHypothesis

theorem settled_tmrRun : Preserves Settled tmrRun :=
  preserves_bind settled_question fun _ => preserves_bind preserves_current fun _ =>
    settled_fireAll _

/-! ### Returns -/

/-- Without a client nobody is told, and the error stays. -/
theorem blamed_cleanupServer (alone : run.ctrlSck = -1) (blamed : Blamed run) :
    Blamed (cleanupServer run).2 := by
  have silent : notifyClient run = ((), run) := by
    rw [notifyClient, bind_apply, current_apply, if_neg (fun told => told.2 alone)]
    rfl
  have closes : Preserves Blamed closeTestListener := by
    refine preserves_bind preserves_current fun seen => fun run blamed => ?_
    rw [closeTestListenerSocket, update_apply]
    split_ifs <;> exact blamed
  have takesDown : Preserves Blamed
      (do stopWorkers; closeStreams; closeSockets; cancelTimers : Program Run Unit) := by
    refine preserves_bind (fun _ blamed => blamed) fun _ =>
      preserves_bind (fun _ blamed => blamed) fun _ => preserves_bind ?_ fun _ _ blamed => blamed
    exact preserves_bind blamed_question fun _ => preserves_bind (fun _ blamed => blamed) fun _ =>
      preserves_bind closes fun _ _ blamed => blamed
  rw [cleanupServer, bind_apply, silent]
  exact takesDown run blamed

/-- What was done to a descriptor is not undone. -/
theorem Released.cleaned {stream : Stream} (released : Released stream) (protocol : Protocol) :
    let stopped := (stopStreamWorker protocol stream).joinIf true
    Released (if -1 < stopped.socket then stopped.teardown .cleanupServer else stopped) := by
  have stopped : Released ((stopStreamWorker protocol stream).joinIf true) := by
    rw [Released, Stream.joinIf_touched, stopStreamWorker]
    split_ifs
    · exact released
    · exact List.mem_append_left _ released
    · exact released
  dsimp only
  split_ifs with valid
  · rw [Released, Stream.teardown, Stream.closeBy]
    dsimp only
    rw [if_pos (by omega)]
    exact List.mem_append_left _ stopped
  · exact stopped

/-- The end of a test that was ended, or that a stop request has ended. -/
theorem left_of_settled (settled : Settled run) : Left 0 (cleanupServer run).2 := by
  obtain ⟨torn, events, -⟩ := cleanupServer_steady run ⟨settled.1, rfl, rfl⟩
  refine ⟨torn, ?_⟩
  rcases settled.2 with none | expired | ended
  · exact .inl (Eq.trans events none)
  · obtain ⟨sent, event, error⟩ := expired.event
    refine .inr (.inl ⟨⟨sent, Eq.trans events event, fun _ told => ?_⟩, fun _ => rfl⟩)
    exact blamed_cleanupServer expired.ctrlSck (error told)
  · refine .inr (.inr ⟨Eq.trans events ended.event, rfl, ?_⟩)
    obtain ⟨protocol, told, possible, cleaned⟩ := cleanupServer_view run.view run rfl
    have streams : told.streams = run.streams := by
      rcases possible with rfl | rfl
      · rfl
      · exact View.telling_streams _ _
    rw [show (cleanupServer run).2.streams = _ from congrArg View.streams cleaned]
    intro stream listed
    obtain ⟨before, present, rfl⟩ := List.mem_map.mp listed
    rw [streams] at present
    exact (ended.released before present).cleaned protocol

/-- The rate was exceeded before anybody has ended the test, or the watchdog has. -/
theorem left_of_exceeded {events : List Event} {code : Int} (down : Down events true run.view)
    (possible : events = [] ∨ ∃ sent, events = [Event.expired sent]) : Left code run := by
  obtain ⟨torn, happened, rate⟩ := down
  refine ⟨torn, ?_⟩
  have exceeded : run.bitrateLimitExceeded ≠ false := by
    rw [show run.bitrateLimitExceeded = true from rate]
    decide
  rcases possible with none | ⟨sent, expired⟩
  · exact .inl (Eq.trans happened none)
  · exact .inr (.inl ⟨⟨sent, Eq.trans happened expired, fun never => absurd never exceeded⟩,
      fun never => absurd never exceeded⟩)

/-- The client is told about the rate, and the run returns. -/
theorem steady_exceeded (events : List Event) :
    Ensures (fun run : Run => Steady events true run.view)
      (do
        setError .IETOTALRATE
        if ← setSendState SERVER_ERROR then
          if ← ask then
            if ← ask then cleanupAndReturn (-1) else cleanupAndFail .IECTRLWRITE (-1)
          else cleanupAndFail .IECTRLWRITE (-1)
        else cleanupAndReturn (-1))
      (Returning (fun _ run => Down events true run.view) fun _ => False) := by
  refine ensures_bind (keeps_setError .IETOTALRATE).ensures fun _ => ?_
  refine ensures_bind (steady_setSendState harmless_serverError).ensures fun _ =>
    ensures_ite (fun _ => ?_) fun _ => cleanupAndReturn_steady (-1)
  refine ensures_bind keeps_ask.ensures fun _ =>
    ensures_ite (fun _ => ?_) fun _ => cleanupAndFail_steady .IECTRLWRITE (-1)
  exact ensures_bind keeps_ask.ensures fun _ =>
    ensures_ite (fun _ => cleanupAndReturn_steady (-1))
      fun _ => cleanupAndFail_steady .IECTRLWRITE (-1)

/-- What holds between two passes, within the rate. -/
def Within (run : Run) : Prop := Settled run ∧ run.bitrateLimitExceeded = false

theorem settled_checkBitrate : Ensures Settled checkBitrate (Returning Left Within) := by
  refine ensures_current fun seen settled => ?_
  split_ifs with exceeded
  · have possible : seen.events = [] ∨ ∃ sent, seen.events = [.expired sent] := by
      rcases settled.2 with none | expired | ended
      · exact .inl none
      · obtain ⟨sent, event, -⟩ := expired.event
        exact .inr ⟨sent, event⟩
      · exact absurd (ended.rate.symm.trans exceeded) (by decide)
    exact (steady_exceeded seen.events seen ⟨settled.1, rfl, exceeded⟩).imp
      (fun _ _ down => left_of_exceeded down possible) (fun _ never => never.elim) _ _
  · exact ⟨settled, by simpa using exceeded⟩

/-! ### One pass -/

theorem quiet_checkTimeouts : Part Quiet checkTimeouts Quiet := by
  have asked : Preserves Quiet askValue := fun _ quiet => quiet
  refine ensures_bind asked.ensures fun _ => ensures_bind asked.ensures fun _ =>
    ensures_bind preserves_current.ensures fun _ => ensures_ite (fun _ => ?_) fun _ => ?_
  · exact ensures_ite (fun _ => part_return 2) fun _ => part_stay
  · refine ensures_ite (fun _ => ?_) fun _ => part_stay
    exact ensures_bind (keeps_setError .IENOMSG).ensures fun _ => part_return (-1)

/-- A part of a pass behind a test that is not ended. -/
theorem Part.left {before going : Run → Prop} {part : Program Run (Option Int)}
    (keeps : Part before part going) : Ensures before part (Returning Left going) :=
  keeps.weaken (fun _ holds => holds)
    (Returning.imp (fun _ _ down => left_of_down down) fun _ holds => holds)

/-- A test that has ended returns here. -/
theorem within_afterSelect (result : Int) :
    Ensures Within (afterSelect result) (Returning Left Quiet) := by
  refine ensures_current fun seen within => ?_
  obtain ⟨settled, rate⟩ := within
  by_cases done : seen.done = true
  · rw [if_pos done]
    exact left_of_settled settled
  · rw [if_neg done]
    have quiet : Quiet seen := ⟨settled.1, settled.events_of_running (by simpa using done), rate⟩
    refine @Part.left Quiet Quiet _ ?_ seen quiet
    have asked : Preserves Quiet ask := fun _ quiet => quiet
    refine ensures_bind asked.ensures fun _ => ensures_ite (fun _ => part_fail .IESELECT (-1))
      fun _ => ?_
    exact ensures_ite (fun _ => quiet_checkTimeouts) fun _ => part_stay

theorem quiet_noteProgress : Part Quiet noteProgress Quiet := fun _ quiet => quiet

theorem settled_timers (result : Int) :
    Ensures Settled
      (do
        let expired ← ask
        if result = 0 ∨ expired = true then do
          tmrRun
          pure none
        else pure none)
      (Returning Left Settled) := by
  refine ensures_bind settled_ask.ensures fun _ => ensures_ite (fun _ => ?_)
    fun _ => ensures_pure fun _ settled => settled
  exact ensures_bind settled_tmrRun.ensures fun _ => ensures_pure fun _ settled => settled

theorem settled_pass : Ensures Settled pass (Returning Left Settled) := by
  refine ensures_unlessReturned settled_checkBitrate ?_
  have asked : Preserves Within askValue := fun run within =>
    ⟨preserves_askValue settled_question run within.1, within.2⟩
  refine ensures_bind asked.ensures fun result => ?_
  refine ensures_unlessReturned (within_afterSelect result) ?_
  refine ensures_unlessReturned quiet_noteProgress.left ?_
  have served : Part Quiet
      (if 0 < result then inOrder [serveListener, serveControl, serveStreams] else pure none)
      Settled := by
    refine ensures_ite (fun _ => ?_) fun _ => part_none fun _ quiet => settled_of_handled (.inl quiet)
    exact quiet_serve.weaken (fun _ quiet => quiet)
      (Returning.imp (fun _ _ down => down) fun _ handled => settled_of_handled handled)
  exact ensures_unlessReturned served.left (settled_timers result)

/-! ### A whole run -/

/-- What a return with a code leaves behind. Only a closing JSON that fails keeps a run from its
cleanup. -/
def Returned (code : Int) (run : Run) : Prop :=
  Left code run ∨ (Torn run.view ∧ run.events = [.jsonFinish true]) ∨
    (code = -1 ∧ Spoken run.view ∧ run.events = [.jsonFinish false])

/-- The end of the loop, with the events so far. -/
theorem steady_tidy {events : List Event} {exceeded : Bool} :
    Ensures (fun run : Run => Steady events exceeded run.view) finishRun.tidy fun _ run =>
      Down events exceeded run.view := by
  refine ensures_bind cleanupServer_steady fun _ => ensures_bind preserves_current.ensures fun _ =>
    ensures_ite (fun _ => ensures_pure fun _ down => down) fun _ => ?_
  exact ensures_bind keeps_ask.ensures fun _ =>
    ensures_ite (fun _ => ensures_pure fun _ down => down) fun _ => ensures_pure fun _ down => down

/-- The closing JSON is written only behind the loop, where nobody has ended the test. -/
theorem returned_finishRun (sound : Sound run.view) (events : run.events = []) :
    Returned (finishRun run).1 (finishRun run).2 := by
  rw [finishRun, bind_apply, current_apply]
  by_cases json : run.options.jsonOutput = true
  · rw [if_pos json, bind_apply, bind_apply, update_apply]
    let answer := (ask run).1
    let closed : Run :=
      { (ask run).2 with
        jsonTop := (ask run).2.jsonTop && !answer
        events := run.events ++ [.jsonFinish answer] }
    have happened : closed.events = [.jsonFinish answer] := by
      rw [show closed.events = run.events ++ [.jsonFinish answer] from rfl, events, List.nil_append]
    change Returned ((if answer then finishRun.tidy else pure (-1) : Program Run Int) closed).1 _
    split_ifs with succeeded
    · have soundClosed : Sound closed.view := { sound with early := by simp [closed, Run.view] }
      have down := steady_tidy closed ⟨soundClosed, happened, rfl⟩
      rw [succeeded] at down
      exact .inr (.inl ⟨down.1, down.2.1⟩)
    · have failed : answer = false := by simpa using succeeded
      rw [failed] at happened
      exact .inr (.inr ⟨rfl, sound.spoken, happened⟩)
  · rw [if_neg json]
    have down := steady_tidy run ⟨sound, events, rfl⟩
    exact .inl ⟨down.1, .inl down.2.1⟩

/-- A run has returned with a code, or is still running. -/
def Outcome : Option Int → Run → Prop
  | some code, run => Returned code run
  | none, run => Settled run

theorem settled_turn : Ensures Settled turn (Passing (fun _ => Settled) Outcome) := by
  refine ensures_current fun seen settled => ?_
  split_ifs with finished
  · have events : seen.events = [] := by
      rcases settled.2 with none | expired | ended
      · exact none
      · exact absurd finished expired.state
      · exact absurd (ended.state.symm.trans finished) (by decide)
    exact returned_finishRun settled.1 events
  · refine ensures_bind settled_pass (fun outcome => ?_) seen settled
    cases outcome with
    | some code => exact ensures_pure fun _ left => .inl left
    | none => exact ensures_pure fun _ settled => settled

/-- What `iperf_defaults` and `iperf_reset_test` leave for a run. -/
structure Idle (run : Run) : Prop where
  state : run.state = 0
  ctrlSck : run.ctrlSck = -1
  listener : run.listener = -1
  streams : run.streams = []
  freed : run.freed = []
  timer : run.timer = false
  rate : run.bitrateLimitExceeded = false
  spinning : run.spinning = false
  events : run.events = []
  sent : run.sent = []

theorem Idle.sound (idle : Idle run) : Sound run.view where
  good := by simp [Run.view, idle.streams]
  early := fun _ => idle.freed
  gone := by simp [Run.view, idle.freed]
  spins := idle.spinning
  watched := by simp [Run.view, idle.timer]
  creating := by simp [Run.view, idle.state, CREATE_STREAMS]
  attached := by simp [Run.view, Open, idle.streams]
  spoken := by simp [Run.view, Spoken, idle.sent]

theorem Idle.torn (idle : Idle run) : Torn run.view where
  good := idle.sound.good
  joined := by simp [Run.view, idle.streams]
  closed := by simp [Run.view, idle.streams]
  early := fun _ => idle.freed
  gone := idle.sound.gone
  spins := idle.spinning
  timer := idle.timer
  ctrlSck := by simp [Run.view, idle.ctrlSck]
  listener := by simp [Run.view, idle.listener]
  spoken := idle.sound.spoken

/-- Before the first client. -/
def Fresh (run : Run) : Prop := Quiet run ∧ Open run.view

theorem fresh_listen : Ensures Fresh
    (do
      let s ← askDescriptor
      update fun run => { run with listener := s }
      let run ← current
      if run.done then cleanupAndReturn 0
      else do
        update fun run =>
          { run with
            state := IPERF_START
            sendStreamsAccepted := 0
            recStreamsAccepted := 0
            streamsToSend := 0
            streamsToRec := 0
            lastReceiveBlocks := 0 }
        pure none)
    (Returning Left Settled) := by
  have asked : Preserves Fresh askDescriptor := fun _ fresh => fresh
  refine ensures_bind asked.ensures fun s => ?_
  have listening : Preserves Fresh (update fun run => { run with listener := s }) := by
    rintro run ⟨⟨sound, events, rate⟩, valid⟩
    exact ⟨⟨{ sound with attached := fun _ => valid }, events, rate⟩, valid⟩
  refine ensures_bind listening.ensures fun _ => ensures_bind preserves_current.ensures fun _ =>
    ensures_ite (fun _ => ?_) fun _ => ?_
  · exact (@Part.left Quiet Settled _ (part_return 0)).weaken (fun _ fresh => fresh.1)
      fun _ _ holds => holds
  · rintro run ⟨⟨sound, events, -⟩, -⟩
    have other : IPERF_START ≠ CREATE_STREAMS := by decide
    exact ⟨sound.setState other, .inl events⟩

theorem idle_openServer : Ensures Idle openServer (Returning Left Settled) := by
  refine ensures_current fun seen idle => ?_
  have start : Fresh seen :=
    ⟨⟨idle.sound, idle.events, idle.rate⟩, by simp [Open, Run.view, idle.streams]⟩
  have fresh : Fresh (ask seen).2 := start
  rw [bind_apply]
  split_ifs
  · exact ⟨idle.torn, .inl idle.events⟩
  revert fresh
  generalize (ask seen).2 = run
  have gives : ∀ code, Ensures Fresh (cleanupAndReturn code) (Returning Left Settled) := fun code =>
    (@Part.left Quiet Settled _ (part_return code)).weaken (fun _ fresh => fresh.1)
      fun _ _ holds => holds
  have asked : Preserves Fresh ask := fun _ fresh => fresh
  have kept : Preserves Fresh (askOrKeep .IELISTEN) :=
    @keeps_askOrKeep (fun view => Steady [] false view ∧ Open view) .IELISTEN
  revert run
  refine ensures_bind asked.ensures fun _ => ensures_ite (fun _ => gives (-2)) fun _ => ?_
  refine ensures_bind (show Preserves Fresh _ from fun _ fresh => fresh).ensures fun _ => ?_
  exact ensures_bind kept.ensures fun _ => ensures_ite (fun _ => fresh_listen) fun _ => gives (-2)

/-- How a run of the server stands after any number of passes. -/
theorem idle_iperfRunServer (allowance : Nat) : Ensures Idle (iperfRunServer allowance) Outcome := by
  refine ensures_bind idle_openServer fun outcome => ?_
  cases outcome with
  | some code => exact ensures_pure fun _ left => .inl left
  | none =>
      have looped := ensures_loop (fun _ : Unit => settled_turn)
        (fun _ _ settled => show Outcome none _ from settled) allowance ()
      exact looped

/-- What a server has told its client, whether it still runs or not. -/
theorem Outcome.spoken {outcome : Option Int} (holds : Outcome outcome run) : Spoken run.view := by
  cases outcome with
  | none => exact holds.1.spoken
  | some code =>
      rcases holds with left | ⟨torn, -⟩ | ⟨-, spoken, -⟩
      · exact left.torn.spoken
      · exact torn.spoken
      · exact spoken

section Returned

variable {run final : Run} {allowance : Nat} {code : Int}

theorem Idle.returned (idle : Idle run)
    (returns : iperfRunServer allowance run = (some code, final)) : Returned code final := by
  have outcome := idle_iperfRunServer allowance run idle
  rwa [returns] at outcome

theorem Returned.torn (returned : Returned code final)
    (closing : .jsonFinish false ∉ final.events) : Torn final.view := by
  rcases returned with left | ⟨torn, -⟩ | ⟨-, -, failed⟩
  · exact left.torn
  · exact torn
  · exact absurd (by simp [failed]) closing

theorem Returned.of_expired (returned : Returned code final) {sent : Bool}
    (expired : .expired sent ∈ final.events) (within : final.bitrateLimitExceeded = false) :
    code = 0 ∧ final.events = [.expired sent] ∧ (sent = true → Blamed final) := by
  rcases returned with ⟨-, none | ⟨⟨told, event, error⟩, zero⟩ | ⟨event, -⟩⟩ | ⟨-, event⟩ |
    ⟨-, -, event⟩
  · simp [none] at expired
  · rw [event, List.mem_singleton, Event.expired.injEq] at expired
    subst expired
    exact ⟨zero within, event, error within⟩
  · simp [event] at expired
  · simp [event] at expired
  · simp [event] at expired

theorem Returned.of_ended (returned : Returned code final) (ended : .ended ∈ final.events) :
    Torn final.view ∧ code = 0 ∧ final.events = [.ended] ∧
      ∀ stream ∈ final.streams, Released stream := by
  rcases returned with ⟨torn, none | ⟨⟨_, event, -⟩, -⟩ | ⟨event, zero, released⟩⟩ | ⟨-, event⟩ |
    ⟨-, -, event⟩
  · simp [none] at ended
  · simp [event] at ended
  · exact ⟨torn, zero, event, released⟩
  · simp [event] at ended
  · simp [event] at ended

end Returned

/-! ### Two runs -/

/-- Every call succeeds; in the first pass there is a client with one stream, and no message yet. -/
def sampleSystem (value : Nat → Int) (due : List TimerId) : System where
  succeeds number := number != 17
  value := value
  descriptor number := number
  document _ := some Params.tcpDocument
  cancels _ _ := true
  due _ := due
  stops _ := false
  stores _ := none

def sampleRun (system : System) : Run where
  system := system
  tick := 0
  options := ⟨Params.applePlatform, false, true, false, false, 0, 120000000, true, true⟩
  parameters := Params.plainServer
  error := .IENONE
  state := 0
  done := false
  outputStopRequested := false
  ctrlSck := -1
  listener := -1
  protListener := -1
  streams := []
  freed := []
  cancelling := none
  timer := false
  statsTimer := false
  reporterTimer := false
  omitTimer := false
  bitrateLimitExceeded := false
  jsonTop := false
  spinning := false
  events := []
  sent := []
  received := []
  sendStreamsAccepted := 0
  recStreamsAccepted := 0
  streamsToSend := 0
  streamsToRec := 0
  lastReceiveBlocks := 0

theorem sampleRun_idle (system : System) : Idle (sampleRun system) :=
  ⟨rfl, rfl, rfl, rfl, rfl, rfl, rfl, rfl, rfl, rfl⟩

/-- The client sends `TEST_END` in the second pass. -/
def endedRun : Run :=
  sampleRun (sampleSystem (fun number => if number = 49 then TEST_END else 1) [])

/-- The watchdog expires in the first pass. -/
def watchedRun : Run := sampleRun (sampleSystem (fun _ => 1) [.timer])

/-- The same with a worker that fails meanwhile. -/
def strayRun : Run :=
  sampleRun { sampleSystem (fun _ => 1) [.timer] with stores := fun _ => some .IESTREAMREAD }

theorem endedRun_returns :
    iperfRunServer 3 endedRun = (some 0, (iperfRunServer 3 endedRun).2) :=
  Prod.ext (by decide +kernel) rfl

theorem endedRun_events : (iperfRunServer 3 endedRun).2.events = [.ended] := by decide +kernel

theorem watchedRun_returns :
    iperfRunServer 2 watchedRun = (some 0, (iperfRunServer 2 watchedRun).2) :=
  Prod.ext (by decide +kernel) rfl

/-! ### Workers -/

/-- Every return of `iperf_run_server` has joined the workers of all streams in the list, closed
the control connection and the listening socket, and cancelled the watchdog. A worker whose stream
the watchdog has freed is left behind only if its `pthread_cancel` has failed, and the watchdog's
loop over the streams always ends. The one return that is not like this follows a closing JSON that
fails. -/
theorem server_returns_without_workers {run final : Run} {allowance : Nat} {code : Int}
    (idle : Idle run) (returns : iperfRunServer allowance run = (some code, final))
    (closing : .jsonFinish false ∉ final.events) :
    (∀ stream ∈ final.streams, stream.live = false) ∧
    (∀ index (stream : Stream), final.freed[index]? = some stream → stream.live = true →
      ∃ number, final.cancelling = some number ∧ final.system.cancels number index = false) ∧
    final.spinning = false ∧ final.ctrlSck < 0 ∧ final.listener < 0 ∧ final.timer = false := by
  have torn := (idle.returned returns).torn closing
  refine ⟨fun stream listed => ?_, fun index stream gone => (torn.gone index stream gone).worker,
    torn.spins, torn.ctrlSck, torn.listener, torn.timer⟩
  rw [(torn.good stream listed).worker]
  exact torn.joined stream listed

/-- The worker of the only stream is joined. -/
theorem endedRun_returns_without_workers :
    (iperfRunServer 3 endedRun).2.streams.length = 1 ∧
      ∀ stream ∈ (iperfRunServer 3 endedRun).2.streams, stream.live = false :=
  ⟨by decide +kernel, (server_returns_without_workers (sampleRun_idle _) endedRun_returns
    (by simp [endedRun_events])).1⟩

/-! ### Descriptors -/

theorem ShutdownFirst.count_shutdown_le {touched : List Touch} (order : ShutdownFirst touched) :
    touched.count .shutdown ≤ 1 := by
  induction touched using List.reverseRecOn with
  | nil => simp
  | append_singleton before last inductionHypothesis =>
      have shorter : ShutdownFirst before := by
        intro index found
        have inside := (List.getElem?_eq_some_iff.mp found).1
        have earlier := order index (by rw [List.getElem?_append_left inside, found])
        rwa [List.take_append_of_le_length inside.le] at earlier
      rw [List.count_append]
      by_cases same : last = .shutdown
      · subst same
        have fresh := order before.length (by simp)
        rw [List.take_left] at fresh
        have none : before.count .shutdown = 0 :=
          List.count_eq_zero.mpr fun present => absurd (fresh _ present) (by simp)
        rw [none]
        decide
      · have absent : [last].count Touch.shutdown = 0 := by
          rw [List.count_eq_zero, List.mem_singleton]
          exact fun equal => same equal.symm
        rw [absent]
        exact inductionHypothesis shorter

/-- In every run that cleans up, `server_timer_proc` and `cleanup_server` together take each
stream's descriptor out of its stream exactly once. It is shut down at most once, and that never
follows a close, apart from the one of a connection that was denied. -/
theorem descriptor_taken_out_once {run final : Run} {allowance : Nat} {code : Int}
    (idle : Idle run) (returns : iperfRunServer allowance run = (some code, final))
    (closing : .jsonFinish false ∉ final.events) :
    ∀ stream ∈ final.streams ++ final.freed,
      stream.touched.countP Touch.isTeardown = 1 ∧ stream.touched.count .shutdown ≤ 1 ∧
        ∀ index, stream.touched[index]? = some .shutdown →
          ∀ touch ∈ stream.touched.take index, touch = .close .iperfTcpAccept := by
  have torn := (idle.returned returns).torn closing
  have each : ∀ stream ∈ final.streams ++ final.freed,
      stream.touched.countP Touch.isTeardown = 1 ∧ ShutdownFirst stream.touched := by
    intro stream present
    rcases List.mem_append.mp present with listed | gone
    · have good := torn.good stream listed
      have once := good.tornDown
      rw [if_neg (not_le.mpr (torn.closed stream listed))] at once
      exact ⟨once, good.order⟩
    · obtain ⟨index, found⟩ := List.getElem?_of_mem gone
      exact ⟨(torn.gone index stream found).tornDown, (torn.gone index stream found).order⟩
  intro stream present
  obtain ⟨once, order⟩ := each stream present
  exact ⟨once, order.count_shutdown_le, order⟩

/-- The watchdog shuts the only descriptor down before it closes it. -/
theorem watchedRun_takes_out_once :
    (iperfRunServer 2 watchedRun).2.freed.length = 1 ∧
      ∀ stream ∈ (iperfRunServer 2 watchedRun).2.freed, stream.touched.count .shutdown ≤ 1 :=
  ⟨by decide +kernel, fun stream gone => (descriptor_taken_out_once (sampleRun_idle _)
    watchedRun_returns (by decide +kernel) stream (List.mem_append_right _ gone)).2.1⟩

/-- A close of a descriptor, by anybody. -/
def Touch.isClose : Touch → Bool
  | .close _ => true
  | .shutdown => false

theorem two_closes {touched : List Touch} (released : .close .iperfHandleMessageServer ∈ touched)
    (once : touched.countP Touch.isTeardown = 1) : 2 ≤ touched.countP Touch.isClose := by
  have split : touched.countP Touch.isTeardown +
      touched.count (.close .iperfHandleMessageServer) ≤ touched.countP Touch.isClose := by
    clear released once
    induction touched with
    | nil => simp
    | cons touch rest inductionHypothesis =>
        cases touch with
        | shutdown => simpa [Touch.isTeardown, Touch.isClose] using inductionHypothesis
        | close closer =>
            cases closer <;>
              simp [List.countP_cons, Touch.isTeardown, Touch.isClose] <;> omega
  have present := List.count_pos_iff.mpr released
  omega

/-- Only `cleanup_server` takes the descriptor out of a stream of the list. -/
theorem Stream.Good.cleaned_up {stream : Stream} (good : stream.Good)
    (once : stream.touched.countP Touch.isTeardown = 1) :
    .close .cleanupServer ∈ stream.touched := by
  obtain ⟨touch, present, tears⟩ := List.countP_pos_iff.mp (once ▸ Nat.one_pos)
  cases touch with
  | shutdown => exact absurd tears Bool.false_ne_true
  | close closer =>
      cases closer with
      | cleanupServer => exact present
      | serverTimerProc => exact absurd present good.kept
      | iperfTcpAccept | iperfHandleMessageServer => exact absurd tears Bool.false_ne_true

/-- A run that completes the exchange of results returns 0 and never executes
`iperf_json_finish`. It closes the descriptor of every stream twice: `TEST_END` leaves the closed
number in the stream, and `cleanup_server` closes whatever has that number by then. -/
theorem ended_run_closes_twice {run final : Run} {allowance : Nat} {code : Int}
    (idle : Idle run) (returns : iperfRunServer allowance run = (some code, final))
    (ended : .ended ∈ final.events) :
    code = 0 ∧ (∀ succeeded, .jsonFinish succeeded ∉ final.events) ∧
      ∀ stream ∈ final.streams, .close .iperfHandleMessageServer ∈ stream.touched ∧
        .close .cleanupServer ∈ stream.touched ∧ 2 ≤ stream.touched.countP Touch.isClose := by
  obtain ⟨torn, zero, event, released⟩ := (idle.returned returns).of_ended ended
  refine ⟨zero, by simp [event], fun stream listed => ?_⟩
  have good := torn.good stream listed
  have once := good.tornDown
  rw [if_neg (not_le.mpr (torn.closed stream listed))] at once
  exact ⟨released stream listed, good.cleaned_up once, two_closes (released stream listed) once⟩

/-- One stream, closed twice. -/
theorem endedRun_closes_twice :
    (iperfRunServer 3 endedRun).2.streams.length = 1 ∧
      ∀ stream ∈ (iperfRunServer 3 endedRun).2.streams,
        .close .cleanupServer ∈ stream.touched ∧ 2 ≤ stream.touched.countP Touch.isClose :=
  ⟨by decide +kernel, fun stream listed => ((ended_run_closes_twice (sampleRun_idle _)
    endedRun_returns (by simp [endedRun_events])).2.2 stream listed).2⟩

/-! ### The watchdog -/

/-- When `server_timer_proc` has ended the test and the rate was not exceeded, `iperf_run_server`
returns 0. If the client could be told, the error is the watchdog's, or the one of a worker that
has failed since. A runner whose last native call this was ends in `.finished`. -/
theorem expired_test_is_finished {run final : Run} {allowance : Nat} {code : Int} {sent : Bool}
    {configuration : Lifecycle.IperfConfiguration} {actions : List Lifecycle.Action}
    {runner : Lifecycle.IperfRunner} {context : Lifecycle.RunContext}
    {taken : Lifecycle.IperfConfiguration} {capture : Lifecycle.Capture}
    (idle : Idle run) (returns : iperfRunServer allowance run = (some code, final))
    (expired : .expired sent ∈ final.events) (within : final.bitrateLimitExceeded = false)
    (lives : execute Lifecycle.IperfRunner.step (.new configuration) actions = some runner)
    (ended : .ended context ∈ runner.log) (entered : .entered context.id taken ∈ runner.log)
    (last : Lifecycle.lastCapture (Lifecycle.history context.id runner.log) = some capture)
    (same : capture.outcome.code = code) :
    code = 0 ∧
      (sent = true → final.error = .IESERVERTESTDURATIONEXPIRED ∨
        ∃ number fault, final.system.stores number = some fault ∧ final.error = .worker fault) ∧
      (Lifecycle.states (Lifecycle.history context.id runner.log)).getLast? = some .finished := by
  obtain ⟨zero, -, error⟩ := (idle.returned returns).of_expired expired within
  refine ⟨zero, error, ?_⟩
  obtain ⟨found, concludes⟩ := (Lifecycle.IperfRunner.sound_run lives).concludes ended entered
  have equal : found = capture := Option.some_inj.mp (concludes.last.symm.trans last)
  subst equal
  obtain ⟨iff, otherwise⟩ := concludes.endsInError_iff
  refine otherwise fun fails => ?_
  have failure := iff.mp fails
  simp [Lifecycle.Outcome.isFailure, same, zero] at failure

/-- A server for one client whose watchdog expires; a worker that fails leaves its own error. -/
theorem strayRun_is_finished : ∃ runner : Lifecycle.IperfRunner,
    execute Lifecycle.IperfRunner.step (.new ⟨.server, true, none, 0⟩)
      [.start none none, .next .noTest, .resume none, .dequeue, .next (.ready 9), .resume none,
        .resume none, .call, .createTimers 10, .setDone, .nativeReturn 0 (.raw 160), .capture, .decide,
        .next .noTest, .resume none, .finish, .next .noTest, .resume none, .resume none] = some runner ∧
      (iperfRunServer 2 watchedRun).2.error = .IESERVERTESTDURATIONEXPIRED ∧
      (iperfRunServer 2 strayRun).2.error = .worker .IESTREAMREAD ∧
      (Lifecycle.states (Lifecycle.history 0 runner.log)).getLast? = some .finished := by
  refine exists_run (fun runner => (runner.log.contains (.ended ⟨0, none⟩),
      runner.log.contains (.entered 0 ⟨.server, true, none, 0⟩),
      Lifecycle.lastCapture (Lifecycle.history 0 runner.log)))
    (true, true, some ⟨⟨0, .raw 160, true⟩, false, true⟩)
    (by decide +kernel) fun runner lives facts => ?_
  simp only [Prod.mk.injEq] at facts
  obtain ⟨ended, entered, last⟩ := facts
  have returns : iperfRunServer 2 strayRun = (some 0, (iperfRunServer 2 strayRun).2) :=
    Prod.ext (by decide +kernel) rfl
  obtain ⟨-, -, finished⟩ := @expired_test_is_finished _ _ _ _ true _ _ _ _ _ _
    (sampleRun_idle _) returns (by decide +kernel) (by decide +kernel) lives
    (List.contains_iff_mem.mp ended) (List.contains_iff_mem.mp entered) last rfl
  exact ⟨by decide +kernel, by decide +kernel, finished⟩

end IperfSwift.Server
