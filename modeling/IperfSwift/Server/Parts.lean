import IperfSwift.Server.Teardown

/-!
Contract: the parts of one pass of a server's loop before the test has ended.

Owns: the phases of a run; what accepting a client, a control message, accepting
a stream and the start of a test keep of them; and that each of these parts
returns only behind a cleanup.

Does not own: the timers, the loop, and what a run ends with.
-/

set_option autoImplicit false

namespace IperfSwift.Server

open IperfSwift.Lib
open IperfSwift.Lib.Program

variable {view : View} {state : Int} {going before : Run → Prop} {accepted : Accepted}

/-! ### Phases -/

/-- The run is sound, with the events so far and the flag of the rate limit. -/
def Steady (events : List Event) (exceeded : Bool) (view : View) : Prop :=
  Sound view ∧ view.events = events ∧ view.bitrateLimitExceeded = exceeded

/-- The same behind a cleanup. -/
def Down (events : List Event) (exceeded : Bool) (view : View) : Prop :=
  Torn view ∧ view.events = events ∧ view.bitrateLimitExceeded = exceeded

/-- The descriptors that `TEST_END` closes stay in their streams. -/
def Released (stream : Stream) : Prop := .close .iperfHandleMessageServer ∈ stream.touched

/-- The client has ended the test, and the results are exchanged. -/
structure Ended (run : Run) : Prop where
  event : run.events = [.ended]
  done : run.done = true
  state : run.state = DISPLAY_RESULTS
  rate : run.bitrateLimitExceeded = false
  released : ∀ stream ∈ run.streams, Released stream

/-! ### Cleanup -/

section Steady

variable {events : List Event} {exceeded : Bool}

theorem Sound.setState (sound : Sound view) (other : state ≠ CREATE_STREAMS) :
    Sound { view with state := state } :=
  { sound with creating := fun creating => absurd creating other }

/-- States that a client may be told at any time. -/
def Harmless (state : Int) : Prop := state ≠ IPERF_DONE ∧ state ≠ DISPLAY_RESULTS

theorem Harmless.allowed (harmless : Harmless state) (received : List Int) :
    Allowed received state :=
  ⟨harmless.1, fun shown => absurd shown harmless.2⟩

theorem harmless_serverError : Harmless SERVER_ERROR := ⟨by decide, by decide⟩

theorem steady_setSendState (harmless : Harmless state) :
    Preserves (fun run : Run => Steady events exceeded run.view) (setSendState state) := by
  rintro run ⟨sound, happened, rate⟩
  rw [setSendState_view state run.view run rfl]
  exact ⟨sound.telling (harmless.allowed _), (View.telling_events state _).trans happened,
    (View.telling_bitrateLimitExceeded state _).trans rate⟩

/-- What `cleanup_server` says does not matter for what it takes down. -/
theorem Sound.told {told : View} (sound : Sound view)
    (possible : told = view ∨ told = view.telling SERVER_ERROR) : Sound told := by
  rcases possible with rfl | rfl
  · exact sound
  · exact sound.telling (harmless_serverError.allowed _)

theorem cleanupServer_steady :
    Ensures (fun run : Run => Steady events exceeded run.view) cleanupServer fun _ run =>
      Down events exceeded run.view := by
  rintro run ⟨sound, happened, rate⟩
  obtain ⟨protocol, told, possible, cleaned⟩ := cleanupServer_view run.view run rfl
  rw [cleaned]
  refine ⟨(sound.told possible).cleaned protocol, ?_, ?_⟩
  · rcases possible with rfl | rfl
    · exact happened
    · exact (View.telling_events _ _).trans happened
  · rcases possible with rfl | rfl
    · exact rate
    · exact (View.telling_bitrateLimitExceeded _ _).trans rate

theorem cleanupAndReturn_steady (code : Int) :
    Ensures (fun run : Run => Steady events exceeded run.view) (cleanupAndReturn code)
      (Returning (fun _ run => Down events exceeded run.view) fun _ => False) :=
  ensures_bind cleanupServer_steady fun _ => ensures_pure fun _ holds => holds

theorem cleanupAndFail_steady (error : Errno) (code : Int) :
    Ensures (fun run : Run => Steady events exceeded run.view) (cleanupAndFail error code)
      (Returning (fun _ run => Down events exceeded run.view) fun _ => False) :=
  ensures_bind cleanupServer_steady fun _ =>
    ensures_bind (keeps_setError error).ensures fun _ => ensures_pure fun _ holds => holds

end Steady

/-! ### Parts of a pass before the test has ended -/

/-- The test has not ended. -/
abbrev Quiet (run : Run) : Prop := Steady [] false run.view

/-- There is a client, so the streams have their descriptors. -/
abbrev Attached (run : Run) : Prop := Quiet run ∧ 0 ≤ run.ctrlSck ∧ Open run.view

/-- A part of a pass that goes on with a property, or returns behind a cleanup. -/
abbrev Part (before : Run → Prop) (part : Program Run (Option Int)) (going : Run → Prop) : Prop :=
  Ensures before part (Returning (fun _ run => Down [] false run.view) going)

theorem part_return (code : Int) : Part Quiet (cleanupAndReturn code) going :=
  (cleanupAndReturn_steady code).weaken (fun _ holds => holds)
    (Returning.imp (fun _ _ down => down) fun _ never => never.elim)

theorem part_fail (error : Errno) (code : Int) : Part Quiet (cleanupAndFail error code) going :=
  (cleanupAndFail_steady error code).weaken (fun _ holds => holds)
    (Returning.imp (fun _ _ down => down) fun _ never => never.elim)

/-- A part that does not return. -/
theorem part_none (holds : ∀ run, before run → going run) : Part before (pure none) going :=
  ensures_pure holds

theorem part_stay : Part going (pure none) going := part_none fun _ holds => holds

/-- A step that ends the run when it fails. -/
theorem part_orReturn {step : Program Run Bool} (ensures : Ensures before step fun _ => going)
    (quiet : ∀ run, going run → Quiet run) : Part before (orReturn step) going := by
  refine ensures_bind ensures fun succeeded => ?_
  exact ensures_ite (fun _ => part_stay)
    fun _ => (part_return (-1)).weaken quiet fun _ _ holds => holds

theorem part_inOrder_cons {middle : Run → Prop} {first : Program Run (Option Int)}
    {rest : List (Program Run (Option Int))} (one : Part before first middle)
    (two : Part middle (inOrder rest) going) : Part before (inOrder (first :: rest)) going :=
  ensures_unlessReturned one two

/-! ### Accepting a client -/

/-- A closed listening socket needs no streams. -/
theorem attached_closeTestListenerSocket (listener : Int) :
    Preserves Attached (closeTestListenerSocket listener) := by
  rintro run ⟨⟨sound, events, rate⟩, client, valid⟩
  rw [closeTestListenerSocket, update_apply]
  by_cases absent : listener < 0
  · rw [if_pos absent]
    exact ⟨⟨sound, events, rate⟩, client, valid⟩
  · rw [if_neg absent]
    exact ⟨⟨{ sound with attached := fun _ => valid }, events, rate⟩, client, valid⟩

theorem attached_setListener (listener : Int) {change : Run → Run}
    (view : ∀ run, (change run).view = { run.view with listener := listener }) :
    Preserves Attached (update change) := by
  rintro run ⟨⟨sound, events, rate⟩, client, valid⟩
  have ctrlSck : (change run).ctrlSck = run.ctrlSck := congrArg View.ctrlSck (view run)
  rw [Attached, Quiet, update_apply, view run, ctrlSck]
  exact ⟨⟨{ sound with attached := fun _ => valid }, events, rate⟩, client, valid⟩

/-- With a client any state can be set. -/
theorem attached_tell {run : Run} (attached : Attached run) (allowed : Allowed run.received state) :
    Attached (setSendState state run).2 := by
  obtain ⟨⟨sound, events, rate⟩, client, valid⟩ := attached
  have sent := setSendState_view state run.view run rfl
  have telling := View.telling_of_client state (show 0 ≤ run.view.ctrlSck from client)
  have ctrlSck : (setSendState state run).2.ctrlSck = run.ctrlSck :=
    congrArg View.ctrlSck (sent.trans telling)
  refine ⟨⟨?_, ?_, ?_⟩, by rwa [ctrlSck], ?_⟩
  · rw [sent]
    exact sound.telling allowed
  · rw [sent, View.telling_events]
    exact events
  · rw [sent, View.telling_bitrateLimitExceeded]
    exact rate
  · rw [Open, sent, View.telling_streams]
    exact valid

theorem attached_setSendState (harmless : Harmless state) :
    Preserves Attached (setSendState state) :=
  fun _ attached => attached_tell attached (harmless.allowed _)

theorem attached_getParameters : Preserves Attached getParameters := fun _ holds => holds

theorem attached_testIsAuthorized : Preserves Attached testIsAuthorized := by
  refine preserves_bind preserves_current fun run => preserves_ite (preserves_pure _) ?_
  refine preserves_ite ?_ ?_
  · exact @keeps_askOr (fun view => Steady [] false view ∧ 0 ≤ view.ctrlSck ∧ Open view) _
  · exact preserves_bind (fun _ holds => holds) fun _ => preserves_pure _

theorem attached_askOr (error : Errno) : Preserves Attached (askOr error) :=
  @keeps_askOr (fun view => Steady [] false view ∧ 0 ≤ view.ctrlSck ∧ Open view) error

theorem attached_askOrKeep (error : Errno) : Preserves Attached (askOrKeep error) :=
  @keeps_askOrKeep (fun view => Steady [] false view ∧ 0 ≤ view.ctrlSck ∧ Open view) error

theorem attached_askDescriptor : Preserves Attached askDescriptor := fun _ holds => holds

theorem attached_verify (s : Int) : Preserves Attached (iperfTcpListen.verify s) :=
  preserves_bind (attached_askOr _) fun _ => preserves_ite (preserves_pure _) <|
    preserves_bind (attached_closeTestListenerSocket s) fun _ => preserves_pure _

theorem attached_iperfTcpListen : Preserves Attached iperfTcpListen := by
  refine preserves_bind preserves_current fun run => preserves_ite ?_ (attached_verify _)
  refine preserves_bind (attached_closeTestListenerSocket _) fun _ =>
    preserves_guard (attached_askOr _) ?_
  refine preserves_bind attached_askDescriptor fun s => preserves_guard (attached_askOr _) ?_
  exact preserves_bind (attached_setListener s fun _ => rfl) fun _ => attached_verify s

theorem attached_iperfUdpListen : Preserves Attached iperfUdpListen :=
  preserves_bind (attached_askOrKeep _) fun _ =>
    preserves_ite (preserves_bind attached_askDescriptor fun _ => preserves_pure _)
      (preserves_pure _)

theorem attached_protocolListen : Preserves Attached protocolListen :=
  preserves_bind preserves_current fun _ =>
    preserves_ite attached_iperfTcpListen attached_iperfUdpListen

theorem attached_iperfExchangeParameters : Preserves Attached iperfExchangeParameters := by
  refine preserves_guard attached_getParameters ?_
  refine preserves_guard attached_testIsAuthorized ?_
  refine preserves_bind attached_protocolListen fun listening => ?_
  cases listening with
  | none => exact preserves_pure _
  | some s =>
      exact preserves_bind (fun _ holds => holds) fun _ =>
        attached_setSendState ⟨by decide, by decide⟩

/-- The part of `iperf_accept` behind the new control connection. -/
theorem attached_greet :
    Preserves Attached (do
      if ← askOr .IESETNODELAY then
        if ← askOr .IERECVCOOKIE then
          if ← setSendState PARAM_EXCHANGE then
            if ← iperfExchangeParameters then do
              let run ← current
              if run.parameters.test.serverAffinity = -1 then pure true else ask
            else pure false
          else pure false
        else pure false
      else pure false) := by
  refine preserves_guard (attached_askOr _) ?_
  refine preserves_guard (attached_askOr _) ?_
  refine preserves_guard (attached_setSendState ⟨by decide, by decide⟩) ?_
  refine preserves_guard attached_iperfExchangeParameters ?_
  exact preserves_bind preserves_current fun _ =>
    preserves_ite (preserves_pure _) fun _ holds => holds

/-- `accept` succeeds only with a listening socket. -/
theorem ensures_acceptOr (error : Errno) :
    Ensures Quiet (acceptOr error) fun accepted run =>
      Quiet run ∧ (accepted = true → 0 ≤ run.listener) := by
  intro run quiet
  rw [acceptOr, bind_apply, current_apply, bind_apply]
  dsimp only
  split_ifs with accepted
  · exact ⟨quiet, fun _ => accepted.1⟩
  · exact ⟨quiet, fun never => never.elim⟩

/-- A client is accepted through a listening socket, and then the streams have their
descriptors. -/
theorem quiet_iperfAccept : Ensures Quiet iperfAccept fun _ => Quiet := by
  refine ensures_bind (ensures_acceptOr .IEACCEPT) fun accepted => ?_
  refine ensures_ite (fun succeeded => ?_) fun _ => ensures_pure fun _ holds => holds.1
  rintro run ⟨⟨sound, events, rate⟩, listening⟩
  have valid := sound.attached (.inr (listening succeeded))
  have number : (0 : Int) ≤ run.system.descriptor run.tick := Int.natCast_nonneg _
  have start : Attached
      { (question run).2 with ctrlSck := (run.system.descriptor run.tick : Int) } :=
    ⟨⟨{ sound with
        watched := fun _ => number, creating := fun _ => number, attached := fun _ => valid },
      events, rate⟩, number, valid⟩
  rw [bind_apply, bind_apply, current_apply]
  split_ifs
  · exact (attached_greet _ start).1
  · exact ⟨sound, events, rate⟩

/-! ### Control messages -/

theorem done_question : Preserves (fun run : Run => run.done = true) question := by
  intro run done
  simp [question, done]

theorem done_ask : Preserves (fun run : Run => run.done = true) ask := preserves_ask done_question

theorem done_askOr (error : Errno) : Preserves (fun run : Run => run.done = true) (askOr error) :=
  preserves_askElse done_question fun _ done => done

theorem done_setSendState (state : Int) :
    Preserves (fun run : Run => run.done = true) (setSendState state) := by
  refine preserves_bind preserves_current fun _ => preserves_ite ?_ (preserves_pure _)
  exact preserves_bind (fun _ done => done) fun _ =>
    preserves_bind (fun _ done => done) fun _ => done_askOr _

/-- `TEST_END` is being handled. -/
structure Finishing (run : Run) : Prop where
  attached : Attached run
  done : run.done = true
  released : ∀ stream ∈ run.streams, Released stream
  ended : TEST_END ∈ run.received

theorem finishing_askOr (error : Errno) : Preserves Finishing (askOr error) := by
  intro run finishing
  have kept := @keeps_askOr (fun view => (Steady [] false view ∧ 0 ≤ view.ctrlSck ∧ Open view) ∧
      (∀ stream ∈ view.streams, Released stream) ∧ TEST_END ∈ view.received) error run
    ⟨finishing.attached, finishing.released, finishing.ended⟩
  exact ⟨kept.1, done_askOr error run finishing.done, kept.2.1, kept.2.2⟩

/-- A client that has ended the test may be told to show the results. -/
theorem finishing_setSendState {state : Int} (other : state ≠ IPERF_DONE) :
    Preserves Finishing (setSendState state) := by
  intro run finishing
  have sent := setSendState_view state run.view run rfl
  have client : 0 ≤ run.view.ctrlSck := finishing.attached.2.1
  rw [View.telling_of_client state client] at sent
  have streams : (setSendState state run).2.streams = run.streams := congrArg View.streams sent
  have received : (setSendState state run).2.received = run.received :=
    congrArg View.received sent
  refine ⟨attached_tell finishing.attached ⟨other, fun _ => finishing.ended⟩,
    done_setSendState state run finishing.done, ?_, ?_⟩
  · rw [streams]
    exact finishing.released
  · rw [received]
    exact finishing.ended

/-- The state that was sent is the state of a test with a client. -/
theorem setSendState_state {state : Int} {run : Run} (client : 0 ≤ run.ctrlSck) :
    (setSendState state run).2.state = state := by
  have sent := setSendState_view state run.view run rfl
  rw [View.telling_of_client state (show 0 ≤ run.view.ctrlSck from client)] at sent
  exact congrArg View.state sent

/-- A test is quiet, or has ended. -/
def Handled (run : Run) : Prop := Quiet run ∨ Sound run.view ∧ Ended run

/-- A message has been handled, with success or without. -/
def Answered : Bool → Run → Prop
  | true, run => Handled run
  | false, run => Quiet run

theorem finishing_finishTest : Ensures Finishing finishTest Answered := by
  refine ensures_bind (finishing_setSendState (by decide)).ensures fun _ => ensures_ite (fun _ => ?_)
    fun _ => ensures_pure fun _ holds => holds.attached.1
  refine ensures_bind (finishing_askOr _).ensures fun _ => ensures_ite (fun _ => ?_)
    fun _ => ensures_pure fun _ holds => holds.attached.1
  intro run finishing
  have displayed := @finishing_setSendState DISPLAY_RESULTS (by decide) run finishing
  have state := @setSendState_state DISPLAY_RESULTS run finishing.attached.2.1
  obtain ⟨⟨sound, events, rate⟩, -, -⟩ := displayed.attached
  rw [bind_apply]
  split_ifs with sent
  · refine .inr ⟨{ sound with early := by simp [Run.view] }, ?_, displayed.done, state, rate, displayed.released⟩
    change (setSendState DISPLAY_RESULTS run).2.view.events ++ [.ended] = [.ended]
    rw [events, List.nil_append]
  · exact displayed.attached.1

theorem Sound.withStreams (sound : Sound view) {streams : List Stream}
    (good : ∀ stream ∈ streams, stream.Good)
    (valid : Open view → ∀ stream ∈ streams, 0 ≤ stream.socket) :
    Sound { view with streams := streams } :=
  { sound with good := good, attached := fun reachable => valid (sound.attached reachable) }

theorem Sound.release (sound : Sound view) :
    Sound { view with streams := view.streams.map Stream.release } := by
  refine sound.withStreams ?_ ?_
  · intro stream listed
    obtain ⟨before, present, rfl⟩ := List.mem_map.mp listed
    exact (sound.good before present).release
  · intro connected stream listed
    obtain ⟨before, present, rfl⟩ := List.mem_map.mp listed
    exact connected before present

theorem Stream.released_release {stream : Stream} (valid : 0 ≤ stream.socket) :
    Released stream.release := by
  rw [Released, Stream.release, Stream.closeBy]
  dsimp only
  rw [if_pos valid]
  simp

theorem attached_testEnd :
    Ensures (fun run => Attached run ∧ TEST_END ∈ run.received) testEnd Answered := by
  rintro run ⟨⟨⟨sound, events, rate⟩, client, valid⟩, ended⟩
  let counted : Run := (statsCallback { run with done := true }).2
  have view : counted.view = run.view := by
    have done : (ask { run with done := true }).2.done = true := done_ask _ rfl
    simp only [counted, statsCallback, bind_apply, update_apply]
    rw [done]
    simp only [Bool.not_true, Bool.false_and, Bool.or_false]
    rfl
  have done : counted.done = true := by
    simp only [counted, statsCallback, bind_apply, update_apply]
    exact done_ask _ rfl
  refine finishing_finishTest { counted with streams := counted.streams.map Stream.release }
    ⟨⟨⟨?_, ?_, ?_⟩, ?_, ?_⟩, done, ?_, ?_⟩
  · have soundCounted : Sound counted.view := by rwa [view]
    exact soundCounted.release
  · exact (congrArg View.events view).trans events
  · exact (congrArg View.bitrateLimitExceeded view).trans rate
  · exact client.trans_eq (congrArg View.ctrlSck view).symm
  · intro stream listed
    obtain ⟨before, present, rfl⟩ := List.mem_map.mp listed
    rw [show counted.streams = run.streams from congrArg View.streams view] at present
    exact valid before present
  · intro stream listed
    obtain ⟨before, present, rfl⟩ := List.mem_map.mp listed
    rw [show counted.streams = run.streams from congrArg View.streams view] at present
    exact Stream.released_release (valid before present)
  · rw [show counted.received = run.received from congrArg View.received view]
    exact ended

/-- A client can send any state. -/
theorem Sound.hear (sound : Sound view) (client : 0 ≤ view.ctrlSck) (state : Int) :
    Sound { view with state := state, received := view.received ++ [state] } :=
  { sound with
    creating := fun _ => client
    spoken := fun told said =>
      ⟨(sound.spoken told said).1,
        fun shown => List.mem_append_left _ ((sound.spoken told said).2 shown)⟩ }

theorem quiet_iperfHandleMessageServer : Ensures Quiet iperfHandleMessageServer Answered := by
  rintro run ⟨sound, events, rate⟩
  rw [iperfHandleMessageServer, bind_apply, current_apply, bind_apply]
  by_cases broken : run.ctrlSck < 0 ∨ (askValue run).1 < 0
  · rw [if_pos broken]
    exact ⟨sound, events, rate⟩
  rw [if_neg broken]
  have client : 0 ≤ run.ctrlSck := by
    rw [not_or, not_lt] at broken
    exact broken.1
  have valid := sound.attached (.inl client)
  have other : IPERF_DONE ≠ CREATE_STREAMS := by decide
  split_ifs with closed
  · exact .inl ⟨sound.setState other, events, rate⟩
  rw [bind_apply, bind_apply]
  generalize received : (askValue (askValue run).2).1 = state
  have start : Attached
      { (askValue (askValue run).2).2 with
        state := state, received := run.received ++ [state] } :=
    ⟨⟨sound.hear client state, events, rate⟩, client, valid⟩
  change Answered ((_ : Program Run Bool) _).1 ((_ : Program Run Bool) _).2
  split_ifs with starts ends isDone terminates
  · exact .inl start.1
  · have heard : TEST_END ∈ run.received ++ [state] := by simp [ends]
    exact attached_testEnd _ ⟨start, heard⟩
  · exact .inl start.1
  · exact .inl ⟨start.1.1.release.setState other, events, rate⟩
  · exact start.1

/-! ### Streams -/

theorem attached_of_creating {run : Run} (quiet : Quiet run) (creating : run.state = CREATE_STREAMS) :
    Attached run :=
  ⟨quiet, quiet.1.creating creating, quiet.1.attached (.inl (quiet.1.creating creating))⟩

/-- With a client, the result of a part has a property. -/
abbrev Gives {α : Type} (program : Program Run α) (given : α → Prop) : Prop :=
  Ensures Attached program fun result run => Attached run ∧ given result

theorem gives_askDescriptor : Gives askDescriptor fun s => 0 ≤ s :=
  fun run attached => ⟨attached, askDescriptor_nonneg run⟩

theorem attached_acceptOr (error : Errno) : Preserves Attached (acceptOr error) :=
  preserves_bind preserves_current fun _ => preserves_bind (fun _ attached => attached) fun _ =>
    preserves_ite (preserves_pure _) (preserves_bind (fun _ attached => attached) fun _ =>
      preserves_pure _)

/-- A connection has a number. -/
def Numbered (accepted : Option Accepted) : Prop :=
  ∀ connection ∈ accepted, 0 ≤ connection.socket

theorem numbered_none : Numbered none := fun _ never => absurd never (by simp)

theorem numbered_some {socket : Int} (valid : 0 ≤ socket) (denied : Bool) :
    Numbered (some ⟨socket, denied⟩) := by
  intro connection same
  cases same
  exact valid

theorem gives_iperfTcpAccept : Gives iperfTcpAccept Numbered := by
  refine ensures_bind (attached_acceptOr _).ensures fun _ => ensures_ite (fun _ => ?_)
    fun _ => ensures_pure fun _ attached => ⟨attached, numbered_none⟩
  refine ensures_bind gives_askDescriptor fun s => ?_
  rintro run ⟨attached, valid⟩
  have kept := attached_askOr .IERECVCOOKIE run attached
  rw [bind_apply]
  split_ifs
  · exact ⟨kept, numbered_some valid _⟩
  · exact ⟨kept, numbered_none⟩

theorem gives_iperfUdpAccept : Gives iperfUdpAccept Numbered := by
  refine ensures_current fun seen attached => ?_
  rw [bind_apply]
  split_ifs with connected
  · have listening := attached_askOrKeep .IESTREAMLISTEN (ask seen).2 attached
    rw [bind_apply]
    split_ifs
    · rw [bind_apply, bind_apply, bind_apply]
      have written := attached_askOr .IESTREAMWRITE _
        (show Attached
          { (askDescriptor (askOrKeep .IESTREAMLISTEN (ask seen).2).2).2 with
            protListener := (askDescriptor (askOrKeep .IESTREAMLISTEN (ask seen).2).2).1 } from
          listening)
      split_ifs
      · exact ⟨written, numbered_some connected.1 false⟩
      · exact ⟨written, numbered_none⟩
    · exact ⟨listening, numbered_none⟩
  · exact ⟨attached, numbered_none⟩

theorem gives_protocolAccept : Gives protocolAccept Numbered := by
  refine ensures_current fun seen attached => ?_
  split_ifs
  · exact gives_iperfTcpAccept seen attached
  · exact gives_iperfUdpAccept seen attached

theorem Accepted.good_stream (valid : 0 ≤ accepted.socket) (sender : Bool) :
    (accepted.stream sender).Good := by
  have fresh : Untouched (accepted.stream sender).touched := by
    intro touch present
    rw [Accepted.stream] at present
    split_ifs at present
    · exact List.mem_singleton.mp present
    · cases present
  refine ⟨rfl, fun _ => fresh, fresh.shutdownFirst, fun freed => absurd (fresh _ freed) (by simp), ?_⟩
  rw [Accepted.stream]
  dsimp only
  rw [if_pos valid]
  split_ifs <;> rfl

/-- A new stream has its descriptor. -/
theorem attached_iperfNewStream (valid : 0 ≤ accepted.socket) (sender : Bool) :
    Preserves Attached (iperfNewStream accepted sender) := by
  refine preserves_guard (attached_askOr _) ?_
  rintro run ⟨⟨sound, events, rate⟩, client, connected⟩
  have good := accepted.good_stream valid sender
  have goods := List.forall_mem_append.mpr ⟨sound.good, List.forall_mem_singleton.mpr good⟩
  have reachable : ∀ stream ∈ run.streams ++ [accepted.stream sender], 0 ≤ stream.socket :=
    List.forall_mem_append.mpr ⟨connected, List.forall_mem_singleton.mpr valid⟩
  exact ⟨⟨{ sound with good := goods, attached := fun _ => reachable }, events, rate⟩, client,
    reachable⟩

theorem attached_nextDirection : Preserves Attached nextDirection :=
  preserves_bind preserves_current fun _ => preserves_ite
    (preserves_bind (fun _ attached => attached) fun _ => preserves_pure _) <|
    preserves_ite (preserves_bind (fun _ attached => attached) fun _ => preserves_pure _)
      (preserves_pure _)

theorem attached_return (code : Int) : Part Attached (cleanupAndReturn code) going :=
  (part_return code).weaken (fun _ attached => attached.1) fun _ _ holds => holds

theorem attached_fail (error : Errno) (code : Int) :
    Part Attached (cleanupAndFail error code) going :=
  (part_fail error code).weaken (fun _ attached => attached.1) fun _ _ holds => holds

/-- What follows a connection with a number. -/
theorem attached_addStream (valid : 0 ≤ accepted.socket) :
    Part Attached
      (do
        if ← askOr .other then do
          if ← isClosed accepted then pure none
          else
            match ← nextDirection with
            | none => pure none
            | some sender => do
                if ← iperfNewStream accepted sender then pure none else cleanupAndReturn (-1)
        else cleanupAndReturn (-1)) Attached := by
  refine ensures_bind (attached_askOr _).ensures fun _ => ensures_ite (fun _ => ?_)
    fun _ => attached_return (-1)
  have closed : Preserves Attached (isClosed accepted) := fun _ attached => attached
  refine ensures_bind closed.ensures fun _ => ensures_ite (fun _ => part_stay)
    fun _ => ?_
  refine ensures_bind attached_nextDirection.ensures fun direction => ?_
  cases direction with
  | none => exact part_stay
  | some sender =>
      refine ensures_bind (attached_iperfNewStream valid sender).ensures fun _ => ?_
      exact ensures_ite (fun _ => part_stay) fun _ => attached_return (-1)

theorem attached_acceptStream : Part Attached acceptStream Attached := by
  have asked : Preserves Attached ask := fun _ attached => attached
  refine ensures_bind asked.ensures fun _ => ensures_ite (fun _ => ?_)
    fun _ => part_stay
  refine ensures_bind gives_protocolAccept fun connection => ?_
  cases connection with
  | none => exact (attached_return (-1)).weaken (fun _ given => given.1) fun _ _ holds => holds
  | some accepted =>
      rintro run ⟨attached, numbered⟩
      exact attached_addStream (numbered accepted rfl) run attached

/-! ### The start of a test -/

theorem attached_restoreListener : Part Attached restoreListener Attached := by
  refine ensures_bind preserves_current.ensures fun seen => ensures_ite (fun _ => ?_) fun _ => ?_
  · have closed : Preserves Attached closeTestListener :=
      preserves_bind preserves_current fun _ => attached_closeTestListenerSocket _
    have asked : Preserves Attached ask := fun _ attached => attached
    refine ensures_bind closed.ensures fun _ => ensures_bind asked.ensures fun _ =>
      ensures_ite (fun _ => ?_) fun _ => attached_fail .IELISTEN (-1)
    refine ensures_bind attached_askDescriptor.ensures fun s => ?_
    exact ensures_bind (attached_setListener s fun _ => rfl).ensures fun _ =>
      part_stay
  · exact ensures_bind (fun _ attached => attached) fun _ => part_stay

theorem attached_checkTotalRate : Part Attached checkTotalRate Attached :=
  ensures_bind preserves_current.ensures fun _ =>
    ensures_ite (fun _ => attached_fail .IETOTALRATE (-1)) fun _ => part_stay

/-- There is a client to be watched. -/
theorem attached_setTimer (timer : Bool) {change : Run → Run}
    (view : ∀ run, (change run).view = { run.view with timer := timer }) :
    Preserves Attached (update change) := by
  rintro run ⟨⟨sound, events, rate⟩, client, valid⟩
  have ctrlSck : (change run).ctrlSck = run.ctrlSck := congrArg View.ctrlSck (view run)
  rw [Attached, Quiet, update_apply, view run, ctrlSck]
  exact ⟨⟨{ sound with watched := fun _ => client }, events, rate⟩, client, valid⟩

theorem attached_createServerTimers : Preserves Attached createServerTimers := by
  have reporter : Preserves Attached createServerTimers.createReporter := by
    refine preserves_bind preserves_current fun _ => preserves_ite ?_ (preserves_pure _)
    refine preserves_guard (attached_askOr _) ?_
    exact preserves_bind (fun _ attached => attached) fun _ => preserves_pure _
  have reports : Preserves Attached createServerTimers.createReports := by
    refine preserves_bind preserves_current fun _ => preserves_ite ?_ reporter
    refine preserves_guard (attached_askOr _) ?_
    exact preserves_bind (fun _ attached => attached) fun _ => reporter
  refine preserves_guard (attached_askOr _) ?_
  refine preserves_bind (attached_setTimer false fun _ => rfl) fun _ =>
    preserves_bind preserves_current fun _ => preserves_ite ?_ reports
  refine preserves_guard (attached_askOr _) ?_
  exact preserves_bind (attached_setTimer true fun _ => rfl) fun _ => reports

theorem attached_createServerOmitTimer : Preserves Attached createServerOmitTimer := by
  refine preserves_bind preserves_current fun _ => preserves_ite ?_ ?_
  · exact preserves_bind (fun _ attached => attached) fun _ => preserves_pure _
  · refine preserves_guard (attached_askOr _) ?_
    exact preserves_bind (fun _ attached => attached) fun _ => preserves_pure _

/-- The streams are created. A failure of `pthread_attr_init` may have cleaned up already. -/
def Started (run : Run) : Prop := Quiet run ∧ run.state ≠ CREATE_STREAMS

theorem attached_startRunning : Part Attached (orReturn (setSendState TEST_RUNNING)) Started := by
  refine part_orReturn ?_ fun _ started => started.1
  intro run attached
  refine ⟨(attached_setSendState ⟨by decide, by decide⟩ run attached).1, ?_⟩
  rw [setSendState_state attached.2.1]
  decide

theorem started_cleanupUnless (error : Errno) : Part Started (cleanupUnless error) Started := by
  have asked : Preserves Started ask := fun _ started => started
  refine ensures_bind asked.ensures fun _ => ensures_ite (fun _ => part_stay)
    fun _ => ?_
  refine ensures_bind (show Preserves Started (setError error) from fun _ started => started).ensures
    fun _ => ?_
  rintro run ⟨⟨sound, events, rate⟩, state⟩
  obtain ⟨protocol, told, possible, cleaned⟩ := cleanupServer_view run.view run rfl
  have other : told.state ≠ CREATE_STREAMS := by
    rcases possible with rfl | rfl
    · exact state
    · rw [View.telling]
      split_ifs
      · show SERVER_ERROR ≠ CREATE_STREAMS
        decide
      · exact state
  obtain ⟨torn, happened, exceeded⟩ := cleanupServer_steady run ⟨sound, events, rate⟩
  have after : (cleanupServer run).2.view.state ≠ CREATE_STREAMS := by
    rw [cleaned]
    exact other
  exact ⟨⟨torn.sound after, happened, exceeded⟩, after⟩

theorem Sound.create (sound : Sound view) (many : Int) :
    Sound { view with
      streams := view.streams.mapIdx fun index stream =>
        if (index : Int) < many then stream.create else stream } := by
  refine sound.withStreams ?_ ?_
  · intro stream listed
    obtain ⟨index, inside, rfl⟩ := List.mem_mapIdx.mp listed
    have good := sound.good _ (List.getElem_mem inside)
    split_ifs
    · exact good.created
    · exact good
  · intro connected stream listed
    obtain ⟨index, inside, rfl⟩ := List.mem_mapIdx.mp listed
    have valid := connected _ (List.getElem_mem inside)
    split_ifs
    · exact valid
    · exact valid

theorem started_createWorkers : Part Started createWorkers Started := by
  have asked : Preserves Started askValue := fun _ started => started
  refine ensures_bind asked.ensures fun many => ?_
  have created : Preserves Started
      (forEachPlace fun index stream => if (index : Int) < many then stream.create else stream) := by
    rintro run ⟨⟨sound, events, rate⟩, state⟩
    exact ⟨⟨sound.create many, events, rate⟩, state⟩
  refine ensures_bind created.ensures fun _ => ensures_bind preserves_current.ensures fun _ =>
    ensures_ite (fun _ => part_stay) fun _ => ?_
  have failed : Preserves Started (setError .IEPTHREADCREATE) := fun _ started => started
  refine ensures_bind failed.ensures fun _ => ?_
  exact (part_return (-1)).weaken (fun _ started => started.1) fun _ _ holds => holds

theorem attached_startTest : Part Attached startTest Quiet := by
  refine ensures_bind preserves_current.ensures fun _ => ensures_ite (fun _ => ?_)
    fun _ => part_none fun _ attached => attached.1
  have quiet : ∀ run, Attached run → Quiet run := fun _ attached => attached.1
  refine part_inOrder_cons attached_restoreListener ?_
  refine part_inOrder_cons attached_checkTotalRate ?_
  refine part_inOrder_cons (part_orReturn (attached_setSendState ⟨by decide, by decide⟩).ensures quiet) ?_
  refine part_inOrder_cons (part_orReturn (attached_askOr .IEINITTEST).ensures quiet) ?_
  refine part_inOrder_cons (part_orReturn attached_createServerTimers.ensures quiet) ?_
  refine part_inOrder_cons (part_orReturn attached_createServerOmitTimer.ensures quiet) ?_
  refine part_inOrder_cons attached_startRunning ?_
  refine part_inOrder_cons (started_cleanupUnless .IEPTHREADATTRINIT) ?_
  refine part_inOrder_cons started_createWorkers ?_
  refine part_inOrder_cons (started_cleanupUnless .IEPTHREADATTRDESTROY) ?_
  have reset : Part Started resetProgress Quiet := fun _ started => started.1
  exact part_inOrder_cons reset part_stay

/-! ### What `select` finds -/

theorem quiet_serveListener : Part Quiet serveListener Quiet := by
  have asked : Preserves Quiet ask := fun _ quiet => quiet
  refine ensures_bind asked.ensures fun _ => ensures_bind preserves_current.ensures fun _ =>
    ensures_ite (fun _ => ?_) fun _ => part_stay
  refine ensures_bind quiet_iperfAccept fun _ => ensures_ite (fun _ => ?_) fun _ => part_return (-1)
  exact ensures_bind (fun _ quiet => quiet) fun _ => part_stay

theorem quiet_serveControl : Part Quiet serveControl Handled := by
  have asked : Preserves Quiet ask := fun _ quiet => quiet
  refine ensures_bind asked.ensures fun _ => ensures_ite (fun _ => ?_)
    fun _ => part_none fun _ quiet => .inl quiet
  refine ensures_bind quiet_iperfHandleMessageServer fun answer => ?_
  cases answer with
  | true => exact part_stay
  | false => exact part_return (-1)

/-- A test that has ended creates no streams. -/
theorem handled_serveStreams : Part Handled serveStreams Handled := by
  refine ensures_current fun seen handled => ?_
  rcases handled with quiet | ⟨sound, ended⟩
  · split_ifs with creating
    · have served := ensures_unlessReturned attached_acceptStream attached_startTest seen
        (attached_of_creating quiet creating)
      exact served.imp (fun _ _ down => down) (fun _ quiet => .inl quiet) _ _
    · exact .inl quiet
  · rw [if_neg (by rw [ended.state]; decide)]
    exact .inr ⟨sound, ended⟩

/-- The parts of a pass that serve what is readable. -/
theorem quiet_serve : Part Quiet (inOrder [serveListener, serveControl, serveStreams]) Handled :=
  part_inOrder_cons quiet_serveListener <| part_inOrder_cons quiet_serveControl <|
    part_inOrder_cons handled_serveStreams part_stay

end IperfSwift.Server
