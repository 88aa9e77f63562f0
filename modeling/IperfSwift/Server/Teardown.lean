import IperfSwift.Server.Machine

/-!
Contract: what a server does to the workers and the descriptors of its streams.

Owns: what holds of a stream while it is in the list and when it is gone; the
part of a run that its soundness depends on; and what `cleanup_server` and
`server_timer_proc` make of it.

Does not own: the passes of the loop.
-/

set_option autoImplicit false

namespace IperfSwift.Server

open IperfSwift.Lib
open IperfSwift.Lib.Program
open IperfSwift.Udp (Protocol)

variable {touched : List Touch} {stream : Stream}

/-! ### Streams -/

/-- A close that takes the descriptor out of its stream. -/
def Touch.isTeardown : Touch → Bool
  | .close .serverTimerProc => true
  | .close .cleanupServer => true
  | _ => false

/-- Nothing has been done to the descriptor, unless its connection was denied. -/
def Untouched (touched : List Touch) : Prop := ∀ touch ∈ touched, touch = .close .iperfTcpAccept

/-- A shutdown is the first thing that is done to a descriptor. -/
def ShutdownFirst (touched : List Touch) : Prop :=
  ∀ index, touched[index]? = some .shutdown → Untouched (touched.take index)

/-- A stream of the list. -/
structure Stream.Good (stream : Stream) : Prop where
  worker : stream.live = stream.threadCreated
  fresh : stream.done = false → Untouched stream.touched
  order : ShutdownFirst stream.touched
  kept : .close .serverTimerProc ∉ stream.touched
  tornDown : stream.touched.countP Touch.isTeardown = if 0 ≤ stream.socket then 0 else 1

/-- A stream that is gone. A worker is left behind only if `pthread_cancel` has failed for it. -/
structure Stream.Gone (stuck : Prop) (stream : Stream) : Prop where
  worker : stream.live = true → stuck
  order : ShutdownFirst stream.touched
  tornDown : stream.touched.countP Touch.isTeardown = 1

theorem shutdownFirst_append_close (order : ShutdownFirst touched) (closer : Closer) :
    ShutdownFirst (touched ++ [.close closer]) := by
  intro index found
  rcases Nat.lt_or_ge index touched.length with inside | outside
  · rw [List.getElem?_append_left inside] at found
    rw [List.take_append_of_le_length inside.le]
    exact order index found
  · rw [List.getElem?_append_right outside] at found
    obtain ⟨_, same⟩ := List.getElem?_eq_some_iff.mp found
    simp at same

theorem shutdownFirst_append_shutdown (fresh : Untouched touched) :
    ShutdownFirst (touched ++ [.shutdown]) := by
  intro index found touch taken
  have inside := (List.getElem?_eq_some_iff.mp found).1
  rw [List.length_append, List.length_singleton] at inside
  rw [List.take_append_of_le_length (by omega)] at taken
  exact fresh touch (List.mem_of_mem_take taken)

theorem Untouched.shutdownFirst (fresh : Untouched touched) : ShutdownFirst touched := by
  intro index found
  exact absurd (fresh _ (List.mem_of_getElem? found)) (by simp)

theorem Stream.closeBy_order (good : ShutdownFirst stream.touched) (closer : Closer) :
    ShutdownFirst (stream.closeBy closer).touched := by
  rw [Stream.closeBy]
  dsimp only
  split_ifs
  · exact shutdownFirst_append_close good closer
  · exact good

theorem Stream.closeBy_kept (kept : .close .serverTimerProc ∉ stream.touched) {closer : Closer}
    (other : closer ≠ .serverTimerProc) :
    .close .serverTimerProc ∉ (stream.closeBy closer).touched := by
  rw [Stream.closeBy]
  dsimp only
  split_ifs
  · simp [kept, other.symm]
  · exact kept

/-- `TEST_END` and `CLIENT_TERMINATE` do not take the descriptor out of its stream. -/
theorem Stream.Good.release (good : stream.Good) : stream.release.Good where
  worker := good.worker
  fresh := by
    intro never
    cases never
  order := closeBy_order good.order _
  kept := closeBy_kept good.kept (by decide)
  tornDown := by
    have before := good.tornDown
    rw [Stream.release, Stream.closeBy]
    dsimp only
    split_ifs at before ⊢
    · rw [List.countP_append, before]
      rfl
    · exact before

theorem Stream.Good.stopped (good : stream.Good) (protocol : Protocol) :
    (stopStreamWorker protocol stream).Good := by
  rw [stopStreamWorker]
  split_ifs with marked valid
  · exact good
  · refine ⟨good.worker, ?_, ?_, ?_, ?_⟩
    · intro never
      cases never
    · exact shutdownFirst_append_shutdown (good.fresh (by simpa using marked))
    · simp [good.kept]
    · dsimp only
      rw [List.countP_append, good.tornDown, if_pos valid.2]
      rfl
  · refine ⟨good.worker, ?_, good.order, good.kept, good.tornDown⟩
    intro never
    cases never

theorem Stream.Good.joined (good : stream.Good) : (stream.joinIf true).Good := by
  rw [Stream.joinIf]
  split_ifs
  · exact ⟨by simp, good.fresh, good.order, good.kept, good.tornDown⟩
  · exact good

theorem Stream.Good.created {stream : Stream} (good : stream.Good) : stream.create.Good :=
  ⟨rfl, good.fresh, good.order, good.kept, good.tornDown⟩

/-- `cleanup_server` takes a descriptor out of its stream once. -/
theorem Stream.Good.teardown (good : stream.Good) (marked : stream.done = true)
    (valid : 0 ≤ stream.socket) : (stream.teardown .cleanupServer).Good := by
  have before := good.tornDown
  rw [if_pos valid] at before
  refine ⟨good.worker, ?_, closeBy_order good.order _, closeBy_kept good.kept (by decide), ?_⟩
  · intro never
    rw [show (stream.teardown .cleanupServer).done = stream.done from rfl, marked] at never
    cases never
  · rw [Stream.teardown, Stream.closeBy]
    dsimp only
    rw [if_pos valid, List.countP_append, before]
    rfl

theorem stopStreamWorker_done (protocol : Protocol) (stream : Stream) :
    (stopStreamWorker protocol stream).done = true := by
  rw [stopStreamWorker]
  split_ifs with marked
  · exact marked
  · rfl
  · rfl

theorem stopStreamWorker_socket (protocol : Protocol) (stream : Stream) :
    (stopStreamWorker protocol stream).socket = stream.socket := by
  rw [stopStreamWorker]
  split_ifs <;> rfl

theorem Stream.joinIf_socket (cancelled : Bool) (stream : Stream) :
    (stream.joinIf cancelled).socket = stream.socket := by
  rw [Stream.joinIf]
  split_ifs <;> rfl

theorem Stream.joinIf_done (cancelled : Bool) (stream : Stream) :
    (stream.joinIf cancelled).done = stream.done := by
  rw [Stream.joinIf]
  split_ifs <;> rfl

theorem Stream.joinIf_touched (cancelled : Bool) (stream : Stream) :
    (stream.joinIf cancelled).touched = stream.touched := by
  rw [Stream.joinIf]
  split_ifs <;> rfl

theorem Stream.joinIf_threadCreated (cancelled : Bool) (stream : Stream) :
    (stream.joinIf cancelled).threadCreated = false := by
  rw [Stream.joinIf]
  split_ifs with created
  · rfl
  · simpa using created

/-! ### What a run is seen as -/

/-- The part of a run that its streams and its end depend on, without `done`: that can change with
any question. -/
structure View where
  system : System
  streams : List Stream
  freed : List Stream
  cancelling : Option Nat
  spinning : Bool
  timer : Bool
  ctrlSck : Int
  state : Int
  listener : Int
  events : List Event
  bitrateLimitExceeded : Bool
  sent : List Int
  received : List Int

def Run.view (run : Run) : View where
  system := run.system
  streams := run.streams
  freed := run.freed
  cancelling := run.cancelling
  spinning := run.spinning
  timer := run.timer
  ctrlSck := run.ctrlSck
  state := run.state
  listener := run.listener
  events := run.events
  bitrateLimitExceeded := run.bitrateLimitExceeded
  sent := run.sent
  received := run.received

section Unseen

variable {property : View → Prop}

theorem keeps_question : Preserves (fun run : Run => property run.view) question :=
  fun _ holds => holds

theorem keeps_ask : Preserves (fun run : Run => property run.view) ask :=
  preserves_ask keeps_question

theorem keeps_setError (error : Errno) :
    Preserves (fun run : Run => property run.view) (setError error) :=
  fun _ holds => holds

theorem keeps_askOr (error : Errno) :
    Preserves (fun run : Run => property run.view) (askOr error) :=
  preserves_askElse keeps_question (keeps_setError error)

theorem keeps_askOrKeep (error : Errno) :
    Preserves (fun run : Run => property run.view) (askOrKeep error) :=
  preserves_askElse keeps_question fun _ holds => holds

theorem keeps_sendError : Preserves (fun run : Run => property run.view) sendError :=
  preserves_bind keeps_ask fun _ =>
    preserves_ite (preserves_bind keeps_ask fun _ => preserves_pure _) (preserves_pure _)

end Unseen

/-- Every stream still has its descriptor. -/
def Open (view : View) : Prop := ∀ stream ∈ view.streams, 0 ≤ stream.socket

/-- `pthread_cancel` has failed for the worker of a stream that `server_timer_proc` has freed. -/
def View.Stuck (view : View) (index : Nat) : Prop :=
  ∃ number, view.cancelling = some number ∧ view.system.cancels number index = false

/-- What a client may be told: never that the server is done, and to show the results only when it
has ended the test. -/
def Allowed (received : List Int) (state : Int) : Prop :=
  state ≠ IPERF_DONE ∧ (state = DISPLAY_RESULTS → TEST_END ∈ received)

/-- What the client was told. -/
def Spoken (view : View) : Prop := ∀ state ∈ view.sent, Allowed view.received state

/-- What holds in every pass of the loop. Only `cleanup_server` takes descriptors out of streams of
the list, and behind it there is no client and no listening socket to accept one. -/
structure Sound (view : View) : Prop where
  good : ∀ stream ∈ view.streams, stream.Good
  early : view.events = [] → view.freed = []
  gone : ∀ index (stream : Stream), view.freed[index]? = some stream → stream.Gone (view.Stuck index)
  spins : view.spinning = false
  watched : view.timer = true → 0 ≤ view.ctrlSck
  creating : view.state = CREATE_STREAMS → 0 ≤ view.ctrlSck
  attached : 0 ≤ view.ctrlSck ∨ 0 ≤ view.listener → Open view
  spoken : Spoken view

/-- What holds behind `cleanup_server`. -/
structure Torn (view : View) : Prop where
  good : ∀ stream ∈ view.streams, stream.Good
  joined : ∀ stream ∈ view.streams, stream.threadCreated = false
  closed : ∀ stream ∈ view.streams, stream.socket < 0
  early : view.events = [] → view.freed = []
  gone : ∀ index (stream : Stream), view.freed[index]? = some stream → stream.Gone (view.Stuck index)
  spins : view.spinning = false
  timer : view.timer = false
  ctrlSck : view.ctrlSck < 0
  listener : view.listener < 0
  spoken : Spoken view

/-- What `iperf_set_send_state` makes of a view. -/
def View.telling (state : Int) (view : View) : View :=
  if 0 ≤ view.ctrlSck then { view with state := state, sent := view.sent ++ [state] } else view

section telling

variable (state : Int) (view : View)

theorem View.telling_streams : (view.telling state).streams = view.streams := by
  rw [telling]
  split_ifs <;> rfl

theorem View.telling_events : (view.telling state).events = view.events := by
  rw [telling]
  split_ifs <;> rfl

theorem View.telling_bitrateLimitExceeded :
    (view.telling state).bitrateLimitExceeded = view.bitrateLimitExceeded := by
  rw [telling]
  split_ifs <;> rfl

theorem View.telling_of_client {view : View} (client : 0 ≤ view.ctrlSck) :
    view.telling state = { view with state := state, sent := view.sent ++ [state] } :=
  if_pos client

end telling

/-- What `cleanup_server` makes of a view, behind its message to the client. -/
def View.cleaned (protocol : Protocol) (view : View) : View :=
  { view with
    streams := view.streams.map fun stream =>
      let stopped := (stopStreamWorker protocol stream).joinIf true
      if -1 < stopped.socket then stopped.teardown .cleanupServer else stopped
    timer := false
    ctrlSck := -1
    listener := min view.listener (-1) }

theorem Spoken.append {view : View} (spoken : Spoken view) {state : Int}
    (allowed : Allowed view.received state) :
    ∀ told ∈ view.sent ++ [state], Allowed view.received told :=
  List.forall_mem_append.mpr ⟨spoken, List.forall_mem_singleton.mpr allowed⟩

/-- With a client any state can be sent that is allowed. -/
theorem Sound.telling {view : View} (sound : Sound view) {state : Int}
    (allowed : Allowed view.received state) : Sound (view.telling state) := by
  rw [View.telling]
  split_ifs with client
  · exact { sound with creating := fun _ => client, spoken := sound.spoken.append allowed }
  · exact sound

/-- `iperf_set_send_state` tells the client. -/
theorem setSendState_view (state : Int) (view : View) :
    Ensures (fun run => run.view = view) (setSendState state) fun _ run =>
      run.view = view.telling state := by
  refine ensures_current ?_
  rintro seen rfl
  rw [View.telling, show seen.view.ctrlSck = seen.ctrlSck from rfl]
  split_ifs
  · exact @keeps_askOr
      (fun view => view = { seen.view with state := state, sent := seen.sent ++ [state] })
      .IESENDMESSAGE { seen with state := state, sent := seen.sent ++ [state] } rfl
  · rfl

theorem notifyClient_view (view : View) :
    Ensures (fun run => run.view = view) notifyClient fun _ run =>
      run.view = view ∨ run.view = view.telling SERVER_ERROR := by
  refine ensures_current ?_
  rintro seen rfl
  split_ifs
  · have sent := setSendState_view SERVER_ERROR seen.view seen rfl
    rw [bind_apply]
    right
    split_ifs
    · exact @keeps_sendError (fun view => view = seen.view.telling SERVER_ERROR) _ sent
    · exact sent
  · exact .inl rfl

/-- Behind the message to the client everything is taken down. -/
theorem takeDown_view (run : Run) :
    ((do stopWorkers; closeStreams; closeSockets; cancelTimers : Program Run Unit) run).2.view =
      run.view.cleaned run.parameters.test.protocol := by
  simp only [bind_apply, stopWorkers, closeStreams, closeSockets, cancelTimers, forEachStream,
    closeTestListener, closeTestListenerSocket, setError, update_apply, current_apply, question,
    Run.view, View.cleaned, List.map_map]
  by_cases absent : run.listener < 0
  · simp only [if_pos absent, min_eq_left (show run.listener ≤ -1 by omega)]
    rfl
  · simp only [if_neg absent, if_true, min_eq_right (show -1 ≤ run.listener by omega)]
    rfl

/-- `cleanup_server` may tell the client first, and then takes everything down. -/
theorem cleanupServer_view (view : View) :
    Ensures (fun run => run.view = view) cleanupServer fun _ run =>
      ∃ protocol told, (told = view ∨ told = view.telling SERVER_ERROR) ∧
        run.view = told.cleaned protocol := by
  refine ensures_bind (notifyClient_view view) fun _ run told => ?_
  exact ⟨run.parameters.test.protocol, run.view, told, takeDown_view run⟩

/-- A stream behind `cleanup_server`. -/
theorem Stream.Good.cleaned (good : stream.Good) (protocol : Protocol) :
    let stopped := (stopStreamWorker protocol stream).joinIf true
    let cleaned := if -1 < stopped.socket then stopped.teardown .cleanupServer else stopped
    cleaned.Good ∧ cleaned.threadCreated = false ∧ cleaned.socket < 0 := by
  have stopped := (good.stopped protocol).joined
  have marked : ((stopStreamWorker protocol stream).joinIf true).done = true := by
    rw [joinIf_done, stopStreamWorker_done]
  dsimp only
  split_ifs with valid
  · exact ⟨stopped.teardown marked (by omega), joinIf_threadCreated true _,
      show (-1 : Int) < 0 by decide⟩
  · exact ⟨stopped, joinIf_threadCreated true _, by omega⟩

theorem Sound.cleaned {view : View} (sound : Sound view) (protocol : Protocol) :
    Torn (view.cleaned protocol) := by
  have each : ∀ stream ∈ (view.cleaned protocol).streams,
      stream.Good ∧ stream.threadCreated = false ∧ stream.socket < 0 := by
    intro stream listed
    obtain ⟨before, present, rfl⟩ := List.mem_map.mp listed
    exact (sound.good before present).cleaned protocol
  exact ⟨fun stream listed => (each stream listed).1, fun stream listed => (each stream listed).2.1,
    fun stream listed => (each stream listed).2.2, sound.early, sound.gone, sound.spins, rfl,
    show (-1 : Int) < 0 by decide, (min_le_right _ _).trans_lt (by decide), sound.spoken⟩

/-- Behind a cleanup the run can go on, unless it is still creating streams. -/
theorem Torn.sound {view : View} (torn : Torn view) (state : view.state ≠ CREATE_STREAMS) :
    Sound view where
  good := torn.good
  early := torn.early
  gone := torn.gone
  spins := torn.spins
  watched := fun set => absurd set (by simp [torn.timer])
  creating := fun creating => absurd creating state
  attached := by
    rintro (client | listening)
    · exact absurd client (not_le.mpr torn.ctrlSck)
    · exact absurd listening (not_le.mpr torn.listener)
  spoken := torn.spoken

/-! ### The watchdog -/

/-- A stream that `server_timer_proc` frees. -/
theorem Stream.Good.freed (good : stream.Good) (valid : 0 ≤ stream.socket) (protocol : Protocol)
    (cancelled : Bool) :
    (((stopStreamWorker protocol stream).joinIf cancelled).teardown .serverTimerProc).Gone
      (cancelled = false) := by
  have stopped := good.stopped protocol
  have socket : ((stopStreamWorker protocol stream).joinIf cancelled).socket = stream.socket := by
    rw [joinIf_socket, stopStreamWorker_socket]
  have touched := joinIf_touched cancelled (stopStreamWorker protocol stream)
  refine ⟨?_, ?_, ?_⟩
  · intro live
    cases cancelled with
    | true =>
        -- A worker that was cancelled is joined, and there is none without `thread_created`.
        have dead : ((stopStreamWorker protocol stream).joinIf true).live = false := by
          have worker := stopped.joined.worker
          rw [worker, joinIf_threadCreated]
        exact absurd (dead.symm.trans live) (by decide)
    | false => rfl
  · refine closeBy_order ?_ _
    rw [touched]
    exact stopped.order
  · have before := stopped.tornDown
    rw [stopStreamWorker_socket, if_pos valid] at before
    rw [Stream.teardown, Stream.closeBy]
    dsimp only
    rw [socket, if_pos valid, List.countP_append, touched, before]
    rfl

/-- What `server_timer_proc` makes of a view, with the question that cancels the workers. -/
def View.emptied (protocol : Protocol) (number : Nat) (view : View) : View :=
  let stopped := view.streams.mapIdx fun index stream =>
    (stopStreamWorker protocol stream).joinIf (view.system.cancels number index)
  { view with
    streams := []
    freed := view.freed ++ stopped.map (Stream.teardown .serverTimerProc)
    cancelling := some number
    spinning := view.spinning || stopped.any (·.socket = -1)
    ctrlSck := -1 }

theorem expireStreams_view (run : Run) :
    (expireStreams run).2.view =
      run.view.emptied run.parameters.test.protocol run.tick :=
  rfl

/-- The watchdog frees every stream, and its loop over the streams ends. -/
theorem Sound.emptied {view : View} (sound : Sound view) (client : 0 ≤ view.ctrlSck)
    (timer : view.timer = false) (state : view.state ≠ CREATE_STREAMS) (events : view.events ≠ [])
    (none : view.freed = []) (protocol : Protocol) (number : Nat) :
    Sound (view.emptied protocol number) := by
  have valid := sound.attached (.inl client)
  refine ⟨by simp [View.emptied], fun never => absurd never events, ?_, ?_,
    fun set => absurd (timer.symm.trans set) (by decide), fun creating => absurd creating state, ?_,
    sound.spoken⟩
  · intro index stream found
    rw [View.emptied] at found
    simp only [none, List.nil_append, List.getElem?_map, List.getElem?_mapIdx, Option.map_map] at found
    obtain ⟨before, present, rfl⟩ := Option.map_eq_some_iff.mp found
    have listed := List.mem_of_getElem? present
    have gone := (sound.good before listed).freed (valid before listed) protocol
      (view.system.cancels number index)
    exact { gone with worker := fun live => ⟨number, rfl, gone.worker live⟩ }
  · rw [View.emptied]
    dsimp only
    rw [sound.spins, Bool.false_or, List.any_eq_false]
    intro middle present
    obtain ⟨index, inside, rfl⟩ := List.mem_mapIdx.mp present
    have socket := valid _ (List.getElem_mem inside)
    rw [Stream.joinIf_socket, stopStreamWorker_socket, decide_eq_true_eq]
    omega
  · intro _ stream listed
    simp [View.emptied] at listed

end IperfSwift.Server
