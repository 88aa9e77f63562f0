import IperfSwift.Client.Engine

/-!
Contract: the local ports of a client's streams, before a run and in it.

Owns: `iperf_create_streams` as far as ports are concerned, the branch of
`iperf_handle_message_client` that calls it, and that the check of the client
port allows exactly the runs whose ports are all valid.

Does not own: what `connect` does with a port, and the congestion algorithm,
which this build does not set.
-/

set_option autoImplicit false

namespace IperfSwift.Client

open IperfSwift.Udp (Mode narrow maxStreams)
open IperfSwift.Params (Platform)

variable {engine : Engine} {clientPort : Int} {platform : Platform}
  {configuration : IperfConfiguration}

/-! ### Creating streams -/

/-- Whether `connect` makes a connection, and `iperf_new_stream` a stream. -/
structure StreamReply where
  connected : Bool
  created : Bool
deriving DecidableEq, Repr

/-- One stream: the port `connect` is given, and `test->bind_port` behind it. -/
structure Bound where
  port : Int
  bindPort : Int
deriving DecidableEq, Repr

/-- A code to return, the test, and the streams up to the first failure. -/
structure Creation where
  code : Int
  engine : Engine
  bound : List Bound

/-- The port of a stream, in `test->bind_port`. -/
def bindStream (origBindPort sender : Int) (i : Nat) (engine : Engine) : Engine :=
  let engine := { engine with bindPort := origBindPort }
  if origBindPort ≠ 0 then
    let engine := { engine with bindPort := narrow (engine.bindPort + i) }
    if sender = 0 ∧ engine.test.mode = .BIDIRECTIONAL then
      { engine with bindPort := narrow (engine.bindPort + engine.test.numStreams) }
    else engine
  else engine

/-- The loop of `iperf_create_streams`. Once there are no more replies everything succeeds. -/
def createLoop (origBindPort sender : Int) : Nat → Nat → List StreamReply → Engine → Creation
  | 0, _, _, engine => ⟨0, engine, []⟩
  | remaining + 1, i, replies, engine =>
      let connecting := bindStream origBindPort sender i engine
      let restored := { connecting with bindPort := origBindPort }
      let bound : Bound := ⟨connecting.bindPort, restored.bindPort⟩
      let reply := replies.headD ⟨true, true⟩
      if reply.connected && reply.created then
        let rest := createLoop origBindPort sender remaining (i + 1) replies.tail restored
        { rest with bound := bound :: rest.bound }
      else ⟨-1, restored, [bound]⟩

def iperfCreateStreams (sender : Int) (replies : List StreamReply) (engine : Engine) : Creation :=
  createLoop engine.bindPort sender engine.test.numStreams.toNat 0 replies engine

/-- `CREATE_STREAMS`: both directions, or the one of `test->mode`. -/
def createAllStreams (replies further : List StreamReply) (engine : Engine) : Creation :=
  match engine.test.mode with
  | .BIDIRECTIONAL =>
      let sending := iperfCreateStreams 1 replies engine
      if sending.code < 0 then sending
      else
        let receiving := iperfCreateStreams 0 further sending.engine
        { receiving with bound := sending.bound ++ receiving.bound }
  | .SENDER => iperfCreateStreams 1 replies engine
  | .RECEIVER => iperfCreateStreams 0 replies engine

/-! ### The ports in a row -/

/-- The port of a stream. -/
def streamPort (sender : Int) (engine : Engine) (i : Nat) : Int :=
  if engine.bindPort = 0 then 0
  else if sender = 0 ∧ engine.test.mode = .BIDIRECTIONAL then
    narrow (narrow (engine.bindPort + i) + engine.test.numStreams)
  else narrow (engine.bindPort + i)

theorem bindStream_eq (sender : Int) (i : Nat) (engine : Engine) :
    bindStream engine.bindPort sender i engine =
      { engine with bindPort := streamPort sender engine i } := by
  rw [bindStream, streamPort]
  split_ifs <;> simp_all

/-- The streams are those of a first part of the loop, and the port is restored. -/
theorem createLoop_restores (sender : Int) (engine : Engine) (remaining i : Nat)
    (replies : List StreamReply) :
    (createLoop engine.bindPort sender remaining i replies engine).engine = engine ∧
      (createLoop engine.bindPort sender remaining i replies engine).bound <+:
        (List.range' i remaining).map fun k => ⟨streamPort sender engine k, engine.bindPort⟩ := by
  induction remaining generalizing i replies with
  | zero => exact ⟨rfl, List.prefix_rfl⟩
  | succ remaining inductionHypothesis =>
      rw [createLoop, bindStream_eq, List.range'_succ, List.map_cons]
      dsimp only
      split_ifs
      · obtain ⟨same, streams⟩ := inductionHypothesis (i + 1) replies.tail
        exact ⟨same, List.cons_prefix_cons.mpr ⟨rfl, streams⟩⟩
      · exact ⟨rfl, List.cons_prefix_cons.mpr ⟨rfl, List.nil_prefix⟩⟩

/-- Without a failure there are all streams. -/
theorem createLoop_succeeds (sender : Int) (engine : Engine) (remaining i : Nat) :
    createLoop engine.bindPort sender remaining i [] engine =
      ⟨0, engine, (List.range' i remaining).map fun k =>
        ⟨streamPort sender engine k, engine.bindPort⟩⟩ := by
  induction remaining generalizing i with
  | zero => rfl
  | succ remaining inductionHypothesis =>
      rw [createLoop, bindStream_eq, List.range'_succ, List.map_cons]
      dsimp only [List.headD, List.tail]
      rw [inductionHypothesis]
      rfl

/-- The ports of a whole run. -/
def localPorts (engine : Engine) : List Int :=
  (createAllStreams [] [] engine).bound.map Bound.port

/-- Whatever fails, every stream leaves the configured port behind. -/
theorem createAllStreams_restores (replies further : List StreamReply) (engine : Engine) :
    (createAllStreams replies further engine).engine = engine ∧
      ∀ bound ∈ (createAllStreams replies further engine).bound,
        bound.bindPort = engine.bindPort := by
  have each (sender : Int) (answers : List StreamReply) :
      (iperfCreateStreams sender answers engine).engine = engine ∧
        ∀ bound ∈ (iperfCreateStreams sender answers engine).bound,
          bound.bindPort = engine.bindPort := by
    obtain ⟨same, streams⟩ :=
      createLoop_restores sender engine engine.test.numStreams.toNat 0 answers
    refine ⟨same, fun bound created => ?_⟩
    obtain ⟨_, _, rfl⟩ := List.mem_map.mp (streams.subset created)
    rfl
  rw [createAllStreams]
  cases engine.test.mode with
  | SENDER => exact each 1 replies
  | RECEIVER => exact each 0 replies
  | BIDIRECTIONAL =>
      dsimp only
      split_ifs
      · exact each 1 replies
      · rw [(each 1 replies).1]
        refine ⟨(each 0 further).1, fun bound created => ?_⟩
        rcases List.mem_append.mp created with sending | receiving
        · exact (each 1 replies).2 bound sending
        · exact (each 0 further).2 bound receiving

theorem iperfCreateStreams_succeeds (sender : Int) (engine : Engine) :
    iperfCreateStreams sender [] engine =
      ⟨0, engine, (List.range engine.test.numStreams.toNat).map fun k =>
        ⟨streamPort sender engine k, engine.bindPort⟩⟩ := by
  rw [iperfCreateStreams, createLoop_succeeds, List.range_eq_range']

/-- `directionCount`. -/
def directionCount (mode : Mode) : Nat := if mode = .BIDIRECTIONAL then 2 else 1

theorem narrow_eq {value : Int} (low : -2 ^ 31 ≤ value) (high : value < 2 ^ 31) :
    narrow value = value := by
  rw [narrow]
  exact Int.bmod_eq_of_le (by omega) (by omega)

theorem localPorts_eq (engine : Engine) :
    localPorts engine =
      match engine.test.mode with
      | .BIDIRECTIONAL =>
          (List.range engine.test.numStreams.toNat).map (streamPort 1 engine) ++
            (List.range engine.test.numStreams.toNat).map (streamPort 0 engine)
      | .SENDER => (List.range engine.test.numStreams.toNat).map (streamPort 1 engine)
      | .RECEIVER => (List.range engine.test.numStreams.toNat).map (streamPort 0 engine) := by
  rw [localPorts, createAllStreams]
  simp only [iperfCreateStreams_succeeds]
  cases engine.test.mode <;> simp [Function.comp_def]

/-- The first port is the configured one. -/
theorem bindPort_mem_localPorts (several : 1 ≤ engine.test.numStreams)
    (low : -2 ^ 31 ≤ engine.bindPort) (high : engine.bindPort ≤ maxInt32) :
    engine.bindPort ∈ localPorts engine := by
  have first : 0 ∈ List.range engine.test.numStreams.toNat := List.mem_range.mpr (by omega)
  have port {sender : Int} (plain : ¬ (sender = 0 ∧ engine.test.mode = .BIDIRECTIONAL)) :
      engine.bindPort ∈ (List.range engine.test.numStreams.toNat).map (streamPort sender engine) := by
    refine List.mem_map.mpr ⟨0, first, ?_⟩
    rw [streamPort, if_neg plain]
    split_ifs with zero
    · exact zero.symm
    · rw [Nat.cast_zero, Int.add_zero]
      exact narrow_eq low (Int.lt_of_le_sub_one high)
  rw [localPorts_eq]
  cases mode : engine.test.mode with
  | SENDER => exact port (by simp)
  | RECEIVER => exact port (by simp [mode])
  | BIDIRECTIONAL => exact List.mem_append_left _ (port (by simp))

/-- From a valid port on, the ports are one after the other, through both directions. -/
theorem localPorts_consecutive (several : 1 ≤ engine.test.numStreams)
    (few : engine.test.numStreams ≤ maxStreams) (low : 1 ≤ engine.bindPort)
    (high : engine.bindPort ≤ maxPort) :
    localPorts engine =
      (List.range (engine.test.numStreams.toNat * directionCount engine.test.mode)).map
        fun k : Nat => engine.bindPort + k := by
  rw [maxStreams] at few
  rw [maxPort] at high
  have plain {sender : Int} (plain : ¬ (sender = 0 ∧ engine.test.mode = .BIDIRECTIONAL)) :
      (List.range engine.test.numStreams.toNat).map (streamPort sender engine) =
        (List.range engine.test.numStreams.toNat).map fun k : Nat => engine.bindPort + k := by
    refine List.map_congr_left fun k below => ?_
    rw [List.mem_range] at below
    rw [streamPort, if_neg (by omega), if_neg plain]
    exact narrow_eq (by omega) (by omega)
  rw [localPorts_eq, directionCount]
  cases mode : engine.test.mode with
  | SENDER =>
      rw [if_neg (by simp), Nat.mul_one]
      exact plain (by simp)
  | RECEIVER =>
      rw [if_neg (by simp), Nat.mul_one]
      exact plain (by simp [mode])
  | BIDIRECTIONAL =>
      rw [if_pos rfl, Nat.mul_two, List.range_add, List.map_append, List.map_map]
      refine congrArg₂ (· ++ ·) (plain (by simp)) (List.map_congr_left fun k below => ?_)
      rw [List.mem_range] at below
      have inner : narrow (engine.bindPort + k) = engine.bindPort + k :=
        narrow_eq (by omega) (by omega)
      rw [streamPort, if_neg (by omega), if_pos ⟨rfl, mode⟩, inner,
        narrow_eq (by omega) (by omega), Function.comp_apply]
      push_cast
      omega

/-! ### The check -/

/-- `test->mode` of a client. -/
def IperfTestMode.engineMode : IperfTestMode → Mode
  | .upload => .SENDER
  | .download => .RECEIVER
  | .bidirectional => .BIDIRECTIONAL

theorem clientPortError_eq_none_iff {numStreams : Int} {mode : IperfTestMode}
    (several : 1 ≤ numStreams) (few : numStreams ≤ maxStreams) :
    clientPortError (some clientPort) numStreams mode = none ↔
      1 ≤ clientPort ∧ clientPort ≤ maxPort ∧
        clientPort + numStreams * directionCount mode.engineMode - 1 ≤ maxPort := by
  have directions : (if mode = .bidirectional then 2 else 1 : Int) =
      directionCount mode.engineMode := by
    cases mode <;> rfl
  have two : (directionCount mode.engineMode : Int) = 1 ∨
      (directionCount mode.engineMode : Int) = 2 := by
    cases mode <;> decide
  have inside : contains 1 maxPort clientPort = false ↔ ¬ (1 ≤ clientPort ∧ clientPort ≤ maxPort) := by
    simp [contains]
  have total : 1 ≤ numStreams * directionCount mode.engineMode ∧
      numStreams * directionCount mode.engineMode ≤ 256 := by
    rw [maxStreams] at few
    rcases two with one | two
    · rw [one]
      omega
    · rw [two]
      omega
  rw [clientPortError, directions]
  dsimp only
  rw [if_neg (not_le.mpr several), maxInt]
  split_ifs with outside beyond <;> rw [inside, maxPort] at outside <;> rw [maxPort] at *
  · simp only [false_iff]
    omega
  · simp only [false_iff]
    omega
  · simp only [true_iff]
    omega

/-- The ports of a valid range are valid. -/
theorem localPorts_valid_iff {numStreams : Int} (count : engine.test.numStreams = numStreams)
    (several : 1 ≤ numStreams) (few : numStreams ≤ maxStreams) (low : 1 ≤ engine.bindPort)
    (high : engine.bindPort ≤ maxPort) :
    (∀ port ∈ localPorts engine, 1 ≤ port ∧ port ≤ maxPort) ↔
      engine.bindPort + numStreams * directionCount engine.test.mode - 1 ≤ maxPort := by
  subst count
  have streams : (engine.test.numStreams.toNat : Int) = engine.test.numStreams :=
    Int.toNat_of_nonneg (by omega)
  have directed : 1 ≤ directionCount engine.test.mode := by
    rw [directionCount]
    split_ifs <;> decide
  have total : 1 ≤ engine.test.numStreams.toNat * directionCount engine.test.mode :=
    Nat.mul_pos (by omega) directed
  rw [localPorts_consecutive several few low high]
  constructor
  · intro valid
    have last := (valid _ (List.mem_map.mpr ⟨_, List.mem_range.mpr (Nat.sub_one_lt_of_lt total),
      rfl⟩)).2
    push_cast [total, streams] at last
    omega
  · intro fits port used
    obtain ⟨k, below, rfl⟩ := List.mem_map.mp used
    rw [List.mem_range, ← Int.ofNat_lt] at below
    push_cast [streams] at below
    omega

theorem localPorts_nodup (several : 1 ≤ engine.test.numStreams)
    (few : engine.test.numStreams ≤ maxStreams) (low : 1 ≤ engine.bindPort)
    (high : engine.bindPort ≤ maxPort) : (localPorts engine).Nodup := by
  rw [localPorts_consecutive several few low high]
  refine List.Nodup.map (fun first second same => ?_) List.nodup_range
  simpa using same

/-! ### From the configuration to the ports -/

theorem applyMode_mode {mode : IperfTestMode} (client : engine.role = some .client) :
    (applyMode platform mode engine).test.mode = mode.engineMode := by
  cases mode
  · simp [applyMode, setTestReverse, setTestBidirectional, Engine.checkRetransmits, directedMode,
      client, IperfTestMode.engineMode]
  · simp [applyMode, setTestReverse, setTestBidirectional, Engine.checkRetransmits, directedMode,
      client, IperfTestMode.engineMode]
  · simp [applyMode, setTestReverse, setTestBidirectional, Engine.checkRetransmits, directedMode,
      client, IperfTestMode.engineMode]

theorem applyClient_ports {after : Engine} (client : engine.role = some .client)
    (given : configuration.clientPort = some clientPort)
    (applied : applyClient platform configuration engine = some after) :
    after.bindPort = clampedInt32 clientPort ∧
      after.test.numStreams = configuration.numStreams ∧
      after.test.mode = configuration.mode.engineMode := by
  rw [applyClient] at applied
  simp only [Option.bind_eq_bind, Option.bind_eq_some_iff] at applied
  obtain ⟨numStreams, fits, blksize, _, socketBufsize, _, mss, _, seconds, _, connectTimeout, _,
    tos, _, same⟩ := applied
  have count : configuration.numStreams = numStreams := by
    rw [exactInt32] at fits
    split_ifs at fits
    exact Option.some.inj fits
  cases same
  refine ⟨?_, count.symm, applyMode_mode client⟩
  rw [given]
  rfl

theorem applyLimit_role {limited : Engine}
    (passed : applyLimit configuration engine = .ok limited) : limited.role = engine.role := by
  rw [applyLimit] at passed
  cases limit : configuration.serverOutputByteLimit with
  | none =>
      rw [limit] at passed
      cases passed
      rfl
  | some bytes =>
      rw [limit] at passed
      dsimp only [setTestServerOutputByteLimit] at passed
      split_ifs at passed
      cases passed
      rfl

/-- What the ports of an applied client configuration depend on. -/
theorem applyConfiguration_ports (client : configuration.role = .client)
    (given : configuration.clientPort = some clientPort)
    (applied : applyConfiguration platform configuration = some (.ok engine)) :
    engine.bindPort = clampedInt32 clientPort ∧
      engine.test.numStreams = configuration.numStreams ∧
      engine.test.mode = configuration.mode.engineMode := by
  rw [applyConfiguration] at applied
  cases limited : applyLimit configuration (applyGeneral platform configuration iperfDefaults) with
  | error error =>
      rw [limited] at applied
      cases applied
  | ok general =>
      have role : general.role = some .client := by
        rw [applyLimit_role limited, ← client]
        rfl
      rw [limited, Option.map_eq_some_iff] at applied
      obtain ⟨after, applied, same⟩ := applied
      cases same
      rw [applyRole, client] at applied
      simp only [Option.bind_eq_bind, Option.bind_eq_some_iff] at applied
      obtain ⟨rcvTimeout, _, before, applied, same⟩ := applied
      have ports := applyClient_ports (by exact role) given applied
      cases same
      exact ports

/-- The check of the client port before a run, and the run itself: the check passes if and only
if every port is valid; then no port comes twice, and whatever fails, every stream leaves the
configured port behind. -/
theorem clientPortError_localPorts (platform : Platform) (configuration : IperfConfiguration)
    (engine : Engine) (clientPort : Int) (client : configuration.role = .client)
    (given : configuration.clientPort = some clientPort)
    (several : 1 ≤ configuration.numStreams) (few : configuration.numStreams ≤ maxStreams)
    (applied : applyConfiguration platform configuration = some (.ok engine)) :
    (clientPortError configuration.clientPort configuration.numStreams configuration.mode = none ↔
      ∀ port ∈ localPorts engine, 1 ≤ port ∧ port ≤ maxPort) ∧
    (clientPortError configuration.clientPort configuration.numStreams configuration.mode = none →
      (localPorts engine).Nodup) ∧
    ∀ replies further,
      (∀ bound ∈ (createAllStreams replies further engine).bound,
        bound.bindPort = clampedInt32 clientPort) ∧
      (createAllStreams replies further engine).engine.bindPort = clampedInt32 clientPort := by
  obtain ⟨bindPort, count, mode⟩ := applyConfiguration_ports client given applied
  rw [← count] at several few
  have clamped : -2 ^ 31 ≤ engine.bindPort ∧ engine.bindPort ≤ maxInt32 := by
    rw [bindPort, clampedInt32, maxInt32]
    omega
  have valid : 1 ≤ clientPort ∧ clientPort ≤ maxPort → engine.bindPort = clientPort := by
    rintro ⟨low, high⟩
    rw [maxPort] at high
    rw [bindPort, clampedInt32, maxInt32]
    omega
  have invalid : 1 ≤ engine.bindPort ∧ engine.bindPort ≤ maxPort →
      1 ≤ clientPort ∧ clientPort ≤ maxPort := by
    rw [bindPort, clampedInt32, maxInt32, maxPort]
    omega
  rw [given, ← count, clientPortError_eq_none_iff several few, ← mode]
  refine ⟨⟨?_, ?_⟩, ?_, ?_⟩
  · rintro ⟨low, high, fits⟩
    have same := valid ⟨low, high⟩
    rw [← same] at low high fits
    exact (localPorts_valid_iff rfl several few low high).mpr fits
  · intro ports
    obtain ⟨low, high⟩ := ports _ (bindPort_mem_localPorts several clamped.1 clamped.2)
    obtain ⟨low', high'⟩ := invalid ⟨low, high⟩
    refine ⟨low', high', ?_⟩
    rw [← valid ⟨low', high'⟩]
    exact (localPorts_valid_iff rfl several few low high).mp ports
  · rintro ⟨low, high, _⟩
    have same := valid ⟨low, high⟩
    rw [← same] at low high
    exact localPorts_nodup several few low high
  · intro replies further
    obtain ⟨same, each⟩ := createAllStreams_restores replies further engine
    rw [← bindPort, same]
    exact ⟨each, rfl⟩

/-- Two streams in each direction, up to the last port. -/
def lastPorts : IperfConfiguration :=
  { numStreams := 2, mode := .bidirectional, clientPort := some 65532 }

theorem localPorts_of_lastPorts :
    ∃ engine, applyConfiguration Params.applePlatform lastPorts = some (.ok engine) ∧
      localPorts engine = [65532, 65533, 65534, 65535] ∧ (localPorts engine).Nodup ∧
      (createAllStreams [⟨true, true⟩, ⟨false, true⟩] [] engine).engine.bindPort = 65532 := by
  refine ⟨_, rfl, by decide, ?_⟩
  have ports := clientPortError_localPorts Params.applePlatform lastPorts _ 65532 rfl rfl
    (by decide) (by decide) rfl
  exact ⟨ports.2.1 (by decide), (ports.2.2 _ _).2⟩

end IperfSwift.Client
