import IperfSwift.CJson.Item
import IperfSwift.Params.Acceptance

/-!
Contract: a persistent server between two clients.

Owns: everything of `struct iperf_test` that `get_parameters` can write, the texts
and the retransmit flag included; `iperf_reset_test` on it; the server as
`iperf_defaults` and the configuration leave it; and what of an earlier client is
still there when the next document has been read.

Does not own: what a test does with the settings.
-/

set_option autoImplicit false

namespace IperfSwift.Params

open IperfSwift.Lib IperfSwift.CJson IperfSwift.Udp

variable {j : Node Int}

/-! ### Constants -/

def OMIT : Int := 0
def DURATION : Int := 10
def defaultTcpBlksize : Int := 128 * 1024
def defaultPacingTimer : Int := 1000
def gsoBfMaxSize : Int := maxUdpBlocksize
def groBfMaxSize : Int := maxUdpBlocksize

/-! ### State -/

/-- The texts that `get_parameters` copies. -/
structure Texts where
  title : Option (List Byte)
  extraData : Option (List Byte)
  congestion : Option (List Byte)
  congestionUsed : Option (List Byte)
  authtoken : Option (List Byte)
deriving DecidableEq, Repr

structure Server where
  test : Test
  texts : Texts
  senderHasRetransmits : Int
  serverOutputByteLimit : Nat
deriving DecidableEq, Repr

/-- What the functions of the platform answer. -/
structure Platform where
  hasSendfile : Bool
  hasTcpinfoRetransmits : Bool
deriving DecidableEq, Repr

/-- The settings that no document changes. -/
structure ServerConfiguration where
  maxServerDuration : Int
  bitrateLimit : UInt64
  diskfileName : Bool
  serverOutputByteLimit : Nat
deriving DecidableEq, Repr

def Server.configuration (server : Server) : ServerConfiguration :=
  { maxServerDuration := server.test.maxServerDuration
    bitrateLimit := server.test.settings.bitrateLimit
    diskfileName := server.test.diskfileName
    serverOutputByteLimit := server.serverOutputByteLimit }

/-! ### `get_parameters` with its texts -/

/-- `iperf_cJSON_GetObjectItemType` for `cJSON_String`, and `strdup` of the item. -/
def getString (j : Node Int) (name : String) : Option (List Byte) :=
  match cJSONGetObjectItem j (bytesOf name) with
  | some (.string bytes) => some (cString bytes)
  | _ => none

def readTexts (j : Node Int) (texts : Texts) : Texts :=
  { title := (getString j "title").or texts.title
    extraData := (getString j "extra_data").or texts.extraData
    congestion := (getString j "congestion").or texts.congestion
    congestionUsed := (getString j "congestion_used").or texts.congestionUsed
    authtoken := (getString j "authtoken").or texts.authtoken }

/-- `check_sender_has_retransmits`. -/
def checkSenderHasRetransmits (platform : Platform) (mode : Mode) (protocol : Protocol) : Int :=
  if mode ≠ .RECEIVER ∧ protocol = .Ptcp ∧ platform.hasTcpinfoRetransmits then 1 else 0

/-- `set_protocol` and `iperf_set_test_reverse` set the flag anew, and it is set once more
when all fields are read. -/
def readRetransmits (j : Node Int) (platform : Platform) (before after : Test) (old : Int) : Int :=
  let flag :=
    if hasBool j "tcp" then checkSenderHasRetransmits platform before.mode .Ptcp else old
  let flag :=
    if hasBool j "udp" ∧ ¬ before.diskfileName then
      checkSenderHasRetransmits platform before.mode .Pudp
    else flag
  let protocol := (readProtocol j ⟨0, none, before⟩).test.protocol
  let flag :=
    if hasBool j "reverse" then checkSenderHasRetransmits platform .SENDER protocol else flag
  if after.mode ≠ .RECEIVER ∧ after.protocol = .Ptcp ∧ platform.hasTcpinfoRetransmits then 1
  else flag

structure Received where
  r : Int
  error : Option Errno
  server : Server
deriving DecidableEq, Repr

/-- `get_parameters`. -/
def receiveParameters (j : Option (Node Int)) (platform : Platform) (server : Server) : Received :=
  let reading := getParameters j platform.hasSendfile server.test
  { r := reading.r
    error := reading.error
    server :=
      { server with
        test := reading.test
        texts := j.elim server.texts fun j => readTexts j server.texts
        senderHasRetransmits :=
          j.elim server.senderHasRetransmits fun j =>
            readRetransmits j platform server.test reading.test server.senderHasRetransmits } }

/-! ### Fresh and reset servers -/

/-- `iperf_new_test`, `iperf_defaults` and the configuration of a server. -/
def freshServer (configuration : ServerConfiguration) : Server :=
  { test :=
      { protocol := .Ptcp
        mode := .RECEIVER
        omitTime := OMIT
        duration := DURATION
        maxServerDuration := configuration.maxServerDuration
        serverAffinity := -1
        diskfileName := configuration.diskfileName
        noDelay := 0
        numStreams := 1
        reverse := 0
        bidirectional := 0
        getServerOutput := 0
        udpCounters64bit := 0
        repeatingPayload := 0
        zerocopy := 0
        settings :=
          { socketBufsize := 0
            blksize := defaultTcpBlksize
            rate := 0
            bitrateLimit := configuration.bitrateLimit
            fqrate := 0
            pacingTimer := defaultPacingTimer
            burst := 0
            mss := 0
            tos := 0
            bytes := 0
            blocks := 0
            dontFragment := 0
            skipRxCopy := 0
            gso := 0
            gsoDgSize := 0
            gsoBfSize := gsoBfMaxSize
            gro := 0
            groBfSize := groBfMaxSize } }
    texts := ⟨none, none, none, none, none⟩
    senderHasRetransmits := 0
    serverOutputByteLimit := configuration.serverOutputByteLimit }

/-- `iperf_reset_test`. -/
def iperfResetTest (server : Server) : Server :=
  { server with
    test :=
      { server.test with
        getServerOutput :=
          if server.serverOutputByteLimit ≠ 0 then 0 else server.test.getServerOutput
        mode := .RECEIVER
        protocol := .Ptcp
        omitTime := OMIT
        duration := DURATION
        serverAffinity := -1
        reverse := 0
        bidirectional := 0
        noDelay := 0
        numStreams := 1
        zerocopy := 0
        udpCounters64bit := 0
        settings :=
          { server.test.settings with
            socketBufsize := 0
            blksize := defaultTcpBlksize
            rate := 0
            fqrate := 0
            burst := 0
            mss := 0
            tos := 0
            gsoDgSize := 0
            gsoBfSize := gsoBfMaxSize
            groBfSize := groBfMaxSize
            dontFragment := 0
            skipRxCopy := 0 } }
    texts :=
      { server.texts with
        congestion := none
        authtoken := none
        title := none
        extraData := none }
    senderHasRetransmits := 0 }

/-! ### What is carried over -/

/-- Every field that the reset leaves alone is written by the document, or has the value of a
fresh server. -/
structure Independent (j : Node Int) (server : Server) : Prop where
  gso : (getNumber j "gso").isSome = true ∨ server.test.settings.gso = 0
  gro : (getNumber j "gro").isSome = true ∨ server.test.settings.gro = 0
  pacingTimer : (getNumber j "pacing_timer").isSome = true ∨
    server.test.settings.pacingTimer = defaultPacingTimer
  congestionUsed : (getString j "congestion_used").isSome = true ∨
    server.texts.congestionUsed = none
  repeatingPayload : (getNumber j "repeating_payload").isSome = true ∨
    server.test.repeatingPayload = 0
  getServerOutput : server.serverOutputByteLimit ≠ 0 ∨
    (getNumber j "get_server_output").isSome = true ∨ server.test.getServerOutput = 0

theorem valueOr_eq_iff {name : String} {old new : Int} :
    valueOr j name old = valueOr j name new ↔ (getNumber j name).isSome = true ∨ old = new := by
  rw [valueOr, valueOr]
  cases getNumber j name <;> simp

theorem flagOr_eq_iff {name : String} {old new : Int} :
    flagOr j name old = flagOr j name new ↔ (getNumber j name).isSome = true ∨ old = new := by
  rw [flagOr, flagOr]
  cases (getNumber j name).isSome <;> simp

theorem or_eq_none_iff {found old : Option (List Byte)} :
    found.or old = found.or none ↔ found.isSome = true ∨ old = none := by
  cases found <;> simp

variable {server : Server}

/-- Whether the reset server accepts the document does not depend on earlier clients. -/
theorem accepts_reset_iff {hasSendfile : Bool} :
    Accepts j hasSendfile (iperfResetTest server).test ↔
      Accepts j hasSendfile (freshServer server.configuration).test := by
  rw [accepts_iff, accepts_iff]
  exact Iff.rfl

/-- The fields other than `gso` that the reset leaves alone. -/
def withLeft (test : Test) (gro pacingTimer repeatingPayload getServerOutput : Int) : Test :=
  { test with
    repeatingPayload := repeatingPayload
    getServerOutput := getServerOutput
    settings := { test.settings with gro := gro, pacingTimer := pacingTimer } }

/-- The derived segment sizes as a function of what they are derived from. -/
def derivedSizes (protocol : Protocol) (gso gsoDgSize gsoBfSize blksize : Int) : Int × Int :=
  if protocol = .Pudp ∧ gso = 1 ∧ gsoDgSize = 0 then
    if 0 < blksize then (blksize, gsoBfSize.tdiv blksize * blksize)
    else (defaultUdpBlksize, gsoBfSize)
  else (gsoDgSize, gsoBfSize)

theorem deriveSegmentSize_eq (test : Test) :
    deriveSegmentSize test =
      let sizes := derivedSizes test.protocol test.settings.gso test.settings.gsoDgSize
        test.settings.gsoBfSize test.settings.blksize
      withSegments test sizes.1 sizes.2 := by
  rw [deriveSegmentSize, derivedSizes]
  split_ifs <;> rfl

theorem deriveSegmentSize_withLeft (test : Test)
    (gro pacingTimer repeatingPayload getServerOutput : Int) :
    deriveSegmentSize (withLeft test gro pacingTimer repeatingPayload getServerOutput) =
      withLeft (deriveSegmentSize test) gro pacingTimer repeatingPayload getServerOutput := by
  rw [deriveSegmentSize_eq, deriveSegmentSize_eq]
  rfl

/-- What is left of an earlier client does not show when the document writes it. -/
theorem storeRest_withLeft {test : Test} {gro pacingTimer repeatingPayload getServerOutput : Int}
    (sameGro : valueOr j "gro" gro = valueOr j "gro" test.settings.gro)
    (samePacing : valueOr j "pacing_timer" pacingTimer =
      valueOr j "pacing_timer" test.settings.pacingTimer)
    (samePayload : flagOr j "repeating_payload" repeatingPayload =
      flagOr j "repeating_payload" test.repeatingPayload)
    (sameOutput : flagOr j "get_server_output" getServerOutput =
      flagOr j "get_server_output" test.getServerOutput) :
    storeRest j (withLeft test gro pacingTimer repeatingPayload getServerOutput) =
      storeRest j test := by
  simp only [storeRest, storeFlags, storePacing, withLeft, sameGro, samePacing, samePayload,
    sameOutput]

/-- A document that writes whatever is left finds a server as good as fresh. -/
theorem store_reset_of_independent (independent : Independent j server) :
    store j (iperfResetTest server).test = store j (freshServer server.configuration).test := by
  have gso : valueOr j "gso" server.test.settings.gso = valueOr j "gso" 0 :=
    valueOr_eq_iff.mpr independent.gso
  have first : storeFirst j (iperfResetTest server).test =
      withLeft (storeFirst j (freshServer server.configuration).test)
        server.test.settings.gro server.test.settings.pacingTimer server.test.repeatingPayload
        (iperfResetTest server).test.getServerOutput := by
    simp only [storeFirst, storeSegments, storeStreams, storeAmounts, storeTimes, withLeft,
      iperfResetTest, freshServer, gso, Server.configuration]
  have derived := deriveSegmentSize_same (storeFirst j (freshServer server.configuration).test)
  rw [store_eq, store_eq, first, deriveSegmentSize_withLeft]
  obtain ⟨_, _, derived⟩ := derived
  apply storeRest_withLeft <;> rw [derived]
  · exact valueOr_eq_iff.mpr independent.gro
  · exact valueOr_eq_iff.mpr independent.pacingTimer
  · exact flagOr_eq_iff.mpr independent.repeatingPayload
  · rw [flagOr_eq_iff]
    rcases independent.getServerOutput with limited | written | zero
    · exact .inr (if_pos limited)
    · exact .inl written
    · refine .inr ?_
      simp [iperfResetTest, zero, withSegments, storeFirst, storeSegments, storeStreams,
        storeAmounts, storeTimes, freshServer]

/-- A field of the accepted test, whatever the segment sizes are. -/
theorem receiveParameters_plain {platform : Platform}
    (accepts : Accepts j platform.hasSendfile server.test) :
    SameButSegments (plain j server.test)
      (receiveParameters (some j) platform server).server.test := by
  rw [show (receiveParameters (some j) platform server).server.test =
    (getParameters (some j) platform.hasSendfile server.test).test from rfl,
    (reads_getParameters j platform.hasSendfile server.test).2 accepts]
  exact plain_same j server.test

/-- The retransmit flag does not depend on earlier clients. -/
theorem readRetransmits_reset {j : Node Int} {server : Server} (platform : Platform)
    (file : hasBool j "udp" = true → server.test.diskfileName = false) (after : Test) :
    readRetransmits j platform (iperfResetTest server).test after
        (iperfResetTest server).senderHasRetransmits =
      readRetransmits j platform (freshServer server.configuration).test after
        (freshServer server.configuration).senderHasRetransmits := by
  have protocol := congrArg Test.protocol
    ((reads_protocol j).test ⟨0, none, (iperfResetTest server).test⟩ file)
  have protocolFresh := congrArg Test.protocol
    ((reads_protocol j).test ⟨0, none, (freshServer server.configuration).test⟩ file)
  rw [readRetransmits, readRetransmits, protocol, protocolFresh]
  rfl

section Next

variable {j : Node Int} {platform : Platform} {server : Server}

/-- The fields of the test and the one text tell whether anything is left. -/
theorem independent_of_same (accepts : Accepts j platform.hasSendfile (iperfResetTest server).test)
    (tests : (receiveParameters (some j) platform (iperfResetTest server)).server.test =
      (receiveParameters (some j) platform (freshServer server.configuration)).server.test)
    (congestionUsed : (getString j "congestion_used").or server.texts.congestionUsed =
      (getString j "congestion_used").or none) : Independent j server := by
  have reset := receiveParameters_plain accepts
  rw [tests] at reset
  obtain ⟨_, _, fresh⟩ := receiveParameters_plain (accepts_reset_iff.mp accepts)
  obtain ⟨_, _, reset⟩ := reset
  rw [fresh] at reset
  have gso : valueOr j "gso" 0 = valueOr j "gso" server.test.settings.gso :=
    congrArg (fun test => test.settings.gso) reset
  have gro : valueOr j "gro" 0 = valueOr j "gro" server.test.settings.gro :=
    congrArg (fun test => test.settings.gro) reset
  have pacingTimer : valueOr j "pacing_timer" defaultPacingTimer =
      valueOr j "pacing_timer" server.test.settings.pacingTimer :=
    congrArg (fun test => test.settings.pacingTimer) reset
  have payload : flagOr j "repeating_payload" 0 =
      flagOr j "repeating_payload" server.test.repeatingPayload :=
    congrArg Test.repeatingPayload reset
  have output : flagOr j "get_server_output" 0 = flagOr j "get_server_output"
      (if server.serverOutputByteLimit ≠ 0 then 0 else server.test.getServerOutput) :=
    congrArg Test.getServerOutput reset
  refine ⟨valueOr_eq_iff.mp gso.symm, valueOr_eq_iff.mp gro.symm,
    valueOr_eq_iff.mp pacingTimer.symm, or_eq_none_iff.mp congestionUsed,
    flagOr_eq_iff.mp payload.symm, ?_⟩
  by_cases limited : server.serverOutputByteLimit ≠ 0
  · exact .inl limited
  · rw [if_neg limited] at output
    exact .inr (flagOr_eq_iff.mp output.symm)

theorem received_eq_of_independent
    (accepts : Accepts j platform.hasSendfile (iperfResetTest server).test)
    (independent : Independent j server) :
    (receiveParameters (some j) platform (iperfResetTest server)).server =
      (receiveParameters (some j) platform (freshServer server.configuration)).server := by
  have tests : (receiveParameters (some j) platform (iperfResetTest server)).server.test =
      (receiveParameters (some j) platform (freshServer server.configuration)).server.test := by
    refine ((reads_getParameters j platform.hasSendfile _).2 accepts).trans ?_
    rw [store_reset_of_independent independent]
    exact ((reads_getParameters j platform.hasSendfile _).2 (accepts_reset_iff.mp accepts)).symm
  have texts : readTexts j (iperfResetTest server).texts =
      readTexts j (freshServer server.configuration).texts := by
    have congestionUsed := or_eq_none_iff.mpr independent.congestionUsed
    simp only [readTexts, iperfResetTest, freshServer, congestionUsed]
  have retransmits := @readRetransmits_reset j server platform accepts.file
    (receiveParameters (some j) platform (iperfResetTest server)).server.test
  rw [tests] at retransmits
  simp only [receiveParameters, Option.elim] at tests retransmits ⊢
  rw [tests, texts, retransmits]
  rfl

/-- The next client finds a fresh server if and only if nothing it does not write is left. -/
theorem received_eq_fresh_iff
    (accepted : (receiveParameters (some j) platform (iperfResetTest server)).r = 0) :
    (receiveParameters (some j) platform (iperfResetTest server)).server =
        (receiveParameters (some j) platform (freshServer server.configuration)).server ↔
      Independent j server := by
  have accepts : Accepts j platform.hasSendfile (iperfResetTest server).test :=
    (reads_getParameters j platform.hasSendfile _).1.mp accepted
  exact ⟨fun same => independent_of_same accepts (congrArg Server.test same)
      (congrArg (fun server => server.texts.congestionUsed) same),
    received_eq_of_independent accepts⟩

end Next

/-- Two servers with the same configuration, whatever clients each of them has served: both
are as good as fresh for the next client if and only if nothing is left that it does not write. -/
theorem nothing_carried_iff (j : Node Int) (platform : Platform) (first second : Server)
    (configured : first.configuration = second.configuration)
    (firstAccepts : (receiveParameters (some j) platform (iperfResetTest first)).r = 0)
    (secondAccepts : (receiveParameters (some j) platform (iperfResetTest second)).r = 0) :
    ((receiveParameters (some j) platform (iperfResetTest first)).server =
        (receiveParameters (some j) platform (iperfResetTest second)).server ∧
      (receiveParameters (some j) platform (iperfResetTest first)).server =
        (receiveParameters (some j) platform (freshServer first.configuration)).server) ↔
      Independent j first ∧ Independent j second := by
  rw [← received_eq_fresh_iff firstAccepts, ← received_eq_fresh_iff secondAccepts, ← configured]
  constructor
  · rintro ⟨same, fresh⟩
    exact ⟨fresh, same.symm.trans fresh⟩
  · rintro ⟨fresh, fresh'⟩
    exact ⟨fresh.trans fresh'.symm, fresh⟩

/-- A server without any limit. -/
def plainServer : Server := freshServer ⟨0, 0, false, 0⟩

def applePlatform : Platform := ⟨true, true⟩

/-- `{"tcp": true}`. -/
def tcpDocument : Node Int := .object [(bytesOf "tcp", .bool true)]

/-- `{"tcp": true, "get_server_output": 1, "repeating_payload": 1}`. -/
def payloadDocument : Node Int :=
  .object [(bytesOf "tcp", .bool true), (bytesOf "get_server_output", .number 1),
    (bytesOf "repeating_payload", .number 1)]

/-- The server after a client that asked for a repeating payload and for its output. -/
def payloadServer : Server :=
  (receiveParameters (some payloadDocument) applePlatform plainServer).server

/-- A client that asks for segmentation offload, another pacing timer and an algorithm. -/
def offloadDocument : Node Int :=
  .object [(bytesOf "udp", .bool true), (bytesOf "len", .number 1000), (bytesOf "gso", .number 1),
    (bytesOf "gro", .number 1), (bytesOf "pacing_timer", .number 250),
    (bytesOf "congestion_used", .string (bytesOf "bbr"))]

/-- The server after that client, which came behind the one of `payloadServer`. -/
def offloadServer : Server :=
  (receiveParameters (some offloadDocument) applePlatform (iperfResetTest payloadServer)).server

/-- A document that names all six members. -/
def namingDocument : Node Int :=
  .object [(bytesOf "tcp", .bool true), (bytesOf "gso", .number 0), (bytesOf "gro", .number 0),
    (bytesOf "pacing_timer", .number 500), (bytesOf "congestion_used", .string (bytesOf "cubic")),
    (bytesOf "repeating_payload", .number 1), (bytesOf "get_server_output", .number 1)]

theorem nothing_carried_of_namingDocument :
    iperfResetTest payloadServer ≠ iperfResetTest offloadServer ∧
      iperfResetTest payloadServer ≠ plainServer ∧
      (receiveParameters (some namingDocument) applePlatform (iperfResetTest payloadServer)).server =
        (receiveParameters (some namingDocument) applePlatform
          (iperfResetTest offloadServer)).server ∧
      (receiveParameters (some namingDocument) applePlatform (iperfResetTest payloadServer)).server =
        (receiveParameters (some namingDocument) applePlatform plainServer).server := by
  have named : ∀ server, Independent namingDocument server := fun server =>
    ⟨.inl (by decide +kernel), .inl (by decide +kernel), .inl (by decide +kernel),
      .inl (by decide +kernel), .inl (by decide +kernel), .inr (.inl (by decide +kernel))⟩
  refine ⟨by decide +kernel, by decide +kernel,
    (nothing_carried_iff namingDocument applePlatform payloadServer offloadServer ?_ ?_ ?_).mpr
      ⟨named _, named _⟩⟩ <;> decide +kernel

/-- The next client asks for neither, is accepted, and gets both. -/
theorem carried_of_payloadServer :
    (receiveParameters (some payloadDocument) applePlatform plainServer).r = 0 ∧
    (receiveParameters (some tcpDocument) applePlatform (iperfResetTest payloadServer)).r = 0 ∧
    (receiveParameters (some tcpDocument) applePlatform
      (iperfResetTest payloadServer)).server.test.repeatingPayload = 1 ∧
    (receiveParameters (some tcpDocument) applePlatform
      (iperfResetTest payloadServer)).server.test.getServerOutput = 1 ∧
    (receiveParameters (some tcpDocument) applePlatform plainServer).server.test.repeatingPayload =
      0 ∧
    (receiveParameters (some tcpDocument) applePlatform plainServer).server.test.getServerOutput =
      0 := by
  decide +kernel

end IperfSwift.Params
