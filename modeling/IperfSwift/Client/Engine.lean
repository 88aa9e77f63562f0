import IperfSwift.Client.Configuration
import IperfSwift.Params.Server

/-!
Contract: how the options of a configuration reach the engine.

Owns: the part of `struct iperf_test` that `applyConfiguration` writes, the
setters it calls, `applyConfiguration` itself with every conversion that can
stop the program, and the block size that `iperf_connect` chooses.

Does not own: keys, which are kept as the texts they are read from, and what the
engine does with an option.
-/

set_option autoImplicit false

namespace IperfSwift.Client

open IperfSwift.Lib
open IperfSwift.Udp (Test Settings Mode Protocol)
open IperfSwift.Params (Platform checkSenderHasRetransmits)

/-- `GSO_MAX_DG_IN_BF`. -/
def gsoMaxDgInBf : Int := 128

/-! ### State -/

/-- `struct iperf_time`. -/
structure IperfTime where
  secs : Int
  usecs : Int
deriving DecidableEq, Repr

/-- `struct iperf_test`: in `test` what the parameters of a test are made of, and next to it
what concerns this end only. -/
structure Engine where
  test : Test
  role : Option IperfRole
  senderHasRetransmits : Int
  bindPort : Int
  serverPort : Int
  domain : IperfAddressFamily
  reporterInterval : Binary64
  statsInterval : Binary64
  logfile : Option String
  logfileLimit : UInt64
  verbose : Int
  jsonOutput : Int
  jsonStream : Int
  jsonStreamFullOutput : Int
  serverOutputByteLimit : Int
  rcvTimeout : IperfTime
  bindAddress : Option String
  serverHostname : Option String
  bindDev : Option String
  oneOff : Int
  idleTimeout : Int
  connectTimeout : Int
  serverRsaPrivkey : Option String
  serverAuthorizedUsers : Option String
  serverSkewThreshold : Int
  clientRsaPubkey : Option String
  clientUsername : Option String
  clientPassword : Option String
  usePkcs1Padding : Int

/-- `iperf_new_test` and `iperf_defaults`. -/
def iperfDefaults : Engine where
  test := Params.plainServer.test
  role := none
  senderHasRetransmits := 0
  bindPort := 0
  serverPort := 5201
  domain := .any
  reporterInterval := .finite 1
  statsInterval := .finite 1
  logfile := none
  logfileLimit := 0
  verbose := 0
  jsonOutput := 0
  jsonStream := 0
  jsonStreamFullOutput := 0
  serverOutputByteLimit := 0
  rcvTimeout := ⟨120, 0⟩
  bindAddress := none
  serverHostname := none
  bindDev := none
  oneOff := 0
  idleTimeout := 0
  connectTimeout := -1
  serverRsaPrivkey := none
  serverAuthorizedUsers := none
  serverSkewThreshold := 0
  clientRsaPubkey := none
  clientUsername := none
  clientPassword := none
  usePkcs1Padding := 0

/-! ### Setters -/

/-- `check_sender_has_retransmits`. -/
def Engine.checkRetransmits (platform : Platform) (engine : Engine) : Engine :=
  { engine with
    senderHasRetransmits :=
      checkSenderHasRetransmits platform engine.test.mode engine.test.protocol }

/-- The mode of one direction; it stays as it is before there is a role. -/
def directedMode (role : Option IperfRole) (reverse : Int) (old : Mode) : Mode :=
  match role with
  | some .client => if reverse = 0 then .SENDER else .RECEIVER
  | some .server => if reverse = 0 then .RECEIVER else .SENDER
  | none => old

/-- `iperf_set_test_role`. -/
def setTestRole (platform : Platform) (role : IperfRole) (engine : Engine) : Engine :=
  Engine.checkRetransmits platform
    { engine with
      role := some role
      test.mode :=
        if engine.test.reverse = 0 ∧ engine.test.bidirectional ≠ 0 then .BIDIRECTIONAL
        else directedMode (some role) engine.test.reverse engine.test.mode }

/-- `iperf_set_test_reverse`. -/
def setTestReverse (platform : Platform) (reverse : Int) (engine : Engine) : Engine :=
  Engine.checkRetransmits platform
    { engine with
      test.reverse := reverse
      test.mode := directedMode engine.role reverse engine.test.mode }

/-- `iperf_set_test_bidirectional`. -/
def setTestBidirectional (platform : Platform) (bidirectional : Int) (engine : Engine) : Engine :=
  if bidirectional ≠ 0 then
    { engine with test.bidirectional := bidirectional, test.mode := .BIDIRECTIONAL }
  else
    setTestReverse platform engine.test.reverse
      { engine with test.bidirectional := bidirectional }

/-- `set_protocol` for a protocol that is registered. -/
def setProtocol (platform : Platform) (protocol : Protocol) (engine : Engine) : Engine :=
  Engine.checkRetransmits platform { engine with test.protocol := protocol }

/-! ### Conversions -/

/-- `Int32(_:)` of an integer. -/
def exactInt32 (value : Int) : Option Int :=
  if -2 ^ 31 ≤ value ∧ value ≤ maxInt32 then some value else none

/-- `Int32(clamping:)`. -/
def clampedInt32 (value : Int) : Int := max (-2 ^ 31) (min value maxInt32)

/-- `UInt32(_:)` of a double. -/
def uint32 (value : Binary64) : Option Int := value.toInteger 0 (2 ^ 32 - 1)

def resolvedBlockSize (blockSize : Option Int) (prot : IperfProtocol) : Option Int :=
  match blockSize with
  | some blockSize =>
      if 0 < blockSize then exactInt32 blockSize
      else some (if prot = .tcp then Params.defaultTcpBlksize else 0)
  | none => some (if prot = .tcp then Params.defaultTcpBlksize else 0)

def IperfProtocol.iperfConfigValue : IperfProtocol → Protocol
  | .tcp => .Ptcp
  | .udp => .Pudp

/-! ### `applyConfiguration` -/

/-- A conversion of an option, which may be missing. -/
def convertSome {α : Type} (option : Option α) (convert : α → Option Int) : Option (Option Int) :=
  match option with
  | some value => (convert value).map some
  | none => some none

/-- What is set for either role. -/
def applyGeneral (platform : Platform) (configuration : IperfConfiguration) (engine : Engine) :
    Engine :=
  let engine := setTestRole platform configuration.role engine
  { engine with
    serverPort := clampedInt32 configuration.port
    domain :=
      if configuration.addressFamily ≠ .any then configuration.addressFamily else engine.domain
    reporterInterval := configuration.reporterInterval.getD engine.reporterInterval
    statsInterval := configuration.reporterInterval.getD engine.statsInterval
    test.omitTime :=
      if 0 < configuration.omitTime then clampedInt32 configuration.omitTime
      else engine.test.omitTime
    logfile := configuration.logfile.or engine.logfile
    logfileLimit :=
      if configuration.logfile.isSome then configuration.logfileByteLimit.getD 0
      else engine.logfileLimit
    verbose := if configuration.verbose then 1 else 0
    jsonOutput := if configuration.jsonStream then 1 else engine.jsonOutput
    jsonStream := if configuration.jsonStream then 1 else engine.jsonStream
    jsonStreamFullOutput :=
      if configuration.jsonStreamFullOutput then 1 else engine.jsonStreamFullOutput }

/-- `iperf_set_test_server_output_byte_limit`, whose parameter is unsigned. -/
def setTestServerOutputByteLimit (limit : Int) (engine : Engine) : Except IperfError Engine :=
  if outputMaxBytes < limit % 2 ^ 64 then .error .IESERVEROUTPUTLIMIT
  else .ok { engine with serverOutputByteLimit := limit }

/-- The receive timeout, if there is one that is positive and finite. -/
def convertRcvTimeout (rcvTimeout : Option Binary64) : Option (Option IperfTime) :=
  match rcvTimeout with
  | some rcvTimeout =>
      if rcvTimeout.isFinite && !rcvTimeout.le (.finite 0) then do
        let seconds := rcvTimeout.min (.finite (2 ^ 32 - 1))
        let secs ← uint32 seconds
        let usecs ← uint32 (seconds.fraction.scale 1000000)
        some (some ⟨secs, usecs⟩)
      else some none
  | none => some none

/-- An address that is not empty. -/
def givenAddress (configuration : IperfConfiguration) : Option String :=
  configuration.address.filter (!·.isEmpty)

def applyServer (configuration : IperfConfiguration) (engine : Engine) : Option Engine := do
  let idleTimeout ← (configuration.idleTimeout.map idleTimeoutSeconds).getD (some none)
  some
    { engine with
      bindAddress := (givenAddress configuration).or engine.bindAddress
      bindDev := configuration.bindDevice.or engine.bindDev
      oneOff := if configuration.oneOff then 1 else engine.oneOff
      idleTimeout := idleTimeout.getD engine.idleTimeout
      serverRsaPrivkey :=
        if configuration.isAuth then some configuration.privateKey else engine.serverRsaPrivkey
      serverAuthorizedUsers :=
        if configuration.isAuth then some configuration.authorizedUsers
        else engine.serverAuthorizedUsers
      serverSkewThreshold :=
        if configuration.isAuth then configuration.timeSkewThreshold
        else engine.serverSkewThreshold }

def applyMode (platform : Platform) (mode : IperfTestMode) (engine : Engine) : Engine :=
  match mode with
  | .upload => setTestReverse platform 0 (setTestBidirectional platform 0 engine)
  | .download => setTestReverse platform 1 (setTestBidirectional platform 0 engine)
  | .bidirectional => setTestBidirectional platform 1 (setTestReverse platform 0 engine)

/-- The bit rate; a UDP test has one in any case. -/
def chosenRate (configuration : IperfConfiguration) (old : UInt64) : UInt64 :=
  match configuration.rate with
  | some rate => rate
  | none => if configuration.prot = .udp then 1024 * 1024 else old

/-- The duration; a number of bytes instead of it leaves none. -/
def chosenDuration (configuration : IperfConfiguration) (seconds : Option Int) (old : Int) : Int :=
  match seconds with
  | some seconds => seconds
  | none => if configuration.numberOfBytes.any (· != 0) then 0 else old

/-- The type-of-service byte is set behind the DSCP and wins. -/
def chosenTos (configuration : IperfConfiguration) (tos : Option Int) (old : Int) : Int :=
  match tos with
  | some tos => tos
  | none =>
      match configuration.dscp with
      | some dscp => Udp.narrow (clampedInt32 dscp * 4)
      | none => old

/-- What of a client's options concerns its streams, with all conversions. -/
def applyClient (platform : Platform) (configuration : IperfConfiguration) (engine : Engine) :
    Option Engine := do
  let engine := setProtocol platform configuration.prot.iperfConfigValue engine
  let engine := applyMode platform configuration.mode engine
  let numStreams ← exactInt32 configuration.numStreams
  let blksize ← resolvedBlockSize configuration.blockSize configuration.prot
  let socketBufsize ← convertSome configuration.socketBufferSize exactInt32
  let mss ← convertSome configuration.mss exactInt32
  let seconds ← durationSeconds configuration.duration
  let connectTimeout ← (configuration.timeout.map connectTimeoutMilliseconds).getD (some none)
  let tos ← convertSome configuration.tos exactInt32
  let settings :=
    { engine.test.settings with
      blksize := blksize
      rate := chosenRate configuration engine.test.settings.rate
      socketBufsize := socketBufsize.getD engine.test.settings.socketBufsize
      mss := mss.getD engine.test.settings.mss
      bytes := configuration.numberOfBytes.getD engine.test.settings.bytes
      tos := chosenTos configuration tos engine.test.settings.tos
      dontFragment := if configuration.dontFragment then 1 else engine.test.settings.dontFragment }
  let test :=
    { engine.test with
      numStreams := numStreams
      noDelay := if configuration.noDelay then 1 else engine.test.noDelay
      duration := chosenDuration configuration seconds engine.test.duration
      udpCounters64bit := if configuration.udpCounters64Bit then 1 else engine.test.udpCounters64bit
      repeatingPayload := if configuration.repeatingPayload then 1 else engine.test.repeatingPayload
      getServerOutput := if configuration.getServerOutput then 1 else engine.test.getServerOutput
      settings := settings }
  some
    { engine with
      test := test
      serverHostname := (givenAddress configuration).or engine.serverHostname
      bindDev := configuration.bindDevice.or engine.bindDev
      connectTimeout := connectTimeout.getD engine.connectTimeout
      bindPort := (configuration.clientPort.map clampedInt32).getD engine.bindPort
      clientRsaPubkey :=
        if configuration.isAuth then some configuration.publicKey else engine.clientRsaPubkey
      clientUsername :=
        if configuration.isAuth then some configuration.username else engine.clientUsername
      clientPassword :=
        if configuration.isAuth then some configuration.password else engine.clientPassword }

/-- The limit of server output, if there is one. -/
def applyLimit (configuration : IperfConfiguration) (engine : Engine) : Except IperfError Engine :=
  match configuration.serverOutputByteLimit with
  | some limit => setTestServerOutputByteLimit limit engine
  | none => .ok engine

/-- What comes behind the limit. -/
def applyRole (platform : Platform) (configuration : IperfConfiguration) (engine : Engine) :
    Option Engine := do
  let rcvTimeout ← convertRcvTimeout configuration.rcvTimeout
  let engine := { engine with rcvTimeout := rcvTimeout.getD engine.rcvTimeout }
  let engine ←
    match configuration.role with
    | .server => applyServer configuration engine
    | .client => applyClient platform configuration engine
  some
    { engine with
      usePkcs1Padding :=
        if configuration.isAuth then if configuration.usePkcs1Padding then 1 else 0
        else engine.usePkcs1Padding }

/-- `applyConfiguration` on a new test. `set_protocol` does not fail, since both protocols
are registered. -/
def applyConfiguration (platform : Platform) (configuration : IperfConfiguration) :
    Option (Except IperfError Engine) :=
  match applyLimit configuration (applyGeneral platform configuration iperfDefaults) with
  | .error error => some (.error error)
  | .ok engine => (applyRole platform configuration engine).map .ok

/-! ### `iperf_connect` -/

/-- What `getsockopt` says about the segment size of the control connection. -/
def ctrlSckMss (maxseg : Option Int) : Int :=
  match maxseg with
  | some opt => if 0 < opt ∧ opt ≤ Udp.maxUdpBlocksize then opt else 0
  | none => 0

/-- A UDP test without a block size takes the segment size of the control connection. -/
def chooseBlockSize (mss : Int) (test : Test) : Test :=
  if test.settings.blksize = 0 then
    { test with settings.blksize := if mss ≠ 0 then mss else Udp.defaultUdpBlksize }
  else test

/-- Segments of one block each, a limited number of them in a buffer. -/
def chooseSegments (test : Test) : Test :=
  if test.settings.gso ≠ 0 then
    if 0 < test.settings.blksize then
      { test with
        settings.gsoDgSize := test.settings.blksize
        settings.gsoBfSize :=
          min (test.settings.gsoBfSize.tdiv test.settings.blksize) gsoMaxDgInBf *
            test.settings.blksize }
    else { test with settings.gsoDgSize := Udp.defaultUdpBlksize }
  else test

/-- `iperf_connect`, when the control connection has been made. -/
def iperfConnect (maxseg : Option Int) (engine : Engine) : Engine :=
  if engine.test.protocol = .Pudp then
    { engine with test := chooseSegments (chooseBlockSize (ctrlSckMss maxseg) engine.test) }
  else engine

end IperfSwift.Client
