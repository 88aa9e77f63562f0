import IperfSwift.Lib.Binary64
import IperfSwift.Udp.Parameters

/-!
Contract: `IperfConfiguration` and the checks that a runner makes before a run.

Owns: the options and their defaults, every check of `configurationError` in its
order with the error it gives, and the conversions of times.

A Swift conversion such as `Int32(_:)` stops the program when the value does not
fit. A function with such a conversion has an outer `Option` that is `none` when
the program stops.

`omit` is called `omitTime` here.

Does not own: `statsInterval`, which nothing reads, the parsing of RSA keys, and
how the options reach the engine.
-/

set_option autoImplicit false

namespace IperfSwift.Client

open IperfSwift.Lib
open IperfSwift.Udp (maxOmitTime maxTime maxStreams maxTcpBuffer maxMss maxBlocksize)

/-! ### Options -/

inductive IperfProtocol where
  | tcp
  | udp
deriving DecidableEq, Repr

inductive IperfAddressFamily where
  | any
  | ipv4
  | ipv6
deriving DecidableEq, Repr

inductive IperfRole where
  | server
  | client
deriving DecidableEq, Repr

inductive IperfTestMode where
  | upload
  | download
  | bidirectional
deriving DecidableEq, Repr

/-- The options of which `didSet` keeps a record. -/
inductive Field where
  | numStreams
  | mode
  | prot
  | omitTime
  | timeSkewThreshold
deriving DecidableEq, Repr

structure IperfConfiguration where
  explicitlySet : List Field := []
  address : Option String := none
  bindDevice : Option String := none
  numStreams : Int := 1
  role : IperfRole := .client
  mode : IperfTestMode := .upload
  addressFamily : IperfAddressFamily := .any
  port : Int := 5201
  prot : IperfProtocol := .tcp
  rate : Option UInt64 := none
  blockSize : Option Int := none
  socketBufferSize : Option Int := none
  noDelay : Bool := false
  mss : Option Int := none
  duration : Option Binary64 := none
  numberOfBytes : Option UInt64 := none
  timeout : Option Binary64 := none
  dscp : Option Int := none
  tos : Option Int := none
  clientPort : Option Int := none
  udpCounters64Bit : Bool := false
  repeatingPayload : Bool := false
  getServerOutput : Bool := false
  serverOutputByteLimit : Option Int := none
  dontFragment : Bool := false
  oneOff : Bool := false
  idleTimeout : Option Binary64 := none
  rcvTimeout : Option Binary64 := none
  reporterInterval : Option Binary64 := none
  omitTime : Int := 0
  logfile : Option String := none
  logfileByteLimit : Option UInt64 := none
  verbose : Bool := false
  jsonStream : Bool := false
  jsonStreamFullOutput : Bool := false
  isAuth : Bool := false
  usePkcs1Padding : Bool := false
  publicKey : String := ""
  username : String := ""
  password : String := ""
  privateKey : String := ""
  authorizedUsers : String := ""
  timeSkewThreshold : Int := 10

/-- The errors of the checks. -/
inductive IperfError where
  | IESERVEROUTPUTLIMIT
  | IELOGFILELIMIT
  | IEBADPORT
  | IEOMIT
  | IERCVTIMEOUT
  | IEIDLETIMEOUT
  | IEINTERVAL
  | IECONNECTTIMEOUT
  | IENUMSTREAMS
  | IEBUFSIZE
  | IEMSS
  | IEBADTOS
  | IEBLOCKSIZE
  | IEUDPBLOCKSIZE
  | IEDURATION
  | IEENDCONDITIONS
  | IEBADDSCP
  | IESERVERONLY
  | IERVRSONLYRCVTIMEOUT
  | IECLIENTONLY
  | IESETCLIENTAUTH
  | IESETSERVERAUTH
  | IEUDPONLY
  | IETCPONLY
  | IEIPV4ONLY
deriving DecidableEq, Repr

/-! ### Constants -/

/-- `UInt16.max`. -/
def maxPort : Int := 65535

/-- `Int.max` and `Int32.max`. -/
def maxInt : Int := 2 ^ 63 - 1
def maxInt32 : Int := 2 ^ 31 - 1

def minNoMsgRcvdTimeout : Int := 100
def outputMaxBytes : Int := 1024 * 1024

/-- `iperf_log_minimum_limit()`. -/
def minimumLogfileByteLimit : Nat := 23

/-- The double literals `0.1`, `60.0`, `0.001`. -/
def minInterval : Binary64 := .ofRat (1 / 10)
def maxInterval : Binary64 := .ofRat 60
def minTimeout : Binary64 := .ofRat (1 / 1000)

/-- `(low...high).contains(value)`. -/
def contains (low high value : Int) : Bool := low ≤ value && value ≤ high

/-- The same for doubles. -/
def containsTime (low high value : Binary64) : Bool := low.le value && value.le high

/-! ### Checks -/

/-- One check: `none` when the program stops, otherwise the error it finds, if any. -/
abbrev Check : Type := Option (Option IperfError)

/-- `if bad { return error }`. -/
def errorIf (bad : Bool) (error : IperfError) : Check := some (if bad then some error else none)

/-- Checks in a row: the first one that finds something decides. -/
def firstError : List Check → Check
  | [] => some none
  | none :: _ => none
  | some (some error) :: _ => some (some error)
  | some none :: rest => firstError rest

theorem errorIf_passes_iff (bad : Bool) (error : IperfError) :
    errorIf bad error = some none ↔ bad = false := by
  cases bad <;> simp [errorIf]

theorem firstError_passes_iff (checks : List Check) :
    firstError checks = some none ↔ ∀ check ∈ checks, check = some none := by
  induction checks with
  | nil => simp [firstError]
  | cons check rest inductionHypothesis =>
      match check with
      | none => simp [firstError]
      | some (some error) => simp [firstError]
      | some none => simpa [firstError] using inductionHypothesis

/-! ### Times -/

/-- `Int32(_:)` of a double. -/
def int32 (value : Binary64) : Option Int := value.toInteger (-2 ^ 31) maxInt32

def durationSeconds (duration : Option Binary64) : Option (Option Int) :=
  match duration with
  | none => some none
  | some duration =>
      if duration.isFinite then
        let seconds := duration.towardZero
        if containsTime (.finite 0) (.finite maxTime) seconds then
          (int32 (seconds.min (.finite maxInt32))).map some
        else some none
      else some (some 0)

def idleTimeoutSeconds (idleTimeout : Binary64) : Option (Option Int) :=
  if idleTimeout.isFinite && !idleTimeout.le (.finite 0) then
    let seconds := idleTimeout.roundedUp
    if seconds.le (.finite maxTime) then (int32 seconds).map some else some none
  else some none

def connectTimeoutMilliseconds (timeout : Binary64) : Option (Option Int) :=
  let maximum := Binary64.ofRat (maxInt32 / 1000)
  if timeout.isFinite && containsTime minTimeout maximum timeout then
    (int32 (timeout.scale 1000).towardZero).map some
  else some none

/-- `if conversion == nil { return error }`. -/
def errorIfNil (converted : Option (Option Int)) (error : IperfError) : Check :=
  converted.bind fun value => errorIf value.isNone error

def timeIntervalError (configuration : IperfConfiguration) : Check :=
  firstError
    [ match configuration.idleTimeout with
      | some idleTimeout => errorIfNil (idleTimeoutSeconds idleTimeout) .IEIDLETIMEOUT
      | none => some none,
      errorIf
        (configuration.reporterInterval.any fun reporterInterval =>
          !reporterInterval.beq (.finite 0) &&
            (!reporterInterval.isFinite ||
              !containsTime minInterval maxInterval reporterInterval))
        .IEINTERVAL,
      match configuration.timeout with
      | some timeout =>
          if timeout.beq (.finite 0) then some none
          else errorIfNil (connectTimeoutMilliseconds timeout) .IECONNECTTIMEOUT
      | none => some none ]

/-! ### Numbers -/

def endConditionError (duration : Option Binary64) (numberOfBytes : Option UInt64) : Check :=
  firstError
    [ if duration.any Binary64.isFinite then errorIfNil (durationSeconds duration) .IEDURATION
      else some none,
      errorIf (duration.isSome && numberOfBytes.any (· != 0)) .IEENDCONDITIONS ]

def blockSizeError (blockSize : Option Int) (prot : IperfProtocol) : Option IperfError :=
  match blockSize with
  | some blockSize =>
      if blockSize ≤ 0 then none
      else if maxBlocksize < blockSize then some .IEBLOCKSIZE
      else if prot = .udp ∧ contains 16 65507 blockSize = false then some .IEUDPBLOCKSIZE
      else none
  | none => none

def clientPortError (clientPort : Option Int) (numStreams : Int) (mode : IperfTestMode) :
    Option IperfError :=
  match clientPort with
  | none => none
  | some clientPort =>
      if contains 1 maxPort clientPort = false then some .IEBADPORT
      else if numStreams ≤ 0 then none
      else
        let directionCount := if mode = .bidirectional then 2 else 1
        let portCount := numStreams * directionCount
        let overflow := maxInt < portCount
        if overflow ∨ maxPort - clientPort < portCount - 1 then some .IEBADPORT else none

def clientIntegerError (configuration : IperfConfiguration) : Option IperfError :=
  if contains 1 maxStreams configuration.numStreams = false then some .IENUMSTREAMS
  else if configuration.socketBufferSize.any (!contains 0 maxTcpBuffer ·) then some .IEBUFSIZE
  else if configuration.mss.any (!contains 0 maxMss ·) then some .IEMSS
  else if configuration.tos.any (!contains 0 255 ·) then some .IEBADTOS
  else none

/-! ### Roles and protocols -/

namespace IperfConfiguration

def hasAuthenticationOptionForSelectedRole (configuration : IperfConfiguration) : Bool :=
  match configuration.role with
  | .client =>
      configuration.usePkcs1Padding || !configuration.username.isEmpty ||
        !configuration.password.isEmpty || !configuration.publicKey.isEmpty
  | .server =>
      configuration.usePkcs1Padding || !configuration.privateKey.isEmpty ||
        !configuration.authorizedUsers.isEmpty ||
        configuration.explicitlySet.contains .timeSkewThreshold

def roleApplicabilityError (configuration : IperfConfiguration) : Option IperfError :=
  match configuration.role with
  | .client =>
      let hasServerOnlyOption :=
        configuration.oneOff || configuration.idleTimeout.isSome ||
          !configuration.privateKey.isEmpty || !configuration.authorizedUsers.isEmpty ||
          configuration.explicitlySet.contains .timeSkewThreshold
      if hasServerOnlyOption then some .IESERVERONLY
      else if configuration.mode = .upload ∧ configuration.rcvTimeout.isSome then
        some .IERVRSONLYRCVTIMEOUT
      else none
  | .server =>
      let hasTrackedClientOnlyOption :=
        configuration.explicitlySet.contains .numStreams ||
          configuration.explicitlySet.contains .mode ||
          configuration.explicitlySet.contains .prot ||
          configuration.explicitlySet.contains .omitTime
      let hasOptionalClientOnlyOption :=
        configuration.rate.isSome || configuration.duration.isSome ||
          configuration.numberOfBytes.isSome || configuration.blockSize.isSome ||
          configuration.socketBufferSize.isSome || configuration.mss.isSome ||
          configuration.tos.isSome || configuration.dscp.isSome ||
          configuration.timeout.isSome || configuration.clientPort.isSome
      let hasBooleanClientOnlyOption :=
        configuration.noDelay || configuration.repeatingPayload ||
          configuration.getServerOutput || configuration.udpCounters64Bit ||
          configuration.dontFragment
      let hasClientAuthenticationOption :=
        !configuration.username.isEmpty || !configuration.publicKey.isEmpty ||
          !configuration.password.isEmpty
      if hasTrackedClientOnlyOption || hasOptionalClientOnlyOption ||
          hasBooleanClientOnlyOption || hasClientAuthenticationOption then
        some .IECLIENTONLY
      else none

def protocolApplicabilityError (configuration : IperfConfiguration) : Option IperfError :=
  if configuration.role ≠ .client then none
  else
    match configuration.prot with
    | .tcp =>
        if configuration.udpCounters64Bit || configuration.dontFragment then some .IEUDPONLY
        else none
    | .udp =>
        if configuration.noDelay || configuration.mss.isSome then some .IETCPONLY
        else if configuration.dontFragment ∧ configuration.addressFamily = .ipv6 then
          some .IEIPV4ONLY
        else none

end IperfConfiguration

/-- Which texts `iperf_validate_client_rsa_pubkey` and `iperf_validate_server_rsa_privkey`
take. -/
structure Keys where
  validPublic : String → Bool
  validPrivate : String → Bool

def authenticationError (keys : Keys) (configuration : IperfConfiguration) : Option IperfError :=
  let error := if configuration.role = .client then .IESETCLIENTAUTH else .IESETSERVERAUTH
  if configuration.isAuth then
    match configuration.role with
    | .client =>
        if !configuration.username.isEmpty && !configuration.password.isEmpty &&
            !configuration.publicKey.isEmpty && keys.validPublic configuration.publicKey then
          none
        else some error
    | .server =>
        if !configuration.privateKey.isEmpty && !configuration.authorizedUsers.isEmpty &&
            0 < configuration.timeSkewThreshold && keys.validPrivate configuration.privateKey then
          none
        else some error
  else if configuration.hasAuthenticationOptionForSelectedRole then some error
  else none

/-! ### All of them -/

/-- The first checks of `configurationError`, which it makes itself. -/
def generalChecks (configuration : IperfConfiguration) : List Check :=
  [ errorIf
      (configuration.serverOutputByteLimit.any fun limit =>
        !contains 1 outputMaxBytes limit ||
          (configuration.jsonStream && configuration.jsonStreamFullOutput))
      .IESERVEROUTPUTLIMIT,
    errorIf
      (configuration.logfileByteLimit.any fun limit =>
        limit.toNat < minimumLogfileByteLimit || configuration.logfile.isNone)
      .IELOGFILELIMIT,
    errorIf (!contains 1 maxPort configuration.port) .IEBADPORT,
    errorIf (!contains 0 maxOmitTime configuration.omitTime) .IEOMIT,
    errorIf
      (configuration.rcvTimeout.any fun rcvTimeout =>
        let minimum := Binary64.ofRat (minNoMsgRcvdTimeout / 1000)
        !(rcvTimeout.isFinite && containsTime minimum (.finite maxTime) rcvTimeout))
      .IERCVTIMEOUT ]

def configurationError (keys : Keys) (configuration : IperfConfiguration) : Check :=
  firstError <|
    generalChecks configuration ++
      [ timeIntervalError configuration,
        some (clientIntegerError configuration),
        some (blockSizeError configuration.blockSize configuration.prot),
        some (clientPortError configuration.clientPort configuration.numStreams
          configuration.mode),
        endConditionError configuration.duration configuration.numberOfBytes,
        errorIf (configuration.role = .client && configuration.dscp.any (!contains 0 63 ·))
          .IEBADDSCP,
        some configuration.roleApplicabilityError,
        some (authenticationError keys configuration),
        some configuration.protocolApplicabilityError ]

end IperfSwift.Client
