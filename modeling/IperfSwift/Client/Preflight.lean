import IperfSwift.Client.Document
import IperfSwift.Client.Ports

/-!
Contract: what the checks before a run guarantee of a client's options.

Owns: what a configuration that passes them has in common; that no conversion of
it stops the program; the test it makes the engine send; and when the server
holds the same test.

Does not own: the options of a server.
-/

set_option autoImplicit false

namespace IperfSwift.Client

open IperfSwift.Lib IperfSwift.CJson
open IperfSwift.Udp (Test Settings Mode Protocol maxOmitTime maxTime maxStreams maxTcpBuffer maxMss
  maxBlocksize)
open IperfSwift.Params

variable {low high : Int} {configuration : IperfConfiguration} {seconds : Option Int}

/-! ### What the checks say -/

/-- The options of a client that passed, as far as conversions depend on them. -/
structure Preflight (configuration : IperfConfiguration) : Prop where
  limit : ∀ limit ∈ configuration.serverOutputByteLimit, 1 ≤ limit ∧ limit ≤ outputMaxBytes
  omitTime : 0 ≤ configuration.omitTime ∧ configuration.omitTime ≤ maxOmitTime
  rcvTimeout : ∀ rcvTimeout ∈ configuration.rcvTimeout, rcvTimeout.le (.finite maxTime) = true
  timeout : ∀ timeout ∈ configuration.timeout, connectTimeoutMilliseconds timeout ≠ none
  numStreams : 1 ≤ configuration.numStreams ∧ configuration.numStreams ≤ maxStreams
  socketBufferSize : ∀ size ∈ configuration.socketBufferSize, 0 ≤ size ∧ size ≤ maxTcpBuffer
  mss : ∀ mss ∈ configuration.mss, 0 ≤ mss ∧ mss ≤ maxMss
  tos : ∀ tos ∈ configuration.tos, 0 ≤ tos ∧ tos ≤ 255
  dscp : ∀ dscp ∈ configuration.dscp, 0 ≤ dscp ∧ dscp ≤ 63
  blockSize : blockSizeError configuration.blockSize configuration.prot = none
  duration : durationSeconds configuration.duration ≠ none

theorem contains_iff {value : Int} :
    contains low high value = true ↔ low ≤ value ∧ value ≤ high := by
  simp [contains]

/-- A check that every value of an option is in a range. -/
theorem any_not_contains_iff {option : Option Int} :
    (option.any (!contains low high ·)) = false ↔
      ∀ value ∈ option, low ≤ value ∧ value ≤ high := by
  cases option with
  | none => simp
  | some value => simp [contains]

theorem errorIfNil_passes {converted : Option (Option Int)} {error : IperfError}
    (passes : errorIfNil converted error = some none) : converted ≠ none := by
  rintro rfl
  cases passes

theorem clientIntegerError_eq_none_iff :
    clientIntegerError configuration = none ↔
      (1 ≤ configuration.numStreams ∧ configuration.numStreams ≤ maxStreams) ∧
        (∀ size ∈ configuration.socketBufferSize, 0 ≤ size ∧ size ≤ maxTcpBuffer) ∧
        (∀ mss ∈ configuration.mss, 0 ≤ mss ∧ mss ≤ maxMss) ∧
        ∀ tos ∈ configuration.tos, 0 ≤ tos ∧ tos ≤ 255 := by
  rw [← contains_iff, ← any_not_contains_iff, ← any_not_contains_iff, ← any_not_contains_iff,
    clientIntegerError]
  split_ifs <;> simp_all

/-- Zero is not checked, and converting it does nothing. -/
theorem timeout_converts (passes : timeIntervalError configuration = some none) :
    ∀ timeout ∈ configuration.timeout, connectTimeoutMilliseconds timeout ≠ none := by
  intro timeout given
  rw [timeIntervalError, firstError_passes_iff] at passes
  have check := passes (if timeout.beq (.finite 0) then some none
    else errorIfNil (connectTimeoutMilliseconds timeout) .IECONNECTTIMEOUT)
    (by rw [Option.mem_def.mp given]; simp)
  split_ifs at check with zero
  · cases timeout with
    | finite value =>
        have same : value = 0 := by
          simp only [Binary64.beq, Binary64.le, Bool.and_eq_true, decide_eq_true_eq] at zero
          exact le_antisymm zero.1 zero.2
        rw [same]
        decide +kernel
    | nan | infinite negative => simp [connectTimeoutMilliseconds, Binary64.isFinite]
  · exact errorIfNil_passes check

/-- A duration that is not finite stands for zero. -/
theorem duration_converts {duration : Option Binary64} {numberOfBytes : Option UInt64}
    (passes : endConditionError duration numberOfBytes = some none) :
    durationSeconds duration ≠ none := by
  rw [endConditionError, firstError_passes_iff] at passes
  have check := passes _ List.mem_cons_self
  cases duration with
  | none => simp [durationSeconds]
  | some duration =>
      by_cases finite : duration.isFinite = true
      · rw [if_pos (by simpa using finite)] at check
        exact errorIfNil_passes check
      · simp [durationSeconds, finite]

theorem preflight_of_passes {keys : Keys} (client : configuration.role = .client)
    (passes : configurationError keys configuration = some none) : Preflight configuration := by
  rw [configurationError, firstError_passes_iff] at passes
  simp only [generalChecks, List.cons_append, List.nil_append, List.forall_mem_cons,
    errorIf_passes_iff, Option.some.injEq] at passes
  obtain ⟨limit, _, _, omitTime, rcvTimeout, times, integers, blockSize, _, ends, dscp, _⟩ := passes
  obtain ⟨numStreams, socketBufferSize, mss, tos⟩ := clientIntegerError_eq_none_iff.mp integers
  refine ⟨?_, ?_, ?_, timeout_converts times, numStreams, socketBufferSize, mss, tos, ?_, blockSize,
    duration_converts ends⟩
  · intro bytes given
    rw [Option.mem_def.mp given] at limit
    simp only [Option.any_some, Bool.or_eq_false_iff, Bool.not_eq_false'] at limit
    exact contains_iff.mp limit.1
  · exact contains_iff.mp (by simpa using omitTime)
  · intro timeout given
    rw [Option.mem_def.mp given] at rcvTimeout
    simp only [Option.any_some, Bool.not_eq_false', Bool.and_eq_true, containsTime] at rcvTimeout
    exact rcvTimeout.2.2
  · rw [client] at dscp
    exact any_not_contains_iff.mp (by simpa using dscp)

/-! ### Conversions -/

theorem exactInt32_eq {value : Int} (low : -2 ^ 31 ≤ value) (high : value ≤ maxInt32) :
    exactInt32 value = some value := if_pos ⟨low, high⟩

/-- An option of a range that fits converts to itself. -/
theorem convertSome_exactInt32 {option : Option Int} (fits : high ≤ maxInt32)
    (range : ∀ value ∈ option, 0 ≤ value ∧ value ≤ high) :
    convertSome option exactInt32 = some option := by
  cases option with
  | none => rfl
  | some value =>
      obtain ⟨nonneg, below⟩ := range value rfl
      rw [convertSome, exactInt32_eq (by omega) (by omega)]
      rfl

/-- The whole part of a number of a range that fits. -/
theorem toInteger_isSome {value : ℚ} (nonneg : 0 ≤ value) (zero : low ≤ 0)
    (small : value < high + 1) : (Binary64.toInteger low high (.finite value)).isSome = true := by
  have floor : 0 ≤ ⌊value⌋ := Int.floor_nonneg.mpr nonneg
  have below : ⌊value⌋ < high + 1 := Int.floor_lt.mpr (by exact_mod_cast small)
  rw [Binary64.toInteger, if_pos nonneg, if_pos ⟨by omega, by omega⟩]
  rfl

/-- A fraction of a second in microseconds fits. -/
theorem microseconds_isSome (value : ℚ) :
    (uint32 ((Binary64.finite value).fraction.scale 1000000)).isSome = true := by
  have nonneg : 0 ≤ value - ⌊value⌋ := sub_nonneg.mpr (Int.floor_le value)
  have below : value - ⌊value⌋ < 2 ^ (1 : ℤ) := by
    have next := Int.lt_floor_add_one value
    rw [zpow_one]
    linarith
  have fraction := roundBits_lt nonneg below le_rfl
  have scaledNonneg : 0 ≤ roundBits (value - ⌊value⌋) * 1000000 :=
    mul_nonneg (roundBits_nonneg nonneg) (by norm_num)
  have scaledBelow : roundBits (value - ⌊value⌋) * 1000000 < 2 ^ (22 : ℤ) :=
    calc roundBits (value - ⌊value⌋) * 1000000 < 2 ^ ((1 : ℤ) + 1) * 1000000 := by gcongr
      _ < 2 ^ (22 : ℤ) := by norm_num
  have first : (Binary64.finite value).fraction = .finite (roundBits (value - ⌊value⌋)) :=
    Binary64.ofRat_of_lt nonneg below le_rfl (by norm_num)
  have second := Binary64.ofRat_of_lt scaledNonneg scaledBelow (by norm_num) (by norm_num)
  rw [first, Binary64.scale, second]
  refine toInteger_isSome (roundBits_nonneg scaledNonneg) le_rfl ?_
  exact (roundBits_lt scaledNonneg scaledBelow (by norm_num)).trans (by norm_num)

theorem convertRcvTimeout_isSome {rcvTimeout : Option Binary64}
    (range : ∀ timeout ∈ rcvTimeout, timeout.le (.finite maxTime) = true) :
    (convertRcvTimeout rcvTimeout).isSome = true := by
  cases rcvTimeout with
  | none => rfl
  | some timeout =>
      rw [convertRcvTimeout]
      cases timeout with
      | nan | infinite negative => rfl
      | finite value =>
          have below : value ≤ 86400 := by
            simpa [Binary64.le, maxTime] using range _ rfl
          by_cases positive : (Binary64.finite value).le (.finite 0) = true
          · rw [if_neg (by simp [positive])]
            rfl
          · have nonneg : 0 ≤ value := by
              simp only [Binary64.le, decide_eq_true_eq, not_le] at positive
              exact positive.le
            have least : (Binary64.finite value).min (.finite (2 ^ 32 - 1)) = .finite value := by
              have order : value ≤ 2 ^ 32 - 1 := below.trans (by norm_num)
              simp [Binary64.min, Binary64.le, order]
            have whole : (uint32 (.finite value)).isSome = true :=
              toInteger_isSome nonneg le_rfl (lt_of_le_of_lt below (by norm_num))
            obtain ⟨secs, secsEq⟩ := Option.isSome_iff_exists.mp whole
            obtain ⟨usecs, usecsEq⟩ := Option.isSome_iff_exists.mp (microseconds_isSome value)
            rw [if_pos (by simp [Binary64.isFinite, positive])]
            dsimp only
            rw [least, secsEq, usecsEq]
            rfl

/-- A duration that converts is in the range of `time`. -/
theorem durationSeconds_range {duration : Option Binary64} {seconds : Int}
    (converted : durationSeconds duration = some (some seconds)) :
    0 ≤ seconds ∧ seconds ≤ maxTime := by
  have zero : 0 ≤ (0 : Int) ∧ 0 ≤ maxTime := by decide
  cases duration with
  | none => cases converted
  | some duration =>
      cases duration with
      | nan | infinite negative =>
          cases converted
          exact zero
      | finite value =>
          rw [durationSeconds, if_pos (show (Binary64.finite value).isFinite = true from rfl)]
            at converted
          dsimp only [Binary64.towardZero] at converted
          generalize (if 0 ≤ value then ⌊value⌋ else ⌈value⌉ : Int) = whole at converted
          split_ifs at converted with contained
          · have bounds : 0 ≤ whole ∧ whole ≤ maxTime := by
              simp only [containsTime, Binary64.le, Bool.and_eq_true, decide_eq_true_eq] at contained
              exact_mod_cast contained
            have least : (Binary64.finite whole).min (.finite maxInt32) = .finite whole := by
              have order : (whole : ℚ) ≤ maxInt32 := by
                have range : maxTime ≤ maxInt32 := by decide
                exact_mod_cast bounds.2.trans range
              simp [Binary64.min, Binary64.le, order]
            rw [least] at converted
            obtain ⟨integer, fits, same⟩ := Option.map_eq_some_iff.mp converted
            cases same
            rw [int32, Binary64.toInteger, Int.floor_intCast, Int.ceil_intCast, ite_self] at fits
            split_ifs at fits
            cases fits
            exact bounds
          · cases converted

/-! ### The engine -/

theorem applyLimit_ok (preflight : Preflight configuration) (engine : Engine) :
    ∃ limit, applyLimit configuration engine = .ok { engine with serverOutputByteLimit := limit } := by
  rw [applyLimit]
  cases given : configuration.serverOutputByteLimit with
  | none => exact ⟨engine.serverOutputByteLimit, rfl⟩
  | some limit =>
      obtain ⟨low, high⟩ := preflight.limit limit given
      have unsigned : limit % 2 ^ 64 = limit := by
        rw [outputMaxBytes] at high
        omega
      refine ⟨limit, ?_⟩
      dsimp only
      rw [setTestServerOutputByteLimit, unsigned, if_neg (not_lt.mpr high)]

/-- The block size before the connection; a UDP test may have none yet. -/
theorem resolvedBlockSize_range (preflight : Preflight configuration) :
    ∃ blksize, resolvedBlockSize configuration.blockSize configuration.prot = some blksize ∧
      (configuration.prot = .tcp → 0 < blksize ∧ blksize ≤ maxBlocksize) ∧
      (configuration.prot = .udp →
        (blksize = 0 ∧ ∀ size ∈ configuration.blockSize, size ≤ 0) ∨
          16 ≤ blksize ∧ blksize ≤ 65507) := by
  have checked := preflight.blockSize
  have default : (configuration.prot = .tcp →
      0 < (if configuration.prot = .tcp then defaultTcpBlksize else 0) ∧
        (if configuration.prot = .tcp then defaultTcpBlksize else 0) ≤ maxBlocksize) := by
    intro tcp
    rw [if_pos tcp]
    decide
  have none : configuration.prot = .udp →
      (if configuration.prot = .tcp then defaultTcpBlksize else 0) = 0 := by
    intro udp
    rw [udp]
    rfl
  cases given : configuration.blockSize with
  | none => exact ⟨_, rfl, default, fun udp => .inl ⟨none udp, by simp⟩⟩
  | some size =>
      rw [given, blockSizeError] at checked
      rw [resolvedBlockSize]
      split_ifs at checked with negative large outside
      · rw [if_neg (not_lt.mpr negative)]
        exact ⟨_, rfl, default, fun udp => .inl ⟨none udp, by simpa using negative⟩⟩
      · rw [not_le] at negative
        rw [not_lt] at large
        have fits : size ≤ maxInt32 := large.trans (by decide)
        refine ⟨size, ?_, fun _ => ⟨negative, large⟩, fun udp => .inr ?_⟩
        · rw [if_pos negative, exactInt32_eq (by omega) fits]
        · exact contains_iff.mp (by simpa [udp] using outside)

/-- `test->reverse` and `test->bidirectional` of a client. -/
def IperfTestMode.engineReverse (mode : IperfTestMode) : Int := if mode = .download then 1 else 0

def IperfTestMode.engineBidirectional (mode : IperfTestMode) : Int :=
  if mode = .bidirectional then 1 else 0

theorem applyMode_test {platform : Platform} {engine : Engine} (client : engine.role = some .client)
    (mode : IperfTestMode) :
    (applyMode platform mode engine).test =
      { engine.test with
        mode := mode.engineMode
        reverse := mode.engineReverse
        bidirectional := mode.engineBidirectional } := by
  cases mode <;>
    simp [applyMode, setTestReverse, setTestBidirectional, Engine.checkRetransmits, directedMode,
      client, IperfTestMode.engineMode, IperfTestMode.engineReverse,
      IperfTestMode.engineBidirectional]

/-- The test that a client's options ask for, before the connection. -/
def clientTest (configuration : IperfConfiguration) (blksize : Int) (seconds : Option Int) : Test :=
  let defaults := iperfDefaults.test
  { defaults with
    protocol := configuration.prot.iperfConfigValue
    mode := configuration.mode.engineMode
    reverse := configuration.mode.engineReverse
    bidirectional := configuration.mode.engineBidirectional
    omitTime := configuration.omitTime
    numStreams := configuration.numStreams
    noDelay := if configuration.noDelay then 1 else 0
    duration := chosenDuration configuration seconds DURATION
    udpCounters64bit := if configuration.udpCounters64Bit then 1 else 0
    repeatingPayload := if configuration.repeatingPayload then 1 else 0
    getServerOutput := if configuration.getServerOutput then 1 else 0
    settings :=
      { defaults.settings with
        blksize := blksize
        rate := chosenRate configuration 0
        socketBufsize := configuration.socketBufferSize.getD 0
        mss := configuration.mss.getD 0
        bytes := configuration.numberOfBytes.getD 0
        tos := chosenTos configuration configuration.tos 0
        dontFragment := if configuration.dontFragment then 1 else 0 } }

theorem applyGeneral_test {platform : Platform} (client : configuration.role = .client)
    (preflight : Preflight configuration) :
    (applyGeneral platform configuration iperfDefaults).test =
      { iperfDefaults.test with mode := .SENDER, omitTime := configuration.omitTime } := by
  have range := preflight.omitTime
  have omitTime : (if 0 < configuration.omitTime then clampedInt32 configuration.omitTime else 0) =
      configuration.omitTime := by
    rw [maxOmitTime] at range
    rw [clampedInt32, maxInt32]
    split_ifs <;> omega
  rw [applyGeneral, client]
  dsimp only
  rw [show (setTestRole platform .client iperfDefaults).test.omitTime = 0 from rfl, omitTime]
  rfl

/-- The options of the streams are applied without a conversion that stops the program. -/
theorem applyClient_of_preflight (platform : Platform) {configuration : IperfConfiguration}
    (preflight : Preflight configuration) (noAuth : configuration.isAuth = false) {engine : Engine}
    (role : engine.role = some .client)
    (general : engine.test =
      { iperfDefaults.test with mode := .SENDER, omitTime := configuration.omitTime }) :
    ∃ blksize seconds after,
      resolvedBlockSize configuration.blockSize configuration.prot = some blksize ∧
      durationSeconds configuration.duration = some seconds ∧
      applyClient platform configuration engine = some after ∧
      after.test = clientTest configuration blksize seconds ∧
      after.clientUsername = engine.clientUsername := by
  obtain ⟨blksize, block, _⟩ := resolvedBlockSize_range preflight
  obtain ⟨seconds, duration⟩ := Option.ne_none_iff_exists'.mp preflight.duration
  obtain ⟨connectTimeout, connecting⟩ : ∃ connectTimeout,
      (configuration.timeout.map connectTimeoutMilliseconds).getD (some none) =
        some connectTimeout := by
    cases given : configuration.timeout with
    | none => exact ⟨none, rfl⟩
    | some timeout => exact Option.ne_none_iff_exists'.mp (preflight.timeout timeout given)
  have streams : exactInt32 configuration.numStreams = some configuration.numStreams := by
    have range := preflight.numStreams
    rw [maxStreams] at range
    exact exactInt32_eq (by omega) (range.2.trans (by decide))
  have window := convertSome_exactInt32 (by decide) preflight.socketBufferSize
  have mss := convertSome_exactInt32 (by decide) preflight.mss
  have tos := convertSome_exactInt32 (by decide) preflight.tos
  have test : (setProtocol platform configuration.prot.iperfConfigValue engine).test =
      { engine.test with protocol := configuration.prot.iperfConfigValue } := rfl
  have username : (applyMode platform configuration.mode
      (setProtocol platform configuration.prot.iperfConfigValue engine)).clientUsername =
        engine.clientUsername := by
    cases configuration.mode <;> rfl
  refine ⟨blksize, seconds, ?_⟩
  rw [applyClient]
  simp only [Option.bind_eq_bind, Option.bind_some, streams, block, window, mss, duration,
    connecting, tos, noAuth]
  refine ⟨_, trivial, trivial, rfl, ?_, username⟩
  dsimp only
  rw [applyMode_test (by exact role), test, general]
  rfl

/-- A client's options that passed the checks are applied without a conversion that stops the
program. -/
theorem applyConfiguration_of_preflight (platform : Platform)
    (preflight : Preflight configuration) (client : configuration.role = .client)
    (noAuth : configuration.isAuth = false) :
    ∃ blksize seconds engine,
      resolvedBlockSize configuration.blockSize configuration.prot = some blksize ∧
      durationSeconds configuration.duration = some seconds ∧
      applyConfiguration platform configuration = some (.ok engine) ∧
      engine.test = clientTest configuration blksize seconds ∧ engine.clientUsername = none := by
  obtain ⟨limit, limited⟩ :=
    applyLimit_ok preflight (applyGeneral platform configuration iperfDefaults)
  obtain ⟨rcvTimeout, received⟩ :=
    Option.isSome_iff_exists.mp (convertRcvTimeout_isSome preflight.rcvTimeout)
  let general := applyGeneral platform configuration iperfDefaults
  obtain ⟨blksize, seconds, after, block, duration, applied, test, username⟩ :=
    @applyClient_of_preflight platform configuration preflight noAuth
      { general with
        serverOutputByteLimit := limit
        rcvTimeout := rcvTimeout.getD general.rcvTimeout }
      (congrArg some client) (applyGeneral_test client preflight)
  refine ⟨blksize, seconds, after, block, duration, ?_, test, username⟩
  rw [applyConfiguration, limited]
  dsimp only
  rw [applyRole, received, client]
  simp only [Option.bind_eq_bind, Option.bind_some]
  rw [applied, noAuth]
  rfl

/-! ### The test that is sent -/

/-- The block size behind the connection. -/
def connectedBlksize (maxseg : Option Int) (prot : IperfProtocol) (blksize : Int) : Int :=
  if prot = .udp ∧ blksize = 0 then
    if ctrlSckMss maxseg ≠ 0 then ctrlSckMss maxseg else Udp.defaultUdpBlksize
  else blksize

theorem iperfConnect_test {blksize : Int} {engine : Engine} (maxseg : Option Int)
    (test : engine.test = clientTest configuration blksize seconds) :
    (iperfConnect maxseg engine).test =
      clientTest configuration (connectedBlksize maxseg configuration.prot blksize) seconds := by
  rw [iperfConnect, connectedBlksize]
  cases prot : configuration.prot with
  | tcp =>
      have protocol : engine.test.protocol = .Ptcp := by
        rw [test, clientTest, prot]
        rfl
      rw [if_neg (by simp [protocol]), if_neg (by simp)]
      exact test
  | udp =>
      have protocol : engine.test.protocol = .Pudp := by
        rw [test, clientTest, prot]
        rfl
      have noSegments : ∀ test : Test, test.settings.gso = 0 → chooseSegments test = test := by
        intro test off
        rw [chooseSegments, if_neg (not_not.mpr off)]
      rw [if_pos protocol, test]
      dsimp only
      by_cases missing : blksize = 0
      · have chosen : IperfProtocol.udp = .udp ∧ blksize = 0 := ⟨rfl, missing⟩
        rw [chooseBlockSize, if_pos (by exact missing), if_pos chosen]
        exact noSegments _ rfl
      · have given : ¬ (IperfProtocol.udp = .udp ∧ blksize = 0) := fun both => missing both.2
        rw [chooseBlockSize, if_neg (by exact missing), if_neg given]
        exact noSegments _ rfl

theorem chosenTos_range (preflight : Preflight configuration) :
    0 ≤ chosenTos configuration configuration.tos 0 ∧
      chosenTos configuration configuration.tos 0 ≤ 255 := by
  cases tos : configuration.tos with
  | some value => exact preflight.tos value tos
  | none =>
      cases dscp : configuration.dscp with
      | none => simp [chosenTos, dscp]
      | some value =>
          obtain ⟨low, high⟩ := preflight.dscp value dscp
          have clamped : clampedInt32 value = value := by
            rw [clampedInt32, maxInt32]
            omega
          have shifted : chosenTos configuration none 0 = value * 4 := by
            rw [chosenTos, dscp]
            dsimp only
            rw [clamped]
            exact narrow_eq (by omega) (by omega)
          rw [shifted]
          omega

theorem chosenRate_small (small : ∀ rate ∈ configuration.rate, rate.toNat ≤ 2 ^ 53) :
    (chosenRate configuration 0).toNat ≤ 2 ^ 53 := by
  cases rate : configuration.rate with
  | some value =>
      rw [chosenRate, rate]
      exact small value rate
  | none =>
      rw [chosenRate, rate]
      dsimp only
      split_ifs <;> decide

theorem chosenDuration_range (converted : durationSeconds configuration.duration = some seconds) :
    0 ≤ chosenDuration configuration seconds DURATION ∧
      chosenDuration configuration seconds DURATION ≤ maxTime := by
  cases seconds with
  | some value => exact durationSeconds_range converted
  | none =>
      rw [chosenDuration]
      split_ifs <;> decide

theorem clientTest_sendable {blksize : Int} (preflight : Preflight configuration)
    (rate : ∀ rate ∈ configuration.rate, rate.toNat ≤ 2 ^ 53)
    (bytes : ∀ bytes ∈ configuration.numberOfBytes, bytes.toNat ≤ 2 ^ 53)
    (converted : durationSeconds configuration.duration = some seconds) (positive : 0 < blksize)
    (block : Udp.blksizeError (clientTest configuration blksize seconds) = none) :
    Sendable (clientTest configuration blksize seconds) := by
  have flag (on : Bool) : IsFlag (if on then 1 else 0) := by
    cases on
    · exact .inl rfl
    · exact .inr rfl
  have range {option : Option Int} {high : Int} (nonneg : 0 ≤ high)
      (each : ∀ value ∈ option, 0 ≤ value ∧ value ≤ high) :
      0 ≤ option.getD 0 ∧ option.getD 0 ≤ high := by
    cases option with
    | none => exact ⟨le_rfl, nonneg⟩
    | some value => exact each value rfl
  constructor
  case omitTime => exact preflight.omitTime
  case duration => exact chosenDuration_range converted
  case numStreams => exact preflight.numStreams
  case bytes =>
    change (configuration.numberOfBytes.getD 0).toNat ≤ 2 ^ 53
    cases given : configuration.numberOfBytes with
    | none => decide
    | some amount => exact bytes amount given
  case rate => exact chosenRate_small rate
  case mss => exact range (by decide) preflight.mss
  case socketBufsize => exact range (by decide) preflight.socketBufferSize
  case tos => exact chosenTos_range preflight
  case blksize => exact positive
  case block => exact block
  case direction =>
    have directed (mode : IperfTestMode) :
        (mode.engineMode = .SENDER ∧ mode.engineReverse = 0 ∧ mode.engineBidirectional = 0) ∨
        (mode.engineMode = .RECEIVER ∧ mode.engineReverse = 1 ∧ mode.engineBidirectional = 0) ∨
        (mode.engineMode = .BIDIRECTIONAL ∧ mode.engineReverse = 0 ∧
          mode.engineBidirectional = 1) := by
      cases mode <;> decide
    exact directed configuration.mode
  case noDelay => exact flag _
  case udpCounters64bit => exact flag _
  case repeatingPayload => exact flag _
  case getServerOutput => exact flag _
  case dontFragment => exact flag _
  all_goals rfl

/-- Behind the connection there is a block size that suits the protocol. -/
theorem connectedBlksize_suits {configuration : IperfConfiguration} {maxseg seconds : Option Int}
    {blksize : Int} (preflight : Preflight configuration)
    (segment : configuration.prot = .udp → (∀ size ∈ configuration.blockSize, size ≤ 0) →
      ctrlSckMss maxseg = 0 ∨ 16 ≤ ctrlSckMss maxseg ∧ ctrlSckMss maxseg ≤ 65507)
    (resolved : resolvedBlockSize configuration.blockSize configuration.prot = some blksize) :
    0 < connectedBlksize maxseg configuration.prot blksize ∧
      Udp.blksizeError (clientTest configuration
        (connectedBlksize maxseg configuration.prot blksize) seconds) = none := by
  obtain ⟨_, same, tcpRange, udpRange⟩ := resolvedBlockSize_range preflight
  cases resolved.symm.trans same
  cases prot : configuration.prot with
  | tcp =>
      obtain ⟨positive, large⟩ := tcpRange prot
      rw [connectedBlksize, if_neg (by simp)]
      refine ⟨positive, ?_⟩
      simp only [Udp.blksizeError, clientTest, prot, IperfProtocol.iperfConfigValue]
      rw [if_neg, if_neg (by simp)]
      rw [not_or, not_and, not_le, not_lt]
      exact ⟨fun _ => positive, large⟩
  | udp =>
      have suits : 16 ≤ connectedBlksize maxseg .udp blksize ∧
          connectedBlksize maxseg .udp blksize ≤ 65507 := by
        rw [connectedBlksize]
        rcases udpRange prot with ⟨missing, implicit⟩ | bounds
        · rw [if_pos ⟨rfl, missing⟩]
          split_ifs with known
          · exact (segment prot implicit).resolve_left known
          · decide
        · rw [if_neg (by omega)]
          exact bounds
      refine ⟨by omega, ?_⟩
      simp only [Udp.blksizeError, clientTest, prot, IperfProtocol.iperfConfigValue,
        Udp.maxBlocksize, Udp.minUdpBlocksize, Udp.maxUdpBlocksize]
      rw [if_neg (by omega), if_neg (by omega)]

/-! ### Agreement -/

/-- The server's side of a configuration that passed: without a limit of its own it accepts the
client's document, and both ends hold the same test if and only if no earlier client has left
anything that this one does not write: a flag that it does not ask for, offloading when it is not
for UDP, or the congestion control of an earlier test. -/
theorem parameters_agree_iff (keys : Keys) (platform serverPlatform : Platform)
    (configuration : IperfConfiguration) (maxseg : Option Int) (encoded : Option (List Byte))
    (served : Server) (client : configuration.role = .client)
    (noAuth : configuration.isAuth = false)
    (passes : configurationError keys configuration = some none)
    (rate : ∀ rate ∈ configuration.rate, rate.toNat ≤ 2 ^ 53)
    (bytes : ∀ bytes ∈ configuration.numberOfBytes, bytes.toNat ≤ 2 ^ 53)
    (segment : configuration.prot = .udp → (∀ size ∈ configuration.blockSize, size ≤ 0) →
      ctrlSckMss maxseg = 0 ∨ 16 ≤ ctrlSckMss maxseg ∧ ctrlSckMss maxseg ≤ 65507)
    (unlimited : served.test.settings.bitrateLimit = 0)
    (endless : served.test.maxServerDuration = 0) (noFile : served.test.diskfileName = false) :
    ∃ engine document, applyConfiguration platform configuration = some (.ok engine) ∧
      sendParameters encoded (iperfConnect maxseg engine) = some document ∧
      (receiveParameters (some document) serverPlatform (iperfResetTest served)).r = 0 ∧
      (Agrees (iperfConnect maxseg engine).test
          (receiveParameters (some document) serverPlatform (iperfResetTest served)).server ↔
        (configuration.repeatingPayload = true ∨ served.test.repeatingPayload = 0) ∧
          (configuration.getServerOutput = true ∨ served.serverOutputByteLimit ≠ 0 ∨
            served.test.getServerOutput = 0) ∧
          (configuration.prot = .udp ∨
            served.test.settings.gso = 0 ∧ served.test.settings.gro = 0) ∧
          served.texts.congestionUsed = none) := by
  have preflight := preflight_of_passes client passes
  obtain ⟨blksize, seconds, engine, resolved, converted, applied, test, username⟩ :=
    applyConfiguration_of_preflight platform preflight client noAuth
  obtain ⟨positive, block⟩ :=
    @connectedBlksize_suits configuration maxseg seconds blksize preflight segment resolved
  have sendable := clientTest_sendable preflight rate bytes converted positive block
  rw [← iperfConnect_test maxseg test] at sendable
  have noUser : (iperfConnect maxseg engine).clientUsername = none := by
    rw [iperfConnect]
    split_ifs
    · exact username
    · exact username
  have told : sendParameters encoded (iperfConnect maxseg engine) =
      some (sent (iperfConnect maxseg engine).test) := by
    rw [sendParameters, noUser, if_neg (by simp)]
    rfl
  obtain ⟨accepted, agrees⟩ := sendable.receives serverPlatform unlimited endless noFile
  refine ⟨engine, _, applied, told, accepted,
    (agrees.trans (sendable.independent_iff served)).trans ?_⟩
  have payload : (iperfConnect maxseg engine).test.repeatingPayload =
      if configuration.repeatingPayload then 1 else 0 := by
    rw [iperfConnect_test maxseg test]
    rfl
  have output : (iperfConnect maxseg engine).test.getServerOutput =
      if configuration.getServerOutput then 1 else 0 := by
    rw [iperfConnect_test maxseg test]
    rfl
  have protocol : (iperfConnect maxseg engine).test.protocol =
      configuration.prot.iperfConfigValue := by
    rw [iperfConnect_test maxseg test]
    rfl
  have udp : configuration.prot.iperfConfigValue = .Pudp ↔ configuration.prot = .udp := by
    cases configuration.prot <;> decide
  rw [payload, output, protocol, udp]
  cases configuration.repeatingPayload <;> cases configuration.getServerOutput <;> simp

/-- A UDP download of four streams, and no option about flags. -/
def udpDownload : IperfConfiguration :=
  { prot := .udp, mode := .download, numStreams := 4, dscp := some 46, omitTime := 3 }

/-- No key is valid. -/
def noKeys : Keys := ⟨fun _ => false, fun _ => false⟩

/-- A TCP client without options. -/
def tcpUpload : IperfConfiguration := { prot := .tcp, mode := .upload }

/-- `{"udp": true, "len": 1000, "gso": 1, "gro": 1}`. -/
def segmentsDocument : Node Int :=
  .object [(bytesOf "udp", .bool true), (bytesOf "len", .number 1000), (bytesOf "gso", .number 1),
    (bytesOf "gro", .number 1)]

/-- The server after a client that asked for both kinds of offloading. -/
def segmentsServer : Server :=
  (receiveParameters (some segmentsDocument) applePlatform plainServer).server

/-- The server accepts this client, and both ends then hold the same test just if `same`. -/
def AcceptedWith (configuration : IperfConfiguration) (served : Server) (same : Bool) : Prop :=
  ∃ engine document, applyConfiguration applePlatform configuration = some (.ok engine) ∧
    sendParameters none (iperfConnect (some 1448) engine) = some document ∧
    (receiveParameters (some document) applePlatform (iperfResetTest served)).r = 0 ∧
    (Agrees (iperfConnect (some 1448) engine).test
      (receiveParameters (some document) applePlatform (iperfResetTest served)).server ↔ same = true)

/-- A new server agrees with the UDP client, and so does one that has served a client with
offloading; one that has served a client with a repeating payload accepts it and does not. The TCP
client does not write the two fields of offloading, and they are left to it. -/
theorem agreement_of_udpDownload :
    AcceptedWith udpDownload plainServer true ∧ AcceptedWith udpDownload segmentsServer true ∧
      AcceptedWith udpDownload payloadServer false ∧
      AcceptedWith tcpUpload segmentsServer false := by
  have agree (configuration : IperfConfiguration) (served : Server) :=
    parameters_agree_iff noKeys applePlatform applePlatform configuration (some 1448) none served
  have download (served : Server) := agree udpDownload served rfl rfl (by decide)
    (by simp [udpDownload]) (by simp [udpDownload]) fun _ _ => .inr (by decide)
  have upload (served : Server) := agree tcpUpload served rfl rfl (by decide)
    (by simp [tcpUpload]) (by simp [tcpUpload]) fun udp => nomatch udp
  refine ⟨?_, ?_, ?_, ?_⟩
  · obtain ⟨engine, document, applied, sent, accepted, agrees⟩ := download plainServer rfl rfl rfl
    exact ⟨engine, document, applied, sent, accepted, agrees.trans (by decide +kernel)⟩
  · obtain ⟨engine, document, applied, sent, accepted, agrees⟩ :=
      download segmentsServer (by decide) (by decide) (by decide)
    exact ⟨engine, document, applied, sent, accepted, agrees.trans (by decide +kernel)⟩
  · obtain ⟨engine, document, applied, sent, accepted, agrees⟩ :=
      download payloadServer (by decide) (by decide) (by decide)
    exact ⟨engine, document, applied, sent, accepted, agrees.trans (by decide +kernel)⟩
  · obtain ⟨engine, document, applied, sent, accepted, agrees⟩ :=
      upload segmentsServer (by decide) (by decide) (by decide)
    exact ⟨engine, document, applied, sent, accepted, agrees.trans (by decide +kernel)⟩

end IperfSwift.Client
