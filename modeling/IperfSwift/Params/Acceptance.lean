import IperfSwift.Udp.Parameters

/-!
Contract: when the server accepts a parameter document, and what it then holds.

Owns: the rules for one step of `get_parameters` and for steps in a row; the
checks of every field and the test an accepted document leaves behind.

Does not own: the texts of the document.
-/

set_option autoImplicit false

namespace IperfSwift.Params

open IperfSwift.Lib IperfSwift.CJson IperfSwift.Udp

variable {check : Test → Prop} {effect : Test → Test} {step : Reading → Reading}

/-! ### Steps -/

/-- A step that fails unless a check holds, and otherwise has an effect on the test. -/
structure Reads (step : Reading → Reading) (check : Test → Prop) (effect : Test → Test) :
    Prop where
  accepted : ∀ reading, (step reading).r = 0 ↔ reading.r = 0 ∧ check reading.test
  test : ∀ reading, check reading.test → (step reading).test = effect reading.test

theorem Reads.comp {first second : Reading → Reading} {check' : Test → Prop}
    {effect' : Test → Test} (one : Reads first check effect) (two : Reads second check' effect') :
    Reads (fun reading => second (first reading)) (fun test => check test ∧ check' (effect test))
      (fun test => effect' (effect test)) := by
  constructor
  · intro reading
    rw [two.accepted, one.accepted, and_assoc]
    refine and_congr_right fun _ => and_congr_right fun holds => ?_
    rw [one.test reading holds]
  · rintro reading ⟨holds, holds'⟩
    rw [← one.test reading holds] at holds' ⊢
    exact two.test _ holds'

theorem Reads.of_iff {check' : Test → Prop} (reads : Reads step check effect)
    (same : ∀ test, check test ↔ check' test) : Reads step check' effect :=
  ⟨fun reading => by rw [reads.accepted, same], fun reading holds =>
    reads.test reading ((same _).mpr holds)⟩

theorem Reads.of_eq {effect' : Test → Test} (reads : Reads step check effect)
    (same : ∀ test, effect test = effect' test) : Reads step check effect' :=
  ⟨reads.accepted, fun reading holds => (reads.test reading holds).trans (same _)⟩

/-- A step that can not fail. -/
theorem reads_effect (r : ∀ reading, (step reading).r = reading.r)
    (test : ∀ reading, (step reading).test = effect reading.test) :
    Reads step (fun _ => True) effect :=
  ⟨fun reading => by rw [r, and_true], fun reading _ => test reading⟩

/-- A change that is made when the document asks for it. -/
theorem reads_when (asked : Bool) (change : Test → Test) :
    Reads (fun reading => if asked then { reading with test := change reading.test } else reading)
      (fun _ => True) (fun test => if asked then change test else test) := by
  cases asked
  · exact reads_effect (fun _ => rfl) fun _ => rfl
  · exact reads_effect (fun _ => rfl) fun _ => rfl

/-- The number of a member, if there is one, stored into an `int`. -/
def valueOr (j : Node Int) (name : String) (old : Int) : Int :=
  ((getNumber j name).map narrow).getD old

/-- The number of a member, if there is one, stored into a `uint64_t`. -/
def amountOr (j : Node Int) (name : String) (old : UInt64) : UInt64 :=
  ((getNumber j name).map fun value => .ofNat value.toNat).getD old

/-- One, if the member is a number. -/
def flagOr (j : Node Int) (name : String) (old : Int) : Int :=
  if (getNumber j name).isSome then 1 else old

/-- Whether the number of a member is not zero. -/
def truthOr (j : Node Int) (name : String) (old : Int) : Int :=
  ((getNumber j name).map fun value => if value = 0 then 0 else 1).getD old

/-- The check of a member, which passes when there is none. -/
def Passes (j : Node Int) (name : String) (valid : Int → Bool) : Prop :=
  (getNumber j name).all valid = true

theorem reads_number {j : Node Int} {name : String} {valid : Int → Bool} {error : Errno}
    {store : Test → Int → Test} {effect : Test → Test}
    (absent : getNumber j name = none → ∀ test, effect test = test)
    (present : ∀ value, getNumber j name = some value → ∀ test, effect test = store test value) :
    Reads (readNumber j name valid error store) (fun _ => Passes j name valid) effect := by
  cases found : getNumber j name with
  | none =>
      refine ⟨fun reading => ?_, fun reading _ => ?_⟩
      · simp [readNumber, Passes, found]
      · simp [readNumber, found, absent found]
  | some value =>
      refine ⟨fun reading => ?_, fun reading passes => ?_⟩
      · by_cases holds : valid value = true
        · simp [readNumber, Passes, found, holds]
        · simp [readNumber, Passes, found, holds, Reading.reject]
      · have holds : valid value = true := by simpa [Passes, found] using passes
        simp [readNumber, found, holds, present value found]

/-- A field of type `int`. -/
theorem reads_int (j : Node Int) (name : String) (valid : Int → Bool) (error : Errno)
    (get : Test → Int) (set : Test → Int → Test) (same : ∀ test, set test (get test) = test) :
    Reads (readNumber j name valid error fun test value => set test (narrow value))
      (fun _ => Passes j name valid) (fun test => set test (valueOr j name (get test))) :=
  reads_number (fun absent test => by simp [valueOr, absent, same])
    (fun value present test => by simp [valueOr, present])

/-- A field of type `uint64_t`. -/
theorem reads_amount (j : Node Int) (name : String) (get : Settings → UInt64)
    (set : Settings → UInt64 → Settings) (same : ∀ settings, set settings (get settings) = settings) :
    Reads (readSetting j name fun settings value => set settings (.ofNat value.toNat))
      (fun _ => Passes j name fun value => 0 ≤ value)
      (fun test =>
        { test with settings := set test.settings (amountOr j name (get test.settings)) }) :=
  @reads_number j name (fun value => 0 ≤ value) .IERECVPARAMS
    (fun test value => { test with settings := set test.settings (.ofNat value.toNat) }) _
    (fun absent test => by simp [amountOr, absent, same])
    (fun value present test => by simp [amountOr, present])

/-- A setting of type `int` that may not be negative. -/
theorem reads_setting (j : Node Int) (name : String) (get : Settings → Int)
    (set : Settings → Int → Settings) (same : ∀ settings, set settings (get settings) = settings) :
    Reads (readSetting j name fun settings value => set settings (narrow value))
      (fun _ => Passes j name fun value => 0 ≤ value)
      (fun test =>
        { test with settings := set test.settings (valueOr j name (get test.settings)) }) :=
  @reads_number j name (fun value => 0 ≤ value) .IERECVPARAMS
    (fun test value => { test with settings := set test.settings (narrow value) }) _
    (fun absent test => by simp [valueOr, absent, same])
    (fun value present test => by simp [valueOr, present])

/-- A field that keeps whether the number is zero. -/
theorem reads_truth (j : Node Int) (name : String) (get : Test → Int) (set : Test → Int → Test)
    (same : ∀ test, set test (get test) = test) :
    Reads
      (fun reading => (getNumber j name).elim reading fun value =>
        { reading with test := set reading.test (if value = 0 then 0 else 1) })
      (fun _ => True) (fun test => set test (truthOr j name (get test))) := by
  cases found : getNumber j name with
  | none => exact reads_effect (fun _ => rfl) fun reading => by simp [truthOr, found, same]
  | some value => exact reads_effect (fun _ => rfl) fun reading => by simp [truthOr, found]

/-! ### Stages -/

/-- The protocol the document asks for. -/
def protocolOr (j : Node Int) (old : Protocol) : Protocol :=
  if hasBool j "udp" then .Pudp else if hasBool j "tcp" then .Ptcp else old

theorem reads_protocol (j : Node Int) :
    Reads (readProtocol j) (fun test => hasBool j "udp" = true → test.diskfileName = false)
      (fun test => { test with protocol := protocolOr j test.protocol }) := by
  constructor <;> intro reading <;> simp only [readProtocol, protocolOr]
  · cases hasBool j "tcp" <;> cases hasBool j "udp" <;> cases hasBool j "sctp" <;>
      cases file : reading.test.diskfileName <;> simp [file, Reading.reject]
  · intro allowed
    cases udp : hasBool j "udp" with
    | false => cases hasBool j "tcp" <;> cases hasBool j "sctp" <;> simp
    | true =>
        have noFile := allowed udp
        cases hasBool j "tcp" <;> cases hasBool j "sctp" <;> simp [noFile]

/-- `omit`, `server_affinity` and `time`. -/
structure TimesPass (j : Node Int) : Prop where
  omitTime : Passes j "omit" fun value => 0 ≤ value ∧ value ≤ maxOmitTime
  serverAffinity : Passes j "server_affinity" fun value => 0 ≤ value ∧ value ≤ 1024
  time : Passes j "time" fun value => 0 ≤ value ∧ value ≤ maxTime

def storeTimes (j : Node Int) (test : Test) : Test :=
  { test with
    omitTime := valueOr j "omit" test.omitTime
    serverAffinity := valueOr j "server_affinity" test.serverAffinity
    duration := valueOr j "time" test.duration }

theorem reads_times (j : Node Int) :
    Reads (readTimes j) (fun _ => TimesPass j) (storeTimes j) := by
  have omitTime := reads_int j "omit" (fun value => 0 ≤ value ∧ value ≤ maxOmitTime) .IEOMIT
    Test.omitTime (fun test value => { test with omitTime := value }) fun _ => rfl
  have affinity := reads_int j "server_affinity" (fun value => 0 ≤ value ∧ value ≤ 1024)
    .IEAFFINITY Test.serverAffinity (fun test value => { test with serverAffinity := value }) fun _ => rfl
  have time := reads_int j "time" (fun value => 0 ≤ value ∧ value ≤ maxTime) .IEDURATION
    Test.duration (fun test value => { test with duration := value }) fun _ => rfl
  exact ((omitTime.comp affinity).comp time).of_iff fun test =>
    ⟨fun ⟨⟨omitTime, affinity⟩, time⟩ => ⟨omitTime, affinity, time⟩,
      fun passes => ⟨⟨passes.omitTime, passes.serverAffinity⟩, passes.time⟩⟩

/-- `num` and `blockcount`. -/
structure AmountsPass (j : Node Int) : Prop where
  num : Passes j "num" fun value => 0 ≤ value
  blockcount : Passes j "blockcount" fun value => 0 ≤ value

def storeAmounts (j : Node Int) (test : Test) : Test :=
  { test with
    settings.bytes := amountOr j "num" 0
    settings.blocks := amountOr j "blockcount" 0 }

theorem reads_amounts (j : Node Int) :
    Reads (readAmounts j) (fun _ => AmountsPass j) (storeAmounts j) := by
  have noBytes : Reads (fun reading => { reading with test.settings.bytes := 0 }) (fun _ => True)
      (fun test => { test with settings.bytes := 0 }) :=
    reads_effect (fun _ => rfl) fun _ => rfl
  have noBlocks : Reads (fun reading => { reading with test.settings.blocks := 0 }) (fun _ => True)
      (fun test => { test with settings.blocks := 0 }) :=
    reads_effect (fun _ => rfl) fun _ => rfl
  have num := reads_amount j "num" Settings.bytes (fun settings value => { settings with bytes := value })
    fun _ => rfl
  have blockcount := reads_amount j "blockcount" Settings.blocks
    (fun settings value => { settings with blocks := value }) fun _ => rfl
  exact (((noBytes.comp num).comp noBlocks).comp blockcount).of_iff fun test =>
    ⟨fun ⟨⟨⟨_, num⟩, _⟩, blockcount⟩ => ⟨num, blockcount⟩,
      fun passes => ⟨⟨⟨trivial, passes.num⟩, trivial⟩, passes.blockcount⟩⟩

/-- `MSS`, `parallel`, `window` and `len`. -/
structure StreamsPass (j : Node Int) : Prop where
  mss : Passes j "MSS" fun value => 0 ≤ value ∧ value ≤ maxMss
  parallel : Passes j "parallel" fun value => 1 ≤ value ∧ value ≤ maxStreams
  window : Passes j "window" fun value => 0 ≤ value ∧ value ≤ maxTcpBuffer
  len : Passes j "len" fun value => 0 ≤ value

/-- The direction the document asks for, as the server sees it. -/
def modeOr (j : Node Int) (old : Mode) : Mode :=
  if hasBool j "bidirectional" then .BIDIRECTIONAL else if hasBool j "reverse" then .SENDER else old

def storeStreams (j : Node Int) (test : Test) : Test :=
  { test with
    mode := modeOr j test.mode
    noDelay := if hasBool j "nodelay" then 1 else test.noDelay
    numStreams := valueOr j "parallel" test.numStreams
    reverse := if hasBool j "reverse" then 1 else test.reverse
    bidirectional := if hasBool j "bidirectional" then 1 else test.bidirectional
    settings :=
      { test.settings with
        mss := valueOr j "MSS" test.settings.mss
        socketBufsize := valueOr j "window" test.settings.socketBufsize
        blksize := valueOr j "len" test.settings.blksize } }

theorem reads_streams (j : Node Int) :
    Reads (readStreams j) (fun _ => StreamsPass j) (storeStreams j) := by
  have mss := reads_int j "MSS" (fun value => 0 ≤ value ∧ value ≤ maxMss) .IEMSS
    (fun test => test.settings.mss) (fun test value => { test with settings.mss := value })
    fun _ => rfl
  have nodelay := reads_when (hasBool j "nodelay") fun test => { test with noDelay := 1 }
  have parallel := reads_int j "parallel" (fun value => 1 ≤ value ∧ value ≤ maxStreams)
    .IENUMSTREAMS Test.numStreams (fun test value => { test with numStreams := value })
    fun _ => rfl
  have reverse := reads_when (hasBool j "reverse") setTestReverse
  have bidirectional := reads_when (hasBool j "bidirectional") setTestBidirectional
  have window := reads_int j "window" (fun value => 0 ≤ value ∧ value ≤ maxTcpBuffer) .IEBUFSIZE
    (fun test => test.settings.socketBufsize)
    (fun test value => { test with settings.socketBufsize := value }) fun _ => rfl
  have len := reads_int j "len" (fun value => 0 ≤ value) .IEBLOCKSIZE
    (fun test => test.settings.blksize) (fun test value => { test with settings.blksize := value })
    fun _ => rfl
  have all := (((((mss.comp nodelay).comp parallel).comp reverse).comp bidirectional).comp
    window).comp len
  refine (all.of_iff fun test =>
    ⟨fun ⟨⟨⟨⟨⟨⟨mss, _⟩, parallel⟩, _⟩, _⟩, window⟩, len⟩ => ⟨mss, parallel, window, len⟩,
      fun passes => ⟨⟨⟨⟨⟨⟨passes.mss, trivial⟩, passes.parallel⟩, trivial⟩, trivial⟩,
        passes.window⟩, passes.len⟩⟩).of_eq fun test => ?_
  simp only [storeStreams, modeOr]
  cases hasBool j "nodelay" <;> cases hasBool j "reverse" <;> cases hasBool j "bidirectional" <;>
    rfl

/-- `gso`, `gso_dg_size`, `gso_bf_size`, `gro` and `gro_bf_size`. -/
structure OffloadPass (j : Node Int) : Prop where
  gso : Passes j "gso" fun value => 0 ≤ value
  gsoDgSize : Passes j "gso_dg_size" fun value => 0 ≤ value
  gsoBfSize : Passes j "gso_bf_size" fun value => 0 ≤ value
  gro : Passes j "gro" fun value => 0 ≤ value ∧ value ≤ 1
  groBfSize : Passes j "gro_bf_size" fun value => 0 ≤ value

def storeSegments (j : Node Int) (test : Test) : Test :=
  { test with
    settings :=
      { test.settings with
        gso := valueOr j "gso" test.settings.gso
        gsoDgSize := valueOr j "gso_dg_size" test.settings.gsoDgSize
        gsoBfSize := valueOr j "gso_bf_size" test.settings.gsoBfSize } }

def storeOffload (j : Node Int) (test : Test) : Test :=
  let derived := deriveSegmentSize (storeSegments j test)
  { derived with
    settings :=
      { derived.settings with
        gro := valueOr j "gro" derived.settings.gro
        groBfSize := valueOr j "gro_bf_size" derived.settings.groBfSize } }

theorem reads_offload (j : Node Int) :
    Reads (readOffload j) (fun _ => OffloadPass j) (storeOffload j) := by
  have gso := reads_setting j "gso" Settings.gso
    (fun settings value => { settings with gso := value }) fun _ => rfl
  have gsoDgSize := reads_setting j "gso_dg_size" Settings.gsoDgSize
    (fun settings value => { settings with gsoDgSize := value }) fun _ => rfl
  have gsoBfSize := reads_setting j "gso_bf_size" Settings.gsoBfSize
    (fun settings value => { settings with gsoBfSize := value }) fun _ => rfl
  have derive : Reads (fun reading => { reading with test := deriveSegmentSize reading.test })
      (fun _ => True) deriveSegmentSize :=
    reads_effect (fun _ => rfl) fun _ => rfl
  have gro := reads_int j "gro" (fun value => 0 ≤ value ∧ value ≤ 1) .IERECVPARAMS
    (fun test => test.settings.gro) (fun test value => { test with settings.gro := value })
    fun _ => rfl
  have groBfSize := reads_setting j "gro_bf_size" Settings.groBfSize
    (fun settings value => { settings with groBfSize := value }) fun _ => rfl
  have all := ((((gso.comp gsoDgSize).comp gsoBfSize).comp derive).comp gro).comp groBfSize
  exact all.of_iff fun test =>
    ⟨fun ⟨⟨⟨⟨⟨gso, gsoDgSize⟩, gsoBfSize⟩, _⟩, gro⟩, groBfSize⟩ =>
        ⟨gso, gsoDgSize, gsoBfSize, gro, groBfSize⟩,
      fun passes => ⟨⟨⟨⟨⟨passes.gso, passes.gsoDgSize⟩, passes.gsoBfSize⟩, trivial⟩, passes.gro⟩,
        passes.groBfSize⟩⟩

/-- `bandwidth`, `fqrate`, `pacing_timer`, `burst` and `TOS`. -/
structure PacingPass (j : Node Int) : Prop where
  bandwidth : Passes j "bandwidth" fun value => 0 ≤ value
  fqrate : Passes j "fqrate" fun value => 0 ≤ value
  pacingTimer : Passes j "pacing_timer" fun value => 0 ≤ value
  burst : Passes j "burst" fun value => 0 < value ∧ value ≤ maxBurst
  tos : Passes j "TOS" fun value => 0 ≤ value ∧ value ≤ 255

def storePacing (j : Node Int) (test : Test) : Test :=
  { test with
    settings :=
      { test.settings with
        rate := amountOr j "bandwidth" test.settings.rate
        fqrate := amountOr j "fqrate" test.settings.fqrate
        pacingTimer := valueOr j "pacing_timer" test.settings.pacingTimer
        burst := valueOr j "burst" test.settings.burst
        tos := valueOr j "TOS" test.settings.tos } }

theorem reads_pacing (j : Node Int) :
    Reads (readPacing j) (fun _ => PacingPass j) (storePacing j) := by
  have bandwidth := reads_amount j "bandwidth" Settings.rate
    (fun settings value => { settings with rate := value }) fun _ => rfl
  have fqrate := reads_amount j "fqrate" Settings.fqrate
    (fun settings value => { settings with fqrate := value }) fun _ => rfl
  have pacingTimer := reads_setting j "pacing_timer" Settings.pacingTimer
    (fun settings value => { settings with pacingTimer := value }) fun _ => rfl
  have burst := reads_int j "burst" (fun value => 0 < value ∧ value ≤ maxBurst) .IEBURST
    (fun test => test.settings.burst) (fun test value => { test with settings.burst := value })
    fun _ => rfl
  have tos := reads_int j "TOS" (fun value => 0 ≤ value ∧ value ≤ 255) .IEBADTOS
    (fun test => test.settings.tos) (fun test value => { test with settings.tos := value })
    fun _ => rfl
  exact ((((bandwidth.comp fqrate).comp pacingTimer).comp burst).comp tos).of_iff fun test =>
    ⟨fun ⟨⟨⟨⟨bandwidth, fqrate⟩, pacingTimer⟩, burst⟩, tos⟩ =>
        ⟨bandwidth, fqrate, pacingTimer, burst, tos⟩,
      fun passes => ⟨⟨⟨⟨passes.bandwidth, passes.fqrate⟩, passes.pacingTimer⟩, passes.burst⟩,
        passes.tos⟩⟩

def storeFlags (j : Node Int) (test : Test) : Test :=
  { test with
    getServerOutput := flagOr j "get_server_output" test.getServerOutput
    udpCounters64bit := flagOr j "udp_counters_64bit" test.udpCounters64bit
    repeatingPayload := flagOr j "repeating_payload" test.repeatingPayload
    zerocopy := truthOr j "zerocopy" test.zerocopy
    settings :=
      { test.settings with
        dontFragment := truthOr j "dont_fragment" test.settings.dontFragment
        skipRxCopy := truthOr j "skip_rx_copy" test.settings.skipRxCopy } }

theorem reads_flags (j : Node Int) : Reads (readFlags j) (fun _ => True) (storeFlags j) := by
  have output := reads_when (getNumber j "get_server_output").isSome
    fun test => { test with getServerOutput := 1 }
  have counters := reads_when (getNumber j "udp_counters_64bit").isSome
    fun test => { test with udpCounters64bit := 1 }
  have payload := reads_when (getNumber j "repeating_payload").isSome
    fun test => { test with repeatingPayload := 1 }
  have zerocopy := reads_truth j "zerocopy" Test.zerocopy
    (fun test value => { test with zerocopy := value }) fun _ => rfl
  have dontFragment := reads_truth j "dont_fragment" (fun test => test.settings.dontFragment)
    (fun test value => { test with settings.dontFragment := value }) fun _ => rfl
  have skipRxCopy := reads_truth j "skip_rx_copy" (fun test => test.settings.skipRxCopy)
    (fun test value => { test with settings.skipRxCopy := value }) fun _ => rfl
  have all := ((((output.comp counters).comp payload).comp zerocopy).comp dontFragment).comp
    skipRxCopy
  refine (all.of_iff fun test => by simp).of_eq fun test => ?_
  simp only [storeFlags, flagOr]
  cases (getNumber j "get_server_output").isSome <;>
    cases (getNumber j "udp_counters_64bit").isSome <;>
    cases (getNumber j "repeating_payload").isSome <;> rfl

/-! ### The document as a whole -/

/-- Every number of the document is in its range. -/
structure DocumentPasses (j : Node Int) : Prop where
  times : TimesPass j
  amounts : AmountsPass j
  streams : StreamsPass j
  offload : OffloadPass j
  pacing : PacingPass j

/-- The test with everything the document says. -/
def store (j : Node Int) (test : Test) : Test :=
  storeFlags j (storePacing j (storeOffload j (storeStreams j (storeAmounts j (storeTimes j
    { test with protocol := protocolOr j test.protocol })))))

theorem reads_document (j : Node Int) :
    Reads (fun reading => readFlags j (readPacing j (readOffload j (readStreams j (readAmounts j
        (readTimes j (readProtocol j reading)))))))
      (fun test => (hasBool j "udp" = true → test.diskfileName = false) ∧ DocumentPasses j)
      (store j) :=
  ((((((reads_protocol j).comp (reads_times j)).comp (reads_amounts j)).comp
    (reads_streams j)).comp (reads_offload j)).comp (reads_pacing j)).comp (reads_flags j)
  |>.of_iff fun _ =>
    ⟨fun ⟨⟨⟨⟨⟨⟨file, times⟩, amounts⟩, streams⟩, offload⟩, pacing⟩, _⟩ =>
        ⟨file, times, amounts, streams, offload, pacing⟩,
      fun ⟨file, passes⟩ => ⟨⟨⟨⟨⟨⟨file, passes.times⟩, passes.amounts⟩, passes.streams⟩,
        passes.offload⟩, passes.pacing⟩, trivial⟩⟩

/-- The limits of the server. -/
def WithinLimits (test : Test) : Prop :=
  ¬ (0 < test.maxServerDuration ∧
      (test.maxServerDuration < test.duration + test.omitTime ∨ test.duration = 0)) ∧
    ¬ (test.settings.bitrateLimit ≠ 0 ∧
      test.settings.bitrateLimit < totalRequestedRate test test.settings.rate) ∧
    ¬ (test.settings.bitrateLimit ≠ 0 ∧
      test.settings.bitrateLimit < totalRequestedRate test test.settings.fqrate)

theorem reads_limits : Reads checkLimits WithinLimits id := by
  refine ⟨fun reading => ?_, fun reading _ => checkLimits_test reading⟩
  simp only [checkLimits, WithinLimits]
  split_ifs <;> simp_all [Reading.reject]

/-- When `get_parameters` succeeds. -/
structure Accepts (j : Node Int) (hasSendfile : Bool) (test : Test) : Prop where
  file : hasBool j "udp" = true → test.diskfileName = false
  numbers : DocumentPasses j
  block : blksizeError (store j test) = none
  limits : WithinLimits (alignSegments (store j test))
  sendfile : ¬ ((alignSegments (store j test)).zerocopy = 1 ∧
    (alignSegments (store j test)).mode ≠ .RECEIVER ∧ ¬ hasSendfile)

/-- The checks behind the fields: a block size that suits, the limits, and `sendfile`. -/
def finish (hasSendfile : Bool) (reading : Reading) : Reading :=
  match blksizeError reading.test with
  | some error => reading.reject error
  | none =>
      let limited := checkLimits { reading with test := alignSegments reading.test }
      if limited.test.zerocopy = 1 ∧ limited.test.mode ≠ .RECEIVER ∧ ¬ hasSendfile then
        limited.reject .IENOSENDFILE
      else limited

theorem reads_finish (hasSendfile : Bool) :
    Reads (finish hasSendfile)
      (fun test => blksizeError test = none ∧ WithinLimits (alignSegments test) ∧
        ¬ ((alignSegments test).zerocopy = 1 ∧ (alignSegments test).mode ≠ .RECEIVER ∧
          ¬ hasSendfile))
      alignSegments := by
  refine ⟨fun reading => ?_, fun reading suits => ?_⟩
  · rw [finish]
    cases suits : blksizeError reading.test with
    | some error => simp [Reading.reject]
    | none =>
        dsimp only
        rw [checkLimits_test]
        split_ifs with unsupported
        · exact ⟨nofun, fun ⟨_, _, _, supported⟩ => absurd unsupported supported⟩
        · rw [reads_limits.accepted]
          exact ⟨fun ⟨r, limits⟩ => ⟨r, rfl, limits, unsupported⟩,
            fun ⟨r, _, limits, _⟩ => ⟨r, limits⟩⟩
  · obtain ⟨block, limits, sendfile⟩ := suits
    rw [finish, block]
    dsimp only
    rw [checkLimits_test, if_neg sendfile, checkLimits_test]

theorem reads_getParameters (j : Node Int) (hasSendfile : Bool) (test : Test) :
    ((getParameters (some j) hasSendfile test).r = 0 ↔ Accepts j hasSendfile test) ∧
      (Accepts j hasSendfile test →
        (getParameters (some j) hasSendfile test).test = alignSegments (store j test)) := by
  have reads := (reads_document j).comp (reads_finish hasSendfile)
  have same : getParameters (some j) hasSendfile test =
      finish hasSendfile (readFlags j (readPacing j (readOffload j (readStreams j (readAmounts j
        (readTimes j (readProtocol j ⟨0, none, test⟩))))))) := rfl
  rw [same]
  constructor
  · rw [reads.accepted ⟨0, none, test⟩]
    exact ⟨fun ⟨_, ⟨file, numbers⟩, block, limits, sendfile⟩ =>
        ⟨file, numbers, block, limits, sendfile⟩,
      fun accepts => ⟨rfl, ⟨accepts.file, accepts.numbers⟩, accepts.block, accepts.limits,
        accepts.sendfile⟩⟩
  · intro accepts
    exact reads.test ⟨0, none, test⟩ ⟨⟨accepts.file, accepts.numbers⟩, accepts.block,
      accepts.limits, accepts.sendfile⟩

/-! ### All fields but the segment sizes -/

def withSegments (test : Test) (gsoDgSize gsoBfSize : Int) : Test :=
  { test with
    settings := { test.settings with gsoDgSize := gsoDgSize, gsoBfSize := gsoBfSize } }

/-- The segment sizes are all that differs. -/
def SameButSegments (before after : Test) : Prop :=
  ∃ gsoDgSize gsoBfSize, after = withSegments before gsoDgSize gsoBfSize

theorem deriveSegmentSize_same (test : Test) : SameButSegments test (deriveSegmentSize test) := by
  rw [deriveSegmentSize]
  split_ifs
  · exact ⟨_, _, rfl⟩
  · exact ⟨_, test.settings.gsoBfSize, rfl⟩
  · exact ⟨test.settings.gsoDgSize, test.settings.gsoBfSize, rfl⟩

theorem alignSegments_same (test : Test) : SameButSegments test (alignSegments test) := by
  rw [alignSegments]
  split_ifs
  · exact ⟨_, _, rfl⟩
  · exact ⟨_, test.settings.gsoBfSize, rfl⟩
  · exact ⟨test.settings.gsoDgSize, test.settings.gsoBfSize, rfl⟩

theorem SameButSegments.trans {before middle after : Test} (one : SameButSegments before middle)
    (two : SameButSegments middle after) : SameButSegments before after := by
  obtain ⟨_, _, rfl⟩ := one
  obtain ⟨gsoDgSize, gsoBfSize, rfl⟩ := two
  exact ⟨gsoDgSize, gsoBfSize, rfl⟩

/-- What is stored behind the segment sizes. -/
def storeRest (j : Node Int) (test : Test) : Test :=
  storeFlags j (storePacing j
    { test with
      settings :=
        { test.settings with
          gro := valueOr j "gro" test.settings.gro
          groBfSize := valueOr j "gro_bf_size" test.settings.groBfSize } })

/-- What is stored before any segment size is derived. -/
def storeFirst (j : Node Int) (test : Test) : Test :=
  storeSegments j (storeStreams j (storeAmounts j (storeTimes j
    { test with protocol := protocolOr j test.protocol })))

/-- The test with everything the document says and nothing that is derived from it. -/
def plain (j : Node Int) (test : Test) : Test := storeRest j (storeFirst j test)

theorem store_eq (j : Node Int) (test : Test) :
    store j test = storeRest j (deriveSegmentSize (storeFirst j test)) := rfl

theorem plain_same_store (j : Node Int) (test : Test) :
    SameButSegments (plain j test) (store j test) := by
  obtain ⟨gsoDgSize, gsoBfSize, same⟩ := deriveSegmentSize_same (storeFirst j test)
  refine ⟨gsoDgSize, gsoBfSize, ?_⟩
  rw [store_eq, same]
  rfl

theorem plain_same (j : Node Int) (test : Test) :
    SameButSegments (plain j test) (alignSegments (store j test)) :=
  (plain_same_store j test).trans (alignSegments_same _)

/-- Acceptance does not depend on segment sizes. -/
theorem accepts_iff {j : Node Int} {hasSendfile : Bool} {test : Test} :
    Accepts j hasSendfile test ↔
      (hasBool j "udp" = true → test.diskfileName = false) ∧ DocumentPasses j ∧
      blksizeError (plain j test) = none ∧ WithinLimits (plain j test) ∧
      ¬ ((plain j test).zerocopy = 1 ∧ (plain j test).mode ≠ .RECEIVER ∧ ¬ hasSendfile) := by
  obtain ⟨_, _, stored⟩ := plain_same_store j test
  obtain ⟨_, _, aligned⟩ := plain_same j test
  constructor
  · rintro ⟨file, numbers, block, limits, sendfile⟩
    rw [stored] at block
    rw [aligned] at limits sendfile
    exact ⟨file, numbers, block, limits, sendfile⟩
  · rintro ⟨file, numbers, block, limits, sendfile⟩
    refine ⟨file, numbers, ?_, ?_, ?_⟩
    · rw [stored]
      exact block
    · rw [aligned]
      exact limits
    · rw [aligned]
      exact sendfile

end IperfSwift.Params
