import IperfSwift.Client.Engine

/-!
Contract: the parameter document a client sends.

Owns: `send_parameters`, its members in their order and the condition of each;
what the other end finds under each name; and that the server reads a test back
from it that agrees with the client's.

A number goes through a `double` on its way, so only one of up to 53 bits arrives
as it is.

Does not own: the text of the document, which both ends agree on, and the
encryption of the credentials, whose result is an argument.
-/

set_option autoImplicit false

namespace IperfSwift.Client

open IperfSwift.Lib IperfSwift.CJson
open IperfSwift.Udp (Test Settings Mode Protocol cJSONGetObjectItem getNumber hasBool narrow
  alignSegments deriveSegmentSize maxOmitTime maxTime maxStreams maxTcpBuffer maxMss maxBlocksize)
open IperfSwift.Params

/-! ### Members -/

/-- The names `send_parameters` uses. There is no SCTP in this build. -/
inductive Key where
  | tcp | udp | omitTime | serverAffinity | time | num | blockcount | mss | nodelay | parallel
  | reverse | bidirectional | window | len | bandwidth | fqrate | pacingTimer | burst
  | gso | gsoDgSize | gsoBfSize | gro | groBfSize | tos | flowlabel | title | extraData
  | congestion | congestionUsed | getServerOutput | udpCounters64bit | repeatingPayload
  | zerocopy | dontFragment | authtoken | skipRxCopy | clientVersion
deriving DecidableEq, Repr

namespace Key

def name : Key → String
  | tcp => "tcp"
  | udp => "udp"
  | omitTime => "omit"
  | serverAffinity => "server_affinity"
  | time => "time"
  | num => "num"
  | blockcount => "blockcount"
  | mss => "MSS"
  | nodelay => "nodelay"
  | parallel => "parallel"
  | reverse => "reverse"
  | bidirectional => "bidirectional"
  | window => "window"
  | len => "len"
  | bandwidth => "bandwidth"
  | fqrate => "fqrate"
  | pacingTimer => "pacing_timer"
  | burst => "burst"
  | gso => "gso"
  | gsoDgSize => "gso_dg_size"
  | gsoBfSize => "gso_bf_size"
  | gro => "gro"
  | groBfSize => "gro_bf_size"
  | tos => "TOS"
  | flowlabel => "flowlabel"
  | title => "title"
  | extraData => "extra_data"
  | congestion => "congestion"
  | congestionUsed => "congestion_used"
  | getServerOutput => "get_server_output"
  | udpCounters64bit => "udp_counters_64bit"
  | repeatingPayload => "repeating_payload"
  | zerocopy => "zerocopy"
  | dontFragment => "dont_fragment"
  | authtoken => "authtoken"
  | skipRxCopy => "skip_rx_copy"
  | clientVersion => "client_version"

/-- In the order in which the members are added. -/
def all : List Key :=
  [tcp, udp, omitTime, serverAffinity, time, num, blockcount, mss, nodelay, parallel, reverse,
    bidirectional, window, len, bandwidth, fqrate, pacingTimer, burst, gso, gsoDgSize, gsoBfSize,
    gro, groBfSize, tos, flowlabel, title, extraData, congestion, congestionUsed, getServerOutput,
    udpCounters64bit, repeatingPayload, zerocopy, dontFragment, authtoken, skipRxCopy,
    clientVersion]

theorem mem_all (key : Key) : key ∈ all := by
  cases key <;> decide

/-- No two names agree up to case, so a lookup finds the member it is meant for. -/
theorem name_unique :
    ∀ wanted ∈ all, ∀ key ∈ all,
      sameIgnoringCase (bytesOf wanted.name) ((bytesOf key.name).takeWhile (· ≠ 0)) = true ↔
        key = wanted := by
  decide +kernel

end Key

/-- `cJSON_AddNumberToObject`, as the `valueint` the other end reads. -/
def number (value : Int) : Node Int := .number (Double.finite (roundBits value)).valueint

/-- `if (value) cJSON_AddNumberToObject(…)`. -/
def numberIf (value : Int) : Option (Node Int) := if value = 0 then none else some (number value)

/-- `if (condition) cJSON_AddTrueToObject(…)`. -/
def trueIf (condition : Bool) : Option (Node Int) := if condition then some (.bool true) else none

/-- Each member, if there is one. -/
def member (test : Test) (texts : Texts) (flowlabel : Int) : Key → Option (Node Int)
  | .tcp => trueIf (test.protocol = .Ptcp)
  | .udp => trueIf (test.protocol = .Pudp)
  | .omitTime => some (number test.omitTime)
  | .serverAffinity => if test.serverAffinity = -1 then none else some (number test.serverAffinity)
  | .time => some (number test.duration)
  | .num => some (number test.settings.bytes.toNat)
  | .blockcount => some (number test.settings.blocks.toNat)
  | .mss => numberIf test.settings.mss
  | .nodelay => trueIf (test.noDelay ≠ 0)
  | .parallel => some (number test.numStreams)
  | .reverse => trueIf (test.reverse ≠ 0)
  | .bidirectional => trueIf (test.bidirectional ≠ 0)
  | .window => numberIf test.settings.socketBufsize
  | .len => numberIf test.settings.blksize
  | .bandwidth => numberIf test.settings.rate.toNat
  | .fqrate => numberIf test.settings.fqrate.toNat
  | .pacingTimer => numberIf test.settings.pacingTimer
  | .burst => numberIf test.settings.burst
  | .gso => if test.protocol = .Pudp then some (number test.settings.gso) else none
  | .gsoDgSize => if test.protocol = .Pudp then some (number test.settings.gsoDgSize) else none
  | .gsoBfSize => if test.protocol = .Pudp then some (number test.settings.gsoBfSize) else none
  | .gro => if test.protocol = .Pudp then some (number test.settings.gro) else none
  | .groBfSize => if test.protocol = .Pudp then some (number test.settings.groBfSize) else none
  | .tos => numberIf test.settings.tos
  | .flowlabel => numberIf flowlabel
  | .title => texts.title.map .string
  | .extraData => texts.extraData.map .string
  | .congestion => texts.congestion.map .string
  | .congestionUsed => texts.congestionUsed.map .string
  | .getServerOutput => numberIf test.getServerOutput
  | .udpCounters64bit => numberIf test.udpCounters64bit
  | .repeatingPayload => numberIf test.repeatingPayload
  | .zerocopy => numberIf test.zerocopy
  | .dontFragment => numberIf test.settings.dontFragment
  | .authtoken => texts.authtoken.map .string
  | .skipRxCopy => numberIf test.settings.skipRxCopy
  | .clientVersion => some (.string (bytesOf "3.22"))

def document (test : Test) (texts : Texts) (flowlabel : Int) : Node Int :=
  .object <| Key.all.filterMap fun key =>
    (member test texts flowlabel key).map (bytesOf key.name, ·)

/-- No option sets a title, extra data or a congestion control. -/
abbrev noTexts : Texts := ⟨none, none, none, none, none⟩

/-- `send_parameters`, or nothing when the credentials could not be encoded: `encoded` is what
`encode_auth_setting` gives. No option sets a flow label. -/
def sendParameters (encoded : Option (List Byte)) (engine : Engine) : Option (Node Int) :=
  if engine.clientUsername.isSome ∧ engine.clientPassword.isSome ∧ engine.clientRsaPubkey.isSome then
    encoded.map fun authtoken => document engine.test { noTexts with authtoken := some authtoken } 0
  else some (document engine.test noTexts 0)

/-! ### Lookups -/

/-- A lookup finds the member of that name. -/
theorem item_document (test : Test) (texts : Texts) (flowlabel : Int) (key : Key) :
    cJSONGetObjectItem (document test texts flowlabel) (bytesOf key.name) =
      member test texts flowlabel key := by
  rw [document, cJSONGetObjectItem, List.find?_filterMap]
  cases found : Key.all.find? _ with
  | none =>
      have missing := List.find?_eq_none.mp found key (Key.mem_all key)
      have same := (Key.name_unique key key.mem_all key key.mem_all).mpr rfl
      cases value : member test texts flowlabel key with
      | none => rfl
      | some item =>
          rw [value] at missing
          exact absurd same missing
  | some other =>
      obtain ⟨matching, listed⟩ :=
        And.intro (List.find?_some found) (List.mem_of_find?_eq_some found)
      cases value : member test texts flowlabel other with
      | none => simp [value] at matching
      | some item =>
          have same : sameIgnoringCase (bytesOf key.name)
              ((bytesOf other.name).takeWhile (· ≠ 0)) = true := by
            simpa [value] using matching
          obtain rfl := (Key.name_unique key key.mem_all other listed).mp same
          simp [value]

/-! ### What the server finds -/

theorem number_eq {value : Int} (small : |value| ≤ 2 ^ 53) : number value = .number value := by
  have bounds := abs_le.mp small
  rw [number, roundBits_intCast small]
  exact congrArg Node.number (valueint_ofInt (by omega) (by omega))

/-- A flag of the engine. -/
abbrev IsFlag (value : Int) : Prop := value = 0 ∨ value = 1

/-- A member that stands for a value: it has the value, or there is none and it is the old one. -/
def Tells (j : Node Int) (name : String) (old value : Int) : Prop :=
  getNumber j name = some value ∨ getNumber j name = none ∧ value = old

section Item

variable {j : Node Int} {name : String} {old value : Int}

theorem tells_number (small : |value| ≤ 2 ^ 53)
    (item : cJSONGetObjectItem j (bytesOf name) = some (number value)) : Tells j name old value := by
  rw [Tells, getNumber, item, number_eq small]
  exact .inl rfl

theorem tells_none (item : cJSONGetObjectItem j (bytesOf name) = none) : Tells j name old old := by
  rw [Tells, getNumber, item]
  exact .inr ⟨rfl, rfl⟩

/-- A member that is missing stands for zero. -/
theorem tells_numberIf (small : |value| ≤ 2 ^ 53)
    (item : cJSONGetObjectItem j (bytesOf name) = numberIf value) : Tells j name 0 value := by
  rw [numberIf] at item
  split_ifs at item with zero
  · exact zero ▸ tells_none item
  · exact tells_number small item

/-- A default that is sent for UDP only. -/
theorem tells_udp {protocol : Protocol} (small : |value| ≤ 2 ^ 53)
    (item : cJSONGetObjectItem j (bytesOf name) =
      if protocol = .Pudp then some (number value) else none) : Tells j name value value := by
  split_ifs at item
  · exact tells_number small item
  · exact tells_none item

/-- A number that fits an `int` passes its check and arrives. -/
theorem Tells.read {valid : Int → Bool} (tells : Tells j name old value) (holds : valid value = true)
    (low : -2 ^ 31 ≤ value) (high : value < 2 ^ 31) :
    Passes j name valid ∧ valueOr j name old = value := by
  have fits : narrow value = value := Int.bmod_eq_of_le (by omega) (by omega)
  rcases tells with found | ⟨found, same⟩
  · simp [Passes, valueOr, found, holds, fits]
  · simp [Passes, valueOr, found, same]

theorem Tells.amount {amount : UInt64} (tells : Tells j name 0 amount.toNat) :
    Passes j name (fun value => 0 ≤ value) ∧ amountOr j name 0 = amount := by
  rcases tells with found | ⟨found, same⟩
  · simp [Passes, amountOr, found]
  · have none : amount = 0 := UInt64.toNat_inj.mp (by exact_mod_cast same)
    simp [Passes, amountOr, found, none]

theorem Tells.truth (tells : Tells j name 0 value) (flag : IsFlag value) :
    truthOr j name 0 = value := by
  rcases tells with found | ⟨found, same⟩
  · rcases flag with rfl | rfl <;> simp [truthOr, found]
  · simp [truthOr, found, same]

theorem isSome_numberIf (item : cJSONGetObjectItem j (bytesOf name) = numberIf value) :
    (getNumber j name).isSome = true ↔ value ≠ 0 := by
  rw [getNumber, item, numberIf]
  split_ifs with zero
  · simp [zero]
  · simp [zero, number]

theorem isSome_udp {protocol : Protocol}
    (item : cJSONGetObjectItem j (bytesOf name) =
      if protocol = .Pudp then some (number value) else none) :
    (getNumber j name).isSome = true ↔ protocol = .Pudp := by
  rw [getNumber, item]
  split_ifs with udp
  · simp [udp, number]
  · simp [udp]

theorem flagOr_numberIf (item : cJSONGetObjectItem j (bytesOf name) = numberIf value)
    (flag : IsFlag value) : flagOr j name 0 = value := by
  have found := isSome_numberIf item
  rcases flag with rfl | rfl
  · simp [flagOr, show (getNumber j name).isSome = false by simpa using found]
  · simp [flagOr, found.mpr one_ne_zero]

theorem hasBool_trueIf {condition : Bool}
    (item : cJSONGetObjectItem j (bytesOf name) = trueIf condition) :
    hasBool j name = condition := by
  cases condition <;> rw [hasBool, item] <;> rfl

theorem boolOr_trueIf (item : cJSONGetObjectItem j (bytesOf name) = trueIf (value ≠ 0))
    (flag : IsFlag value) : (if hasBool j name then 1 else 0) = value := by
  rw [hasBool_trueIf item]
  rcases flag with rfl | rfl <;> rfl

end Item

/-! ### Agreement -/

/-- `test->mode` goes with `test->reverse` and `test->bidirectional`. -/
def Directed (test : Test) : Prop :=
  (test.mode = .SENDER ∧ test.reverse = 0 ∧ test.bidirectional = 0) ∨
    (test.mode = .RECEIVER ∧ test.reverse = 1 ∧ test.bidirectional = 0) ∨
    (test.mode = .BIDIRECTIONAL ∧ test.reverse = 0 ∧ test.bidirectional = 1)

/-- What a client tells about a test: every field in its range, and the default where there is no
option. -/
structure Sendable (test : Test) : Prop where
  omitTime : 0 ≤ test.omitTime ∧ test.omitTime ≤ maxOmitTime
  duration : 0 ≤ test.duration ∧ test.duration ≤ maxTime
  numStreams : 1 ≤ test.numStreams ∧ test.numStreams ≤ maxStreams
  bytes : test.settings.bytes.toNat ≤ 2 ^ 53
  rate : test.settings.rate.toNat ≤ 2 ^ 53
  mss : 0 ≤ test.settings.mss ∧ test.settings.mss ≤ maxMss
  socketBufsize : 0 ≤ test.settings.socketBufsize ∧ test.settings.socketBufsize ≤ maxTcpBuffer
  tos : 0 ≤ test.settings.tos ∧ test.settings.tos ≤ 255
  blksize : 0 < test.settings.blksize
  block : Udp.blksizeError test = none
  direction : Directed test
  noDelay : IsFlag test.noDelay
  udpCounters64bit : IsFlag test.udpCounters64bit
  repeatingPayload : IsFlag test.repeatingPayload
  getServerOutput : IsFlag test.getServerOutput
  dontFragment : IsFlag test.settings.dontFragment
  serverAffinity : test.serverAffinity = -1
  maxServerDuration : test.maxServerDuration = 0
  diskfileName : test.diskfileName = false
  zerocopy : test.zerocopy = 0
  bitrateLimit : test.settings.bitrateLimit = 0
  blocks : test.settings.blocks = 0
  fqrate : test.settings.fqrate = 0
  pacingTimer : test.settings.pacingTimer = defaultPacingTimer
  burst : test.settings.burst = 0
  skipRxCopy : test.settings.skipRxCopy = 0
  gso : test.settings.gso = 0
  gsoDgSize : test.settings.gsoDgSize = 0
  gsoBfSize : test.settings.gsoBfSize = gsoBfMaxSize
  gro : test.settings.gro = 0
  groBfSize : test.settings.groBfSize = groBfMaxSize

/-- The direction as the other end sees it. -/
def mirrored : Mode → Mode
  | .SENDER => .RECEIVER
  | .RECEIVER => .SENDER
  | .BIDIRECTIONAL => .BIDIRECTIONAL

/-- Both ends hold the same test: all fields are the same but the direction. The client has no
texts, so there are none at the server either. -/
structure Agrees (client : Test) (server : Server) : Prop where
  test : server.test = { client with mode := mirrored client.mode }
  texts : server.texts = noTexts

theorem IsFlag.small {value : Int} (flag : IsFlag value) : |value| ≤ 2 ^ 53 := by
  rcases flag with rfl | rfl <;> decide

theorem small_of_le {value high : Int} (bounds : 0 ≤ value ∧ value ≤ high)
    (few : high ≤ 2 ^ 53) : |value| ≤ 2 ^ 53 := by
  rw [abs_le]
  omega

theorem small_of_toNat {amount : UInt64} (few : amount.toNat ≤ 2 ^ 53) :
    |(amount.toNat : Int)| ≤ 2 ^ 53 :=
  @small_of_le _ (2 ^ 53) ⟨Int.natCast_nonneg _, by exact_mod_cast few⟩ le_rfl

/-- The document of a client without credentials. -/
def sent (test : Test) : Node Int := document test noTexts 0

section Sent

variable {test : Test}

theorem item_sent (test : Test) (key : Key) :
    cJSONGetObjectItem (sent test) (bytesOf key.name) = member test noTexts 0 key :=
  item_document test _ 0 key

/-- A number in its range. -/
theorem read_number (key : Key) {old value high : Int} {valid : Int → Bool}
    (item : member test noTexts 0 key = some (number value))
    (bounds : 0 ≤ value ∧ value ≤ high) (few : high < 2 ^ 31) (holds : valid value = true) :
    Passes (sent test) key.name valid ∧ valueOr (sent test) key.name old = value :=
  (tells_number (small_of_le bounds (by omega)) ((item_sent test key).trans item)).read holds
    (by omega) (by omega)

/-- The same for one that is missing when it is zero. -/
theorem read_numberIf (key : Key) {value high : Int} {valid : Int → Bool}
    (item : member test noTexts 0 key = numberIf value)
    (bounds : 0 ≤ value ∧ value ≤ high) (few : high < 2 ^ 31) (holds : valid value = true) :
    Passes (sent test) key.name valid ∧ valueOr (sent test) key.name 0 = value :=
  (tells_numberIf (small_of_le bounds (by omega)) ((item_sent test key).trans item)).read holds
    (by omega) (by omega)

/-- The same for a default that is sent for UDP only. -/
theorem read_udp (key : Key) {value : Int} (default : Int) {valid : Int → Bool}
    (item : member test noTexts 0 key =
      if test.protocol = .Pudp then some (number value) else none) (same : value = default)
    (bounds : 0 ≤ default ∧ default ≤ 65507) (holds : valid default = true) :
    Passes (sent test) key.name valid ∧ valueOr (sent test) key.name default = value := by
  subst same
  exact (tells_udp (small_of_le bounds (by decide)) ((item_sent test key).trans item)).read holds
    (by omega) (by omega)

theorem read_none (key : Key) {old : Int} {valid : Int → Bool}
    (item : member test noTexts 0 key = none) :
    Passes (sent test) key.name valid ∧ valueOr (sent test) key.name old = old := by
  have absent : getNumber (sent test) key.name = none := by
    rw [getNumber, item_sent, item]
  simp [Passes, valueOr, absent]

theorem Sendable.blksize_le (sendable : Sendable test) : test.settings.blksize ≤ maxBlocksize := by
  have block := sendable.block
  rw [Udp.blksizeError] at block
  split_ifs at block with large
  rw [not_or, not_lt] at large
  exact large.2

theorem Sendable.times (sendable : Sendable test) :
    TimesPass (sent test) ∧ valueOr (sent test) "omit" OMIT = test.omitTime ∧
      valueOr (sent test) "server_affinity" (-1) = test.serverAffinity ∧
      valueOr (sent test) "time" DURATION = test.duration := by
  have omitTime := @read_number test .omitTime OMIT _ _ (fun value => 0 ≤ value ∧ value ≤ maxOmitTime)
    rfl sendable.omitTime (by decide) (decide_eq_true sendable.omitTime)
  have affinity := @read_none test .serverAffinity (-1) (fun value => 0 ≤ value ∧ value ≤ 1024)
    (if_pos sendable.serverAffinity)
  have time := @read_number test .time DURATION _ _ (fun value => 0 ≤ value ∧ value ≤ maxTime) rfl
    sendable.duration (by decide) (decide_eq_true sendable.duration)
  exact ⟨⟨omitTime.1, affinity.1, time.1⟩, omitTime.2,
    affinity.2.trans sendable.serverAffinity.symm, time.2⟩

theorem Sendable.amounts (sendable : Sendable test) :
    AmountsPass (sent test) ∧ amountOr (sent test) "num" 0 = test.settings.bytes ∧
      amountOr (sent test) "blockcount" 0 = test.settings.blocks := by
  have num := (@tells_number _ _ 0 _ (small_of_toNat sendable.bytes) (item_sent test .num)).amount
  have blocks := (@tells_number _ _ 0 _ (small_of_toNat (by rw [sendable.blocks]; decide))
    (item_sent test .blockcount)).amount
  exact ⟨⟨num.1, blocks.1⟩, num.2, blocks.2⟩

theorem Sendable.streams (sendable : Sendable test) :
    StreamsPass (sent test) ∧ valueOr (sent test) "MSS" 0 = test.settings.mss ∧
      valueOr (sent test) "parallel" 1 = test.numStreams ∧
      valueOr (sent test) "window" 0 = test.settings.socketBufsize ∧
      valueOr (sent test) "len" defaultTcpBlksize = test.settings.blksize := by
  have mss := @read_numberIf test .mss _ _ (fun value => 0 ≤ value ∧ value ≤ maxMss) rfl sendable.mss
    (by decide) (decide_eq_true sendable.mss)
  have parallel := @read_number test .parallel 1 _ _ (fun value => 1 ≤ value ∧ value ≤ maxStreams) rfl
    ⟨zero_le_one.trans sendable.numStreams.1, sendable.numStreams.2⟩ (by decide)
    (decide_eq_true sendable.numStreams)
  have window := @read_numberIf test .window _ _ (fun value => 0 ≤ value ∧ value ≤ maxTcpBuffer) rfl
    sendable.socketBufsize (by decide) (decide_eq_true sendable.socketBufsize)
  have len := @read_number test .len defaultTcpBlksize _ _ (fun value => 0 ≤ value)
    (if_neg sendable.blksize.ne') ⟨sendable.blksize.le, sendable.blksize_le⟩ (by decide)
    (decide_eq_true sendable.blksize.le)
  exact ⟨⟨mss.1, parallel.1, window.1, len.1⟩, mss.2, parallel.2, window.2, len.2⟩

theorem Sendable.directions (sendable : Sendable test) :
    protocolOr (sent test) .Ptcp = test.protocol ∧ modeOr (sent test) .RECEIVER = mirrored test.mode ∧
      (if hasBool (sent test) "nodelay" then 1 else 0) = test.noDelay ∧
      (if hasBool (sent test) "reverse" then 1 else 0) = test.reverse ∧
      (if hasBool (sent test) "bidirectional" then 1 else 0) = test.bidirectional := by
  have udp := hasBool_trueIf (item_sent test .udp)
  have tcp := hasBool_trueIf (item_sent test .tcp)
  have reverse := hasBool_trueIf (item_sent test .reverse)
  have both := hasBool_trueIf (item_sent test .bidirectional)
  refine ⟨?_, ?_, boolOr_trueIf (item_sent test .nodelay) sendable.noDelay, ?_⟩
  · rw [protocolOr, show hasBool (sent test) "udp" = _ from udp,
      show hasBool (sent test) "tcp" = _ from tcp]
    cases test.protocol <;> rfl
  · rw [modeOr, show hasBool (sent test) "reverse" = _ from reverse,
      show hasBool (sent test) "bidirectional" = _ from both]
    rcases sendable.direction with ⟨mode, reverse, both⟩ | ⟨mode, reverse, both⟩ |
      ⟨mode, reverse, both⟩ <;> rw [mode, reverse, both] <;> rfl
  · rw [show hasBool (sent test) "reverse" = _ from reverse,
      show hasBool (sent test) "bidirectional" = _ from both]
    rcases sendable.direction with ⟨-, reverse, both⟩ | ⟨-, reverse, both⟩ |
      ⟨-, reverse, both⟩ <;> rw [reverse, both] <;> exact ⟨rfl, rfl⟩

theorem Sendable.offload (sendable : Sendable test) :
    OffloadPass (sent test) ∧ valueOr (sent test) "gso" 0 = test.settings.gso ∧
      valueOr (sent test) "gso_dg_size" 0 = test.settings.gsoDgSize ∧
      valueOr (sent test) "gso_bf_size" gsoBfMaxSize = test.settings.gsoBfSize ∧
      valueOr (sent test) "gro" 0 = test.settings.gro ∧
      valueOr (sent test) "gro_bf_size" groBfMaxSize = test.settings.groBfSize := by
  have gso := @read_udp test .gso _ 0 (fun value => 0 ≤ value) rfl sendable.gso (by decide) rfl
  have gsoDgSize := @read_udp test .gsoDgSize _ 0 (fun value => 0 ≤ value) rfl sendable.gsoDgSize
    (by decide) rfl
  have gsoBfSize := @read_udp test .gsoBfSize _ gsoBfMaxSize (fun value => 0 ≤ value) rfl
    sendable.gsoBfSize (by decide) (by decide)
  have gro := @read_udp test .gro _ 0 (fun value => 0 ≤ value ∧ value ≤ 1) rfl sendable.gro
    (by decide) rfl
  have groBfSize := @read_udp test .groBfSize _ groBfMaxSize (fun value => 0 ≤ value) rfl
    sendable.groBfSize (by decide) (by decide)
  exact ⟨⟨gso.1, gsoDgSize.1, gsoBfSize.1, gro.1, groBfSize.1⟩, gso.2, gsoDgSize.2, gsoBfSize.2,
    gro.2, groBfSize.2⟩

theorem Sendable.pacing (sendable : Sendable test) :
    PacingPass (sent test) ∧ amountOr (sent test) "bandwidth" 0 = test.settings.rate ∧
      amountOr (sent test) "fqrate" 0 = test.settings.fqrate ∧
      valueOr (sent test) "pacing_timer" defaultPacingTimer = test.settings.pacingTimer ∧
      valueOr (sent test) "burst" 0 = test.settings.burst ∧
      valueOr (sent test) "TOS" 0 = test.settings.tos := by
  have bandwidth := (tells_numberIf (small_of_toNat sendable.rate) (item_sent test .bandwidth)).amount
  have fqrate := (tells_numberIf (small_of_toNat (by rw [sendable.fqrate]; decide))
    (item_sent test .fqrate)).amount
  have timer := @read_number test .pacingTimer defaultPacingTimer defaultPacingTimer 1000
    (fun value => 0 ≤ value) (by rw [member, sendable.pacingTimer]; rfl) (by decide) (by decide) rfl
  have burst := @read_none test .burst 0 (fun value => 0 < value ∧ value ≤ Udp.maxBurst)
    (if_pos sendable.burst)
  have tos := @read_numberIf test .tos _ _ (fun value => 0 ≤ value ∧ value ≤ 255) rfl sendable.tos
    (by decide) (decide_eq_true sendable.tos)
  exact ⟨⟨bandwidth.1, fqrate.1, timer.1, burst.1, tos.1⟩, bandwidth.2, fqrate.2,
    timer.2.trans sendable.pacingTimer.symm, burst.2.trans sendable.burst.symm, tos.2⟩

theorem Sendable.flags (sendable : Sendable test) :
    flagOr (sent test) "get_server_output" 0 = test.getServerOutput ∧
      flagOr (sent test) "udp_counters_64bit" 0 = test.udpCounters64bit ∧
      flagOr (sent test) "repeating_payload" 0 = test.repeatingPayload ∧
      truthOr (sent test) "zerocopy" 0 = test.zerocopy ∧
      truthOr (sent test) "dont_fragment" 0 = test.settings.dontFragment ∧
      truthOr (sent test) "skip_rx_copy" 0 = test.settings.skipRxCopy := by
  have truth (key : Key) {value : Int} (flag : IsFlag value)
      (item : member test noTexts 0 key = numberIf value) :
      truthOr (sent test) key.name 0 = value :=
    (tells_numberIf flag.small ((item_sent test key).trans item)).truth flag
  exact ⟨flagOr_numberIf (item_sent test .getServerOutput) sendable.getServerOutput,
    flagOr_numberIf (item_sent test .udpCounters64bit) sendable.udpCounters64bit,
    flagOr_numberIf (item_sent test .repeatingPayload) sendable.repeatingPayload,
    truth .zerocopy (.inl sendable.zerocopy) rfl, truth .dontFragment sendable.dontFragment rfl,
    truth .skipRxCopy (.inl sendable.skipRxCopy) rfl⟩

/-- A fresh server without limits reads the client's test. -/
theorem Sendable.plain_fresh (sendable : Sendable test) (limit : Nat) :
    plain (sent test) (freshServer ⟨0, 0, false, limit⟩).test =
      { test with mode := mirrored test.mode } := by
  obtain ⟨-, omitTime, affinity, time⟩ := sendable.times
  obtain ⟨-, num, blocks⟩ := sendable.amounts
  obtain ⟨-, mss, parallel, window, len⟩ := sendable.streams
  obtain ⟨protocol, mode, nodelay, reverse, both⟩ := sendable.directions
  obtain ⟨-, gso, gsoDgSize, gsoBfSize, gro, groBfSize⟩ := sendable.offload
  obtain ⟨-, bandwidth, fqrate, timer, burst, tos⟩ := sendable.pacing
  obtain ⟨output, counters, payload, zerocopy, dontFragment, skipRxCopy⟩ := sendable.flags
  simp only [plain, storeRest, storeFlags, storePacing, storeFirst, storeSegments, storeStreams,
    storeAmounts, storeTimes, freshServer, omitTime, affinity, time, num, blocks, mss, parallel,
    window, len, protocol, mode, nodelay, reverse, both, gso, gsoDgSize, gsoBfSize, gro, groBfSize,
    bandwidth, fqrate, timer, burst, tos, output, counters, payload, zerocopy, dontFragment,
    skipRxCopy]
  rw [← sendable.maxServerDuration, ← sendable.diskfileName, ← sendable.bitrateLimit]

theorem Sendable.accepts_fresh (sendable : Sendable test) (limit : Nat) (hasSendfile : Bool) :
    Accepts (sent test) hasSendfile (freshServer ⟨0, 0, false, limit⟩).test := by
  have passes : DocumentPasses (sent test) :=
    ⟨sendable.times.1, sendable.amounts.1, sendable.streams.1, sendable.offload.1, sendable.pacing.1⟩
  refine accepts_iff.mpr ⟨fun _ => rfl, passes, ?_, ?_, ?_⟩ <;> rw [sendable.plain_fresh limit]
  · exact sendable.block
  · simp [WithinLimits, sendable.maxServerDuration, sendable.bitrateLimit]
  · simp [sendable.zerocopy]

/-- Without segments nothing is derived from the block size. -/
theorem Sendable.received_fresh (sendable : Sendable test) (platform : Platform) (limit : Nat) :
    (receiveParameters (some (sent test)) platform (freshServer ⟨0, 0, false, limit⟩)).server.test =
      { test with mode := mirrored test.mode } := by
  have plain := sendable.plain_fresh limit
  have off : valueOr (sent test) "gso" 0 ≠ 1 := by
    rw [sendable.offload.2.1, sendable.gso]
    decide
  have stored : store (sent test) (freshServer ⟨0, 0, false, limit⟩).test =
      { test with mode := mirrored test.mode } := by
    rw [store_eq, deriveSegmentSize, if_neg fun derives => off derives.2.1]
    exact plain
  refine ((reads_getParameters _ _ _).2 (sendable.accepts_fresh limit _)).trans ?_
  rw [stored, alignSegments, if_neg fun aligns => aligns.2 sendable.gso]

/-- What of an earlier client this document leaves alone. -/
theorem Sendable.independent_iff (sendable : Sendable test) (served : Server) :
    Independent (sent test) served ↔
      (test.repeatingPayload ≠ 0 ∨ served.test.repeatingPayload = 0) ∧
      (test.getServerOutput ≠ 0 ∨ served.serverOutputByteLimit ≠ 0 ∨
        served.test.getServerOutput = 0) ∧
      (test.protocol = .Pudp ∨ served.test.settings.gso = 0 ∧ served.test.settings.gro = 0) ∧
      served.texts.congestionUsed = none := by
  have payload := isSome_numberIf (item_sent test .repeatingPayload)
  have output := isSome_numberIf (item_sent test .getServerOutput)
  have timer : (getNumber (sent test) "pacing_timer").isSome = true :=
    (isSome_numberIf (item_sent test .pacingTimer)).mpr (by rw [sendable.pacingTimer]; decide)
  have gso := isSome_udp (item_sent test .gso)
  have gro := isSome_udp (item_sent test .gro)
  have used : getString (sent test) "congestion_used" = none := by
    rw [getString, show cJSONGetObjectItem (sent test) (bytesOf "congestion_used") = _ from
      item_sent test .congestionUsed]
    rfl
  constructor
  · rintro ⟨gsoLeft, groLeft, -, usedLeft, payloadLeft, outputLeft⟩
    refine ⟨payloadLeft.imp_left payload.mp, ?_, ?_, ?_⟩
    · rcases outputLeft with limited | written | zero
      · exact .inr (.inl limited)
      · exact .inl (output.mp written)
      · exact .inr (.inr zero)
    · rcases gsoLeft with written | zero
      · exact .inl (gso.mp written)
      · exact groLeft.imp gro.mp fun zero' => ⟨zero, zero'⟩
    · simpa [used] using usedLeft
  · rintro ⟨payloadLeft, outputLeft, offloadLeft, usedLeft⟩
    refine ⟨offloadLeft.imp gso.mpr And.left, offloadLeft.imp gro.mpr And.right, .inl timer,
      .inr usedLeft, payloadLeft.imp_left payload.mpr, ?_⟩
    rcases outputLeft with asked | limited | zero
    · exact .inr (.inl (output.mpr asked))
    · exact .inl limited
    · exact .inr (.inr zero)

/-- The reset server accepts the document; it agrees with the client if and only if nothing is
left of an earlier client that the document does not write. -/
theorem Sendable.receives (sendable : Sendable test) (platform : Platform) {served : Server}
    (unlimited : served.test.settings.bitrateLimit = 0)
    (endless : served.test.maxServerDuration = 0) (noFile : served.test.diskfileName = false) :
    (receiveParameters (some (sent test)) platform (iperfResetTest served)).r = 0 ∧
      (Agrees test (receiveParameters (some (sent test)) platform (iperfResetTest served)).server ↔
        Independent (sent test) served) := by
  have configured : served.configuration = ⟨0, 0, false, served.serverOutputByteLimit⟩ := by
    rw [Server.configuration, unlimited, endless, noFile]
  have fresh := sendable.received_fresh platform served.serverOutputByteLimit
  have accepts : Accepts (sent test) platform.hasSendfile (iperfResetTest served).test := by
    rw [accepts_reset_iff, configured]
    exact sendable.accepts_fresh _ _
  have absent (key : Key) (none : member test noTexts 0 key = none) :
      getString (sent test) key.name = Option.none := by
    rw [getString, item_sent, none]
  have texts : (receiveParameters (some (sent test)) platform (iperfResetTest served)).server.texts =
      ⟨none, none, none, served.texts.congestionUsed, none⟩ := by
    simp only [receiveParameters, Option.elim, readTexts, iperfResetTest]
    rw [show getString (sent test) "title" = none from absent .title rfl,
      show getString (sent test) "extra_data" = none from absent .extraData rfl,
      show getString (sent test) "congestion" = none from absent .congestion rfl,
      show getString (sent test) "congestion_used" = none from absent .congestionUsed rfl,
      show getString (sent test) "authtoken" = none from absent .authtoken rfl]
    rfl
  rw [← configured] at fresh
  refine ⟨(reads_getParameters _ _ _).1.mpr accepts, fun agrees => ?_, fun independent => ?_⟩
  · refine independent_of_same accepts (agrees.test.trans fresh.symm) ?_
    have used : served.texts.congestionUsed = none :=
      congrArg Texts.congestionUsed (texts.symm.trans agrees.texts)
    rw [used]
  · have used := ((sendable.independent_iff served).mp independent).2.2.2
    refine ⟨?_, by rw [texts, used]⟩
    rw [received_eq_of_independent accepts independent]
    exact fresh

end Sent

end IperfSwift.Client
