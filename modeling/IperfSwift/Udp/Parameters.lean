import IperfSwift.CJson.Node
import Mathlib.Tactic

/-!
Contract: the server's reading of the client's parameter document.

Owns: the settings that `get_parameters` writes, every check it makes on the way, the
error each failed check leaves, and what an accepted document guarantees about the sizes
the UDP path works with.

Does not own: the texts it copies (title, extra data, congestion algorithm, authorization
token), which no size depends on, or how the document was read from the socket.

Numbers in the document are 64-bit integers. A store into an `int` field keeps the low
32 bits.
-/

set_option autoImplicit false

namespace IperfSwift.Udp

open IperfSwift.Lib IperfSwift.CJson

/-! ### Constants -/

def maxOmitTime : Int := 600
def maxTime : Int := 86400
def maxMss : Int := 32 * 1024 - 1
def maxStreams : Int := 128
def maxTcpBuffer : Int := 512 * (1024 * 1024)
def maxBlocksize : Int := 1024 * 1024
def maxBurst : Int := 1000
def minUdpBlocksize : Int := 4 + 4 + 8
def maxUdpBlocksize : Int := 65535 - 8 - 20
def defaultUdpBlksize : Int := 1460

/-- An `int64_t` stored into an `int`. -/
def narrow (value : Int) : Int := Int.bmod value (2 ^ 32)

/-! ### State -/

/-- The values `iperf_set_error` is given by `get_parameters`. -/
inductive Errno where
  | IERECVPARAMS
  | IEUDPFILETRANSFER
  | IEPROTOCOL
  | IEOMIT
  | IEAFFINITY
  | IEDURATION
  | IEMSS
  | IENUMSTREAMS
  | IEBUFSIZE
  | IEBLOCKSIZE
  | IEBURST
  | IEBADTOS
  | IEUDPBLOCKSIZE
  | IEMAXSERVERTESTDURATIONEXCEEDED
  | IETOTALRATE
  | IENOSENDFILE
deriving DecidableEq, Repr

inductive Protocol where
  | Ptcp
  | Pudp
deriving DecidableEq, Repr

inductive Mode where
  | SENDER
  | RECEIVER
  | BIDIRECTIONAL
deriving DecidableEq, Repr

/-- The part of `struct iperf_settings` that the parameter document reaches. -/
structure Settings where
  socketBufsize : Int
  blksize : Int
  rate : UInt64
  bitrateLimit : UInt64
  fqrate : UInt64
  pacingTimer : Int
  burst : Int
  mss : Int
  tos : Int
  bytes : UInt64
  blocks : UInt64
  dontFragment : Int
  skipRxCopy : Int
  gso : Int
  gsoDgSize : Int
  gsoBfSize : Int
  gro : Int
  groBfSize : Int
deriving DecidableEq, Repr

/-- The part of `struct iperf_test` that the parameter document reaches, of a server. -/
structure Test where
  protocol : Protocol
  mode : Mode
  omitTime : Int
  duration : Int
  maxServerDuration : Int
  serverAffinity : Int
  diskfileName : Bool
  noDelay : Int
  numStreams : Int
  reverse : Int
  bidirectional : Int
  getServerOutput : Int
  udpCounters64bit : Int
  repeatingPayload : Int
  zerocopy : Int
  settings : Settings
deriving DecidableEq, Repr

/-- `get_parameters` in progress: its variable `r`, the error set last, and the test. -/
structure Reading where
  r : Int
  error : Option Errno
  test : Test
deriving DecidableEq, Repr

/-! ### Members of the document -/

/-- `cJSON_GetObjectItem`: the first member whose name agrees up to case. -/
def cJSONGetObjectItem (j : Node Int) (name : List Byte) : Option (Node Int) :=
  match j with
  | .object members =>
      (members.find? fun member =>
        sameIgnoringCase name (member.1.takeWhile (· ≠ 0))).map Prod.snd
  | _ => none

/-- `iperf_cJSON_GetObjectItemType` for `cJSON_Number`: the item's `valueint`. -/
def getNumber (j : Node Int) (name : String) : Option Int :=
  match cJSONGetObjectItem j (bytesOf name) with
  | some (.number valueint) => some valueint
  | _ => none

/-- `iperf_cJSON_GetObjectItemType` for `cJSON_True`: either truth value will do. -/
def hasBool (j : Node Int) (name : String) : Bool :=
  match cJSONGetObjectItem j (bytesOf name) with
  | some (.bool _) => true
  | _ => false

/-- A failed check sets an error and goes on. -/
def Reading.reject (reading : Reading) (error : Errno) : Reading :=
  { reading with r := -1, error := some error }

/-- A number that is checked and then stored. -/
def readNumber (j : Node Int) (name : String) (valid : Int → Bool) (error : Errno)
    (store : Test → Int → Test) (reading : Reading) : Reading :=
  match getNumber j name with
  | none => reading
  | some valueint =>
      if valid valueint then { reading with test := store reading.test valueint }
      else reading.reject error

/-- A setting that may be any number that is not negative. -/
def readSetting (j : Node Int) (name : String) (store : Settings → Int → Settings)
    (reading : Reading) : Reading :=
  readNumber j name (fun value => 0 ≤ value) .IERECVPARAMS
    (fun test value => { test with settings := store test.settings value }) reading

/-! ### The fields, in the order in which they are read -/

def readProtocol (j : Node Int) (reading : Reading) : Reading :=
  let reading :=
    if hasBool j "tcp" then { reading with test.protocol := .Ptcp } else reading
  let reading :=
    if hasBool j "udp" then
      if reading.test.diskfileName then reading.reject .IEUDPFILETRANSFER
      else { reading with test.protocol := .Pudp }
    else reading
  -- No SCTP protocol is registered, so `set_protocol` sets its error and changes nothing.
  if hasBool j "sctp" then { reading with error := some .IEPROTOCOL } else reading

def readTimes (j : Node Int) (reading : Reading) : Reading :=
  let reading := readNumber j "omit" (fun value => 0 ≤ value ∧ value ≤ maxOmitTime) .IEOMIT
    (fun test value => { test with omitTime := narrow value }) reading
  let reading := readNumber j "server_affinity" (fun value => 0 ≤ value ∧ value ≤ 1024) .IEAFFINITY
    (fun test value => { test with serverAffinity := narrow value }) reading
  readNumber j "time" (fun value => 0 ≤ value ∧ value ≤ maxTime) .IEDURATION
    (fun test value => { test with duration := narrow value }) reading

def readAmounts (j : Node Int) (reading : Reading) : Reading :=
  let reading := { reading with test.settings.bytes := 0 }
  let reading := readSetting j "num"
    (fun settings value => { settings with bytes := .ofNat value.toNat }) reading
  let reading := { reading with test.settings.blocks := 0 }
  readSetting j "blockcount"
    (fun settings value => { settings with blocks := .ofNat value.toNat }) reading

/-- `iperf_set_test_reverse(test, 1)` of a server. -/
def setTestReverse (test : Test) : Test := { test with reverse := 1, mode := .SENDER }

/-- `iperf_set_test_bidirectional(test, 1)`. -/
def setTestBidirectional (test : Test) : Test :=
  { test with bidirectional := 1, mode := .BIDIRECTIONAL }

def readStreams (j : Node Int) (reading : Reading) : Reading :=
  let reading := readNumber j "MSS" (fun value => 0 ≤ value ∧ value ≤ maxMss) .IEMSS
    (fun test value => { test with settings.mss := narrow value }) reading
  let reading := if hasBool j "nodelay" then { reading with test.noDelay := 1 } else reading
  let reading := readNumber j "parallel" (fun value => 1 ≤ value ∧ value ≤ maxStreams)
    .IENUMSTREAMS (fun test value => { test with numStreams := narrow value }) reading
  let reading :=
    if hasBool j "reverse" then { reading with test := setTestReverse reading.test } else reading
  let reading :=
    if hasBool j "bidirectional" then
      { reading with test := setTestBidirectional reading.test } else reading
  let reading := readNumber j "window" (fun value => 0 ≤ value ∧ value ≤ maxTcpBuffer) .IEBUFSIZE
    (fun test value => { test with settings.socketBufsize := narrow value }) reading
  readNumber j "len" (fun value => 0 ≤ value) .IEBLOCKSIZE
    (fun test value => { test with settings.blksize := narrow value }) reading

/-- A client that sent no segment size gets one derived from the block size. -/
def deriveSegmentSize (test : Test) : Test :=
  if test.protocol = .Pudp ∧ test.settings.gso = 1 ∧ test.settings.gsoDgSize = 0 then
    if 0 < test.settings.blksize then
      { test with
        settings.gsoDgSize := test.settings.blksize
        settings.gsoBfSize :=
          test.settings.gsoBfSize.tdiv test.settings.blksize * test.settings.blksize }
    else { test with settings.gsoDgSize := defaultUdpBlksize }
  else test

def readOffload (j : Node Int) (reading : Reading) : Reading :=
  let reading := readSetting j "gso"
    (fun settings value => { settings with gso := narrow value }) reading
  let reading := readSetting j "gso_dg_size"
    (fun settings value => { settings with gsoDgSize := narrow value }) reading
  let reading := readSetting j "gso_bf_size"
    (fun settings value => { settings with gsoBfSize := narrow value }) reading
  let reading := { reading with test := deriveSegmentSize reading.test }
  let reading := readNumber j "gro" (fun value => 0 ≤ value ∧ value ≤ 1) .IERECVPARAMS
    (fun test value => { test with settings.gro := narrow value }) reading
  readSetting j "gro_bf_size"
    (fun settings value => { settings with groBfSize := narrow value }) reading

def readPacing (j : Node Int) (reading : Reading) : Reading :=
  let reading := readSetting j "bandwidth"
    (fun settings value => { settings with rate := .ofNat value.toNat }) reading
  let reading := readSetting j "fqrate"
    (fun settings value => { settings with fqrate := .ofNat value.toNat }) reading
  let reading := readSetting j "pacing_timer"
    (fun settings value => { settings with pacingTimer := narrow value }) reading
  let reading := readNumber j "burst" (fun value => 0 < value ∧ value ≤ maxBurst) .IEBURST
    (fun test value => { test with settings.burst := narrow value }) reading
  readNumber j "TOS" (fun value => 0 ≤ value ∧ value ≤ 255) .IEBADTOS
    (fun test value => { test with settings.tos := narrow value }) reading

def readFlags (j : Node Int) (reading : Reading) : Reading :=
  let present (name : String) : Bool := (getNumber j name).isSome
  let truth (value : Int) : Int := if value = 0 then 0 else 1
  let reading :=
    if present "get_server_output" then { reading with test.getServerOutput := 1 } else reading
  let reading :=
    if present "udp_counters_64bit" then { reading with test.udpCounters64bit := 1 } else reading
  let reading :=
    if present "repeating_payload" then { reading with test.repeatingPayload := 1 } else reading
  let reading :=
    (getNumber j "zerocopy").elim reading fun value =>
      { reading with test.zerocopy := truth value }
  let reading :=
    (getNumber j "dont_fragment").elim reading fun value =>
      { reading with test.settings.dontFragment := truth value }
  (getNumber j "skip_rx_copy").elim reading fun value =>
    { reading with test.settings.skipRxCopy := truth value }

/-! ### The checks at the end -/

/-- The block size does not suit the protocol. -/
def blksizeError (test : Test) : Option Errno :=
  if (test.protocol ≠ .Pudp ∧ test.settings.blksize ≤ 0) ∨
      test.settings.blksize > maxBlocksize then some .IEBLOCKSIZE
  else if test.protocol = .Pudp ∧
      (test.settings.blksize < minUdpBlocksize ∨ test.settings.blksize > maxUdpBlocksize) then
    some .IEUDPBLOCKSIZE
  else none

/-- Segments of one block each, in a buffer that holds a whole number of them. -/
def alignSegments (test : Test) : Test :=
  if test.protocol = .Pudp ∧ test.settings.gso ≠ 0 then
    if 0 < test.settings.blksize then
      { test with
        settings.gsoDgSize := test.settings.blksize
        settings.gsoBfSize :=
          test.settings.gsoBfSize.tdiv test.settings.blksize * test.settings.blksize }
    else { test with settings.gsoDgSize := test.settings.blksize }
  else test

def totalRequestedRate (test : Test) (rate : UInt64) : UInt64 :=
  .ofNat test.numStreams.toNat * rate * (if test.mode = .BIDIRECTIONAL then 2 else 1)

def checkLimits (reading : Reading) : Reading :=
  let test := reading.test
  let reading :=
    if 0 < test.maxServerDuration ∧
        (test.maxServerDuration < test.duration + test.omitTime ∨ test.duration = 0) then
      reading.reject .IEMAXSERVERTESTDURATIONEXCEEDED
    else reading
  let reading :=
    if test.settings.bitrateLimit ≠ 0 ∧
        test.settings.bitrateLimit < totalRequestedRate test test.settings.rate then
      reading.reject .IETOTALRATE
    else reading
  if test.settings.bitrateLimit ≠ 0 ∧
      test.settings.bitrateLimit < totalRequestedRate test test.settings.fqrate then
    reading.reject .IETOTALRATE
  else reading

/-- The document, or nothing when `JSON_read` failed. -/
def getParameters (j : Option (Node Int)) (hasSendfile : Bool) (test : Test) : Reading :=
  let reading : Reading := { r := 0, error := none, test := test }
  match j with
  | none => reading.reject .IERECVPARAMS
  | some j =>
      let reading := readFlags j (readPacing j (readOffload j (readStreams j (readAmounts j
        (readTimes j (readProtocol j reading))))))
      match blksizeError reading.test with
      | some error => reading.reject error
      | none =>
          let reading := checkLimits { reading with test := alignSegments reading.test }
          if reading.test.zerocopy = 1 ∧ reading.test.mode ≠ .RECEIVER ∧ ¬ hasSendfile then
            reading.reject .IENOSENDFILE
          else reading

/-! ### What acceptance guarantees -/

/-- Sizes the UDP path can work with. -/
structure Sized (settings : Settings) : Prop where
  lower : minUdpBlocksize ≤ settings.blksize
  upper : settings.blksize ≤ maxUdpBlocksize
  segment : settings.gso ≠ 0 → settings.gsoDgSize = settings.blksize

theorem checkLimits_test (reading : Reading) : (checkLimits reading).test = reading.test := by
  unfold checkLimits
  dsimp only
  split_ifs <;> rfl

theorem sized_alignSegments {test : Test} (udp : (alignSegments test).protocol = .Pudp)
    (suits : blksizeError test = none) : Sized (alignSegments test).settings := by
  have protocol : test.protocol = .Pudp := by
    unfold alignSegments at udp
    split_ifs at udp <;> exact udp
  have bounds : minUdpBlocksize ≤ test.settings.blksize ∧
      test.settings.blksize ≤ maxUdpBlocksize := by
    unfold blksizeError at suits
    simp only [protocol, ne_eq, not_true_eq_false, false_and, false_or, true_and] at suits
    split_ifs at suits with large small
    constructor <;> omega
  unfold alignSegments
  split_ifs with offload positive
  · exact ⟨bounds.1, bounds.2, fun _ => rfl⟩
  · exact ⟨bounds.1, bounds.2, fun _ => rfl⟩
  · exact ⟨bounds.1, bounds.2, fun on => absurd ⟨protocol, on⟩ offload⟩

/-- A document accepted for a UDP test leaves sizes the UDP path can work with, whatever
the settings were before. -/
theorem getParameters_sized {j : Option (Node Int)} {hasSendfile : Bool} {test : Test}
    (accepted : (getParameters j hasSendfile test).r = 0)
    (udp : (getParameters j hasSendfile test).test.protocol = .Pudp) :
    Sized (getParameters j hasSendfile test).test.settings := by
  cases j with
  | none => cases accepted
  | some j =>
      unfold getParameters at accepted udp ⊢
      dsimp only at accepted udp ⊢
      split at accepted
      · cases accepted
      · rename_i suits
        simp only [suits] at udp ⊢
        split_ifs at accepted udp ⊢
        · cases accepted
        · rw [checkLimits_test] at udp ⊢
          exact sized_alignSegments udp suits

end IperfSwift.Udp
