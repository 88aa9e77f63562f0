import IperfSwift.CJson.Item
import IperfSwift.Output.Selection
import IperfSwift.Output.Failure

/-!
Contract: what the peer says about its output can only worsen what was received.

Owns: `iperf_output_apply_peer_status`; the claim a peer can make and when it is
admissible; the order of the output states; and the theorem that applying a
claim gives the worse of the two states, drops the bytes exactly when the state
no longer has any, and is the same when done twice.

Does not own: how the output was received.
-/

set_option autoImplicit false

namespace IperfSwift.Output

open IperfSwift.Lib
open IperfSwift.CJson

/-! ### The code -/

/-- The numbers of `enum iperf_output_state`. -/
def OutputState.code : OutputState → Int
  | .missing => 0
  | .complete => 1
  | .truncated => 2
  | .discarded => 3
  | .invalid => 4

/-- The conversion to `enum iperf_output_state`, made behind a range check only. -/
def OutputState.ofCode : Int → OutputState
  | 0 => .missing
  | 1 => .complete
  | 2 => .truncated
  | 3 => .discarded
  | _ => .invalid

/-- The numbers of `enum iperf_output_format`. -/
def OutputFormat.code : OutputFormat → Int
  | .none => 0
  | .text => 1
  | .json => 2

def OutputFormat.ofCode : Int → OutputFormat
  | 0 => .none
  | 1 => .text
  | _ => .json

/-- The numbers of `enum iperf_output_reason`. -/
def OutputReason.code : OutputReason → Int
  | .none => 0
  | .byteLimit => 1
  | .nodeLimit => 2
  | .depthLimit => 3
  | .invalidData => 4
  | .allocationFailure => 5
  | .readFailure => 6

def OutputReason.ofCode : Int → OutputReason
  | 0 => .none
  | 1 => .byteLimit
  | 2 => .nodeLimit
  | 3 => .depthLimit
  | 4 => .invalidData
  | 5 => .allocationFailure
  | _ => .readFailure

/-- `discard` of `iperf_output_budget.c`. -/
def discard (output : ServerOutput) (reason : OutputReason) : ServerOutput :=
  { output with
    value := none
    state := if reason = .invalidData then .invalid else .discarded
    reason := reason }

def statusKey : List Byte := bytesOf "iperf_swift_server_output"

/-- `keys`. -/
def knownKeys : List (List Byte) :=
  [bytesOf "version", bytesOf "state", bytesOf "format", bytesOf "reason", bytesOf "observed_bytes"]

/-- The first group of checks: types and ranges. -/
def malformed (status : Node Double) : Prop :=
  let version := getObjectItemCaseSensitive status (bytesOf "version")
  let state := getObjectItemCaseSensitive status (bytesOf "state")
  let format := getObjectItemCaseSensitive status (bytesOf "format")
  let reason := getObjectItemCaseSensitive status (bytesOf "reason")
  isObjectNode status = false ∨ isNumber version = false ∨ valuedouble version ≠ .finite 1 ∨
    isNumber state = false ∨ valuedouble state ≠ .ofInt (valueint state) ∨
    valueint state < OutputState.complete.code ∨ OutputState.invalid.code < valueint state ∨
    isNumber format = false ∨
    (valueint format ≠ OutputFormat.text.code ∧ valueint format ≠ OutputFormat.json.code) ∨
    valuedouble format ≠ .ofInt (valueint format) ∨ isNumber reason = false ∨
    valuedouble reason ≠ .ofInt (valueint reason) ∨
    valueint reason < OutputReason.none.code ∨ OutputReason.readFailure.code < valueint reason

instance (status : Node Double) : Decidable (malformed status) :=
  inferInstanceAs (Decidable (_ ∨ _))

/-- The last group of checks: a state with a reason or format that it cannot have. -/
def inconsistent (state format reason : Int) : Prop :=
  (state = OutputState.complete.code ∧ reason ≠ OutputReason.none.code) ∨
    (state = OutputState.truncated.code ∧
      (format ≠ OutputFormat.text.code ∨ reason ≠ OutputReason.byteLimit.code)) ∨
    (OutputState.discarded.code ≤ state ∧ reason = OutputReason.none.code)

instance (state format reason : Int) : Decidable (inconsistent state format reason) :=
  inferInstanceAs (Decidable (_ ∨ _))

/-- The inner loop over `keys`. `seen` lists the keys whose bit is set. -/
def markKeys (name : List Byte) : List (List Byte) → List (List Byte) → Option (List (List Byte))
  | [], seen => some seen
  | key :: rest, seen =>
      if cString name = key then
        if key ∈ seen then none else markKeys name rest (key :: seen)
      else markKeys name rest seen

/-- The loop over the children of the status object: a known key occurs twice. -/
def duplicated : List (List Byte × Node Double) → List (List Byte) → Bool
  | [], _ => false
  | member :: rest, seen =>
      match markKeys member.1 knownKeys seen with
      | none => true
      | some seen => duplicated rest seen

/-- `status->child` and what follows it. -/
def children : Node Double → List (List Byte × Node Double)
  | .object members => members
  | _ => []

/-- 2⁵³ - 1, the last count that a `double` represents together with all before it. -/
def exactCount : ℚ := 9007199254740991

/-- The tests on `observed_bytes`. -/
def countable (bytes : Option (Node Double)) (observedBytes : Nat) : Option Nat :=
  match isNumber bytes, valuedouble bytes with
  | true, .finite value =>
      if (observedBytes : ℚ) ≤ value ∧ value ≤ exactCount ∧ (⌊value⌋ : ℚ) = value then
        some ⌊value⌋.toNat
      else none
  | _, _ => none

/-- What an accepted claim does to the state and to the bytes. -/
def worsen (output : ServerOutput) (state reason : Int) : ServerOutput :=
  if output.state ≠ .invalid ∧ OutputState.discarded.code ≤ state then
    { discard output (.ofCode reason) with state := .ofCode state }
  else if output.state = .complete ∧ state = OutputState.truncated.code then
    { output with state := .truncated, reason := .ofCode reason }
  else output

/-- What an accepted claim does. -/
def adopt (output : ServerOutput) (state format reason : Int) (bytes : Option (Node Double)) :
    ServerOutput :=
  let claimed :=
    { worsen output state reason with format := .ofCode format, observedBytesComplete := false }
  match countable bytes claimed.observedBytes with
  | some count => { claimed with observedBytes := count, observedBytesComplete := true }
  | none => claimed

/-- `iperf_output_apply_peer_status`. -/
def iperfOutputApplyPeerStatus (output : ServerOutput) (results : Node Double) : ServerOutput :=
  match getObjectItemCaseSensitive results statusKey with
  | none => output
  | some status =>
      let state := valueint (getObjectItemCaseSensitive status (bytesOf "state"))
      let format := valueint (getObjectItemCaseSensitive status (bytesOf "format"))
      let reason := valueint (getObjectItemCaseSensitive status (bytesOf "reason"))
      if malformed status then discard output .invalidData
      else if output.format ≠ .none ∧ output.format.code ≠ format then discard output .invalidData
      else if output.state = .missing ∧ state < OutputState.discarded.code then
        discard output .invalidData
      else if inconsistent state format reason then discard output .invalidData
      else if duplicated (children status) [] = true then discard output .invalidData
      else
        adopt output state format reason
          (getObjectItemCaseSensitive status (bytesOf "observed_bytes"))

/-! ### Claims -/

/-- What a peer says about its output. -/
structure Claim where
  state : OutputState
  format : OutputFormat
  reason : OutputReason
deriving DecidableEq, Repr

/-- The status is an object of version 1 that makes this claim. -/
structure Makes (status : Node Double) (claim : Claim) : Prop where
  object : isObjectNode status = true
  version : getObjectItemCaseSensitive status (bytesOf "version") = some (.number (.ofInt 1))
  state : getObjectItemCaseSensitive status (bytesOf "state") =
    some (.number (.ofInt claim.state.code))
  sent : claim.state ≠ .missing
  format : getObjectItemCaseSensitive status (bytesOf "format") =
    some (.number (.ofInt claim.format.code))
  named : claim.format ≠ .none
  reason : getObjectItemCaseSensitive status (bytesOf "reason") =
    some (.number (.ofInt claim.reason.code))

/-- The state can have this reason and this format. -/
def Claim.Consistent (claim : Claim) : Prop :=
  match claim.state with
  | .missing => False
  | .complete => claim.reason = .none
  | .truncated => claim.format = .text ∧ claim.reason = .byteLimit
  | .discarded => claim.reason ≠ .none
  | .invalid => claim.reason ≠ .none

/-- The members with this key. -/
def withKey (key : List Byte) (members : List (List Byte × Node Double)) :
    List (List Byte × Node Double) :=
  members.filter fun member => decide (cString member.1 = key)

/-- No known key occurs twice. -/
def Unambiguous (status : Node Double) : Prop :=
  ∀ key ∈ knownKeys, (withKey key (children status)).length ≤ 1

/-- The status makes a claim that fits what was received. -/
structure Accepted (output : ServerOutput) (status : Node Double) (claim : Claim) : Prop where
  makes : Makes status claim
  consistent : claim.Consistent
  unambiguous : Unambiguous status
  agrees : output.format = .none ∨ output.format = claim.format
  received : output.state = .missing → claim.state ≠ .complete ∧ claim.state ≠ .truncated

/-! ### Codes -/

theorem OutputState.code_injective : Function.Injective OutputState.code := by
  intro state other
  cases state <;> cases other <;> decide

theorem OutputFormat.code_injective : Function.Injective OutputFormat.code := by
  intro format other
  cases format <;> cases other <;> decide

theorem OutputReason.code_injective : Function.Injective OutputReason.code := by
  intro reason other
  cases reason <;> cases other <;> decide

@[simp] theorem OutputState.ofCode_code (state : OutputState) : .ofCode state.code = state := by
  cases state <;> rfl

@[simp] theorem OutputFormat.ofCode_code (format : OutputFormat) :
    .ofCode format.code = format := by
  cases format <;> rfl

@[simp] theorem OutputReason.ofCode_code (reason : OutputReason) :
    .ofCode reason.code = reason := by
  cases reason <;> rfl

/-- The states from good to bad. -/
instance : LinearOrder OutputState := LinearOrder.lift' OutputState.code OutputState.code_injective

theorem OutputState.code_range {state : OutputState} (sent : state ≠ .missing) :
    OutputState.complete.code ≤ state.code ∧ state.code ≤ OutputState.invalid.code := by
  cases state with
  | missing => exact absurd rfl sent
  | _ => decide

theorem OutputFormat.code_cases {format : OutputFormat} (named : format ≠ .none) :
    format.code = OutputFormat.text.code ∨ format.code = OutputFormat.json.code := by
  cases format with
  | none => exact absurd rfl named
  | text => exact .inl rfl
  | json => exact .inr rfl

theorem OutputReason.code_range (reason : OutputReason) :
    OutputReason.none.code ≤ reason.code ∧ reason.code ≤ OutputReason.readFailure.code := by
  cases reason <;> decide

theorem state_of_code {value : Int} (low : OutputState.complete.code ≤ value)
    (high : value ≤ OutputState.invalid.code) :
    ∃ state : OutputState, state ≠ .missing ∧ state.code = value := by
  have cases : value = 1 ∨ value = 2 ∨ value = 3 ∨ value = 4 := by
    simp only [OutputState.code] at low high
    omega
  rcases cases with rfl | rfl | rfl | rfl
  · exact ⟨.complete, by decide, rfl⟩
  · exact ⟨.truncated, by decide, rfl⟩
  · exact ⟨.discarded, by decide, rfl⟩
  · exact ⟨.invalid, by decide, rfl⟩

theorem reason_of_code {value : Int} (low : OutputReason.none.code ≤ value)
    (high : value ≤ OutputReason.readFailure.code) : ∃ reason : OutputReason, reason.code = value := by
  have cases : value = 0 ∨ value = 1 ∨ value = 2 ∨ value = 3 ∨ value = 4 ∨ value = 5 ∨
      value = 6 := by
    simp only [OutputReason.code] at low high
    omega
  rcases cases with rfl | rfl | rfl | rfl | rfl | rfl | rfl
  · exact ⟨.none, rfl⟩
  · exact ⟨.byteLimit, rfl⟩
  · exact ⟨.nodeLimit, rfl⟩
  · exact ⟨.depthLimit, rfl⟩
  · exact ⟨.invalidData, rfl⟩
  · exact ⟨.allocationFailure, rfl⟩
  · exact ⟨.readFailure, rfl⟩

theorem Makes.codes {status : Node Double} {claim : Claim} (makes : Makes status claim) :
    valueint (getObjectItemCaseSensitive status (bytesOf "state")) = claim.state.code ∧
      valueint (getObjectItemCaseSensitive status (bytesOf "format")) = claim.format.code ∧
      valueint (getObjectItemCaseSensitive status (bytesOf "reason")) = claim.reason.code := by
  rw [makes.state, makes.format, makes.reason]
  refine ⟨valueint_ofInt ?_ ?_, valueint_ofInt ?_ ?_, valueint_ofInt ?_ ?_⟩
  · cases claim.state <;> decide
  · cases claim.state <;> decide
  · cases claim.format <;> decide
  · cases claim.format <;> decide
  · cases claim.reason <;> decide
  · cases claim.reason <;> decide

/-! ### The checks -/

theorem not_malformed_iff (status : Node Double) :
    ¬ malformed status ↔ ∃ claim, Makes status claim := by
  constructor
  · intro fine
    simp only [malformed, not_or, Bool.not_eq_false, ne_eq, not_not, not_and_or, not_lt] at fine
    obtain ⟨object, versionNumber, version, stateNumber, stateExact, stateLow, stateHigh,
      formatNumber, formatKnown, formatExact, reasonNumber, reasonExact, reasonLow, reasonHigh⟩ :=
      fine
    obtain ⟨stateValue, stateItem, stateRange⟩ := (integerItem_iff (by decide) (by decide)).mp
      ⟨stateNumber, stateExact, stateLow, stateHigh⟩
    obtain ⟨reasonValue, reasonItem, reasonRange⟩ := (integerItem_iff (by decide) (by decide)).mp
      ⟨reasonNumber, reasonExact, reasonLow, reasonHigh⟩
    obtain ⟨state, sent, rfl⟩ := state_of_code stateRange.1 stateRange.2
    obtain ⟨reason, rfl⟩ := reason_of_code reasonRange.1 reasonRange.2
    have versionItem := isNumber_iff.mp versionNumber
    have formatItem := isNumber_iff.mp formatNumber
    rw [version] at versionItem
    rw [formatExact] at formatItem
    obtain ⟨format, named, formatCode⟩ : ∃ format : OutputFormat, format ≠ .none ∧
        valueint (getObjectItemCaseSensitive status (bytesOf "format")) = format.code := by
      rcases formatKnown with text | json
      · exact ⟨.text, by decide, text⟩
      · exact ⟨.json, by decide, json⟩
    rw [formatCode] at formatItem
    exact ⟨⟨state, format, reason⟩, object, versionItem.trans (by simp [Double.ofInt]), stateItem,
      sent, formatItem, named, reasonItem⟩
  · rintro ⟨claim, makes⟩
    obtain ⟨-, formatCode, -⟩ := makes.codes
    have version : valuedouble (getObjectItemCaseSensitive status (bytesOf "version")) =
        .finite 1 := by
      rw [makes.version]
      simp [valuedouble, Double.ofInt]
    obtain ⟨stateNumber, stateExact, stateLow, stateHigh⟩ :=
      (integerItem_iff (by decide) (by decide)).mpr
        ⟨claim.state.code, makes.state, OutputState.code_range makes.sent⟩
    obtain ⟨reasonNumber, reasonExact, reasonLow, reasonHigh⟩ :=
      (integerItem_iff (by decide) (by decide)).mpr
        ⟨claim.reason.code, makes.reason, claim.reason.code_range⟩
    have formatExact : valuedouble (getObjectItemCaseSensitive status (bytesOf "format")) =
        .ofInt (valueint (getObjectItemCaseSensitive status (bytesOf "format"))) := by
      rw [formatCode, makes.format]
      rfl
    simp only [malformed, not_or, Bool.not_eq_false, ne_eq, not_not, not_and_or, not_lt]
    refine ⟨makes.object, ?_, version, stateNumber, stateExact, stateLow, stateHigh, ?_, ?_,
      formatExact, reasonNumber, reasonExact, reasonLow, reasonHigh⟩
    · rw [makes.version]
      rfl
    · rw [makes.format]
      rfl
    · rw [formatCode]
      exact OutputFormat.code_cases makes.named

theorem markKeys_cons (name key : List Byte) (rest seen : List (List Byte)) :
    markKeys name (key :: rest) seen =
      if cString name = key then if key ∈ seen then none else markKeys name rest (key :: seen)
      else markKeys name rest seen :=
  rfl

theorem markKeys_eq (name : List Byte) {keys seen : List (List Byte)} (nodup : keys.Nodup) :
    markKeys name keys seen =
      if cString name ∈ keys then
        if cString name ∈ seen then none else some (cString name :: seen)
      else some seen := by
  induction keys generalizing seen with
  | nil => exact (if_neg List.not_mem_nil).symm
  | cons key rest inductionHypothesis =>
      obtain ⟨fresh, restNodup⟩ := List.nodup_cons.mp nodup
      rw [markKeys_cons]
      by_cases same : cString name = key
      · subst same
        rw [if_pos rfl, inductionHypothesis restNodup, if_neg fresh]
        simp
      · rw [if_neg same, inductionHypothesis restNodup]
        simp [same]

theorem withKey_cons_self (member : List Byte × Node Double)
    (rest : List (List Byte × Node Double)) :
    withKey (cString member.1) (member :: rest) = member :: withKey (cString member.1) rest := by
  simp [withKey]

theorem withKey_cons_of_ne {member : List Byte × Node Double} {key : List Byte}
    (other : cString member.1 ≠ key) (rest : List (List Byte × Node Double)) :
    withKey key (member :: rest) = withKey key rest := by
  simp [withKey, other]

theorem duplicated_iff (members : List (List Byte × Node Double)) (seen : List (List Byte)) :
    duplicated members seen = false ↔ ∀ key ∈ knownKeys,
      (key ∈ seen → (withKey key members).length = 0) ∧ (withKey key members).length ≤ 1 := by
  induction members generalizing seen with
  | nil => simp [duplicated, withKey]
  | cons member rest inductionHypothesis =>
      have nodup : knownKeys.Nodup := by decide
      rw [duplicated, markKeys_eq member.1 nodup]
      by_cases known : cString member.1 ∈ knownKeys
      · rw [if_pos known]
        split_ifs with again
        · refine ⟨fun no => (by cases no), fun unique => ?_⟩
          have none := (unique _ known).1 again
          rw [withKey_cons_self] at none
          cases none
        · dsimp only
          rw [inductionHypothesis]
          refine forall₂_congr fun key _ => ?_
          by_cases same : cString member.1 = key
          · subst same
            simp only [List.mem_cons, true_or, forall_const, withKey_cons_self, again,
              List.length_cons, false_implies, true_and]
            omega
          · simp [withKey_cons_of_ne same, Ne.symm same]
      · rw [if_neg known]
        dsimp only
        rw [inductionHypothesis]
        refine forall₂_congr fun key isKnown => ?_
        have other : cString member.1 ≠ key := fun same => known (same ▸ isKnown)
        rw [withKey_cons_of_ne other]

theorem duplicated_children_iff (status : Node Double) :
    duplicated (children status) [] = false ↔ Unambiguous status := by
  rw [duplicated_iff]
  refine forall₂_congr fun key _ => ?_
  simp only [List.not_mem_nil, false_implies, true_and]

theorem not_inconsistent_iff {claim : Claim} (sent : claim.state ≠ .missing) :
    ¬ inconsistent claim.state.code claim.format.code claim.reason.code ↔ claim.Consistent := by
  rw [inconsistent, Claim.Consistent, OutputReason.code_injective.ne_iff,
    OutputFormat.code_injective.ne_iff, OutputReason.code_injective.ne_iff,
    OutputReason.code_injective.eq_iff]
  cases found : claim.state with
  | missing => exact absurd found sent
  | _ => simp [OutputState.code]

/-! ### Two outcomes -/

section Outcomes

variable {output : ServerOutput} {results status : Node Double} {claim : Claim}

theorem apply_of_accepted (found : getObjectItemCaseSensitive results statusKey = some status)
    (accepted : Accepted output status claim) :
    iperfOutputApplyPeerStatus output results =
      adopt output claim.state.code claim.format.code claim.reason.code
        (getObjectItemCaseSensitive status (bytesOf "observed_bytes")) := by
  obtain ⟨stateCode, formatCode, reasonCode⟩ := accepted.makes.codes
  have wellFormed := (not_malformed_iff status).mpr ⟨claim, accepted.makes⟩
  have agrees : ¬ (output.format ≠ .none ∧ output.format.code ≠ claim.format.code) := by
    rintro ⟨known, other⟩
    rcases accepted.agrees with nothing | same
    · exact known nothing
    · exact other (congrArg _ same)
  have received : ¬ (output.state = .missing ∧ claim.state.code < OutputState.discarded.code) := by
    rintro ⟨missing, good⟩
    have sent := accepted.makes.sent
    obtain ⟨notComplete, notTruncated⟩ := accepted.received missing
    cases states : claim.state <;> simp_all [OutputState.code]
  have consistent := (not_inconsistent_iff accepted.makes.sent).mpr accepted.consistent
  have unambiguous := (duplicated_children_iff status).mpr accepted.unambiguous
  rw [iperfOutputApplyPeerStatus, found]
  dsimp only
  rw [stateCode, formatCode, reasonCode, if_neg wellFormed, if_neg agrees, if_neg received,
    if_neg consistent, if_neg (Bool.eq_false_iff.mp unambiguous)]

theorem apply_of_refused (found : getObjectItemCaseSensitive results statusKey = some status)
    (refused : ¬ ∃ claim, Accepted output status claim) :
    iperfOutputApplyPeerStatus output results = discard output .invalidData := by
  rw [iperfOutputApplyPeerStatus, found]
  dsimp only
  by_cases wellFormed : malformed status
  · rw [if_pos wellFormed]
  obtain ⟨claim, makes⟩ := (not_malformed_iff status).mp wellFormed
  obtain ⟨stateCode, formatCode, reasonCode⟩ := makes.codes
  rw [stateCode, formatCode, reasonCode, if_neg wellFormed]
  by_cases agrees : output.format ≠ .none ∧ output.format.code ≠ claim.format.code
  · rw [if_pos agrees]
  by_cases received : output.state = .missing ∧ claim.state.code < OutputState.discarded.code
  · rw [if_neg agrees, if_pos received]
  by_cases consistent : inconsistent claim.state.code claim.format.code claim.reason.code
  · rw [if_neg agrees, if_neg received, if_pos consistent]
  by_cases unambiguous : duplicated (children status) [] = true
  · rw [if_neg agrees, if_neg received, if_neg consistent, if_pos unambiguous]
  · refine absurd ⟨claim, makes, (not_inconsistent_iff makes.sent).mp consistent,
      (duplicated_children_iff status).mp (Bool.eq_false_of_not_eq_true unambiguous), ?_, ?_⟩ refused
    · rw [not_and_or, not_not, not_not, OutputFormat.code_injective.eq_iff] at agrees
      exact agrees
    · intro missing
      have bad := not_and.mp received missing
      constructor <;> intro same <;> rw [same] at bad <;> exact bad (by decide)

end Outcomes

/-! ### The verdict -/

/-- What an output says and holds. -/
def ServerOutput.verdict (output : ServerOutput) :
    OutputState × OutputReason × Option (List Byte) :=
  (output.state, output.reason, output.value)

/-- The bytes are there exactly in the states that have some, and the other states have a
reason, unless nothing was received. -/
structure Sound (output : ServerOutput) : Prop where
  held : output.value = none ↔ output.state ≠ .complete ∧ output.state ≠ .truncated
  explained : output.state = .discarded ∨ output.state = .invalid → output.reason ≠ .none

theorem sound_discard (output : ServerOutput) : Sound (discard output .invalidData) where
  held := by simp [discard]
  explained := fun _ => by simp [discard]

section Verdict

variable {output : ServerOutput} {claim : Claim}

/-- The claim can be made of what was received. -/
structure Claim.Fits (claim : Claim) (output : ServerOutput) : Prop where
  consistent : claim.Consistent
  received : output.state = .missing → claim.state ≠ .complete ∧ claim.state ≠ .truncated

theorem Accepted.fits {status : Node Double} (accepted : Accepted output status claim) :
    claim.Fits output :=
  ⟨accepted.consistent, accepted.received⟩

theorem Claim.Consistent.sent (consistent : claim.Consistent) : claim.state ≠ .missing := by
  intro missing
  rw [Claim.Consistent, missing] at consistent
  exact consistent

theorem Claim.Consistent.reason (consistent : claim.Consistent)
    (bad : OutputState.discarded ≤ claim.state) : claim.reason ≠ .none := by
  rw [Claim.Consistent] at consistent
  cases state : claim.state with
  | discarded | invalid =>
      rw [state] at consistent
      exact consistent
  | _ =>
      rw [state] at bad
      exact absurd bad (by decide)

theorem OutputState.le_of_no_news {state claimed : OutputState} (sent : claimed ≠ .missing)
    (takes : ¬ (state ≠ .invalid ∧ OutputState.discarded ≤ claimed))
    (cuts : ¬ (state = .complete ∧ claimed = .truncated))
    (received : state = .missing → claimed ≠ .complete ∧ claimed ≠ .truncated) :
    claimed ≤ state := by
  revert sent takes cuts received
  cases state <;> cases claimed <;> decide

theorem OutputState.bad_iff {state : OutputState} :
    OutputState.discarded ≤ state ↔ state = .discarded ∨ state = .invalid := by
  cases state <;> decide

/-- An accepted claim takes the bytes away, cuts them short in retrospect, or is no news. -/
theorem worsen_cases (fits : claim.Fits output) :
    (output.state ≤ claim.state ∧ OutputState.discarded ≤ claim.state ∧
        output.state ≠ .invalid ∧ worsen output claim.state.code claim.reason.code =
          { output with value := none, state := claim.state, reason := claim.reason }) ∨
      (output.state = .complete ∧ claim.state = .truncated ∧
        worsen output claim.state.code claim.reason.code =
          { output with state := .truncated, reason := claim.reason }) ∨
      (claim.state ≤ output.state ∧
        ¬ (output.state ≠ .invalid ∧ OutputState.discarded ≤ claim.state) ∧
        worsen output claim.state.code claim.reason.code = output) := by
  have order : OutputState.discarded.code ≤ claim.state.code ↔ .discarded ≤ claim.state := Iff.rfl
  simp only [worsen, discard, OutputState.ofCode_code, OutputReason.ofCode_code, order,
    OutputState.code_injective.eq_iff]
  by_cases takes : output.state ≠ .invalid ∧ OutputState.discarded ≤ claim.state
  · rw [if_pos takes]
    have below : output.state ≤ .discarded := by
      cases state : output.state with
      | invalid => exact absurd state takes.1
      | _ => decide
    exact .inl ⟨below.trans takes.2, takes.2, takes.1, rfl⟩
  · rw [if_neg takes]
    split_ifs with cuts
    · exact .inr (.inl ⟨cuts.1, cuts.2, rfl⟩)
    · exact .inr (.inr ⟨OutputState.le_of_no_news fits.consistent.sent takes cuts fits.received, takes,
        rfl⟩)

theorem adopt_verdict (output : ServerOutput) (state format reason : Int)
    (bytes : Option (Node Double)) :
    (adopt output state format reason bytes).verdict = (worsen output state reason).verdict := by
  unfold adopt
  dsimp only
  split <;> rfl

theorem adopt_format (output : ServerOutput) (state reason : Int) (format : OutputFormat)
    (bytes : Option (Node Double)) :
    (adopt output state format.code reason bytes).format = format := by
  unfold adopt
  dsimp only
  split <;> simp

theorem worsen_state (fits : claim.Fits output) :
    (worsen output claim.state.code claim.reason.code).state = max output.state claim.state := by
  rcases worsen_cases fits with
    ⟨below, -, -, same⟩ | ⟨complete, truncated, same⟩ | ⟨above, -, same⟩
  · rw [same, max_eq_right below]
  · rw [same, complete, truncated]
    rfl
  · rw [same, max_eq_left above]

theorem sound_worsen (sound : Sound output) (fits : claim.Fits output) :
    Sound (worsen output claim.state.code claim.reason.code) := by
  rcases worsen_cases fits with
    ⟨-, bad, -, same⟩ | ⟨complete, -, same⟩ | ⟨-, -, same⟩
  · rw [same]
    refine ⟨?_, fun _ => fits.consistent.reason bad⟩
    rcases OutputState.bad_iff.mp bad with state | state
    · simp [state]
    · simp [state]
  · rw [same]
    have held := sound.held
    simp only [complete] at held
    exact ⟨by simpa using held, by simp⟩
  · rwa [same]

/-- A claim that has been adopted holds. -/
theorem above_of_adopted {adopted : ServerOutput} (fits : claim.Fits output)
    (same : adopted.verdict = (worsen output claim.state.code claim.reason.code).verdict) :
    claim.state ≤ adopted.state ∧ adopted.state ≠ .missing := by
  have state : adopted.state = (worsen output claim.state.code claim.reason.code).state :=
    congrArg Prod.fst same
  have above : claim.state ≤ adopted.state := by
    rw [state, worsen_state fits]
    exact le_max_right _ _
  refine ⟨above, fun missing => fits.consistent.sent ?_⟩
  rw [missing] at above
  exact le_antisymm above (by cases claim.state <;> decide)

/-- A claim that has been adopted changes nothing more. -/
theorem worsen_again {adopted : ServerOutput} (fits : claim.Fits output)
    (same : adopted.verdict = (worsen output claim.state.code claim.reason.code).verdict) :
    (worsen adopted claim.state.code claim.reason.code).verdict = adopted.verdict := by
  obtain ⟨above, present⟩ := above_of_adopted fits same
  have fitsNow : claim.Fits adopted :=
    ⟨fits.consistent, fun missing => absurd missing present⟩
  rcases worsen_cases fitsNow with
    ⟨-, bad, valid, again⟩ | ⟨complete, truncated, -⟩ | ⟨-, -, again⟩
  · -- The same state again: the first time has set its reason and taken the bytes.
    rw [again]
    rcases worsen_cases fits with
      ⟨-, -, -, first⟩ | ⟨-, truncated, -⟩ | ⟨-, kept, first⟩
    · rw [first] at same
      exact same.symm
    · rw [truncated] at bad
      exact absurd bad (by decide)
    · rw [first] at same
      have sameState : adopted.state = output.state := congrArg Prod.fst same
      exact absurd ⟨sameState ▸ valid, bad⟩ kept
  · rw [complete, truncated] at above
    exact absurd above (by decide)
  · rw [again]

end Verdict

/-! ### Applying a status -/

theorem sound_of_verdict {output other : ServerOutput} (same : output.verdict = other.verdict)
    (sound : Sound other) : Sound output := by
  obtain ⟨state, rest⟩ := Prod.mk.inj same
  obtain ⟨reason, value⟩ := Prod.mk.inj rest
  exact ⟨by rw [state, value]; exact sound.held, by rw [state, reason]; exact sound.explained⟩

section Apply

variable {output : ServerOutput} {status : Node Double} {claim : Claim}

theorem apply_none {results : Node Double}
    (absent : getObjectItemCaseSensitive results statusKey = none) :
    iperfOutputApplyPeerStatus output results = output := by
  rw [iperfOutputApplyPeerStatus, absent]

theorem Accepted.verdict (results : Node Double)
    (found : getObjectItemCaseSensitive results statusKey = some status)
    (accepted : Accepted output status claim) :
    (iperfOutputApplyPeerStatus output results).verdict =
      (worsen output claim.state.code claim.reason.code).verdict := by
  rw [apply_of_accepted found accepted, adopt_verdict]

/-- The three ways of a status: absent, refused or accepted. -/
theorem apply_cases (output : ServerOutput) (results : Node Double) :
    iperfOutputApplyPeerStatus output results = output ∨
      iperfOutputApplyPeerStatus output results = discard output .invalidData ∨
      ∃ status claim, getObjectItemCaseSensitive results statusKey = some status ∧
        Accepted output status claim := by
  cases found : getObjectItemCaseSensitive results statusKey with
  | none => exact .inl (apply_none found)
  | some status =>
      by_cases accepted : ∃ claim, Accepted output status claim
      · obtain ⟨claim, accepted⟩ := accepted
        exact .inr (.inr ⟨status, claim, rfl, accepted⟩)
      · exact .inr (.inl (apply_of_refused found accepted))

theorem sound_apply (results : Node Double) (sound : Sound output) :
    Sound (iperfOutputApplyPeerStatus output results) := by
  rcases apply_cases output results with same | same | ⟨status, claim, found, accepted⟩
  · rwa [same]
  · rw [same]
    exact sound_discard output
  · exact sound_of_verdict (accepted.verdict results found)
      (sound_worsen sound accepted.fits)

theorem apply_value (output : ServerOutput) (results : Node Double) :
    (iperfOutputApplyPeerStatus output results).value = output.value ∨
      (iperfOutputApplyPeerStatus output results).value = none := by
  rcases apply_cases output results with same | same | ⟨status, claim, found, accepted⟩
  · rw [same]
    exact .inl rfl
  · rw [same]
    exact .inr rfl
  · have value := congrArg (fun verdict => verdict.2.2) (accepted.verdict results found)
    dsimp only [ServerOutput.verdict] at value
    rw [value]
    rcases worsen_cases accepted.fits with
      ⟨-, -, -, same⟩ | ⟨-, -, same⟩ | ⟨-, -, same⟩
    · rw [same]
      exact .inr rfl
    · rw [same]
      exact .inl rfl
    · rw [same]
      exact .inl rfl

/-- Nothing makes an output valid again. -/
theorem apply_discarded (output : ServerOutput) (results : Node Double) :
    (iperfOutputApplyPeerStatus (discard output .invalidData) results).verdict =
      (discard output .invalidData).verdict := by
  rcases apply_cases (discard output .invalidData) results with
    same | same | ⟨status, claim, found, accepted⟩
  · rw [same]
  · rw [same]
    rfl
  · rw [accepted.verdict results found, worsen, if_neg (by simp [discard]),
      if_neg (by simp [discard])]

theorem apply_again (output : ServerOutput) (results : Node Double) :
    (iperfOutputApplyPeerStatus (iperfOutputApplyPeerStatus output results) results).verdict =
      (iperfOutputApplyPeerStatus output results).verdict := by
  rcases apply_cases output results with same | same | ⟨status, claim, found, accepted⟩
  · rw [same, same]
  · rw [same]
    exact apply_discarded output results
  · have once := accepted.verdict results found
    have again : Accepted (iperfOutputApplyPeerStatus output results) status claim := by
      refine ⟨accepted.makes, accepted.consistent, accepted.unambiguous, .inr ?_, ?_⟩
      · rw [apply_of_accepted found accepted, adopt_format]
      · exact fun missing => absurd missing
          (above_of_adopted accepted.fits once).2
    rw [again.verdict results found]
    exact worsen_again accepted.fits once

end Apply

/-! ### What a read leaves -/

theorem crossing_reason {limit : Nat} {marks : List Mark} {bytes values : Nat}
    {reason : OutputReason} (crosses : crossing limit marks bytes values = some reason) :
    reason ≠ .none := by
  induction marks generalizing bytes values with
  | nil => cases crosses
  | cons mark rest inductionHypothesis =>
      cases mark with
      | byte byte | value =>
          rw [crossing] at crosses
          split at crosses
          · obtain rfl := Option.some.inj crosses
            decide
          · exact inductionHypothesis crosses

theorem sound_wrongOutput (format : OutputFormat) : Sound (wrongOutput format) :=
  ⟨by simp [wrongOutput], fun _ => by simp [wrongOutput]⟩

theorem sound_jsonOutput (limit : Nat) (value : Json.Value) : Sound (jsonOutput limit value) := by
  unfold jsonOutput
  split
  · split
    next => exact ⟨by simp, by simp⟩
    next reason crosses => exact ⟨by simp, fun _ => crossing_reason crosses⟩
  · exact sound_wrongOutput .json

theorem sound_textOutput (limit : Nat) (value : Json.Value) : Sound (textOutput limit value) := by
  unfold textOutput
  split
  · unfold scalarsOutput
    split
    · split <;> exact ⟨by simp, by simp⟩
    · exact ⟨by simp, by simp⟩
  · exact sound_wrongOutput .text

theorem sound_selectedOutput (limit : Nat) (members : List Json.Member) :
    Sound (selectedOutput limit members) := by
  unfold selectedOutput
  split
  · exact sound_jsonOutput limit _
  · split
    · exact sound_textOutput limit _
    · exact ⟨by simp, by simp⟩

section Call

variable {κ ν : Type} {read : ReadFunction κ} {context : κ} {frameLength outputLimit : Nat}
  {heap : Heap}

/-- A frame is accepted within the limits only. -/
theorem valid_of_ok {convert : List Byte → ν} {parsed : Parsed (Node ν)}
    (ok : (iperfReadBoundedResults convert frameLength outputLimit read context heap).result =
      .ok parsed) : ValidCall frameLength outputLimit := by
  rw [iperfReadBoundedResults, readBoundedResults] at ok
  split_ifs at ok
  exact ⟨by omega, by omega, by omega, by omega⟩

/-- A call that succeeds leaves the output that its document calls for. -/
theorem selectedOutput_of_ok {convert : List Byte → ν} (valid : ValidCall frameLength outputLimit)
    {parsed : Parsed (Node ν)}
    (ok : (iperfReadBoundedResults convert frameLength outputLimit read context heap).result =
      .ok parsed) :
    ∃ members, (iperfReadBoundedResults convert frameLength outputLimit read context heap).output =
      selectedOutput outputLimit members := by
  obtain ⟨-, scans, -⟩ := (iperfReadBoundedResults_ok valid convert parsed).mp ok
  obtain ⟨document, documented, run, -⟩ := document_of_scanned context scans
  refine ⟨document.memberList, ?_⟩
  rw [output_of_ok valid ok, output_of_perform run,
    membersOutput_eq documented.uniqueJson documented.uniqueText]
  rfl

/-- Whatever a call with a valid output limit leaves is sound. -/
theorem sound_call (convert : List Byte → ν) (positive : 1 ≤ outputLimit)
    (small : outputLimit ≤ outputMaxBytes) :
    Sound (iperfReadBoundedResults convert frameLength outputLimit read context heap).output := by
  cases result :
    (iperfReadBoundedResults convert frameLength outputLimit read context heap).result with
  | ok parsed =>
      obtain ⟨members, output⟩ :=
        selectedOutput_of_ok (valid_of_ok result) result
      rw [output]
      exact sound_selectedOutput outputLimit members
  | error error =>
      rcases (call_failure convert positive small result).2 with ⟨-, -, output⟩ | ⟨-, output, -⟩
      · rw [output]
        exact ⟨by simp, fun _ => by simp⟩
      · rw [output]
        exact ⟨by simp, fun _ => reasonOf_ne_none error⟩

end Call

/-- What the peer says can only worsen what a read has left. -/
theorem iperfOutputApplyPeerStatus_worsens {κ ν : Type} (convert : List Byte → ν)
    (frameLength outputLimit : Nat) (read : ReadFunction κ) (context : κ) (heap : Heap)
    (results : Node Double) (positive : 1 ≤ outputLimit) (small : outputLimit ≤ outputMaxBytes) :
    let output := (iperfReadBoundedResults convert frameLength outputLimit read context heap).output
    let applied := iperfOutputApplyPeerStatus output results
    let again := iperfOutputApplyPeerStatus applied results
    (getObjectItemCaseSensitive results statusKey = none → applied = output) ∧
    (∀ status, getObjectItemCaseSensitive results statusKey = some status →
      ((¬ ∃ claim, Accepted output status claim) → applied.state = .invalid) ∧
      ∀ claim, Accepted output status claim → applied.state = max output.state claim.state) ∧
    (applied.value = output.value ∨ applied.value = none) ∧
    (applied.value = none ↔ applied.state ≠ .complete ∧ applied.state ≠ .truncated) ∧
    (applied.state = .discarded ∨ applied.state = .invalid → applied.reason ≠ .none) ∧
    again.state = applied.state ∧ again.value = applied.value ∧ again.reason = applied.reason := by
  intro output applied again
  have sound : Sound applied := sound_apply results (sound_call convert positive small)
  obtain ⟨sameState, rest⟩ := Prod.mk.inj (apply_again output results)
  obtain ⟨sameReason, sameValue⟩ := Prod.mk.inj rest
  refine ⟨apply_none, fun status found => ⟨fun refused => ?_, fun claim accepted => ?_⟩,
    apply_value output results, sound.held, sound.explained, sameState, sameValue, sameReason⟩
  · have same : applied = discard output .invalidData := apply_of_refused found refused
    rw [same]
    rfl
  · have state : applied.state = _ := congrArg Prod.fst (accepted.verdict results found)
    exact state.trans (worsen_state accepted.fits)

/-- A frame with a complete output text. -/
def textFrame : List Byte := bytesOf "\x7b\"server_output_text\":\"x\"\x7d"

def textRead : ReadOutcome (List Byte) (Feed (List Byte)) :=
  iperfReadBoundedResults id textFrame.length 1 (memoryReader 8) textFrame ⟨fun _ => true, []⟩

/-- A peer that has cut its output short. -/
def truncatedStatus : Node Double :=
  .object [(bytesOf "version", .number (.ofInt 1)), (bytesOf "state", .number (.ofInt 2)),
    (bytesOf "format", .number (.ofInt 1)), (bytesOf "reason", .number (.ofInt 1))]

def truncatedResults : Node Double := .object [(statusKey, truncatedStatus)]

theorem truncatedStatus_accepted :
    Accepted textRead.output truncatedStatus ⟨.truncated, .text, .byteLimit⟩ where
  makes := ⟨rfl, rfl, rfl, by decide, rfl, by decide, rfl⟩
  consistent := ⟨rfl, rfl⟩
  unambiguous := by unfold Unambiguous; decide
  agrees := by decide +kernel
  received := by decide +kernel

theorem truncated_of_truncatedStatus :
    textRead.output.state = .complete ∧ textRead.output.value = some (bytesOf "x") ∧
      (iperfOutputApplyPeerStatus textRead.output truncatedResults).state = .truncated := by
  have state : textRead.output.state = .complete := by decide +kernel
  have worsens := iperfOutputApplyPeerStatus_worsens id textFrame.length 1 (memoryReader 8)
    textFrame ⟨fun _ => true, []⟩ truncatedResults (by decide) (by decide)
  rw [← textRead] at worsens
  refine ⟨state, by decide +kernel, ?_⟩
  rw [(worsens.2.1 truncatedStatus rfl).2 _ truncatedStatus_accepted, state]
  rfl

/-- A call with an output limit of zero is refused, and leaves an invalid output without a
reason. -/
theorem unexplained_of_zeroLimit :
    let output := (iperfReadBoundedResults id 2 0 (memoryReader 8) (bytesOf "\x7b\x7d")
      ⟨fun _ => true, []⟩).output
    let applied := iperfOutputApplyPeerStatus output (.object [])
    applied.state = .invalid ∧ applied.reason = .none := by
  decide

end IperfSwift.Output
