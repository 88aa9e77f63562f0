import IperfSwift.Lib.Format
import IperfSwift.Output.PeerStatus

/-!
Contract: the status of the server's output as it is shown to Swift.

Owns: `IperfServerOutputStatus` and its initialiser from `struct iperf_server_output`;
what makes a status consistent; and which peers it is consistent for.

Does not own: the states `notRequested` and `waiting`, which no frame leads to.
-/

set_option autoImplicit false

namespace IperfSwift.Output

open IperfSwift.Lib
open IperfSwift.CJson

/-! ### The code -/

namespace IperfServerOutputStatus

inductive State where
  | notRequested
  | waiting
  | missing
  | complete
  | truncated
  | discarded
  | invalid
deriving DecidableEq, Repr

inductive Format where
  | text
  | json
deriving DecidableEq, Repr

inductive Reason where
  | byteLimit
  | nodeLimit
  | depthLimit
  | invalidData
  | allocationFailure
  | readFailure
deriving DecidableEq, Repr

end IperfServerOutputStatus

structure IperfServerOutputStatus where
  state : IperfServerOutputStatus.State
  format : Option IperfServerOutputStatus.Format
  reason : Option IperfServerOutputStatus.Reason
  retainedByteCount : Nat
  observedByteCount : Option Nat
deriving DecidableEq, Repr

namespace IperfServerOutputStatus

def State.ofOutput : OutputState → State
  | .missing => .missing
  | .complete => .complete
  | .truncated => .truncated
  | .discarded => .discarded
  | .invalid => .invalid

def Format.ofOutput : OutputFormat → Option Format
  | .text => some .text
  | .json => some .json
  | .none => none

def Reason.ofOutput : OutputReason → Option Reason
  | .byteLimit => some .byteLimit
  | .nodeLimit => some .nodeLimit
  | .depthLimit => some .depthLimit
  | .invalidData => some .invalidData
  | .allocationFailure => some .allocationFailure
  | .readFailure => some .readFailure
  | .none => none

/-- `init(_ output: iperf_server_output)`. -/
def ofOutput (output : ServerOutput) : IperfServerOutputStatus where
  state := .ofOutput output.state
  format := Format.ofOutput output.format
  reason := Reason.ofOutput output.reason
  retainedByteCount := output.held.length
  observedByteCount := if output.observedBytesComplete then some output.observedBytes else none

/-- The parts of a status fit together. -/
structure Consistent (status : IperfServerOutputStatus) : Prop where
  complete : status.state = .complete → status.reason = none ∧
    ∀ count, status.observedByteCount = some count → count = status.retainedByteCount
  truncated : status.state = .truncated → status.format = some .text ∧
    status.reason = some .byteLimit ∧
    ∀ count, status.observedByteCount = some count → status.retainedByteCount < count
  empty : status.state = .missing ∨ status.state = .discarded ∨ status.state = .invalid →
    status.retainedByteCount = 0

end IperfServerOutputStatus

/-! ### Outputs that give a consistent status -/

/-- The counts, the format and the reason fit the state. -/
@[mk_iff] structure Fitting (output : ServerOutput) : Prop where
  complete : output.state = .complete → output.reason = .none ∧
    (output.observedBytesComplete = true → output.observedBytes = output.held.length)
  truncated : output.state = .truncated → output.format = .text ∧ output.reason = .byteLimit ∧
    (output.observedBytesComplete = true → output.held.length < output.observedBytes)

namespace IperfServerOutputStatus

theorem State.ofOutput_eq_iff {state : OutputState} :
    (State.ofOutput state = .complete ↔ state = .complete) ∧
      (State.ofOutput state = .truncated ↔ state = .truncated) := by
  cases state <;> decide

theorem Format.ofOutput_eq_iff {format : OutputFormat} :
    Format.ofOutput format = some .text ↔ format = .text := by
  cases format <;> decide

theorem Reason.ofOutput_eq_iff {reason : OutputReason} :
    (Reason.ofOutput reason = none ↔ reason = .none) ∧
      (Reason.ofOutput reason = some .byteLimit ↔ reason = .byteLimit) := by
  cases reason <;> decide

theorem forall_observedByteCount {output : ServerOutput} {P : Nat → Prop} :
    (∀ count, (ofOutput output).observedByteCount = some count → P count) ↔
      (output.observedBytesComplete = true → P output.observedBytes) := by
  cases complete : output.observedBytesComplete <;> simp [ofOutput, complete]

/-- Without bytes in the other states, the status is consistent if and only if the output
fits. -/
theorem consistent_ofOutput_iff {output : ServerOutput} (sound : Sound output) :
    (ofOutput output).Consistent ↔ Fitting output := by
  have complete : (ofOutput output).state = .complete ↔ output.state = .complete :=
    State.ofOutput_eq_iff.1
  have truncated : (ofOutput output).state = .truncated ↔ output.state = .truncated :=
    State.ofOutput_eq_iff.2
  constructor
  · intro consistent
    refine ⟨fun state => ?_, fun state => ?_⟩
    · obtain ⟨reason, observed⟩ := consistent.complete (complete.mpr state)
      exact ⟨Reason.ofOutput_eq_iff.1.mp reason, forall_observedByteCount.mp observed⟩
    · obtain ⟨format, reason, observed⟩ := consistent.truncated (truncated.mpr state)
      exact ⟨Format.ofOutput_eq_iff.mp format, Reason.ofOutput_eq_iff.2.mp reason,
        forall_observedByteCount.mp observed⟩
  · intro fitting
    refine ⟨fun state => ?_, fun state => ?_, fun state => ?_⟩
    · obtain ⟨reason, observed⟩ := fitting.complete (complete.mp state)
      exact ⟨Reason.ofOutput_eq_iff.1.mpr reason, forall_observedByteCount.mpr observed⟩
    · obtain ⟨format, reason, observed⟩ := fitting.truncated (truncated.mp state)
      exact ⟨Format.ofOutput_eq_iff.mpr format, Reason.ofOutput_eq_iff.2.mpr reason,
        forall_observedByteCount.mpr observed⟩
    · have other : output.state ≠ .complete ∧ output.state ≠ .truncated := by
        rw [← not_or, ← complete, ← truncated]
        rintro (same | same) <;> rw [same] at state <;> simp at state
      change output.held.length = 0
      rw [ServerOutput.held, sound.held.mpr other]
      rfl

end IperfServerOutputStatus

/-! ### What a read leaves -/

/-- What is known about an output that a read has left: the count is that of the bytes seen. -/
structure Counted (output : ServerOutput) : Prop extends Fitting output where
  known : output.state = .complete ∨ output.state = .truncated →
    output.observedBytesComplete = true

theorem counted_jsonOutput (limit : Nat) (value : Json.Value) : Counted (jsonOutput limit value) := by
  unfold jsonOutput
  split
  · split
    · exact ⟨⟨fun _ => ⟨rfl, fun _ => rfl⟩, nofun⟩, fun _ => rfl⟩
    · exact ⟨⟨nofun, nofun⟩, by simp⟩
  · exact ⟨⟨nofun, nofun⟩, by simp [wrongOutput]⟩

theorem counted_textOutput (limit : Nat) (value : Json.Value) : Counted (textOutput limit value) := by
  unfold textOutput
  split
  · unfold scalarsOutput
    split
    · split
      next => exact ⟨⟨fun _ => ⟨rfl, fun _ => rfl⟩, nofun⟩, fun _ => rfl⟩
      next long =>
        refine ⟨⟨nofun, fun _ => ⟨rfl, rfl, fun _ => ?_⟩⟩, fun _ => rfl⟩
        exact (Utf8.cut_longest limit _).fits.trans_lt (Nat.lt_of_not_le long)
    · exact ⟨⟨nofun, nofun⟩, by simp⟩
  · exact ⟨⟨nofun, nofun⟩, by simp [wrongOutput]⟩

theorem counted_selectedOutput (limit : Nat) (members : List Json.Member) :
    Counted (selectedOutput limit members) := by
  unfold selectedOutput
  split
  · exact counted_jsonOutput limit _
  · split
    · exact counted_textOutput limit _
    · exact ⟨⟨nofun, nofun⟩, by simp⟩

/-! ### What the peer makes of it -/

/-- The count that is taken over from the peer. -/
def claimedCount (output : ServerOutput) (status : Node Double) : Option Nat :=
  countable (getObjectItemCaseSensitive status (bytesOf "observed_bytes")) output.observedBytes

/-- A peer that says that everything is here gives the count of what is here, and a peer that
says that something was cut off gives a larger one. -/
structure TruthfulCount (output : ServerOutput) (status : Node Double) (claim : Claim) : Prop where
  complete : output.state = .complete → claim.state = .complete →
    ∀ count, claimedCount output status = some count → count = output.observedBytes
  truncated : output.state = .complete → claim.state = .truncated →
    ∀ count, claimedCount output status = some count → output.observedBytes < count

theorem le_of_countable {bytes : Option (Node Double)} {observedBytes count : Nat}
    (counted : countable bytes observedBytes = some count) : observedBytes ≤ count := by
  unfold countable at counted
  split at counted
  next value _ _ =>
    split_ifs at counted with exact_
    obtain ⟨above, -, whole⟩ := exact_
    cases counted
    rw [← whole] at above
    have floor : (observedBytes : Int) ≤ ⌊value⌋ := by exact_mod_cast above
    omega
  next => cases counted

theorem worsen_observedBytes (output : ServerOutput) (state reason : Int) :
    (worsen output state reason).observedBytes = output.observedBytes := by
  unfold worsen
  split_ifs <;> rfl

/-- A status makes one claim at most. -/
theorem Makes.unique {status : Node Double} {claim other : Claim} (makes : Makes status claim)
    (makes' : Makes status other) : claim = other := by
  obtain ⟨state, format, reason⟩ := makes.codes
  obtain ⟨state', format', reason'⟩ := makes'.codes
  have sameState := OutputState.code_injective (state.symm.trans state')
  have sameFormat := OutputFormat.code_injective (format.symm.trans format')
  have sameReason := OutputReason.code_injective (reason.symm.trans reason')
  cases claim
  cases other
  simp only at sameState sameFormat sameReason
  rw [sameState, sameFormat, sameReason]

section Adopt

variable {output : ServerOutput} {status : Node Double} {claim : Claim}

/-- An adopted claim, with its count if it is taken over. -/
theorem fitting_adopt_iff (state reason : Int) :
    Fitting (adopt output state claim.format.code reason
        (getObjectItemCaseSensitive status (bytesOf "observed_bytes"))) ↔
      ((worsen output state reason).state = .complete → (worsen output state reason).reason = .none ∧
        ∀ count, claimedCount output status = some count →
          count = (worsen output state reason).held.length) ∧
      ((worsen output state reason).state = .truncated → claim.format = .text ∧
        (worsen output state reason).reason = .byteLimit ∧
        ∀ count, claimedCount output status = some count →
          (worsen output state reason).held.length < count) := by
  have observed := worsen_observedBytes output state reason
  rw [adopt, claimedCount]
  dsimp only
  rw [observed, OutputFormat.ofCode_code]
  cases countable (getObjectItemCaseSensitive status (bytesOf "observed_bytes"))
      output.observedBytes with
  | none => simp [fitting_iff]
  | some count => simp [fitting_iff, ServerOutput.held]

/-- An accepted claim keeps an output fitting if and only if its count is truthful. -/
theorem fitting_adopted_iff (counted : Counted output) (accepted : Accepted output status claim) :
    Fitting (adopt output claim.state.code claim.format.code claim.reason.code
        (getObjectItemCaseSensitive status (bytesOf "observed_bytes"))) ↔
      TruthfulCount output status claim := by
  have consistent := accepted.consistent
  rw [fitting_adopt_iff]
  rcases worsen_cases accepted.fits with
    ⟨-, bad, -, same⟩ | ⟨complete, truncated, same⟩ | ⟨above, -, same⟩
  · rw [same]
    have worse : claim.state ≠ .complete ∧ claim.state ≠ .truncated := by
      constructor <;> intro state <;> rw [state] at bad <;> exact absurd bad (by decide)
    exact iff_of_true ⟨fun state => absurd state worse.1, fun state => absurd state worse.2⟩
      ⟨fun _ state => absurd state worse.1, fun _ state => absurd state worse.2⟩
  · rw [same]
    rw [Claim.Consistent, truncated] at consistent
    have length := (counted.complete complete).2 (counted.known (.inl complete))
    have held : ({ output with state := .truncated, reason := claim.reason } :
        ServerOutput).held.length = output.observedBytes := length.symm
    rw [held]
    constructor
    · intro fitting
      exact ⟨fun _ state => (by rw [state] at truncated; cases truncated),
        fun _ _ => (fitting.2 rfl).2.2⟩
    · intro truthful
      exact ⟨fun state => (by cases state),
        fun _ => ⟨consistent.1, consistent.2, truthful.truncated complete truncated⟩⟩
  · rw [same]
    by_cases complete : output.state = .complete
    · have claims : claim.state = .complete := by
        rw [complete] at above
        cases state : claim.state with
        | missing => exact absurd state consistent.sent
        | complete => rfl
        | _ =>
            rw [state] at above
            exact absurd above (by decide)
      obtain ⟨reason, length⟩ := counted.complete complete
      rw [← length (counted.known (.inl complete))]
      constructor
      · intro fitting
        exact ⟨fun _ _ => (fitting.1 complete).2,
          fun _ state => (by rw [claims] at state; cases state)⟩
      · intro truthful
        exact ⟨fun _ => ⟨reason, truthful.complete complete claims⟩,
          fun state => (by rw [complete] at state; cases state)⟩
    · refine iff_of_true ⟨fun state => absurd state complete, fun state => ?_⟩
        ⟨fun state => absurd state complete, fun state => absurd state complete⟩
      obtain ⟨format, reason, length⟩ := counted.truncated state
      refine ⟨?_, reason, fun count taken => ?_⟩
      · rcases accepted.agrees with nothing | agreed
        · rw [format] at nothing
          cases nothing
        · rw [← agreed, format]
      · exact (length (counted.known (.inr state))).trans_le (le_of_countable taken)

end Adopt

/-! ### The status of an accepted frame -/

theorem fitting_discard (output : ServerOutput) : Fitting (discard output .invalidData) :=
  ⟨nofun, nofun⟩

/-- The status of an accepted frame is consistent if and only if the peer's claim, if it makes
one that is accepted, comes with a truthful count. -/
theorem serverOutputStatus_consistent_iff {κ : Type} (convert : List Byte → Double)
    (frameLength outputLimit : Nat) (read : ReadFunction κ) (context : κ) (heap : Heap)
    (parsed : Parsed (Node Double))
    (accepted : (iperfReadBoundedResults convert frameLength outputLimit read context heap).result =
      .ok parsed) :
    let output := (iperfReadBoundedResults convert frameLength outputLimit read context heap).output
    (IperfServerOutputStatus.ofOutput
        (iperfOutputApplyPeerStatus output parsed.value)).Consistent ↔
      ∀ status claim, getObjectItemCaseSensitive parsed.value statusKey = some status →
        Accepted output status claim → TruthfulCount output status claim := by
  intro output
  have valid := valid_of_ok accepted
  obtain ⟨members, selected⟩ := selectedOutput_of_ok valid accepted
  have counted : Counted output := by
    rw [show output = selectedOutput outputLimit members from selected]
    exact counted_selectedOutput outputLimit members
  have sound := sound_apply parsed.value
    (sound_call convert valid.positive valid.small : Sound output)
  rw [IperfServerOutputStatus.consistent_ofOutput_iff sound]
  cases found : getObjectItemCaseSensitive parsed.value statusKey with
  | none =>
      rw [apply_none found]
      exact iff_of_true counted.toFitting nofun
  | some status =>
      by_cases claims : ∃ claim, Accepted output status claim
      · obtain ⟨claim, claimed⟩ := claims
        rw [apply_of_accepted found claimed, fitting_adopted_iff counted claimed]
        constructor
        · intro truthful other otherClaim same otherClaimed
          cases same
          rwa [← claimed.makes.unique otherClaimed.makes]
        · exact fun all => all status claim rfl claimed
      · rw [apply_of_refused found claims]
        refine iff_of_true (fitting_discard output) fun other claim same claimed => ?_
        cases same
        exact absurd ⟨claim, claimed⟩ claims

/-- Conversion of whole numbers, for tests. -/
def wholeNumber (text : List Byte) : Double := .ofInt (Format.natValue text)

def memoryRead (frame : List Byte) : ReadOutcome Double (Feed (List Byte)) :=
  iperfReadBoundedResults wholeNumber frame.length 8 (memoryReader 64) frame ⟨fun _ => true, []⟩

/-- A peer that says that all of its output is here, with a count. -/
def completeFrame (count : String) : List Byte :=
  bytesOf "\x7b\"server_output_text\":\"x\",\"iperf_swift_server_output\":" ++
    bytesOf "\x7b\"version\":1,\"state\":1,\"format\":1,\"reason\":0,\"observed_bytes\":" ++
    bytesOf count ++ bytesOf "\x7d\x7d"

theorem ok_of_toOption {α : Type} {result : Except Errno α} {value : α}
    (found : result.toOption = some value) : result = .ok value := by
  cases result with
  | error error => cases found
  | ok other => exact congrArg Except.ok (Option.some.inj found)

/-- A peer that says that everything is here, and that it is one byte. -/
theorem consistent_of_completeFrame :
    ∃ parsed, (memoryRead (completeFrame "1")).result = .ok parsed ∧
      (IperfServerOutputStatus.ofOutput (iperfOutputApplyPeerStatus
        (memoryRead (completeFrame "1")).output parsed.value)).Consistent := by
  have read : (memoryRead (completeFrame "1")).result.toOption.bind (fun parsed =>
      (getObjectItemCaseSensitive parsed.value statusKey).map fun status =>
        (claimedCount (memoryRead (completeFrame "1")).output status,
          valueint (getObjectItemCaseSensitive status (bytesOf "state")))) = some (some 1, 1) := by
    decide +kernel
  obtain ⟨parsed, accepted, found⟩ := Option.bind_eq_some_iff.mp read
  obtain ⟨status, present, told⟩ := Option.map_eq_some_iff.mp found
  obtain ⟨counts, state⟩ := Prod.mk.inj told
  replace accepted := ok_of_toOption accepted
  refine ⟨parsed, accepted, ?_⟩
  refine (serverOutputStatus_consistent_iff wholeNumber (completeFrame "1").length 8
    (memoryReader 64) (completeFrame "1") ⟨fun _ => true, []⟩ parsed accepted).mpr
    fun other claim same claimed => ?_
  cases present.symm.trans same
  have complete : claim.state = .complete :=
    OutputState.code_injective (claimed.makes.codes.1.symm.trans state)
  refine ⟨fun _ _ count taken => ?_, fun _ truncated => ?_⟩
  · cases counts.symm.trans taken
    decide +kernel
  · exact absurd (complete.symm.trans truncated) (by decide)

/-- A peer that says that everything is here, and that it was five bytes when it is one. -/
theorem inconsistent_of_overstatedCount :
    ∃ parsed, (memoryRead (completeFrame "5")).result = .ok parsed ∧
      IperfServerOutputStatus.ofOutput (iperfOutputApplyPeerStatus
        (memoryRead (completeFrame "5")).output parsed.value) =
          ⟨.complete, some .text, none, 1, some 5⟩ ∧
      ¬ (IperfServerOutputStatus.mk .complete (some .text) none 1 (some 5)).Consistent := by
  have read : (memoryRead (completeFrame "5")).result.toOption.map
      (fun parsed => IperfServerOutputStatus.ofOutput (iperfOutputApplyPeerStatus
        (memoryRead (completeFrame "5")).output parsed.value)) =
          some ⟨.complete, some .text, none, 1, some 5⟩ := by
    decide +kernel
  obtain ⟨parsed, accepted, status⟩ := Option.map_eq_some_iff.mp read
  replace accepted := ok_of_toOption accepted
  refine ⟨parsed, accepted, status, fun consistent => ?_⟩
  exact absurd ((consistent.complete rfl).2 5 rfl) (by decide)

end IperfSwift.Output
