import IperfSwift.Output.Types

/-!
Contract: what the scanner of `iperf_bounded_output.c` does to its own state.

Owns: the state of `struct parser` apart from its input, and the functions that
touch nothing else: `fail`, `discard_output`, `emit`, `decoded_scalar`,
`core_key`, `begin_output`, and the counters at the head of `value`.

Does not own: reading.
-/

set_option autoImplicit false

namespace IperfSwift.Output

open IperfSwift.Lib

/-- `enum capture`. -/
inductive Capture where
  | discard
  | core
  | outputJson
deriving DecidableEq, Repr

/-- `struct parser` without its input. `key` is the buffer of `root`, up to the
bytes written into it. -/
structure ScanState where
  core : List Byte
  limit : Nat
  capture : Capture
  output : ServerOutput
  metrics : ReadMetrics
  values : Nat
  outputValues : Nat
  error : Errno
  key : List Byte
  heap : Heap

/-- `struct decoded`. `key` says that the scalars go to the buffer of `root`. -/
structure Decoded where
  key : Bool := false
  outputText : Bool := false
  isKey : Bool := false
deriving DecidableEq, Repr

/-- `fail`: the first error stays. -/
def fail (error : Errno) : Program ScanState Bool := fun state =>
  (false, if state.error = 0 then { state with error := error } else state)

/-- `free(p->output->value)`. The buffer of `begin_output` has `limit + 1` bytes. -/
def freeValue (state : ScanState) : Heap :=
  match state.output.value with
  | none => state.heap
  | some _ => state.heap.free (state.limit + 1)

/-- `discard_output`, with the reason its callers set right after it. -/
def discardOutput (outputState : OutputState) (reason : OutputReason) (state : ScanState) :
    ScanState :=
  { state with
    heap := freeValue state
    output := { state.output with value := none, state := outputState, reason := reason } }

def emit (byte : Byte) : Program ScanState Bool := fun state =>
  match state.capture with
  | .discard => (true, state)
  | .core =>
      if state.core.length = resultCoreMaxBytes then fail EFBIG state
      else (true, { state with core := state.core ++ [byte] })
  | .outputJson =>
      let output := { state.output with observedBytes := state.output.observedBytes + 1 }
      if output.state = .complete then
        if output.held.length = state.limit then
          (true, discardOutput .discarded .byteLimit { state with output := output })
        else
          (true, { state with output := { output with value := output.value.map (· ++ [byte]) } })
      else (true, { state with output := output })

/-- Emit bytes until one is refused. -/
def emitAll : List Byte → Program ScanState Bool
  | [] => pure true
  | byte :: rest => Program.andThen (emit byte) (emitAll rest)

/-- The UTF-8 bytes `decoded_scalar` computes. -/
def scalarBytes (scalar : Nat) : List Byte :=
  if scalar ≤ 0x7f then [.ofNat scalar]
  else if scalar ≤ 0x7ff then [.ofNat (0xc0 ||| scalar >>> 6), .ofNat (0x80 ||| scalar &&& 0x3f)]
  else if scalar ≤ 0xffff then
    [.ofNat (0xe0 ||| scalar >>> 12), .ofNat (0x80 ||| (scalar >>> 6) &&& 0x3f),
      .ofNat (0x80 ||| scalar &&& 0x3f)]
  else
    [.ofNat (0xf0 ||| scalar >>> 18), .ofNat (0x80 ||| (scalar >>> 12) &&& 0x3f),
      .ofNat (0x80 ||| (scalar >>> 6) &&& 0x3f), .ofNat (0x80 ||| scalar &&& 0x3f)]

/-- `sizeof(key) - 1` in `root`. -/
def keyBuffer : Nat := 127

/-- The branch of `decoded_scalar` for the text of `server_output_text`. -/
def decodedText (scalar : Nat) (bytes : List Byte) (state : ScanState) : ScanState :=
  let output :=
    { state.output with observedBytes := state.output.observedBytes + bytes.length }
  if scalar = 0 then discardOutput .invalid .invalidData { state with output := output }
  else if output.state = .complete then
    if state.limit < output.held.length + bytes.length then
      { state with output := { output with state := .truncated, reason := .byteLimit } }
    else { state with output := { output with value := output.value.map (· ++ bytes) } }
  else { state with output := output }

def decodedScalar (destination : Option Decoded) (scalar : Nat) : Program ScanState Bool :=
  fun state =>
    match destination with
    | none => (true, state)
    | some decoded =>
        if decoded.isKey ∧ scalar = 0 then fail EPROTO state
        else
          let bytes := scalarBytes scalar
          if decoded.key then
            if scalar = 0 ∨ keyBuffer < state.key.length + bytes.length then
              fail (if scalar = 0 then EPROTO else EFBIG) state
            else (true, { state with key := state.key ++ bytes })
          else if decoded.outputText then (true, decodedText scalar bytes state)
          else (true, state)

/-- The digits of `hex` in `core_key`. -/
def hexDigit (nibble : Nat) : Byte := if nibble < 10 then .ofNat (0x30 + nibble) else .ofNat (0x57 + nibble)

/-- What `core_key` emits for one byte. -/
def coreKeyByte (byte : Byte) : List Byte :=
  if byte = ascii '"' ∨ byte = ascii '\\' then [ascii '\\', byte]
  else if byte.toNat < 0x20 then
    [ascii '\\', ascii 'u', ascii '0', ascii '0', hexDigit (byte.toNat >>> 4),
      hexDigit (byte.toNat &&& 15)]
  else [byte]

def coreKey (key : List Byte) : Program ScanState Bool :=
  emitAll (ascii '"' :: (key.flatMap coreKeyByte ++ [ascii '"', ascii ':']))

def beginOutput (format : OutputFormat) : Program ScanState Bool := fun state =>
  let requested := Heap.malloc (state.limit + 1) (freeValue state)
  let output : ServerOutput :=
    { state := .complete, format := format, observedBytesComplete := true }
  if requested.1 then
    (true,
      { state with
        heap := requested.2
        output := { output with value := some [] }
        metrics :=
          { state.metrics with peakBufferCapacity := resultCoreMaxBytes + state.limit + 2 }
        outputValues := 0 })
  else fail ENOMEM { state with heap := requested.2, output := output }

/-- The head of `value`: the limits on the number of values, and the deepest level
so far. The depth itself has been checked. -/
def enterValue (depth : Nat) : Program ScanState Bool := fun state =>
  let counted := { state with values := state.values + 1 }
  if resultMaxValues < counted.values then fail EFBIG counted
  else
    let deepest := max depth state.metrics.maximumDepth
    match state.capture with
    | .discard =>
        (true, { counted with metrics := { state.metrics with maximumDepth := deepest } })
    | .core =>
        let core :=
          { counted with
            metrics :=
              { state.metrics with
                maximumDepth := deepest, coreValues := state.metrics.coreValues + 1 } }
        if resultCoreMaxValues < core.metrics.coreValues then fail EFBIG core else (true, core)
    | .outputJson =>
        let json :=
          { counted with
            metrics := { state.metrics with maximumDepth := deepest }
            outputValues := state.outputValues + 1 }
        if resultCoreMaxValues < json.outputValues ∧ json.output.state = .complete then
          (true, discardOutput .discarded .nodeLimit json)
        else (true, json)

/-! ### Errors stay -/

/-- An action that never changes an error once there is one. -/
def Sticky {α : Type} (action : Program ScanState α) : Prop :=
  ∀ state, state.error ≠ 0 → (action state).2.error = state.error

theorem Sticky.ne_zero {α : Type} {action : Program ScanState α} (sticky : Sticky action)
    {state : ScanState} (failed : state.error ≠ 0) : (action state).2.error ≠ 0 := by
  rw [sticky state failed]
  exact failed

theorem sticky_of_error_eq {α : Type} {action : Program ScanState α}
    (same : ∀ state, (action state).2.error = state.error) : Sticky action :=
  fun state _ => same state

theorem fail_of_error {error : Errno} {state : ScanState} (failed : state.error ≠ 0) :
    fail error state = (false, state) := by
  simp [fail, failed]

theorem sticky_fail (error : Errno) : Sticky (fail error) := by
  intro state failed
  rw [fail_of_error failed]

@[simp] theorem discardOutput_error (outputState : OutputState) (reason : OutputReason)
    (state : ScanState) : (discardOutput outputState reason state).error = state.error := rfl

theorem sticky_emit (byte : Byte) : Sticky (emit byte) := by
  intro state failed
  unfold emit
  cases state.capture with
  | discard => rfl
  | core =>
      dsimp only
      split
      · exact sticky_fail _ _ failed
      · rfl
  | outputJson =>
      dsimp only
      split
      · split <;> rfl
      · rfl

theorem decodedText_error (scalar : Nat) (bytes : List Byte) (state : ScanState) :
    (decodedText scalar bytes state).error = state.error := by
  unfold decodedText
  dsimp only
  split
  · rfl
  · split
    · split <;> rfl
    · rfl

theorem sticky_decodedScalar (destination : Option Decoded) (scalar : Nat) :
    Sticky (decodedScalar destination scalar) := by
  intro state failed
  unfold decodedScalar
  cases destination with
  | none => rfl
  | some decoded =>
      dsimp only
      split
      · exact sticky_fail _ _ failed
      · split
        · split
          · exact sticky_fail _ _ failed
          · rfl
        · split
          · exact decodedText_error _ _ _
          · rfl

theorem sticky_enterValue (depth : Nat) : Sticky (enterValue depth) := by
  intro state failed
  unfold enterValue
  dsimp only
  split
  · rw [fail_of_error (by exact failed)]
  · cases state.capture with
    | discard => rfl
    | core =>
        dsimp only
        split
        · rw [fail_of_error (by exact failed)]
        · rfl
    | outputJson =>
        dsimp only
        split <;> rfl

theorem sticky_beginOutput (format : OutputFormat) : Sticky (beginOutput format) := by
  intro state failed
  unfold beginOutput
  dsimp only
  split
  · rfl
  · rw [fail_of_error (by exact failed)]

end IperfSwift.Output
