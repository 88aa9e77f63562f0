import IperfSwift.Lib.Cut
import IperfSwift.Output.Language

/-!
Contract: which output a frame leaves behind.

Owns: the output that the members of a document call for; that an accepted call
returns exactly it; and that the order of the members does not matter.

The output is a function of the events of a run, like the tally of its limits.
Inside `server_output_json` only the order of values and bytes counts, inside
`server_output_text` only the scalars.

Does not own: frames that are refused.
-/

set_option autoImplicit false

namespace IperfSwift.Output

open IperfSwift.Lib
open IperfSwift.Lib.Program

variable {state : ScanState} {trace : List Event} {limit : Nat} {document : Json.Document}

/-! ### Values and bytes in document order -/

/-- A value begins, or a byte of the compact text follows. -/
inductive Mark where
  | value
  | byte (byte : Byte)
deriving DecidableEq, Repr

def Mark.count : Mark → Nat
  | .value => 1
  | .byte _ => 0

def Mark.bytes : Mark → List Byte
  | .value => []
  | .byte code => [code]

/-- The values among marks. -/
def markCount (marks : List Mark) : Nat := (marks.map Mark.count).sum

/-- The text of marks. -/
def markBytes (marks : List Mark) : List Byte := marks.flatMap Mark.bytes

mutual

/-- A value in document order, without its white space. -/
def valueMarks : Json.Value → List Mark
  | .literal literal => .value :: literal.bytes.map .byte
  | .number number => .value :: number.bytes.map .byte
  | .text text => .value :: text.token.map .byte
  | .empty kind _ => [.value, .byte kind.opening, .byte kind.closing]
  | .container kind _ items =>
      .value :: .byte kind.opening :: (itemsMarks items ++ [.byte kind.closing])

def itemsMarks : {kind : Json.Kind} → Json.Items kind → List Mark
  | _, .last lead value _ => lead.compact.bytes.map .byte ++ valueMarks value
  | _, .cons lead value _ _ rest =>
      lead.compact.bytes.map .byte ++ (valueMarks value ++ .byte (ascii ',') :: itemsMarks rest)

end

/-- The limit that is crossed first. -/
def CrossedFirst (limit : Nat) (marks : List Mark) : OutputReason → Prop
  | .byteLimit => ∃ before byte after, marks = before ++ .byte byte :: after ∧
      (markBytes before).length = limit ∧ markCount before ≤ resultCoreMaxValues
  | .nodeLimit => ∃ before after, marks = before ++ .value :: after ∧
      markCount before = resultCoreMaxValues ∧ (markBytes before).length ≤ limit
  | _ => False

/-- The first crossing behind `bytes` bytes and `values` values. -/
def crossing (limit : Nat) : List Mark → Nat → Nat → Option OutputReason
  | [], _, _ => none
  | .byte _ :: rest, bytes, values =>
      if bytes = limit then some .byteLimit else crossing limit rest (bytes + 1) values
  | .value :: rest, bytes, values =>
      if resultCoreMaxValues < values + 1 then some .nodeLimit
      else crossing limit rest bytes (values + 1)

/-! ### The output of a document -/

def isObject : Json.Value → Bool
  | .empty .object _ => true
  | .container .object _ _ => true
  | _ => false

/-- The output of a member of the wrong type. -/
def wrongOutput (format : OutputFormat) : ServerOutput :=
  { state := .invalid, format := format, reason := .invalidData }

/-- The output of `server_output_json`. -/
def jsonOutput (limit : Nat) (value : Json.Value) : ServerOutput :=
  if isObject value then
    match crossing limit (valueMarks value) 0 0 with
    | none =>
        { value := some value.compact.bytes
          observedBytes := value.compact.bytes.length
          state := .complete
          format := .json
          observedBytesComplete := true }
    | some reason =>
        { observedBytes := value.compact.bytes.length
          state := .discarded
          format := .json
          reason := reason
          observedBytesComplete := true }
  else wrongOutput .json

/-- The output of a text of scalars. -/
def scalarsOutput (limit : Nat) (scalars : List Char) : ServerOutput :=
  if ∀ scalar ∈ scalars, scalar.toNat ≠ 0 then
    if (Utf8.encode scalars).length ≤ limit then
      { value := some (Utf8.encode scalars)
        observedBytes := (Utf8.encode scalars).length
        state := .complete
        format := .text
        observedBytesComplete := true }
    else
      { value := some (Utf8.encode (Utf8.cut limit scalars))
        observedBytes := (Utf8.encode scalars).length
        state := .truncated
        format := .text
        reason := .byteLimit
        observedBytesComplete := true }
  else
    { observedBytes := (Utf8.encode scalars).length
      state := .invalid
      format := .text
      reason := .invalidData
      observedBytesComplete := true }

/-- The output of `server_output_text`. -/
def textOutput (limit : Nat) : Json.Value → ServerOutput
  | .text text => scalarsOutput limit text.scalars
  | _ => wrongOutput .text

/-- The output that the members of a document call for: `server_output_json` if it is there,
then `server_output_text`. -/
def selectedOutput (limit : Nat) (members : List Json.Member) : ServerOutput :=
  match members.find? (fun member => isOutputJson (memberName member)) with
  | some member => jsonOutput limit member.value
  | none =>
      match members.find? (fun member => isOutputText (memberName member)) with
      | some member => textOutput limit member.value
      | none => {}

/-! ### The output along a run -/

/-- What the output of a run depends on. -/
structure Kept where
  capture : Capture
  limit : Nat
  output : ServerOutput
  outputValues : Nat

def ScanState.kept (state : ScanState) : Kept :=
  ⟨state.capture, state.limit, state.output, state.outputValues⟩

namespace Kept

/-- `discard_output` and the reason set with it. -/
def discard (kept : Kept) (outputState : OutputState) (reason : OutputReason) : Kept :=
  { kept with
    output := { kept.output with value := none, state := outputState, reason := reason } }

/-- A byte of the captured document. -/
def byte (kept : Kept) (code : Byte) : Kept :=
  let output : ServerOutput :=
    { kept.output with observedBytes := kept.output.observedBytes + 1 }
  if output.state = .complete then
    if output.held.length = kept.limit then
      discard { kept with output := output } .discarded .byteLimit
    else { kept with output := { output with value := output.value.map (· ++ [code]) } }
  else { kept with output := output }

/-- A value of the captured document. -/
def value (kept : Kept) : Kept :=
  let seen := { kept with outputValues := kept.outputValues + 1 }
  if resultCoreMaxValues < seen.outputValues ∧ kept.output.state = .complete then
    seen.discard .discarded .nodeLimit
  else seen

/-- A scalar of the captured text. -/
def scalar (kept : Kept) (code : Nat) : Kept :=
  let bytes := scalarBytes code
  let output : ServerOutput :=
    { kept.output with observedBytes := kept.output.observedBytes + bytes.length }
  if code = 0 then discard { kept with output := output } .invalid .invalidData
  else if output.state = .complete then
    if kept.limit < output.held.length + bytes.length then
      { kept with output := { output with state := .truncated, reason := .byteLimit } }
    else { kept with output := { output with value := output.value.map (· ++ bytes) } }
  else { kept with output := output }

def mark (kept : Kept) : Mark → Kept
  | .value => kept.value
  | .byte code => kept.byte code

end Kept

/-- The values and bytes of an event. -/
def Event.marks : Event → List Mark
  | .take byte => [.byte byte]
  | .emit byte => [.byte byte]
  | .enter _ => [.value]
  | _ => []

/-- The scalars go to the captured text. -/
def Decoded.isCaptured (decoded : Decoded) : Bool := !decoded.key && decoded.outputText

/-- The effect of an event on the output, if it succeeds. -/
def Event.keep (kept : Kept) : Event → Kept
  | .scalar (some decoded) code => if decoded.isCaptured then kept.scalar code else kept
  | .capture mode => { kept with capture := mode }
  | .beginOutput format =>
      { kept with
        output :=
          { value := some [], state := .complete, format := format, observedBytesComplete := true }
        outputValues := 0 }
  | .wrongType =>
      let dropped := kept.discard .invalid .invalidData
      { dropped with output := { dropped.output with observedBytesComplete := false } }
  | event => if kept.capture = .outputJson then event.marks.foldl Kept.mark kept else kept

theorem kept_emit {byte : Byte} (succeeded : (emit byte state).1 = true) :
    (emit byte state).2.kept =
      if state.kept.capture = .outputJson then state.kept.byte byte else state.kept := by
  obtain ⟨core, limit, mode, output, metrics, values, outputValues, error, key, heap⟩ := state
  cases mode with
  | discard => rfl
  | core =>
      by_cases full : core.length = resultCoreMaxBytes
      · simp [emit, full, fail] at succeeded
      · simp [emit, full, ScanState.kept]
  | outputJson =>
      by_cases complete : output.state = .complete
      · by_cases full : (output.value.getD []).length = limit
        · simp [emit, Kept.byte, Kept.discard, ScanState.kept, discardOutput, ServerOutput.held,
            complete, full]
        · simp [emit, Kept.byte, ScanState.kept, ServerOutput.held, complete, full]
      · simp [emit, Kept.byte, ScanState.kept, complete]

theorem kept_enterValue {depth : Nat} (succeeded : (enterValue depth state).1 = true) :
    (enterValue depth state).2.kept =
      if state.kept.capture = .outputJson then state.kept.value else state.kept := by
  obtain ⟨core, limit, mode, output, metrics, values, outputValues, error, key, heap⟩ := state
  by_cases full : resultMaxValues < values + 1
  · simp [enterValue, full, fail] at succeeded
  · cases mode with
    | discard => simp [enterValue, full, ScanState.kept]
    | core =>
        by_cases coreFull : resultCoreMaxValues < metrics.coreValues + 1
        · simp [enterValue, full, coreFull, fail] at succeeded
        · simp [enterValue, full, coreFull, ScanState.kept]
    | outputJson =>
        by_cases passed : resultCoreMaxValues < outputValues + 1 ∧ output.state = .complete
        · simp [enterValue, full, Kept.value, Kept.discard, ScanState.kept, discardOutput, passed]
        · simp only [enterValue, Kept.value, ScanState.kept, full, passed, if_false, if_true]

theorem kept_decodedText (code : Nat) (state : ScanState) :
    (decodedText code (scalarBytes code) state).kept = state.kept.scalar code := by
  by_cases nul : code = 0
  · simp [decodedText, Kept.scalar, Kept.discard, ScanState.kept, discardOutput, nul]
  · by_cases complete : state.output.state = .complete
    · by_cases full : state.limit <
          (state.output.value.getD []).length + (scalarBytes code).length
      · simp [decodedText, Kept.scalar, ScanState.kept, ServerOutput.held, nul, complete, full]
      · simp [decodedText, Kept.scalar, ScanState.kept, ServerOutput.held, nul, complete, full]
    · simp [decodedText, Kept.scalar, ScanState.kept, nul, complete]

theorem kept_decodedScalar {decoded : Decoded} {code : Nat}
    (succeeded : (decodedScalar (some decoded) code state).1 = true) :
    (decodedScalar (some decoded) code state).2.kept =
      if decoded.isCaptured then state.kept.scalar code else state.kept := by
  by_cases nulKey : decoded.isKey = true ∧ code = 0
  · simp [decodedScalar, nulKey, fail] at succeeded
  · simp only [decodedScalar, if_neg nulKey] at succeeded ⊢
    by_cases root : decoded.key = true
    · have notCaptured : ¬ decoded.isCaptured := by simp [Decoded.isCaptured, root]
      rw [if_pos root] at succeeded ⊢
      rw [if_neg notCaptured]
      by_cases long : code = 0 ∨ keyBuffer < state.key.length + (scalarBytes code).length
      · simp [long, fail] at succeeded
      · rw [if_neg long]
        rfl
    · rw [if_neg root]
      by_cases text : decoded.outputText = true
      · rw [if_pos text, if_pos (by simp [Decoded.isCaptured, root, text])]
        exact kept_decodedText code state
      · rw [if_neg text, if_neg (by simp [Decoded.isCaptured, text])]

theorem kept_perform {event : Event} (succeeded : (event.perform state).1 = true) :
    (event.perform state).2.kept = event.keep state.kept := by
  cases event with
  | take byte | emit byte => exact kept_emit succeeded
  | enter depth =>
      by_cases deep : resultMaxDepth < depth
      · exact absurd succeeded (by simp [Event.perform, enter, deep, fail])
      · have entered : (Event.enter depth).perform state = enterValue depth state := if_neg deep
        rw [entered] at succeeded ⊢
        exact kept_enterValue succeeded
  | scalar destination code =>
      cases destination with
      | none => simp [Event.perform, decodedScalar, Event.keep, Event.marks]
      | some decoded => exact kept_decodedScalar succeeded
  | beginOutput format =>
      simp only [Event.perform, beginOutput] at succeeded ⊢
      split_ifs at succeeded ⊢
      · rfl
      · cases succeeded
  | wrongType | capture mode => rfl
  | skip byte | key bytes => simp [Event.perform, Event.keep, Event.marks]
  | clearKey => exact (ite_self state.kept).symm

/-- The effect of a trace on the output. -/
def keeps (trace : List Event) (kept : Kept) : Kept := trace.foldl Event.keep kept

@[simp] theorem keeps_nil (kept : Kept) : keeps [] kept = kept := rfl

@[simp] theorem keeps_cons (event : Event) (rest : List Event) (kept : Kept) :
    keeps (event :: rest) kept = keeps rest (event.keep kept) := rfl

@[simp] theorem keeps_append (first second : List Event) (kept : Kept) :
    keeps (first ++ second) kept = keeps second (keeps first kept) := List.foldl_append ..

theorem kept_of_perform {final : ScanState} (run : perform trace state = (true, final)) :
    final.kept = keeps trace state.kept := by
  induction trace generalizing state with
  | nil =>
      obtain rfl : state = final := congrArg Prod.snd run
      rfl
  | cons event rest inductionHypothesis =>
      obtain ⟨succeeded, later⟩ := andThen_eq_true run
      rw [keeps_cons, ← kept_perform succeeded]
      exact inductionHypothesis later

/-! ### Traces that leave the output alone -/

/-- The event touches neither the capture mode nor the output, a captured document apart. -/
def Event.Silent : Event → Prop
  | .scalar (some decoded) _ => decoded.isCaptured = false
  | .capture _ => False
  | .beginOutput _ => False
  | .wrongType => False
  | _ => True

theorem keep_silent {event : Event} (silent : event.Silent) {kept : Kept} : event.keep kept =
    if kept.capture = .outputJson then event.marks.foldl Kept.mark kept else kept := by
  cases event with
  | scalar destination code =>
      cases destination with
      | none => rfl
      | some decoded =>
          have notCaptured : decoded.isCaptured = false := silent
          simp [Event.keep, Event.marks, notCaptured]
  | capture mode | beginOutput format | wrongType => exact silent.elim
  | _ => rfl

/-- The values and bytes of a trace. -/
def traceMarks (trace : List Event) : List Mark := trace.flatMap Event.marks

@[simp] theorem traceMarks_nil : traceMarks [] = [] := rfl

@[simp] theorem traceMarks_cons (event : Event) (rest : List Event) :
    traceMarks (event :: rest) = event.marks ++ traceMarks rest := rfl

@[simp] theorem traceMarks_append (first second : List Event) :
    traceMarks (first ++ second) = traceMarks first ++ traceMarks second := List.flatMap_append

/-- A mark leaves the capture mode and the limit alone. -/
theorem settings_mark (kept : Kept) (mark : Mark) :
    ((kept.mark mark).capture, (kept.mark mark).limit) = (kept.capture, kept.limit) := by
  cases mark with
  | value =>
      simp only [Kept.mark, Kept.value]
      split_ifs <;> rfl
  | byte code =>
      simp only [Kept.mark, Kept.byte]
      split_ifs <;> rfl

theorem settings_marks (kept : Kept) (marks : List Mark) :
    ((marks.foldl Kept.mark kept).capture, (marks.foldl Kept.mark kept).limit) =
      (kept.capture, kept.limit) := by
  induction marks generalizing kept with
  | nil => rfl
  | cons mark rest inductionHypothesis =>
      rw [List.foldl_cons, inductionHypothesis, settings_mark]

theorem keeps_silent (silent : ∀ event ∈ trace, event.Silent) (kept : Kept) : keeps trace kept =
      if kept.capture = .outputJson then (traceMarks trace).foldl Kept.mark kept else kept := by
  induction trace generalizing kept with
  | nil => simp
  | cons event rest inductionHypothesis =>
      have later := inductionHypothesis fun other member =>
        silent other (List.mem_cons_of_mem _ member)
      rw [keeps_cons, keep_silent (silent event List.mem_cons_self), later]
      by_cases json : kept.capture = .outputJson
      · rw [if_pos json, if_pos (by rw [(Prod.mk.inj (settings_marks kept _)).1, json]), if_pos json, traceMarks_cons,
          List.foldl_append]
      · rw [if_neg json, if_neg json, if_neg json]

/-- Outside a captured document nothing changes. -/
theorem keeps_idle (silent : ∀ event ∈ trace, event.Silent) {kept : Kept}
    (idle : kept.capture ≠ .outputJson) : keeps trace kept = kept := by
  rw [keeps_silent silent, if_neg idle]

theorem silent_ofValues : OfValues Event.Silent where
  take := fun _ => trivial
  skip := fun _ => trivial
  enter := fun _ => trivial
  name := fun _ => rfl
  scalar := fun _ => trivial

theorem silent_value (depth : Nat) (value : Json.Value) :
    ∀ event ∈ .enter depth :: valueEvents depth none value, event.Silent :=
  List.forall_mem_cons.mpr ⟨trivial, silent_ofValues.value silent_ofValues.scalar depth value⟩

/-! ### A captured document -/

@[simp] theorem traceMarks_skips (space : Json.Space) : traceMarks (skips space) = [] := by
  simp [traceMarks, skips, Event.marks, List.flatMap_map]

@[simp] theorem traceMarks_takes (bytes : List Byte) :
    traceMarks (takes bytes) = bytes.map .byte := by
  simp [traceMarks, takes, Event.marks, List.flatMap_map, ← List.map_eq_flatMap]

@[simp] theorem traceMarks_textEvents (destination : Option Decoded) (text : Json.Text) :
    traceMarks (textEvents destination text) = text.token.map .byte := by
  have body : traceMarks (text.flatMap (spellingEvents destination)) = text.body.map .byte := by
    induction text with
    | nil => rfl
    | cons spelling rest inductionHypothesis =>
        simp [spellingEvents, Event.marks, inductionHypothesis, Json.Text.body]
  simp [textEvents, Event.marks, body, Json.Text.token]

theorem traceMarks_lead {kind : Json.Kind} (lead : Json.Lead kind) :
    traceMarks (leadEvents lead) = lead.compact.bytes.map .byte := by
  cases kind with
  | array => rfl
  | object =>
      simp [leadEvents, Event.marks, Json.Lead.compact, Json.Lead.bytes, Json.Key.bytes,
        Json.Space.none]

mutual

theorem traceMarks_value (depth : Nat) :
    (value : Json.Value) → .value :: traceMarks (valueEvents depth none value) = valueMarks value
  | .literal literal => by simp [valueEvents, valueMarks]
  | .number number => by simp [valueEvents, valueMarks]
  | .text text => by simp [valueEvents, valueMarks]
  | .empty kind space => by simp [valueEvents, valueMarks, Event.marks]
  | .container kind space items => by
      simp [valueEvents, valueMarks, Event.marks, traceMarks_items (depth + 1) items]

theorem traceMarks_items (depth : Nat) : {kind : Json.Kind} → (items : Json.Items kind) →
    traceMarks (itemsEvents depth items) = itemsMarks items
  | _, .last lead value after => by
      simp [itemsEvents, itemsMarks, traceMarks_lead, Event.marks, ← traceMarks_value depth value]
  | _, .cons lead value after next rest => by
      simp [itemsEvents, itemsMarks, traceMarks_lead, Event.marks, ← traceMarks_value depth value,
        traceMarks_items depth rest]

end

@[simp] theorem markBytes_cons (mark : Mark) (rest : List Mark) :
    markBytes (mark :: rest) = mark.bytes ++ markBytes rest := rfl

@[simp] theorem markCount_cons (mark : Mark) (rest : List Mark) :
    markCount (mark :: rest) = mark.count + markCount rest := List.sum_cons

@[simp] theorem markBytes_append (first second : List Mark) :
    markBytes (first ++ second) = markBytes first ++ markBytes second := List.flatMap_append

@[simp] theorem markCount_append (first second : List Mark) :
    markCount (first ++ second) = markCount first + markCount second := by
  simp [markCount]

theorem markBytes_traceMarks (trace : List Event) : markBytes (traceMarks trace) = emitted trace := by
  induction trace with
  | nil => rfl
  | cons event rest inductionHypothesis =>
      rw [traceMarks_cons, markBytes_append, inductionHypothesis, emitted_cons]
      cases event <;> rfl

theorem markCount_traceMarks (trace : List Event) : markCount (traceMarks trace) = entries trace := by
  induction trace with
  | nil => rfl
  | cons event rest inductionHypothesis =>
      rw [traceMarks_cons, markCount_append, inductionHypothesis, entries_cons]
      cases event <;> rfl

/-- The bytes among the marks are the compact text. -/
theorem markBytes_value (value : Json.Value) : markBytes (valueMarks value) = value.compact.bytes := by
  rw [← traceMarks_value 0, markBytes_cons, markBytes_traceMarks, emitted_valueEvents]
  rfl

theorem markCount_value (value : Json.Value) : markCount (valueMarks value) = value.count := by
  rw [← traceMarks_value 0, markCount_cons, markCount_traceMarks]
  exact entries_valueEvents 0 none value

/-- Nothing is crossed exactly if everything fits. -/
theorem crossing_eq_none {limit : Nat} {marks : List Mark} {bytes values : Nat}
    (room : bytes ≤ limit) (few : values ≤ resultCoreMaxValues) :
    crossing limit marks bytes values = none ↔
      bytes + (markBytes marks).length ≤ limit ∧ values + markCount marks ≤ resultCoreMaxValues := by
  induction marks generalizing bytes values with
  | nil => simp [crossing, markBytes, markCount, room, few]
  | cons mark rest inductionHypothesis =>
      cases mark with
      | byte code =>
          rw [crossing, markBytes_cons, markCount_cons, Mark.bytes, Mark.count]
          split_ifs with full
          · simp only [false_iff, not_and, List.singleton_append, List.length_cons]
            omega
          · rw [inductionHypothesis (by omega) few]
            simp only [List.singleton_append, List.length_cons]
            omega
      | value =>
          rw [crossing, markBytes_cons, markCount_cons, Mark.bytes, Mark.count, List.nil_append]
          split_ifs with full
          · simp only [false_iff, not_and]
            omega
          · rw [inductionHypothesis room (by omega)]
            omega

/-- A crossing is the first one. -/
theorem crossedFirst_of_crossing {limit : Nat} {before after : List Mark} {reason : OutputReason}
    (room : (markBytes before).length ≤ limit) (few : markCount before ≤ resultCoreMaxValues)
    (crosses : crossing limit after (markBytes before).length (markCount before) = some reason) :
    CrossedFirst limit (before ++ after) reason := by
  induction after generalizing before with
  | nil => cases crosses
  | cons mark rest inductionHypothesis =>
      have split : before ++ mark :: rest = (before ++ [mark]) ++ rest := by simp
      have length : (markBytes (before ++ [mark])).length =
          (markBytes before).length + mark.bytes.length := by simp [markBytes]
      have count : markCount (before ++ [mark]) = markCount before + mark.count := by
        simp [markCount]
      cases mark with
      | byte code =>
          rw [crossing] at crosses
          split_ifs at crosses with full
          · cases crosses
            exact ⟨before, code, rest, rfl, full, few⟩
          · rw [split]
            refine inductionHypothesis ?_ ?_ (by rw [length, count]; exact crosses)
            · rw [length, Mark.bytes, List.length_singleton]
              omega
            · rwa [count]
      | value =>
          rw [crossing] at crosses
          split_ifs at crosses with full
          · cases crosses
            exact ⟨before, rest, rfl, by omega, room⟩
          · rw [split]
            refine inductionHypothesis ?_ ?_ (by rw [length, count]; exact crosses)
            · rwa [length]
            · rw [count, Mark.count]
              omega

/-- The output of a document behind these marks of it. -/
def marksOutput (limit : Nat) (held : List Byte) (values : Nat) (marks : List Mark) :
    ServerOutput :=
  match crossing limit marks held.length values with
  | none =>
      { value := some (held ++ markBytes marks)
        observedBytes := held.length + (markBytes marks).length
        state := .complete
        format := .json
        observedBytesComplete := true }
  | some reason =>
      { observedBytes := held.length + (markBytes marks).length
        state := .discarded
        format := .json
        reason := reason
        observedBytesComplete := true }

/-- A discarded document is only counted on. -/
theorem output_marks_of_discarded {kept : Kept} (discarded : kept.output.state = .discarded)
    (marks : List Mark) : (marks.foldl Kept.mark kept).output =
      { kept.output with
        observedBytes := kept.output.observedBytes + (markBytes marks).length } := by
  induction marks generalizing kept with
  | nil => rfl
  | cons mark rest inductionHypothesis =>
      cases mark with
      | byte code =>
          have step : (kept.mark (.byte code)).output =
              { kept.output with observedBytes := kept.output.observedBytes + 1 } := by
            simp [Kept.mark, Kept.byte, discarded]
          rw [List.foldl_cons, inductionHypothesis (by rw [step]; exact discarded), step]
          simp only [markBytes_cons, Mark.bytes, List.singleton_append, List.length_cons]
          congr 1
          omega
      | value =>
          have step : (kept.mark .value).output = kept.output := by
            simp [Kept.mark, Kept.value, discarded]
          rw [List.foldl_cons, inductionHypothesis (by rw [step]; exact discarded), step]
          rfl

/-- A document that was complete so far. -/
def completeJson (limit : Nat) (held : List Byte) (values : Nat) : Kept where
  capture := .outputJson
  limit := limit
  output :=
    { value := some held
      observedBytes := held.length
      state := .complete
      format := .json
      observedBytesComplete := true }
  outputValues := values

theorem output_marks {held : List Byte} {values : Nat} (marks : List Mark) :
    (marks.foldl Kept.mark (completeJson limit held values)).output =
      marksOutput limit held values marks := by
  induction marks generalizing held values with
  | nil => simp [completeJson, marksOutput, crossing, markBytes]
  | cons mark rest inductionHypothesis =>
      rw [List.foldl_cons]
      cases mark with
      | byte code =>
          by_cases full : held.length = limit
          · rw [output_marks_of_discarded (by simp [Kept.mark, Kept.byte, Kept.discard,
              completeJson, ServerOutput.held, full])]
            simp [Kept.mark, Kept.byte, Kept.discard, completeJson, ServerOutput.held, full,
              marksOutput, crossing, Mark.bytes, Nat.add_assoc, Nat.add_comm 1]
          · have step : (completeJson limit held values).mark (.byte code) =
                completeJson limit (held ++ [code]) values := by
              simp [Kept.mark, Kept.byte, completeJson, ServerOutput.held, full]
            rw [step, inductionHypothesis]
            simp [marksOutput, crossing, full, Mark.bytes, Nat.add_assoc, Nat.add_comm 1]
      | value =>
          by_cases full : resultCoreMaxValues < values + 1
          · rw [output_marks_of_discarded (by simp [Kept.mark, Kept.value, Kept.discard,
              completeJson, full])]
            simp [Kept.mark, Kept.value, Kept.discard, completeJson, full, marksOutput, crossing,
              Mark.bytes]
          · have step : (completeJson limit held values).mark .value =
                completeJson limit held (values + 1) := by
              simp [Kept.mark, Kept.value, completeJson, full]
            rw [step, inductionHypothesis]
            simp [marksOutput, crossing, full, Mark.bytes]

/-! ### A captured text -/

/-- Nothing is captured but a text. -/
def Kept.rest (limit : Nat) (output : ServerOutput) (values : Nat) : Kept :=
  ⟨.discard, limit, output, values⟩

/-- One more scalar of a text. -/
theorem scalar_scalarsOutput (limit : Nat) (scalars : List Char) (next : Char) (values : Nat) :
    Kept.scalar (.rest limit (scalarsOutput limit scalars) values) next.toNat =
      .rest limit (scalarsOutput limit (scalars ++ [next])) values := by
  have width := scalarBytes_toNat next
  have observed : (Utf8.encode (scalars ++ [next])).length =
      (Utf8.encode scalars).length + next.utf8Size := by simp
  by_cases clean : ∀ scalar ∈ scalars, scalar.toNat ≠ 0
  · by_cases nul : next.toNat = 0
    · have found : ¬ ∀ scalar ∈ scalars ++ [next], scalar.toNat ≠ 0 :=
        fun all => all next (by simp) nul
      simp only [Kept.rest, scalarsOutput, if_pos clean, if_neg found, Kept.scalar, if_pos nul,
        Kept.discard, width, observed, String.length_utf8EncodeChar]
      split_ifs <;> rfl
    · have still : ∀ scalar ∈ scalars ++ [next], scalar.toNat ≠ 0 := by
        rw [List.forall_mem_append, List.forall_mem_singleton]
        exact ⟨clean, nul⟩
      simp only [Kept.rest, scalarsOutput, if_pos clean, if_pos still, Kept.scalar, if_neg nul,
        width, observed, String.length_utf8EncodeChar]
      by_cases fits : (Utf8.encode scalars).length ≤ limit
      · by_cases more : (Utf8.encode scalars).length + next.utf8Size ≤ limit
        · simp [fits, more, ServerOutput.held, Nat.not_lt.mpr more]
        · have kept : Utf8.cut limit (scalars ++ [next]) = scalars := by
            rw [Utf8.cut_append _ fits, Utf8.cut, String.length_utf8EncodeChar,
              if_neg (by omega), List.append_nil]
          simp [fits, more, ServerOutput.held, Nat.lt_of_not_le more, kept]
      · have more : ¬ (Utf8.encode scalars).length + next.utf8Size ≤ limit := by omega
        simp [fits, more, Utf8.cut_append_of_long [next] (Nat.lt_of_not_le fits)]
  · have found : ¬ ∀ scalar ∈ scalars ++ [next], scalar.toNat ≠ 0 :=
      fun all => clean fun scalar member => all scalar (List.mem_append_left _ member)
    simp only [Kept.rest, scalarsOutput, if_neg clean, if_neg found, Kept.scalar, Kept.discard,
      width, observed, String.length_utf8EncodeChar, reduceCtorEq, if_false, ite_self]

theorem keeps_spellings (limit : Nat) (text : Json.Text) (scalars : List Char) (values : Nat) :
    keeps (text.flatMap (spellingEvents (some { outputText := true })))
        (.rest limit (scalarsOutput limit scalars) values) =
      .rest limit (scalarsOutput limit (scalars ++ text.scalars)) values := by
  induction text generalizing scalars with
  | nil => simp [Json.Text.scalars]
  | cons spelling rest inductionHypothesis =>
      have taken : keeps (takes spelling.bytes)
          (.rest limit (scalarsOutput limit scalars) values) =
            .rest limit (scalarsOutput limit scalars) values := by
        apply keeps_idle
        · exact forall_mem_takes (fun _ => trivial) _
        · simp [Kept.rest]
      have step := scalar_scalarsOutput limit scalars spelling.scalar values
      have captured : Decoded.isCaptured { outputText := true } = true := rfl
      rw [spelling.scalar_toNat] at step
      rw [List.flatMap_cons, keeps_append, spellingEvents, keeps_append, taken, keeps_cons,
        keeps_nil, Event.keep, if_pos captured, step, inductionHypothesis]
      simp [Json.Text.scalars]

/-! ### Members -/

/-- A value is an object if it starts with a brace. -/
theorem start_iff_isObject (value : Json.Value) :
    value.bytes.head? = some (ascii '{') ↔ isObject value = true := by
  cases value with
  | text text => exact iff_of_false (by simp [Json.Value.bytes, Json.Text.token]) (by simp [isObject])
  | literal literal => cases literal <;> decide
  | number number =>
      obtain ⟨first, tail, bytes, isStart⟩ := number.exists_first
      rw [Json.Value.bytes, bytes, List.head?_cons, Option.some_inj]
      refine iff_of_false ?_ (by simp [isObject])
      rintro rfl
      exact absurd isStart (by decide)
  | empty kind space | container kind space items => cases kind <;> simp [Json.Value.bytes, isObject, Json.Kind.opening]

/-- A value starts with a quote only if it is a string. -/
theorem text_of_start {value : Json.Value} (start : value.bytes.head? = some (ascii '"')) :
    ∃ text, value = .text text := by
  cases value with
  | text text => exact ⟨text, rfl⟩
  | literal literal => cases literal <;> exact absurd start (by decide)
  | number number =>
      obtain ⟨first, tail, bytes, isStart⟩ := number.exists_first
      rw [Json.Value.bytes, bytes, List.head?_cons, Option.some_inj] at start
      subst start
      exact absurd isStart (by decide)
  | empty kind space | container kind space items => cases kind <;> exact absurd (Option.some.inj start) (by decide)

/-- Between two members. -/
structure Kept.Rests (kept : Kept) (limit : Nat) (output : ServerOutput) : Prop where
  capture : kept.capture = .discard
  limit : kept.limit = limit
  output : kept.output = output

namespace Kept.Rests

variable {kept : Kept} {limit : Nat} {output : ServerOutput}

theorem eq_rest (rests : kept.Rests limit output) : kept = .rest limit output kept.outputValues := by
  obtain ⟨capture, _, held, values⟩ := kept
  obtain ⟨rfl, rfl, rfl⟩ := rests
  rfl

theorem idle (rests : kept.Rests limit output) (silent : ∀ event ∈ trace, event.Silent) :
    (keeps trace kept).Rests limit output := by
  rw [keeps_idle silent (by rw [rests.capture]; decide)]
  exact rests

/-- The value of an output member, up to the end of its capture. -/
theorem outputJson (rests : kept.Rests limit output) (value : Json.Value) :
    (keeps (outputEvents true value ++ [.capture .discard]) kept).Rests limit
      (jsonOutput limit value) := by
  rw [rests.eq_rest]
  by_cases object : isObject value = true
  · have start : value.bytes.head? = some (outputStart true) := (start_iff_isObject value).mpr object
    have events : outputEvents true value = .beginOutput .json :: .capture .outputJson ::
        .enter 1 :: valueEvents 1 none value := by
      rw [outputEvents, if_pos start]
      rfl
    have started : (completeJson limit [] 0).capture = .outputJson := rfl
    have read : keeps (outputEvents true value) (.rest limit output kept.outputValues) =
        (valueMarks value).foldl Kept.mark (completeJson limit [] 0) := by
      rw [events, keeps_cons, keeps_cons]
      change keeps (.enter 1 :: valueEvents 1 none value) (completeJson limit [] 0) = _
      rw [keeps_silent (silent_value 1 value), if_pos started, traceMarks_cons, Event.marks,
        List.singleton_append, traceMarks_value]
    rw [keeps_append, read]
    refine ⟨rfl, (Prod.mk.inj (settings_marks (completeJson limit [] 0) _)).2, ?_⟩
    change ((valueMarks value).foldl Kept.mark (completeJson limit [] 0)).output = _
    rw [output_marks, jsonOutput, if_pos object, marksOutput]
    simp only [List.length_nil, List.nil_append, Nat.zero_add, markBytes_value]
  · have start : ¬ value.bytes.head? = some (outputStart true) :=
      mt (start_iff_isObject value).mp object
    have events : outputEvents true value = .beginOutput .json :: .wrongType ::
        .capture .discard :: .enter 1 :: valueEvents 1 none value := by
      rw [outputEvents, if_neg start]
      rfl
    rw [events, List.cons_append, List.cons_append, List.cons_append, keeps_cons, keeps_cons,
      keeps_cons, keeps_append, keeps_idle (silent_value 1 value) (by simp [Event.keep]),
      jsonOutput, if_neg object]
    exact ⟨rfl, rfl, rfl⟩

theorem outputText (rests : kept.Rests limit output) (value : Json.Value) :
    (keeps (outputEvents false value ++ [.capture .discard]) kept).Rests limit
      (textOutput limit value) := by
  rw [rests.eq_rest]
  by_cases start : value.bytes.head? = some (outputStart false)
  · obtain ⟨text, rfl⟩ := text_of_start start
    have events : outputEvents false (.text text) = .beginOutput .text :: .capture .discard ::
        .enter 1 :: .take (ascii '"') :: (text.flatMap (spellingEvents (some { outputText := true }))
          ++ [.take (ascii '"')]) := by
      rw [outputEvents, if_pos start]
      rfl
    have started : Event.keep (.rest limit output kept.outputValues) (.beginOutput .text) =
        .rest limit (scalarsOutput limit []) 0 := by
      simp [Event.keep, Kept.rest, scalarsOutput]
    have read : keeps (outputEvents false (.text text)) (.rest limit output kept.outputValues) =
        .rest limit (scalarsOutput limit text.scalars) 0 := by
      rw [events, keeps_cons, started, keeps_cons, keeps_cons, keeps_cons, keeps_append]
      change keeps _ (keeps _ (Kept.rest limit (scalarsOutput limit []) 0)) = _
      rw [keeps_spellings]
      rfl
    rw [keeps_append, read]
    exact ⟨rfl, rfl, rfl⟩
  · have events : outputEvents false value = .beginOutput .text :: .wrongType ::
        .capture .discard :: .enter 1 :: valueEvents 1 none value := by
      rw [outputEvents, if_neg start]
      rfl
    rw [events, List.cons_append, List.cons_append, List.cons_append, keeps_cons, keeps_cons,
      keeps_cons, keeps_append, keeps_idle (silent_value 1 value) (by simp [Event.keep])]
    cases value with
    | text text => exact absurd rfl start
    | _ => exact ⟨rfl, rfl, rfl⟩

end Kept.Rests

/-- The output behind one more member. -/
def memberOutput (limit : Nat) (seenJson : Bool) (output : ServerOutput) (member : Json.Member) :
    ServerOutput :=
  if isOutputJson (memberName member) then jsonOutput limit member.value
  else if isOutputText (memberName member) ∧ !seenJson then textOutput limit member.value
  else output

theorem silent_rootName (text : Json.Text) : ∀ event ∈ textEvents rootName text, event.Silent :=
  (forall_mem_textEvents (fun _ => trivial) rootName text).mpr fun _ _ => rfl

theorem silent_skips (space : Json.Space) : ∀ event ∈ skips space, event.Silent :=
  forall_mem_skips (fun _ => trivial) space

theorem silent_key (key : Json.Key) : ∀ event ∈ keyEvents key, event.Silent := by
  have name := silent_rootName key.text
  have after := silent_skips key.after
  have before := silent_skips key.beforeValue
  simp only [keyEvents, List.forall_mem_cons, List.forall_mem_append]
  exact ⟨trivial, name, trivial, after, trivial, before⟩

namespace Kept.Rests

variable {kept : Kept} {limit : Nat} {output : ServerOutput}

/-- A member of the core text. -/
theorem core (rests : kept.Rests limit output) (first : Bool) (key : List Byte)
    (value : Json.Value) :
    (keeps (coreEvents first key value ++ [.capture .discard]) kept).Rests limit output := by
  have silent : ∀ event ∈ commaEvents first ++
      (emits (coreKeyText key) ++ .enter 1 :: valueEvents 1 none value), event.Silent := by
    have name : ∀ event ∈ emits (coreKeyText key), event.Silent := by simp [emits, Event.Silent]
    have comma : ∀ event ∈ commaEvents first, event.Silent := by
      cases first <;> simp [commaEvents, Event.Silent]
    have read := silent_value 1 value
    simp only [List.forall_mem_append]
    exact ⟨comma, name, read⟩
  rw [coreEvents, List.cons_append, keeps_cons, keeps_append,
    keeps_idle silent (by simp [Event.keep])]
  exact ⟨rfl, rests.limit, rests.output⟩

theorem memberValue (rests : kept.Rests limit output) (locals : RootLocals)
    (member : Json.Member) :
    (keeps (memberValueEvents locals (memberName member) member.value ++ [.capture .discard])
      kept).Rests limit (memberOutput limit locals.seenJson output member) := by
  rw [memberValueEvents, memberOutput]
  by_cases json : isOutputJson (memberName member) = true
  · rw [if_pos (Or.inl json), json, if_pos rfl]
    exact rests.outputJson member.value
  · rw [if_neg json]
    by_cases text : isOutputText (memberName member) = true ∧ (!locals.seenJson) = true
    · rw [if_pos (Or.inr text), if_pos text, Bool.eq_false_iff.mpr json]
      exact rests.outputText member.value
    · rw [if_neg (not_or.mpr ⟨json, text⟩), if_neg text]
      split_ifs
      · rw [keeps_append]
        have read := rests.idle (silent_value 1 member.value)
        exact ⟨rfl, read.limit, read.output⟩
      · exact rests.core _ _ _

theorem member (rests : kept.Rests limit output) (locals : RootLocals) (member : Json.Member) :
    (keeps (memberEvents locals member) kept).Rests limit
      (memberOutput limit locals.seenJson output member) := by
  have split : memberEvents locals member = keyEvents member.key ++
      ((memberValueEvents locals (memberName member) member.value ++ [.capture .discard]) ++
        skips member.after) := by
    simp [memberEvents, memberName]
  rw [split, keeps_append, keeps_append]
  exact ((rests.idle (silent_key member.key)).memberValue locals member).idle
    (silent_skips member.after)

end Kept.Rests

/-- The output behind the members, one after the other. -/
def membersOutput (limit : Nat) : Bool → ServerOutput → List Json.Member → ServerOutput
  | _, output, [] => output
  | seenJson, output, member :: rest =>
      membersOutput limit (seenJson || isOutputJson (memberName member))
        (memberOutput limit seenJson output member) rest

theorem advanceLocals_seenJson (locals : RootLocals) (key : List Byte) :
    (advanceLocals locals key).seenJson = (locals.seenJson || isOutputJson key) := by
  rw [advanceLocals]
  by_cases json : isOutputJson key = true
  · simp [json]
  · split_ifs <;> simp [json]

theorem Kept.Rests.members {kept : Kept} {output : ServerOutput} (rests : kept.Rests limit output)
    (locals : RootLocals) (members : Json.Members) :
    (keeps (membersEvents locals members) kept).Rests limit
      (membersOutput limit locals.seenJson output members.toList) := by
  induction members generalizing kept output locals with
  | last member => exact rests.member locals member
  | cons member next rest inductionHypothesis =>
      have comma : ∀ event ∈ .take (ascii ',') :: skips next, event.Silent :=
        List.forall_mem_cons.mpr ⟨trivial, silent_skips next⟩
      have split : membersEvents locals (.cons member next rest) = memberEvents locals member ++
          ((.take (ascii ',') :: skips next) ++
            membersEvents (advanceLocals locals (memberName member)) rest) := by
        simp [membersEvents, memberName]
      rw [split, keeps_append, keeps_append, Json.Members.toList, membersOutput,
        ← advanceLocals_seenJson]
      exact inductionHypothesis ((rests.member locals member).idle comma)
        (advanceLocals locals (memberName member))

theorem rests_coreByte {kept : Kept} {output : ServerOutput} (rests : kept.Rests limit output)
    (byte : Byte) : (keeps (coreByteEvents byte) kept).Rests limit output := by
  rw [coreByteEvents, keeps_cons, keeps_cons, keeps_cons, keeps_nil]
  exact ⟨rfl, rests.limit, rests.output⟩

/-- The output of a whole run. -/
theorem output_of_perform {outputLimit : Nat} {heap : Heap} {final : ScanState}
    (run : perform (documentEvents document) (startState outputLimit heap) = (true, final)) :
    final.output = membersOutput outputLimit false {} document.memberList := by
  have after := kept_of_perform run
  have start : (startState outputLimit heap).kept.Rests outputLimit {} := ⟨rfl, rfl, rfl⟩
  have taken : ∀ byte, ∀ event ∈ [Event.take byte], event.Silent := by simp [Event.Silent]
  have body : ∀ {kept : Kept}, kept.Rests outputLimit {} →
      (keeps (document.members.elim [] (membersEvents {})) kept).Rests outputLimit
        (membersOutput outputLimit false {} document.memberList) := by
    intro kept rests
    rw [Json.Document.memberList]
    cases document.members with
    | none => exact rests
    | some members => exact rests.members {} members
  have split : documentEvents document = [.capture .discard] ++
      (skips document.before ++ ([.take (ascii '{')] ++ (coreByteEvents (ascii '{') ++
        (skips document.inside ++ (document.members.elim [] (membersEvents {}) ++
          ([.take (ascii '}')] ++ (coreByteEvents (ascii '}') ++ skips document.after))))))) := by
    simp [documentEvents]
  have whole : (keeps (documentEvents document) (startState outputLimit heap).kept).Rests
      outputLimit (membersOutput outputLimit false {} document.memberList) := by
    rw [split]
    simp only [keeps_append]
    have first := (start.idle (silent_skips document.before)).idle (taken (ascii '{'))
    have inner := (rests_coreByte first (ascii '{')).idle (silent_skips document.inside)
    have last := (body inner).idle (taken (ascii '}'))
    exact (rests_coreByte last (ascii '}')).idle (silent_skips document.after)
  rw [← after] at whole
  exact whole.output

/-! ### The order of the members -/

section Order

variable {limit : Nat} {members : List Json.Member}
variable {property : List Byte → Bool} {member : Json.Member}

/-- Once the document has been captured, a text is ignored. -/
theorem membersOutput_true (output : ServerOutput)
    (noJson : ∀ member ∈ members, ¬ isOutputJson (memberName member)) :
    membersOutput limit true output members = output := by
  induction members with
  | nil => rfl
  | cons member rest inductionHypothesis =>
      have json := noJson member List.mem_cons_self
      rw [membersOutput, memberOutput, if_neg json, if_neg (by simp), Bool.true_or]
      exact inductionHypothesis fun other later => noJson other (List.mem_cons_of_mem _ later)

/-- At most one member has a name with this property. -/
def AtMostOne (property : List Byte → Bool) (members : List Json.Member) : Prop :=
  (members.filter fun member => property (memberName member)).length ≤ 1

theorem AtMostOne.tail (unique : AtMostOne property (member :: members)) :
    AtMostOne property members := by
  rw [AtMostOne, List.filter_cons] at unique
  split_ifs at unique
  · exact (Nat.le_succ _).trans unique
  · exact unique

theorem AtMostOne.none_later (unique : AtMostOne property (member :: members))
    (here : property (memberName member)) : ∀ other ∈ members, ¬ property (memberName other) := by
  rw [AtMostOne, List.filter_cons, if_pos here, List.length_cons, Nat.succ_le_succ_iff,
    Nat.le_zero, List.length_eq_zero_iff, List.filter_eq_nil_iff] at unique
  exact unique

/-- The members call for the same output one after the other as all together. -/
theorem membersOutput_eq (uniqueJson : AtMostOne isOutputJson members)
    (uniqueText : AtMostOne isOutputText members) (output : ServerOutput) :
    membersOutput limit false output members =
      match members.find? (fun member => isOutputJson (memberName member)) with
      | some member => jsonOutput limit member.value
      | none =>
          match members.find? (fun member => isOutputText (memberName member)) with
          | some member => textOutput limit member.value
          | none => output := by
  induction members generalizing output with
  | nil => rfl
  | cons member rest inductionHypothesis =>
      rw [membersOutput, Bool.false_or, memberOutput]
      by_cases json : isOutputJson (memberName member) = true
      · rw [if_pos json, json, membersOutput_true _ (uniqueJson.none_later json),
          List.find?_cons_of_pos (by exact json)]
      · rw [if_neg json, Bool.eq_false_iff.mpr json, List.find?_cons_of_neg (by exact json),
          inductionHypothesis uniqueJson.tail uniqueText.tail]
        by_cases text : isOutputText (memberName member) = true
        · have noText : rest.find? (fun member => isOutputText (memberName member)) = none :=
            List.find?_eq_none.mpr (uniqueText.none_later text)
          rw [if_pos ⟨text, rfl⟩, noText, List.find?_cons_of_pos (by exact text)]
        · rw [if_neg (fun both => text both.1), List.find?_cons_of_neg (by exact text)]

/-- With at most one match, the order does not matter. -/
theorem find_eq_of_perm {others : List Json.Member} (unique : AtMostOne property members)
    (perm : others.Perm members) :
    others.find? (fun member => property (memberName member)) =
      members.find? (fun member => property (memberName member)) := by
  have filtered := perm.filter fun member => property (memberName member)
  rw [← List.head?_filter, ← List.head?_filter]
  rcases Nat.le_one_iff_eq_zero_or_eq_one.mp unique with none | one
  · rw [List.length_eq_zero_iff.mp none] at filtered ⊢
    rw [filtered.eq_nil]
  · obtain ⟨single, whole⟩ := List.length_eq_one_iff.mp one
    rw [whole] at filtered ⊢
    rw [List.perm_singleton.mp filtered]

/-- With at most one match, any match is the one that is found. -/
theorem find_of_unique (unique : AtMostOne property members) (here : member ∈ members)
    (holds : property (memberName member) = true) :
    members.find? (fun member => property (memberName member)) = some member := by
  have inside : member ∈ members.filter fun member => property (memberName member) :=
    List.mem_filter.mpr ⟨here, holds⟩
  rw [← List.head?_filter]
  rw [AtMostOne] at unique
  obtain ⟨only, alone⟩ := List.length_eq_one_iff.mp
    (Nat.le_antisymm unique (List.length_pos_of_mem inside))
  rw [alone] at inside ⊢
  rw [List.mem_singleton.mp inside, List.head?_cons]

theorem selectedOutput_perm {others : List Json.Member}
    (uniqueJson : AtMostOne isOutputJson members) (uniqueText : AtMostOne isOutputText members)
    (perm : others.Perm members) : selectedOutput limit others = selectedOutput limit members := by
  rw [selectedOutput, selectedOutput, find_eq_of_perm uniqueJson perm,
    find_eq_of_perm uniqueText perm]

end Order

theorem atMostOne_of_named {name : List Byte} {members : List Json.Member}
    (unique : (named name (members.map memberName)).length ≤ 1) :
    AtMostOne (fun key => sameIgnoringCase key name) members := by
  rw [named, List.filter_map, List.length_map] at unique
  exact unique

theorem Documented.uniqueJson (documented : Documented document) :
    AtMostOne isOutputJson document.memberList :=
  atMostOne_of_named (documented.reserved _ (by decide))

theorem Documented.uniqueText (documented : Documented document) :
    AtMostOne isOutputText document.memberList :=
  atMostOne_of_named (documented.reserved _ (by decide))

theorem joined_length (members : List Json.Member) : (joined members).length =
    (members.map fun member => (memberText member).length + 1).sum - 1 := by
  cases members with
  | nil => rfl
  | cons member rest =>
      simp only [joined, List.length_append, List.length_flatMap, List.length_cons, List.map_cons,
        List.sum_cons]
      omega

/-- The documented limits do not depend on the order of the members. -/
theorem Documented.perm {other : Json.Document} (documented : Documented document)
    (perm : other.memberList.Perm document.memberList) : Documented other where
  noNul := by
    intro text found
    obtain ⟨member, here, inside⟩ := List.mem_flatMap.mp found
    exact documented.noNul text (List.mem_flatMap.mpr ⟨member, perm.mem_iff.mp here, inside⟩)
  shortNames := fun member here => documented.shortNames member (perm.mem_iff.mp here)
  reserved := by
    intro name known
    have filtered := (perm.map memberName).filter fun key => sameIgnoringCase key name
    exact filtered.length_eq.trans_le (documented.reserved name known)
  numbers := fun member here => documented.numbers member (perm.mem_iff.mp here)
  depth := fun member here => documented.depth member (perm.mem_iff.mp here)
  values := (perm.map _).sum_eq.trans_le documented.values
  coreValues := ((perm.filter _).map _).sum_eq.trans_le documented.coreValues
  core := by
    have same : (joined (coreMembers other.memberList)).length =
        (joined (coreMembers document.memberList)).length := by
      rw [joined_length, joined_length, coreMembers, coreMembers, ((perm.filter _).map _).sum_eq]
    have fits := documented.core
    rw [coreText, List.length_cons, List.length_append] at fits ⊢
    rw [same]
    exact fits

/-! ### The output of an accepted call -/

/-- What `server_output_json` has to give. -/
structure JsonOutput (limit : Nat) (value : Json.Value) (output : ServerOutput) : Prop where
  wrongType : isObject value = false → output.state = .invalid ∧ output.reason = .invalidData ∧
    output.value = none
  complete : isObject value → value.compact.bytes.length ≤ limit →
    value.count ≤ resultCoreMaxValues →
      output.state = .complete ∧ output.value = some value.compact.bytes
  discarded : isObject value →
    ¬ (value.compact.bytes.length ≤ limit ∧ value.count ≤ resultCoreMaxValues) →
      output.state = .discarded ∧ output.value = none ∧
        CrossedFirst limit (valueMarks value) output.reason
  observed : isObject value → output.observedBytes = value.compact.bytes.length ∧
    output.observedBytesComplete = true

/-- What `server_output_text` has to give. -/
structure TextOutput (limit : Nat) (value : Json.Value) (output : ServerOutput) : Prop where
  wrongType : (∀ text, value ≠ .text text) → output.state = .invalid ∧
    output.reason = .invalidData ∧ output.value = none
  nul : ∀ text, value = .text text → ¬ text.NoNul → output.state = .invalid ∧
    output.reason = .invalidData ∧ output.value = none
  kept : ∀ text, value = .text text → text.NoNul → ∃ kept,
    Utf8.LongestWithin limit text.scalars kept ∧ output.value = some (Utf8.encode kept)
  complete : ∀ text, value = .text text → text.NoNul →
    (output.state = .complete ↔ text.decoded.length ≤ limit)
  truncated : ∀ text, value = .text text → text.NoNul → limit < text.decoded.length →
    output.state = .truncated ∧ output.reason = .byteLimit
  observed : ∀ text, value = .text text → text.NoNul →
    output.observedBytes = text.decoded.length ∧ output.observedBytesComplete = true

theorem jsonOutput_spec (limit : Nat) (value : Json.Value) :
    JsonOutput limit value (jsonOutput limit value) := by
  by_cases object : isObject value = true
  · have nothing := @crossing_eq_none limit (valueMarks value) 0 0 (Nat.zero_le _) (Nat.zero_le _)
    rw [Nat.zero_add, Nat.zero_add, markBytes_value, markCount_value] at nothing
    rw [jsonOutput, if_pos object]
    cases crosses : crossing limit (valueMarks value) 0 0 with
    | none =>
        exact {
          wrongType := fun no => absurd object (by simp [no])
          complete := fun _ _ _ => ⟨rfl, rfl⟩
          discarded := fun _ no => absurd (nothing.mp crosses) no
          observed := fun _ => ⟨rfl, rfl⟩ }
    | some reason =>
        have first := @crossedFirst_of_crossing limit [] (valueMarks value) reason
          (Nat.zero_le _) (Nat.zero_le _) crosses
        exact {
          wrongType := fun no => absurd object (by simp [no])
          complete := fun _ short few => by
            rw [nothing.mpr ⟨short, few⟩] at crosses
            cases crosses
          discarded := fun _ _ => ⟨rfl, rfl, first⟩
          observed := fun _ => ⟨rfl, rfl⟩ }
  · rw [jsonOutput, if_neg object]
    exact {
      wrongType := fun _ => ⟨rfl, rfl, rfl⟩
      complete := fun yes => absurd yes object
      discarded := fun yes => absurd yes object
      observed := fun yes => absurd yes object }

theorem textOutput_spec (limit : Nat) (value : Json.Value) :
    TextOutput limit value (textOutput limit value) := by
  cases value with
  | text text =>
      rw [textOutput]
      by_cases clean : ∀ scalar ∈ text.scalars, scalar.toNat ≠ 0
      · have longest := Utf8.cut_longest limit text.scalars
        rw [scalarsOutput, if_pos clean]
        exact {
          wrongType := fun none => absurd rfl (none text)
          nul := by rintro _ ⟨⟩ nul; exact absurd clean nul
          kept := by
            rintro _ ⟨⟩ _
            refine ⟨_, longest, ?_⟩
            split_ifs with fits
            · rw [Utf8.cut_of_fits fits]
            · rfl
          complete := by rintro _ ⟨⟩ _; split_ifs with fits <;> simp [fits, Json.Text.decoded]
          truncated := by
            rintro _ ⟨⟩ _ long
            split_ifs with fits
            · exact absurd fits (Nat.not_le_of_lt long)
            · exact ⟨rfl, rfl⟩
          observed := by rintro _ ⟨⟩ _; split_ifs <;> exact ⟨rfl, rfl⟩ }
      · rw [scalarsOutput, if_neg clean]
        exact {
          wrongType := fun none => absurd rfl (none text)
          nul := by rintro _ ⟨⟩ _; exact ⟨rfl, rfl, rfl⟩
          kept := by rintro _ ⟨⟩ noNul; exact absurd noNul clean
          complete := by rintro _ ⟨⟩ noNul; exact absurd noNul clean
          truncated := by rintro _ ⟨⟩ noNul; exact absurd noNul clean
          observed := by rintro _ ⟨⟩ noNul; exact absurd noNul clean }
  | _ =>
      exact {
        wrongType := fun _ => ⟨rfl, rfl, rfl⟩
        nul := by simp
        kept := by simp
        complete := by simp
        truncated := by simp
        observed := by simp }

section Call

open IperfSwift.CJson

variable {κ ν : Type} {frame later : List Byte} {ending : Ending} {read : ReadFunction κ}
  {context : κ} {outputLimit : Nat} {heap : Heap}

/-- cJSON does not touch the output. -/
theorem output_of_ok {frameLength : Nat} (valid : ValidCall frameLength outputLimit)
    {convert : List Byte → ν} {parsed : Parsed (Node ν)}
    (ok : (iperfReadBoundedResults convert frameLength outputLimit read context heap).result =
      .ok parsed) :
    (iperfReadBoundedResults convert frameLength outputLimit read context heap).output =
      (scanned read context frameLength outputLimit heap).2.scan.output := by
  obtain ⟨granted, succeeded, found⟩ := (iperfReadBoundedResults_ok valid convert parsed).mp ok
  rw [iperfReadBoundedResults_valid valid]
  dsimp only
  rw [if_pos granted, if_pos succeeded, found, finishRead]
  dsimp only
  rw [parseCore_fst] at found
  simp only [parseCore, found]

/-- The output of an accepted frame is the one its members call for. -/
theorem output_of_accepted (valid : ValidCall frame.length outputLimit)
    (delivers : Delivers read context (frame ++ later) ending) {convert : List Byte → ν}
    {parsed : Parsed (Node ν)}
    (ok : (iperfReadBoundedResults convert frame.length outputLimit read context heap).result =
      .ok parsed) :
    ∃ document, Json.Document.bytes document = frame ∧ Documented document ∧
      (iperfReadBoundedResults convert frame.length outputLimit read context heap).output =
        selectedOutput outputLimit document.memberList := by
  obtain ⟨-, succeeded, -⟩ := (iperfReadBoundedResults_ok valid convert parsed).mp ok
  obtain ⟨document, bytes, shaped, run⟩ := document_of_root delivers succeeded
  obtain ⟨documented, -⟩ := documented_of_perform shaped run
  refine ⟨document, bytes, documented, ?_⟩
  rw [output_of_ok valid ok, scanned, output_of_perform run,
    membersOutput_eq documented.uniqueJson documented.uniqueText, selectedOutput]

/-- Two documents of the same bytes call for the same output: both are what one scan of these
bytes finds. -/
theorem selectedOutput_of_bytes {other : Json.Document} (documented : Documented document)
    (otherDocumented : Documented other) (same : other.bytes = document.bytes) (limit : Nat) :
    selectedOutput limit other.memberList = selectedOutput limit document.memberList := by
  let unbounded : Heap := ⟨fun _ => true, []⟩
  have unlimited : unbounded.Unlimited := fun _ => rfl
  have delivers : Delivers (memoryReader 1) document.bytes (document.bytes ++ []) .endOfInput := by
    rw [List.append_nil]
    exact memoryReader_delivers (by decide) document.bytes
  have output : ∀ {each : Json.Document}, Documented each → each.bytes = document.bytes →
      (root (Feed.source (memoryReader 1)) ⟨⟨document.bytes, document.bytes.length, [], 0, []⟩,
        startState limit unbounded⟩).2.scan.output = selectedOutput limit each.memberList := by
    intro each fits bytes
    obtain ⟨shaped, -⟩ := (documented_iff each).mp fits
    obtain ⟨final, run⟩ := perform_documented fits limit unlimited
    rw [← bytes] at delivers ⊢
    obtain ⟨-, sameScan⟩ := root_of_document delivers shaped run
    rw [sameScan, output_of_perform run, membersOutput_eq fits.uniqueJson fits.uniqueText,
      selectedOutput]
  rw [← output otherDocumented same, ← output documented rfl]

/-- The output of an accepted frame, member by member and in any order of the members. -/
theorem iperfReadBoundedResults_output (convert : List Byte → ν) (frame later : List Byte)
    {ending : Ending} {read : ReadFunction κ} {context : κ} {outputLimit : Nat} {heap : Heap}
    (valid : ValidCall frame.length outputLimit)
    (delivers : Delivers read context (frame ++ later) ending) {parsed : Parsed (Node ν)}
    (ok : (iperfReadBoundedResults convert frame.length outputLimit read context heap).result =
      .ok parsed) :
    let output :=
      (iperfReadBoundedResults convert frame.length outputLimit read context heap).output
    (∃ document, Json.Document.bytes document = frame ∧ Documented document) ∧
    ∀ document, Json.Document.bytes document = frame → Documented document →
      (∀ member ∈ document.memberList, isOutputJson (memberName member) = true →
        JsonOutput outputLimit member.value output) ∧
      ((∀ member ∈ document.memberList, isOutputJson (memberName member) = false) →
        ∀ member ∈ document.memberList, isOutputText (memberName member) = true →
          TextOutput outputLimit member.value output) ∧
      ((∀ member ∈ document.memberList, isOutputJson (memberName member) = false ∧
          isOutputText (memberName member) = false) → output.state = .missing) ∧
      ∀ other : Json.Document, other.memberList.Perm document.memberList →
        Documented other ∧
        ∀ {ω : Type} {otherRead : ReadFunction ω} {otherContext : ω} {otherHeap : Heap}
          {otherLater : List Byte} {otherEnding : Ending} {otherParsed : Parsed (Node ν)},
          ValidCall other.bytes.length outputLimit →
          Delivers otherRead otherContext (other.bytes ++ otherLater) otherEnding →
          (iperfReadBoundedResults convert other.bytes.length outputLimit otherRead otherContext
            otherHeap).result = .ok otherParsed →
          (iperfReadBoundedResults convert other.bytes.length outputLimit otherRead otherContext
            otherHeap).output = output := by
  intro output
  obtain ⟨found, foundBytes, foundDocumented, foundOutput⟩ := output_of_accepted valid delivers ok
  refine ⟨⟨found, foundBytes, foundDocumented⟩, ?_⟩
  intro document bytes documented
  have selected : output = selectedOutput outputLimit document.memberList :=
    foundOutput.trans (selectedOutput_of_bytes documented foundDocumented
      (foundBytes.trans bytes.symm) outputLimit)
  refine ⟨?_, ?_, ?_, ?_⟩
  · intro member here json
    rw [selected, selectedOutput, find_of_unique documented.uniqueJson here json]
    exact jsonOutput_spec outputLimit member.value
  · intro noJson member here text
    rw [selected, selectedOutput, List.find?_eq_none.mpr (by simpa using noJson),
      find_of_unique documented.uniqueText here text]
    exact textOutput_spec outputLimit member.value
  · intro neither
    rw [selected, selectedOutput,
      List.find?_eq_none.mpr fun member here => by simp [(neither member here).1],
      List.find?_eq_none.mpr fun member here => by simp [(neither member here).2]]
  · intro other perm
    have otherDocumented := documented.perm perm
    refine ⟨otherDocumented, ?_⟩
    intro _ otherRead otherContext otherHeap otherLater otherEnding otherParsed otherValid
      otherDelivers otherOk
    obtain ⟨again, againBytes, againDocumented, againOutput⟩ :=
      output_of_accepted otherValid otherDelivers otherOk
    rw [againOutput, selectedOutput_of_bytes otherDocumented againDocumented againBytes,
      selectedOutput_perm documented.uniqueJson documented.uniqueText perm, selected]

theorem output_of_sampleDocument :
    let frame := bytesOf "\x7b\"a\":1,\"server_output_text\":\"x\"\x7d"
    let outcome := iperfReadBoundedResults id frame.length 1 (memoryReader 1) frame
      ⟨fun _ => true, []⟩
    (∃ parsed, outcome.result = .ok parsed) ∧
      TextOutput 1 (.text ("x".toList.map coreSpelling)) outcome.output := by
  intro frame outcome
  have valid : ValidCall frame.length 1 := ⟨by decide, by decide, by decide, by decide⟩
  have delivers : Delivers (memoryReader 1) frame (frame ++ []) .endOfInput := by
    rw [List.append_nil]
    exact memoryReader_delivers (by decide) frame
  have unlimited : (⟨fun _ => true, []⟩ : Heap).Unlimited := fun _ => rfl
  obtain ⟨parsed, ok⟩ := @ok_of_document _ _ _ _ _ _ _ _ sampleDocument valid
    sampleDocument_documented delivers unlimited id
  have output := (iperfReadBoundedResults_output id frame [] valid delivers ok).2 sampleDocument
    (by decide) sampleDocument_documented
  exact ⟨⟨parsed, ok⟩, output.2.1 (by decide) _
    (List.mem_cons_of_mem _ (List.mem_cons_self ..)) (by decide)⟩

end Call

end IperfSwift.Output
