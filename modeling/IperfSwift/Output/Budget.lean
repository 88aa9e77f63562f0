import IperfSwift.Lib.Outside
import IperfSwift.Output.PeerStatus
import IperfSwift.Output.Prefix

/-!
Contract: `iperf_output_budget.c` on the side of the server.

Owns: the collector of the server's own output, text in pieces or one interval tree
after the other; the check of the shape of a tree; how the document is put together
at the end; the members that are added to the results.

Every allocation is a question to the outside, and cJSON prints trees in any way.

Does not own: `utf8_prefix` and `iperf_output_apply_peer_status`, the socket, and
the members of the results that hold statistics.
-/

set_option autoImplicit false

namespace IperfSwift.Output

open IperfSwift.Lib
open IperfSwift.Lib.Program
open IperfSwift.CJson

/-! ### State -/

/-- `json_top` with `json_intervals` at its place among the members. -/
structure JsonTop where
  before : List (List Byte × Node Double)
  intervals : Node Double
  after : List (List Byte × Node Double)

def intervalsKey : List Byte := bytesOf "intervals"

/-- The part of `struct iperf_test` that the collector works on. -/
structure Collector where
  answers : Answers
  tick : Nat
  byteLimit : Nat
  jsonOutput : Bool
  output : ServerOutput
  outputScratch : Bool
  outputJsonValues : Nat
  outputJsonIntervals : Nat
  outputFinalized : Bool
  jsonTop : Option JsonTop

instance : Outside Collector where
  question test := (test.tick, { test with tick := test.tick + 1 })
  answers test := test.answers

/-- The string that `cJSON_PrintPreallocated` leaves in a buffer of some length, if it does. -/
abbrev Printer := Node Double → Nat → Option (List Byte)

/-- Change the collected output only. -/
def updateOutput (change : ServerOutput → ServerOutput) : Program Collector Unit :=
  update fun test => { test with output := change test.output }

/-- `discard`. -/
def discardOutputFor (reason : OutputReason) : Program Collector Unit :=
  updateOutput fun output => discard output reason

/-- `iperf_output_budget_reset` of a server. -/
def iperfOutputBudgetReset : Program Collector Unit :=
  update fun test =>
    { test with
      jsonTop := if test.byteLimit = 0 then test.jsonTop else none
      output := {}
      outputScratch := false
      outputJsonValues := 0
      outputJsonIntervals := 0
      outputFinalized := false }

/-- `begin`. -/
def begin (format : OutputFormat) : Program Collector Bool := do
  let test ← current
  if test.output.state ≠ .missing then pure (decide (test.output.state = .complete))
  else do
    updateOutput fun output =>
      { output with format := format, observedBytesComplete := decide (format = .text) }
    if ← ask then do
      updateOutput fun output => { output with value := some [], state := .complete }
      pure true
    else do
      discardOutputFor .allocationFailure
      pure false

/-! ### Text -/

/-- What two calls of `vsnprintf` with the same arguments make of a piece of text: its length
and its bytes. `none` stands for a negative result. -/
structure Formatted where
  required : Option Nat
  written : Option (List Byte)

/-- `count_bytes`, which ends at `UINT64_MAX`. -/
def countBytes (output : ServerOutput) (count : Nat) : ServerOutput :=
  if 2 ^ 64 - 1 - output.observedBytes < count then
    { output with observedBytes := 2 ^ 64 - 1, observedBytesComplete := false }
  else { output with observedBytes := output.observedBytes + count }

/-- The bytes that are kept of a piece, behind the ones that are there. -/
def retain (byteLimit : Nat) (text : List Byte) (output : ServerOutput) : ServerOutput :=
  let available := byteLimit - output.held.length
  let cut := decide (available < text.length)
  let checked := utf8Prefix (text.take available) cut
  if checked.1 then
    let kept := { output with value := some (output.held ++ text.take checked.2) }
    if cut then { kept with state := .truncated, reason := .byteLimit } else kept
  else discard output .invalidData

/-- `append_format`. -/
def appendFormat (byteLimit : Nat) (piece : Formatted) (output : ServerOutput) : ServerOutput :=
  match piece.required with
  | none => { discard output .invalidData with observedBytesComplete := false }
  | some required =>
      let counted := countBytes output required
      if counted.state ≠ .complete then counted
      else
        match piece.written with
        | none => discard counted .invalidData
        | some text =>
            if text.length ≠ required then discard counted .invalidData
            else retain byteLimit text counted

/-- `append_format` on the collected output. -/
def append (piece : Formatted) : Program Collector Unit :=
  update fun test => { test with output := appendFormat test.byteLimit piece test.output }

/-- `iperf_output_collect_printf`. The time stamp in front is there only if it was asked for. -/
def iperfOutputCollectPrintf (stamp : Option Formatted) (line : Formatted) :
    Program Collector Unit := do
  let test ← current
  if test.outputFinalized then pure ()
  else do
    let _ ← begin .text
    match stamp with
    | none => pure ()
    | some piece => append piece
    append line

/-! ### Trees -/

/-- The checks of `shape` on one node. -/
def enterNode (depth nodes : Nat) : Except OutputReason Nat :=
  if resultMaxDepth < depth then .error .depthLimit
  else if resultCoreMaxValues < nodes + 1 then .error .nodeLimit
  else .ok (nodes + 1)

mutual

/-- `shape`: the number of nodes counted so far, or why the tree is refused. -/
def shape : Node Double → Nat → Nat → Except OutputReason Nat
  | .array children, depth, nodes => do
      let nodes ← enterNode depth nodes
      shapeElements children (depth + 1) nodes
  | .object members, depth, nodes => do
      let nodes ← enterNode depth nodes
      shapeMembers members (depth + 1) nodes
  | .null, depth, nodes => enterNode depth nodes
  | .bool _, depth, nodes => enterNode depth nodes
  | .number _, depth, nodes => enterNode depth nodes
  | .string _, depth, nodes => enterNode depth nodes
  | .raw _, depth, nodes => enterNode depth nodes

def shapeElements : List (Node Double) → Nat → Nat → Except OutputReason Nat
  | [], _, nodes => .ok nodes
  | child :: rest, depth, nodes => do
      let nodes ← shape child depth nodes
      shapeElements rest depth nodes

def shapeMembers : List (List Byte × Node Double) → Nat → Nat → Except OutputReason Nat
  | [], _, nodes => .ok nodes
  | (_, child) :: rest, depth, nodes => do
      let nodes ← shape child depth nodes
      shapeMembers rest depth nodes

end

/-- `scratch`, whose block is kept for the next call. -/
def scratch : Program Collector Bool := do
  let test ← current
  if test.outputScratch then pure true
  else do
    if ← ask then do
      update fun test => { test with outputScratch := true }
      pure true
    else do
      discardOutputFor .allocationFailure
      pure false

/-- The length that `iperf_output_budget.c` gives the scratch buffer. -/
def scratchSize (byteLimit : Nat) : Nat := byteLimit + 5

/-- The text of one more interval behind the ones that are there. -/
def addInterval (nodes : Nat) (text : List Byte) (test : Collector) : Collector :=
  let comma : List Byte := if test.outputJsonIntervals = 0 then [] else [ascii ',']
  if test.byteLimit < 2 ∨ test.byteLimit - 2 < test.output.held.length ∨
      test.byteLimit - 2 - test.output.held.length < text.length + comma.length then
    { test with output := discard test.output .byteLimit }
  else
    { test with
      output := { test.output with value := some (test.output.held ++ (comma ++ text)) }
      outputJsonValues := nodes
      outputJsonIntervals := test.outputJsonIntervals + 1 }

/-- `iperf_output_collect_interval`. An interval stands in an array of the outermost object. -/
def iperfOutputCollectInterval (print : Printer) (interval : Node Double) :
    Program Collector Unit := do
  let test ← current
  if test.outputFinalized then pure ()
  else if ← begin .json then do
    match shape interval 3 test.outputJsonValues with
    | .error reason => discardOutputFor reason
    | .ok nodes =>
        if ← scratch then
          match print interval (scratchSize test.byteLimit) with
          | none => discardOutputFor .byteLimit
          | some text => update (addInterval nodes text)
        else pure ()
  else pure ()

/-! ### The document -/

/-- The document with its intervals as text, which is its last member. -/
def rawDocument (top : JsonTop) (intervals : List Byte) : Node Double :=
  .object (top.before ++ top.after ++ [(intervalsKey, .raw intervals)])

/-- The text of a document, if it is not too long. -/
def printBounded (print : Printer) (byteLimit : Nat) (document : Node Double) :
    Except OutputReason (List Byte) :=
  match print document (scratchSize byteLimit) with
  | none => .error .byteLimit
  | some text => if byteLimit < text.length then .error .byteLimit else .ok text

/-- The text of the whole document, or why there is none. -/
def printDocument (print : Printer) (byteLimit nodes : Nat) (intervals : List Byte)
    (top : JsonTop) : Except OutputReason (List Byte) := do
  let _ ← shape (rawDocument top intervals) 1 nodes
  printBounded print byteLimit (rawDocument top intervals)

/-- The output once the document is there. -/
def finishDocument (document : Except OutputReason (List Byte)) (output : ServerOutput) :
    ServerOutput :=
  match document with
  | .error reason => discard output reason
  | .ok text =>
      if (utf8Prefix text false).1 then
        { output with
          value := some text, observedBytes := text.length, observedBytesComplete := true }
      else discard output .invalidData

/-- `json_top` gets its own intervals back, as its last member. -/
def JsonTop.reattached (top : JsonTop) : JsonTop := ⟨top.before ++ top.after, top.intervals, []⟩

/-- The part of `finalize_json` behind the checks. -/
def closeDocument (print : Printer) (top : JsonTop) : Program Collector Unit := do
  let test ← current
  let intervals := ascii '[' :: (test.output.held ++ [ascii ']'])
  updateOutput fun output => { output with value := some intervals }
  if ← ask then
    update fun test =>
      { test with
        output := finishDocument
          (printDocument print test.byteLimit test.outputJsonValues intervals top) test.output
        jsonTop := some top.reattached }
  else discardOutputFor .allocationFailure

/-- `finalize_json`. -/
def finalizeJson (print : Printer) : Program Collector Unit := do
  if ← andThen (begin .json) scratch then do
    let test ← current
    match test.jsonTop with
    | none => discardOutputFor .invalidData
    | some top =>
        if test.byteLimit < 2 then discardOutputFor .byteLimit
        else closeDocument print top
  else pure ()

/-! ### Results -/

/-- The largest count that is sent. -/
def exactNumber : Nat := 9007199254740991

/-- The status object. -/
def statusMembers (output : ServerOutput) : List (List Byte × Node Double) :=
  [(bytesOf "version", .number (.ofInt 1)),
    (bytesOf "state", .number (.ofInt output.state.code)),
    (bytesOf "format", .number (.ofInt output.format.code)),
    (bytesOf "reason", .number (.ofInt output.reason.code))] ++
  if output.observedBytesComplete = true ∧ output.observedBytes ≤ exactNumber then
    [(bytesOf "observed_bytes", .number (.ofInt output.observedBytes))]
  else []

/-- The name of the output member. -/
def outputKey (format : OutputFormat) : List Byte :=
  if format = .json then bytesOf "server_output_json" else bytesOf "server_output_text"

/-- The output member, if there is anything to send. -/
def outputMembers (output : ServerOutput) : List (List Byte × Node Double) :=
  match output.value with
  | none => []
  | some bytes =>
      [(outputKey output.format, if output.format = .json then .raw bytes else .string bytes)]

/-- Some allocations in a row, each only if the ones before have succeeded. -/
def allocate : Nat → Program Collector Bool
  | 0 => pure true
  | count + 1 => andThen ask (allocate count)

/-- The output as it is sent, collected to its end the first time. -/
def finalizeOutput (print : Printer) : Program Collector Unit := do
  let test ← current
  if test.outputFinalized then pure ()
  else do
    if test.jsonOutput then finalizeJson print
    else do
      let _ ← begin .text
      pure ()
    update fun test => { test with outputFinalized := true }

/-- `iperf_output_add_server_results`: the results with the new members, `none` for -1. -/
def iperfOutputAddServerResults (print : Printer) (results : List (List Byte × Node Double)) :
    Program Collector (Option (List (List Byte × Node Double))) := do
  finalizeOutput print
  let test ← current
  let status := statusMembers test.output
  if ← allocate ((outputMembers test.output).length + 1 + status.length) then
    pure (some (results ++ outputMembers test.output ++ [(statusKey, .object status)]))
  else pure none

end IperfSwift.Output
