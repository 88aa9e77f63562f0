import IperfSwift.CJson.Parse
import IperfSwift.Output.Source
import IperfSwift.Output.State

/-!
Contract: the result scanner of `iperf_bounded_output.c`.

Owns: `peek`, `take`, `expect`, `whitespace`, `hex4`, `string`, `number`, `value`,
`root` and `iperf_read_bounded_results`, over any source of bytes.

A loop of the source that consumes a byte on every pass runs here with the
number of unconsumed bytes as its allowance. `-1` of `peek` and `take` is `none`.
-/

set_option autoImplicit false

namespace IperfSwift.Output

open IperfSwift.Lib
open IperfSwift.Lib.Program
open IperfSwift.CJson

/-- `struct parser`. -/
structure Parser (σ : Type) where
  input : σ
  scan : ScanState

variable {σ α τ ν : Type}

/-- Run an action on the scanner's own state. -/
def lift (action : Program ScanState α) : Program (Parser σ) α := fun parser =>
  ((action parser.scan).1, { parser with scan := (action parser.scan).2 })

/-- `p->error`. -/
def errorNow : Program (Parser σ) Errno := fun parser => (parser.scan.error, parser)

/-- The key buffer of `root`. -/
def keyNow : Program (Parser σ) (List Byte) := fun parser => (parser.scan.key, parser)

section Scanner

variable (source : Source σ)

def peek : Program (Parser σ) (Option Byte) := fun parser =>
  if parser.scan.error ≠ 0 then (none, parser)
  else
    let found := source.peek parser.input
    match found.1 with
    | .byte byte => (some byte, { parser with input := found.2 })
    | .finished => (none, { parser with input := found.2 })
    | .failed error => (none, ⟨found.2, (fail error parser.scan).2⟩)

/-- `++p->cursor`. -/
def advance : Program (Parser σ) Unit :=
  update fun parser => { parser with input := source.advance parser.input }

def take : Program (Parser σ) (Option Byte) := do
  match ← peek source with
  | none => do
      let _ ← lift (fail EPROTO)
      pure none
  | some byte => do
      advance source
      let emitted ← lift (emit byte)
      pure (if emitted then some byte else none)

def expect (expected : Byte) : Program (Parser σ) Bool := do
  let found ← take source
  if found = some expected then pure true else lift (fail EPROTO)

/-- A loop that consumes input on every pass. -/
def scanLoop (body : τ → Program (Parser σ) (Step τ α)) (spent : α) (carried : τ) :
    Program (Parser σ) α := fun parser =>
  loop body spent (source.left parser.input + 1) carried parser

/-- One pass of the loop of `whitespace`. -/
def spacePass : Program (Parser σ) (Step Unit Unit) := do
  match ← peek source with
  | none => pure (.done ())
  | some byte =>
      if Json.IsSpace byte then do
        advance source
        pure (.again ())
      else pure (.done ())

def whitespace : Program (Parser σ) Unit := scanLoop source (fun _ => spacePass source) () ()

/-! ### Strings -/

/-- The loop of `hex4` over the digits that remain. -/
def hexDigits : Nat → Nat → Program (Parser σ) (Option Nat)
  | 0, result => pure (some result)
  | count + 1, result => do
      match (← take source).bind Json.hexValue with
      | none => do
          let _ ← lift (fail EPROTO)
          pure none
      | some digit => hexDigits count ((result <<< 4) ||| digit)

def hex4 : Program (Parser σ) (Option Nat) := hexDigits source 4 0

/-- `return fail(p, EPROTO)` where a scalar was wanted. -/
def noScalar : Program (Parser σ) (Option Nat) := do
  let _ ← lift (fail EPROTO)
  pure none

/-- The case `'u'` of `string`. -/
def unicodeEscape : Program (Parser σ) (Option Nat) := do
  match ← hex4 source with
  | none => pure none
  | some scalar =>
      if 0xd800 ≤ scalar ∧ scalar ≤ 0xdbff then do
        let marked ← andThen (expect source (ascii '\\')) (expect source (ascii 'u'))
        if marked then do
          match ← hex4 source with
          | none => pure none
          | some low =>
              if low < 0xdc00 ∨ 0xdfff < low then noScalar
              else pure (some (0x10000 + ((scalar - 0xd800) <<< 10) + low - 0xdc00))
        else pure none
      else if 0xdc00 ≤ scalar ∧ scalar ≤ 0xdfff then noScalar
      else pure (some scalar)

/-- What follows a backslash in `string`. -/
def escapeSequence : Program (Parser σ) (Option Nat) := do
  match ← take source with
  | none => noScalar
  | some letter =>
      if letter = ascii '"' ∨ letter = ascii '\\' ∨ letter = ascii '/' then
        pure (some letter.toNat)
      else if letter = ascii 'b' then pure (some 0x08)
      else if letter = ascii 'f' then pure (some 0x0c)
      else if letter = ascii 'n' then pure (some 0x0a)
      else if letter = ascii 'r' then pure (some 0x0d)
      else if letter = ascii 't' then pure (some 0x09)
      else if letter = ascii 'u' then unicodeEscape source
      else noScalar

/-- The loop of `string` over the bytes that follow a lead byte. -/
def tailBytes : Nat → Nat → Program (Parser σ) (Option Nat)
  | 0, scalar => pure (some scalar)
  | following + 1, scalar => do
      match ← take source with
      | none => noScalar
      | some byte =>
          if Utf8.IsTail byte then tailBytes following (Utf8.push scalar byte) else noScalar

/-- A scalar of more than one byte. -/
def multibyte (first : Byte) : Program (Parser σ) (Option Nat) :=
  match Utf8.lead first with
  | none => noScalar
  | some lead => do
      match ← tailBytes source lead.following lead.payload with
      | none => pure none
      | some scalar => if Utf8.IsScalar lead.minimum scalar then pure (some scalar) else noScalar

/-- The scalar that starts with a byte which neither ends the string nor is a
control character. -/
def scalarFrom (first : Byte) : Program (Parser σ) (Option Nat) :=
  if first = ascii '\\' then escapeSequence source
  else if first.toNat < 0x80 then pure (some first.toNat)
  else multibyte source first

/-- One pass of the loop of `string`. -/
def stringPass (destination : Option Decoded) : Program (Parser σ) (Step Unit Bool) := do
  let error ← errorNow
  if error ≠ 0 then pure (.done false)
  else do
    match ← take source with
    | none => do
        let failed ← lift (fail EPROTO)
        pure (.done failed)
    | some byte =>
        if byte = ascii '"' then pure (.done true)
        else if byte.toNat < 0x20 then do
          let failed ← lift (fail EPROTO)
          pure (.done failed)
        else do
          match ← scalarFrom source byte with
          | none => pure (.done false)
          | some scalar => do
              let kept ← lift (decodedScalar destination scalar)
              pure (if kept then .again () else .done false)

def string (destination : Option Decoded) : Program (Parser σ) Bool :=
  andThen (expect source (ascii '"'))
    (scanLoop source (fun _ => stringPass source destination) false ())

/-! ### Numbers -/

/-- `digit(peek(p))`. -/
def atDigit : Program (Parser σ) Bool := do
  match ← peek source with
  | none => pure false
  | some byte => pure (decide (Json.IsDigit byte))

/-- `take(p); if (++count > maximum) return fail(p, EPROTO);` and the test of the loop
around it. -/
def digitPass (count : Nat) : Program (Parser σ) (Step Nat (Option Nat)) := do
  let _ ← take source
  if resultMaxNumberLength < count + 1 then do
    let _ ← lift (fail EPROTO)
    pure (.done none)
  else do
    let more ← atDigit source
    pure (if more then .again (count + 1) else .done (some (count + 1)))

/-- A digit loop of `number`, with the count behind it. The count never passes the
maximum, which bounds the passes. -/
def digits (count : Nat) : Program (Parser σ) (Option Nat) :=
  loop (digitPass source) none (resultMaxNumberLength + 1) count

/-- `take(p); ++count;` if the next byte is one of `wanted`. -/
def optionalByte (wanted : List Byte) (count : Nat) : Program (Parser σ) (Bool × Nat) := do
  match ← peek source with
  | none => pure (false, count)
  | some byte =>
      if byte ∈ wanted then do
        let _ ← take source
        pure (true, count + 1)
      else pure (false, count)

/-- The digits that must follow a point or an exponent. -/
def requiredDigits (count : Nat) : Program (Parser σ) (Option Nat) := do
  let more ← atDigit source
  if more then digits source count else noScalar

/-- The digits before the point: `0`, or digits that start with another one. -/
def wholeDigits (count : Nat) : Program (Parser σ) (Option Nat) := do
  let zero ← optionalByte source [ascii '0'] count
  if zero.1 then pure (some zero.2) else requiredDigits source count

/-- A part of a number that starts with one of `wanted`, if it is there. -/
def optionalPart (wanted sign : List Byte) (count : Nat) : Program (Parser σ) (Option Nat) := do
  let started ← optionalByte source wanted count
  if started.1 then do
    let signed ← optionalByte source sign started.2
    requiredDigits source signed.2
  else pure (some count)

def number : Program (Parser σ) Bool := do
  let minus ← optionalByte source [ascii '-'] 0
  match ← wholeDigits source minus.2 with
  | none => pure false
  | some count =>
      match ← optionalPart source [ascii '.'] [] count with
      | none => pure false
      | some count =>
          match ← optionalPart source [ascii 'e', ascii 'E'] [ascii '+', ascii '-'] count with
          | none => pure false
          | some _ => do
              let error ← errorNow
              pure (decide (error = 0))

/-! ### Values -/

def literal : List Byte → Program (Parser σ) Bool
  | [] => pure true
  | byte :: rest => andThen (expect source byte) (literal rest)

/-- The key of an object member below the root, and its colon. -/
def memberKey : Program (Parser σ) Bool :=
  andThen (string source (some { isKey := true })) do
    whitespace source
    expect source (ascii ':')

/-- An item with what stands before it. -/
def keyedItem (kind : Json.Kind) (item : Program (Parser σ) Bool) : Program (Parser σ) Bool :=
  match kind with
  | .array => item
  | .object => andThen (memberKey source) item

/-- One pass of the loop of `value` over the items of a container. -/
def itemPass (kind : Json.Kind) (item : Program (Parser σ) Bool) :
    Program (Parser σ) (Step Unit Bool) := do
  let scanned ← keyedItem source kind item
  if scanned then do
    whitespace source
    let next ← peek source
    if next = some kind.closing then do
      let closed ← expect source kind.closing
      pure (.done closed)
    else do
      let separated ← expect source (ascii ',')
      if separated then do
        whitespace source
        pure (.again ())
      else pure (.done false)
  else pure (.done false)

def container (kind : Json.Kind) (item : Program (Parser σ) Bool) : Program (Parser σ) Bool := do
  let _ ← take source
  whitespace source
  let next ← peek source
  if next = some kind.closing then expect source kind.closing
  else scanLoop source (fun _ => itemPass source kind item) false ()

/-- `value` behind the count, with the program for the values inside. -/
def valueBody (item : Program (Parser σ) Bool) (destination : Option Decoded) :
    Program (Parser σ) Bool := do
  whitespace source
  match ← peek source with
  | none => lift (fail EPROTO)
  | some first =>
      if first = ascii '"' then string source destination
      else if first = ascii '-' ∨ Json.IsDigit first then number source
      else if first = ascii 't' then literal source (bytesOf "true")
      else if first = ascii 'f' then literal source (bytesOf "false")
      else if first = ascii 'n' then literal source (bytesOf "null")
      else if first = ascii '[' then container source .array item
      else if first = ascii '{' then container source .object item
      else lift (fail EPROTO)

/-- `value`. The first argument is `IPERF_RESULT_MAX_DEPTH + 1 - depth`. -/
def value : Nat → Option Decoded → Program (Parser σ) Bool
  | 0, _ => lift (fail EFBIG)
  | room + 1, destination =>
      andThen (lift (enterValue (resultMaxDepth - room)))
        (valueBody source (value room none) destination)

/-! ### The root object -/

/-- `unique` in `root`. -/
def uniqueNames : List (List Byte) :=
  [bytesOf "cpu_util_total", bytesOf "cpu_util_user", bytesOf "cpu_util_system",
    bytesOf "sender_has_retransmits", bytesOf "streams", bytesOf "congestion_used",
    bytesOf "server_output_text", bytesOf "server_output_json",
    bytesOf "iperf_swift_server_output"]

/-- The loop of `root` over `unique`. `seen` lists the names whose bit is set. -/
def markSeen (key : List Byte) : List (List Byte) → List (List Byte) → Option (List (List Byte))
  | [], seen => some seen
  | name :: rest, seen =>
      if sameIgnoringCase key name then
        if name ∈ seen then none else markSeen key rest (name :: seen)
      else markSeen key rest seen

/-- The local variables of `root` that live across its loop. -/
structure RootLocals where
  seen : List (List Byte) := []
  coreFields : Nat := 0
  seenJson : Bool := false
deriving DecidableEq, Repr

def isOutputJson (key : List Byte) : Bool := sameIgnoringCase key (bytesOf "server_output_json")

def isOutputText (key : List Byte) : Bool := sameIgnoringCase key (bytesOf "server_output_text")

def setCapture (capture : Capture) : Program (Parser σ) Unit :=
  lift (update fun state => { state with capture := capture })

/-- `char key[128] = {0};`. -/
def clearKey : Program (Parser σ) Unit := lift (update fun state => { state with key := [] })

/-- `discard_output(p, IPERF_OUTPUT_INVALID)` for output of the wrong type. -/
def wrongType (state : ScanState) : ScanState :=
  let discarded := discardOutput .invalid .invalidData state
  { discarded with output := { discarded.output with observedBytesComplete := false } }

/-- The value of an output member of the right type. -/
def validOutput (json : Bool) : Program (Parser σ) Bool := do
  setCapture (if json then .outputJson else .discard)
  value source resultMaxDepth (if json then none else some { outputText := true })

/-- The value of an output member of the wrong type, which is read and dropped. -/
def invalidOutput : Program (Parser σ) Bool := do
  lift (update wrongType)
  setCapture .discard
  value source resultMaxDepth none

/-- The member `server_output_json`, or `server_output_text` before it. -/
def outputMember (json : Bool) : Program (Parser σ) Bool :=
  andThen (lift (beginOutput (if json then .json else .text))) do
    let next ← peek source
    if next = some (if json then ascii '{' else ascii '"') then validOutput source json
    else invalidOutput source

/-- A member that goes to the core text. -/
def coreMember (first : Bool) (key : List Byte) : Program (Parser σ) Bool := do
  setCapture .core
  andThen (if first then pure true else lift (emit (ascii ',')))
    (andThen (lift (coreKey key)) (value source resultMaxDepth none))

/-- The value of a member whose key has been read, and the locals behind it. -/
def rootMember (locals : RootLocals) (key : List Byte) :
    Program (Parser σ) (Bool × RootLocals) := do
  let json := isOutputJson key
  let text := isOutputText key
  if json ∨ (text ∧ !locals.seenJson) then do
    let scanned ← outputMember source json
    pure (scanned, { locals with seenJson := locals.seenJson || json })
  else if text then do
    let scanned ← value source resultMaxDepth none
    pure (scanned, locals)
  else do
    let scanned ← coreMember source (decide (locals.coreFields = 0)) key
    pure (scanned, { locals with coreFields := locals.coreFields + 1 })

/-- `string` into the key buffer, which starts empty. -/
def rootKey : Program (Parser σ) Bool := do
  clearKey
  string source (some { key := true, isKey := true })

/-- What stands between the key of a member and its value. -/
def rootColon : Program (Parser σ) Bool := do
  whitespace source
  let found ← expect source (ascii ':')
  if found then do
    whitespace source
    pure true
  else pure false

/-- Behind the value of a member: the end of the object, or a comma. -/
def rootSeparator (next : RootLocals) : Program (Parser σ) (Step RootLocals Bool) := do
  setCapture .discard
  whitespace source
  let found ← peek source
  if found = some (ascii '}') then pure (.done true)
  else do
    let separated ← expect source (ascii ',')
    if separated then do
      whitespace source
      pure (.again next)
    else pure (.done false)

/-- Behind the key of a member, which must be new. -/
def rootNamed (locals : RootLocals) (key : List Byte) :
    Program (Parser σ) (Step RootLocals Bool) :=
  match markSeen key uniqueNames locals.seen with
  | none => do
      let failed ← lift (fail EPROTO)
      pure (.done failed)
  | some seen => do
      let colon ← rootColon source
      if colon then do
        let scanned ← rootMember source { locals with seen := seen } key
        if scanned.1 then rootSeparator source scanned.2 else pure (.done false)
      else pure (.done false)

/-- One pass of the loop of `root`. -/
def rootPass (locals : RootLocals) : Program (Parser σ) (Step RootLocals Bool) := do
  let named ← rootKey source
  if named then do
    let key ← keyNow
    rootNamed source locals key
  else pure (.done false)

/-- Emit one byte into the core text. -/
def emitCore (byte : Byte) : Program (Parser σ) Bool := do
  setCapture .core
  let emitted ← lift (emit byte)
  if emitted then do
    setCapture .discard
    pure true
  else pure false

/-- `root` behind its closing brace: nothing but white space may follow. -/
def rootEnd : Program (Parser σ) Bool := do
  whitespace source
  let next ← peek source
  let error ← errorNow
  if next = none ∧ error = 0 then pure true else lift (fail EPROTO)

/-- The members of the root object, if there are any. -/
def rootMembers : Program (Parser σ) Bool := do
  whitespace source
  let next ← peek source
  if next = some (ascii '}') then pure true
  else scanLoop source (rootPass source) false {}

def root : Program (Parser σ) Bool := do
  setCapture .discard
  whitespace source
  andThen (expect source (ascii '{'))
    (andThen (emitCore (ascii '{'))
      (andThen (rootMembers source)
        (andThen (expect source (ascii '}'))
          (andThen (emitCore (ascii '}')) (rootEnd source)))))

end Scanner

/-! ### Reading a frame -/

/-- What a call leaves behind: the tree with the blocks it owns, or `errno`. -/
structure ReadOutcome (ν σ : Type) where
  result : Except Errno (Parsed (Node ν))
  output : ServerOutput
  metrics : ReadMetrics
  heap : Heap
  input : σ

/-- The state `root` starts from. -/
def startState (outputLimit : Nat) (heap : Heap) : ScanState where
  core := []
  limit := outputLimit
  capture := .discard
  output := {}
  metrics := { peakBufferCapacity := resultCoreMaxBytes + 1 }
  values := 0
  outputValues := 0
  error := 0
  key := []
  heap := heap

/-- `errno == ENOMEM` after `cJSON_ParseWithLengthOpts`: a refused request sets it. -/
def refusedSince (before after : Heap) : Bool :=
  (after.events.drop before.events.length).any fun event =>
    match event with
    | .refused _ => true
    | _ => false

/-- The call of cJSON on the core text, and its failure. -/
def parseCore (convert : List Byte → ν) : Program ScanState (Option (Parsed (Node ν))) :=
  fun state =>
    let counted :=
      { state with metrics := { state.metrics with coreJsonBytes := state.core.length } }
    let parsed := cJSONParseWithLengthOpts convert (state.core ++ [0]) true state.heap
    let after := { counted with heap := parsed.2 }
    match parsed.1 with
    | some tree => (some tree, after)
    | none =>
        (none, (fail (if refusedSince state.heap parsed.2 then ENOMEM else EPROTO) after).2)

/-- The end of `iperf_read_bounded_results`, from `free(p.core)` on. -/
def finishRead (result : Option (Parsed (Node ν))) (parser : Parser σ) : ReadOutcome ν σ :=
  let released := { parser.scan with heap := parser.scan.heap.free (resultCoreMaxBytes + 1) }
  match result with
  | some tree =>
      ⟨.ok tree, released.output, released.metrics, released.heap, parser.input⟩
  | none =>
      let error := released.error
      let reason : OutputReason :=
        if error = ENOMEM then .allocationFailure
        else if error = EPROTO then .invalidData
        else .readFailure
      ⟨.error (if error ≠ 0 then error else EPROTO), { state := .invalid, reason := reason },
        released.metrics, freeValue released, parser.input⟩

/-- `iperf_read_bounded_results` over any source. -/
def readBoundedResults (source : Source σ) (convert : List Byte → ν)
    (frameLength outputLimit : Nat) (input : σ) (heap : Heap) : ReadOutcome ν σ :=
  if outputLimit = 0 ∨ outputMaxBytes < outputLimit then
    ⟨.error EINVAL, { state := .invalid }, {}, heap, input⟩
  else if frameLength = 0 ∨ resultFrameMaxBytes < frameLength then
    ⟨.error EFBIG, { state := .invalid, reason := .byteLimit }, {}, heap, input⟩
  else
    let requested := Heap.malloc (resultCoreMaxBytes + 1) heap
    if requested.1 then
      let scanned := root source ⟨input, startState outputLimit requested.2⟩
      if scanned.1 then
        let parsed := parseCore convert scanned.2.scan
        finishRead parsed.1 ⟨scanned.2.input, parsed.2⟩
      else finishRead none scanned.2
    else
      ⟨.error ENOMEM, { state := .invalid, reason := .allocationFailure }, {}, requested.2, input⟩

/-- `iperf_read_bounded_results`, reading through a read function. -/
def iperfReadBoundedResults {κ : Type} (convert : List Byte → ν) (frameLength outputLimit : Nat)
    (read : ReadFunction κ) (context : κ) (heap : Heap) : ReadOutcome ν (Feed κ) :=
  readBoundedResults (Feed.source read) convert frameLength outputLimit
    ⟨context, frameLength, [], 0, []⟩ heap

end IperfSwift.Output
