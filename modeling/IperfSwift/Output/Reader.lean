import IperfSwift.Output.Trace

/-!
Contract: what the text of a frame asks a scanner to do, in the order of its bytes.

Owns: readers, which make events of bytes and know neither a limit nor memory nor a
read function; the reader of a frame.

A text ends a reader in one of three ways: there is a result and some bytes are left;
the text is refused; or it is cut off where bytes are still to come. A loop that
consumes a byte on every pass has the number of bytes as its allowance, as in the
scanner.

Does not own: the proof that the scanner follows its reader.
-/

set_option autoImplicit false

namespace IperfSwift.Output

open IperfSwift.Lib
open IperfSwift.Lib.Program

/-! ### Readers -/

/-- What becomes of a text. -/
inductive Outcome (α : Type) where
  | found (value : α) (rest : List Byte)
  | refused
  | cut

/-- The events of a text, and what becomes of it. -/
def Reader (α : Type) : Type := List Byte → List Event × Outcome α

namespace Reader

variable {α β τ : Type}

instance : Monad Reader where
  pure value := fun bytes => ([], .found value bytes)
  bind first next := fun bytes =>
    match first bytes with
    | (events, .found value rest) => (events ++ (next value rest).1, (next value rest).2)
    | (events, .refused) => (events, .refused)
    | (events, .cut) => (events, .cut)

theorem bind_apply (first : Reader α) (next : α → Reader β) (bytes : List Byte) :
    (first >>= next) bytes =
      match first bytes with
      | (events, .found value rest) => (events ++ (next value rest).1, (next value rest).2)
      | (events, .refused) => (events, .refused)
      | (events, .cut) => (events, .cut) := rfl

def refuse : Reader α := fun _ => ([], .refused)

/-- Something to do that needs no byte. -/
def does (event : Event) : Reader Unit := fun bytes => ([event], .found () bytes)

/-- Something to do with the byte in front. -/
def consume (event : Event) : Reader Unit := fun bytes => ([event], .found () bytes.tail)

/-- The reader's own events beside its result. -/
def listen (reader : Reader α) : Reader (α × List Event) := fun bytes =>
  match reader bytes with
  | (events, .found value rest) => (events, .found (value, events) rest)
  | (events, .refused) => (events, .refused)
  | (events, .cut) => (events, .cut)

def andThen (first next : Reader Bool) : Reader Bool := do
  if ← first then next else pure false

def loop (body : τ → Reader (Step τ α)) (spent : α) : Nat → τ → Reader α
  | 0, _ => pure spent
  | allowance + 1, carried => do
      match ← body carried with
      | .again next => loop body spent allowance next
      | .done result => pure result

/-! ### Texts -/

section Texts

variable (lost : Nat)

/-- The next byte, none at the end of the frame. So many bytes of it never arrive. -/
def peek : Reader (Option Byte) := fun bytes =>
  match bytes with
  | byte :: rest => ([], .found (some byte) (byte :: rest))
  | [] => ([], if lost = 0 then .found none [] else .cut)

def take : Reader Byte := do
  match ← peek lost with
  | none => refuse
  | some byte => do
      consume (.take byte)
      pure byte

def expect (expected : Byte) : Reader Unit := do
  if (← take lost) = expected then pure () else refuse

def scanLoop (body : τ → Reader (Step τ α)) (spent : α) (carried : τ) : Reader α := fun bytes =>
  loop body spent (bytes.length + lost + 1) carried bytes

def spacePass : Reader (Step Unit Unit) := do
  match ← peek lost with
  | none => pure (.done ())
  | some byte =>
      if Json.IsSpace byte then do
        consume (.skip byte)
        pure (.again ())
      else pure (.done ())

def whitespace : Reader Unit := scanLoop lost (fun _ => spacePass lost) () ()

def literal : List Byte → Reader Unit
  | [] => pure ()
  | byte :: rest => do
      expect lost byte
      literal rest

/-! ### Strings -/

def hexDigits : Nat → Nat → Reader Nat
  | 0, result => pure result
  | count + 1, result => do
      match Json.hexValue (← take lost) with
      | none => refuse
      | some digit => hexDigits count ((result <<< 4) ||| digit)

/-- The second half of a surrogate pair. -/
def lowSurrogate (high : Nat) : Reader Nat := do
  literal lost (bytesOf "\\u")
  let low ← hexDigits lost 4 0
  if low < 0xdc00 ∨ 0xdfff < low then refuse
  else pure (0x10000 + ((high - 0xd800) <<< 10) + low - 0xdc00)

def unicodeEscape : Reader Nat := do
  let scalar ← hexDigits lost 4 0
  if 0xd800 ≤ scalar ∧ scalar ≤ 0xdbff then lowSurrogate lost scalar
  else if 0xdc00 ≤ scalar ∧ scalar ≤ 0xdfff then refuse
  else pure scalar

def escapeSequence : Reader Nat := do
  let letter ← take lost
  if letter = ascii '"' ∨ letter = ascii '\\' ∨ letter = ascii '/' then pure letter.toNat
  else if letter = ascii 'b' then pure 0x08
  else if letter = ascii 'f' then pure 0x0c
  else if letter = ascii 'n' then pure 0x0a
  else if letter = ascii 'r' then pure 0x0d
  else if letter = ascii 't' then pure 0x09
  else if letter = ascii 'u' then unicodeEscape lost
  else refuse

def tailBytes : Nat → Nat → Reader Nat
  | 0, scalar => pure scalar
  | following + 1, scalar => do
      let byte ← take lost
      if Utf8.IsTail byte then tailBytes following (Utf8.push scalar byte) else refuse

def multibyte (first : Byte) : Reader Nat :=
  match Utf8.lead first with
  | none => refuse
  | some lead => do
      let scalar ← tailBytes lost lead.following lead.payload
      if Utf8.IsScalar lead.minimum scalar then pure scalar else refuse

def scalarFrom (first : Byte) : Reader Nat :=
  if first = ascii '\\' then escapeSequence lost
  else if first.toNat < 0x80 then pure first.toNat
  else multibyte lost first

def stringPass (destination : Option Decoded) : Reader (Step Unit Bool) := do
  let byte ← take lost
  if byte = ascii '"' then pure (.done true)
  else if byte.toNat < 0x20 then refuse
  else do
    does (.scalar destination (← scalarFrom lost byte))
    pure (.again ())

def string (destination : Option Decoded) : Reader Bool := do
  expect lost (ascii '"')
  scanLoop lost (fun _ => stringPass lost destination) false ()

/-! ### Numbers -/

def atDigit : Reader Bool := do
  match ← peek lost with
  | none => pure false
  | some byte => pure (decide (Json.IsDigit byte))

def digitPass (count : Nat) : Reader (Step Nat (Option Nat)) := do
  let _ ← take lost
  if resultMaxNumberLength < count + 1 then refuse
  else pure (if ← atDigit lost then .again (count + 1) else .done (some (count + 1)))

def digits (count : Nat) : Reader (Option Nat) :=
  loop (digitPass lost) none (resultMaxNumberLength + 1) count

def optionalByte (wanted : List Byte) (count : Nat) : Reader (Bool × Nat) := do
  match ← peek lost with
  | none => pure (false, count)
  | some byte =>
      if byte ∈ wanted then do
        let _ ← take lost
        pure (true, count + 1)
      else pure (false, count)

def requiredDigits (count : Nat) : Reader (Option Nat) := do
  if ← atDigit lost then digits lost count else refuse

def wholeDigits (count : Nat) : Reader (Option Nat) := do
  let zero ← optionalByte lost [ascii '0'] count
  if zero.1 then pure (some zero.2) else requiredDigits lost count

def optionalPart (wanted sign : List Byte) (count : Nat) : Reader (Option Nat) := do
  let started ← optionalByte lost wanted count
  if started.1 then do
    let signed ← optionalByte lost sign started.2
    requiredDigits lost signed.2
  else pure (some count)

def number : Reader Bool := do
  let minus ← optionalByte lost [ascii '-'] 0
  match ← wholeDigits lost minus.2 with
  | none => pure false
  | some count =>
      match ← optionalPart lost [ascii '.'] [] count with
      | none => pure false
      | some count => do
          let last ← optionalPart lost [ascii 'e', ascii 'E'] [ascii '+', ascii '-'] count
          pure last.isSome

/-! ### Values -/

def memberKey : Reader Bool :=
  andThen (string lost (some { isKey := true })) do
    whitespace lost
    expect lost (ascii ':')
    pure true

def keyedItem (kind : Json.Kind) (item : Reader Bool) : Reader Bool :=
  match kind with
  | .array => item
  | .object => andThen (memberKey lost) item

def itemPass (kind : Json.Kind) (item : Reader Bool) : Reader (Step Unit Bool) := do
  if ← keyedItem lost kind item then do
    whitespace lost
    if (← peek lost) = some kind.closing then do
      expect lost kind.closing
      pure (.done true)
    else do
      expect lost (ascii ',')
      whitespace lost
      pure (.again ())
  else pure (.done false)

def container (kind : Json.Kind) (item : Reader Bool) : Reader Bool := do
  let _ ← take lost
  whitespace lost
  if (← peek lost) = some kind.closing then do
    expect lost kind.closing
    pure true
  else scanLoop lost (fun _ => itemPass lost kind item) false ()

def valueBody (item : Reader Bool) (destination : Option Decoded) : Reader Bool := do
  whitespace lost
  match ← peek lost with
  | none => refuse
  | some first =>
      if first = ascii '"' then string lost destination
      else if first = ascii '-' ∨ Json.IsDigit first then number lost
      else if first = ascii 't' then literal lost (bytesOf "true") >>= fun _ => pure true
      else if first = ascii 'f' then literal lost (bytesOf "false") >>= fun _ => pure true
      else if first = ascii 'n' then literal lost (bytesOf "null") >>= fun _ => pure true
      else if first = ascii '[' then container lost .array item
      else if first = ascii '{' then container lost .object item
      else refuse

/-- A value with so many levels of room. The level below the last one is entered too, which no
scanner does, so nothing behind it matters. -/
def value : Nat → Option Decoded → Reader Bool
  | 0, _ => do
      does (.enter (resultMaxDepth + 1))
      pure true
  | room + 1, destination => do
      does (.enter (resultMaxDepth - room))
      valueBody lost (value room none) destination

/-! ### Frames -/

def outputMember (json : Bool) : Reader Bool := do
  does (.beginOutput (if json then .json else .text))
  if (← peek lost) = some (if json then ascii '{' else ascii '"') then do
    does (.capture (if json then .outputJson else .discard))
    value lost resultMaxDepth (if json then none else some { outputText := true })
  else do
    does .wrongType
    does (.capture .discard)
    value lost resultMaxDepth none

/-- The bytes of the core text that the frame does not have at this place. -/
def emitAll : List Byte → Reader Unit
  | [] => pure ()
  | byte :: rest => do
      does (.emit byte)
      emitAll rest

def coreMember (first : Bool) (key : List Byte) : Reader Bool := do
  does (.capture .core)
  emitAll (if first then [] else [ascii ','])
  emitAll (ascii '"' :: (key.flatMap coreKeyByte ++ [ascii '"', ascii ':']))
  value lost resultMaxDepth none

def rootMember (locals : RootLocals) (key : List Byte) : Reader (Bool × RootLocals) := do
  let json := isOutputJson key
  let text := isOutputText key
  if json ∨ (text ∧ !locals.seenJson) then do
    let scanned ← outputMember lost json
    pure (scanned, { locals with seenJson := locals.seenJson || json })
  else if text then do
    let scanned ← value lost resultMaxDepth none
    pure (scanned, locals)
  else do
    let scanned ← coreMember lost (decide (locals.coreFields = 0)) key
    pure (scanned, { locals with coreFields := locals.coreFields + 1 })

/-- The name of a member of the frame. -/
def rootKey : Reader (Bool × List Byte) := do
  let named ← listen do
    does .clearKey
    string lost (some { key := true, isKey := true })
  pure (named.1, keyOf named.2)

def rootColon : Reader Unit := do
  whitespace lost
  expect lost (ascii ':')
  whitespace lost
  pure ()

/-- What follows the name of a member, up to the next one. -/
def rootNamed (locals : RootLocals) (key : List Byte) : Reader (Step RootLocals Bool) :=
  match markSeen key uniqueNames locals.seen with
  | none => refuse
  | some seen => do
      rootColon lost
      let scanned ← rootMember lost { locals with seen := seen } key
      if scanned.1 then do
        does (.capture .discard)
        whitespace lost
        if (← peek lost) = some (ascii '}') then pure (.done true)
        else do
          expect lost (ascii ',')
          whitespace lost
          pure (.again scanned.2)
      else pure (.done false)

def rootPass (locals : RootLocals) : Reader (Step RootLocals Bool) := do
  let named ← rootKey lost
  if named.1 then rootNamed lost locals named.2 else pure (.done false)

def emitCore (byte : Byte) : Reader Unit := do
  does (.capture .core)
  does (.emit byte)
  does (.capture .discard)
  pure ()

def rootMembers : Reader Bool := do
  whitespace lost
  if (← peek lost) = some (ascii '}') then pure true
  else scanLoop lost (rootPass lost) false {}

def rootEnd : Reader Unit := do
  whitespace lost
  if (← peek lost) = none then pure () else refuse

def root : Reader Bool := do
  does (.capture .discard)
  whitespace lost
  expect lost (ascii '{')
  emitCore (ascii '{')
  andThen (rootMembers lost) do
    expect lost (ascii '}')
    emitCore (ascii '}')
    rootEnd lost
    pure true

end Texts

end Reader

/-- The events of a stream, and what becomes of it. -/
def Stream.reading (stream : Stream) : List Event × Outcome Bool :=
  Reader.root stream.lost stream.bytes

end IperfSwift.Output
