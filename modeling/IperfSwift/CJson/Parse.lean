import IperfSwift.CJson.Node
import IperfSwift.Lib.Heap
import IperfSwift.Lib.Json.Grammar

/-!
Contract: `cJSON_ParseWithLengthOpts` and the functions below it.

The parse buffer is the list of bytes from the current offset on. Every
allocation goes through the heap, which may refuse it; a function that fails
has released what it had built, and a function that succeeds hands back the
sizes of the blocks its result owns, in the order they were requested.

`strtod` is split into the length it consumes, which is defined here, and the
number it returns, which is the parameter `convert`.
-/

set_option autoImplicit false

namespace IperfSwift.CJson

open IperfSwift.Lib

variable {ν : Type}

/-- What a successful parse function leaves behind. -/
structure Parsed (α : Type) where
  value : α
  rest : List Byte
  owned : List Nat

/-- `cJSON_Delete` on blocks that are not linked into a tree yet. -/
def release (blocks : List Nat) : Program Heap Unit :=
  Program.update fun heap => blocks.foldl (fun heap size => heap.free size) heap

/-- `buffer_skip_whitespace`. Everything up to the space counts as white space, the
terminator included, and a buffer that holds nothing else is left at its last
byte. -/
def skipWhitespace (input : List Byte) : List Byte :=
  match input.dropWhile (fun byte => byte.toNat ≤ 32) with
  | [] => input.drop (input.length - 1)
  | rest => rest

/-- `skip_utf8_bom`. -/
def skipUtf8Bom (input : List Byte) : List Byte :=
  if 4 < input.length ∧ input.take 3 = [0xef, 0xbb, 0xbf] then input.drop 3 else input

/-! ### Numbers -/

/-- The characters `parse_number` copies for `strtod`. -/
def isNumberByte (byte : Byte) : Bool :=
  Json.IsDigit byte ∨ byte = ascii '+' ∨ byte = ascii '-' ∨ byte = ascii 'e' ∨
    byte = ascii 'E' ∨ byte = ascii '.'

def digitsLength (text : List Byte) : Nat := (text.takeWhile fun byte => Json.IsDigit byte).length

/-- The length of the subject sequence of `strtod`: an optional sign, digits with
an optional point, and an exponent if it has digits. -/
def strtodLength (text : List Byte) : Nat :=
  let sign := if text.head? = some (ascii '+') ∨ text.head? = some (ascii '-') then 1 else 0
  let afterSign := text.drop sign
  let whole := digitsLength afterSign
  let afterWhole := afterSign.drop whole
  let point := if afterWhole.head? = some (ascii '.') then 1 else 0
  let fraction := if point = 1 then digitsLength (afterWhole.drop 1) else 0
  if whole + fraction = 0 then 0
  else
    let mantissa := sign + whole + point + fraction
    let afterMantissa := text.drop mantissa
    if afterMantissa.head? = some (ascii 'e') ∨ afterMantissa.head? = some (ascii 'E') then
      let afterMarker := afterMantissa.drop 1
      let exponentSign :=
        if afterMarker.head? = some (ascii '+') ∨ afterMarker.head? = some (ascii '-') then 1 else 0
      let exponent := digitsLength (afterMarker.drop exponentSign)
      if exponent = 0 then mantissa else mantissa + 1 + exponentSign + exponent
    else mantissa

/-- `sizeof(number_c_string) - 1` in `parse_number`. -/
def numberBuffer : Nat := 63

def parseNumber (convert : List Byte → ν) (input : List Byte) : Option (ν × List Byte) :=
  let copied := (input.take numberBuffer).takeWhile isNumberByte
  let length := strtodLength copied
  if length = 0 then none else some (convert (copied.take length), input.drop length)

/-! ### Strings -/

/-- `parse_hex4`, which reports a malformed digit as 0. -/
def parseHex4 (input : List Byte) : Nat :=
  match input with
  | a :: b :: c :: d :: _ =>
      match Json.hexValue a, Json.hexValue b, Json.hexValue c, Json.hexValue d with
      | some w, some x, some y, some z =>
          (((w <<< 4) + x) <<< 4 + y) <<< 4 + z
      | _, _, _, _ => 0
  | _ => 0

/-- The byte of a code point in `utf16_literal_to_utf8`: `(codepoint | 0x80) & 0xBF`. -/
def continuationByte (codepoint : Nat) : Byte := .ofNat ((codepoint ||| 0x80) &&& 0xbf)

/-- The UTF-8 part of `utf16_literal_to_utf8`. -/
def utf8OfCodepoint (codepoint : Nat) : List Byte :=
  if codepoint < 0x80 then [.ofNat (codepoint &&& 0x7f)]
  else if codepoint < 0x800 then
    [.ofNat ((codepoint >>> 6 ||| 0xc0) &&& 0xff), continuationByte codepoint]
  else if codepoint < 0x10000 then
    [.ofNat ((codepoint >>> 12 ||| 0xe0) &&& 0xff), continuationByte (codepoint >>> 6),
      continuationByte codepoint]
  else
    [.ofNat ((codepoint >>> 18 ||| 0xf0) &&& 0xff), continuationByte (codepoint >>> 12),
      continuationByte (codepoint >>> 6), continuationByte codepoint]

/-- `utf16_literal_to_utf8` on a literal that starts the rest of the string. The
second component is `sequence_length`. -/
def utf16LiteralToUtf8 (input : List Byte) : Option (List Byte × Nat) :=
  if input.length < 6 then none
  else
    let firstCode := parseHex4 (input.drop 2)
    if 0xdc00 ≤ firstCode ∧ firstCode ≤ 0xdfff then none
    else if 0xd800 ≤ firstCode ∧ firstCode ≤ 0xdbff then
      let second := input.drop 6
      if second.length < 6 then none
      else if second.head? ≠ some (ascii '\\') ∨ (second.drop 1).head? ≠ some (ascii 'u') then none
      else
        let secondCode := parseHex4 (second.drop 2)
        if secondCode < 0xdc00 ∨ 0xdfff < secondCode then none
        else
          let codepoint := 0x10000 + (((firstCode &&& 0x3ff) <<< 10) ||| (secondCode &&& 0x3ff))
          -- A pair never exceeds 0x10FFFF, so the last branch of the source is dead.
          some (utf8OfCodepoint codepoint, 12)
    else some (utf8OfCodepoint firstCode, 6)

/-- The first loop of `parse_string`: the bytes up to the closing quote, the
number of escapes in them, and what follows the quote. -/
def scanString : List Byte → Option (List Byte × Nat × List Byte)
  | [] => none
  | byte :: rest =>
      if byte = ascii '"' then some ([], 0, rest)
      else if byte = ascii '\\' then
        match rest with
        | [] => none
        | escaped :: rest =>
            (scanString rest).map fun found => (byte :: escaped :: found.1, found.2.1 + 1, found.2.2)
      else (scanString rest).map fun found => (byte :: found.1, found.2.1, found.2.2)

/-- The single characters behind a backslash. -/
def simpleEscape (letter : Byte) : Option Byte :=
  if letter = ascii 'b' then some (ascii '\x08')
  else if letter = ascii 'f' then some (ascii '\x0c')
  else if letter = ascii 'n' then some (ascii '\n')
  else if letter = ascii 'r' then some (ascii '\r')
  else if letter = ascii 't' then some (ascii '\t')
  else if letter = ascii '"' ∨ letter = ascii '\\' ∨ letter = ascii '/' then some letter
  else none

/-- The second loop of `parse_string`. A pass consumes at least one byte, so the
length of the string bounds the passes. -/
def decodeString : Nat → List Byte → Option (List Byte)
  | _, [] => some []
  | 0, _ :: _ => none
  | passes + 1, byte :: rest =>
      if byte ≠ ascii '\\' then (decodeString passes rest).map (byte :: ·)
      else
        match rest with
        -- A malformed literal can end inside an escape. The backslash left over then
        -- takes the closing quote, which still follows in the buffer.
        | [] => some [ascii '"']
        | letter :: rest =>
            if letter = ascii 'u' then
              match utf16LiteralToUtf8 (byte :: letter :: rest) with
              | none => none
              | some (encoded, length) =>
                  (decodeString passes ((byte :: letter :: rest).drop length)).map (encoded ++ ·)
            else
              match simpleEscape letter with
              | none => none
              | some decoded => (decodeString passes rest).map (decoded :: ·)

def parseString (input : List Byte) : Program Heap (Option (Parsed (List Byte))) :=
  match input with
  | [] => pure none
  | first :: content =>
      if first ≠ ascii '"' then pure none
      else
        match scanString content with
        | none => pure none
        | some (body, skipped, rest) => do
            let size := body.length + 1 - skipped + 1
            let allocated ← Heap.malloc size
            if allocated then
              match decodeString body.length body with
              | none => do
                  release [size]
                  pure none
              | some decoded => pure (some ⟨decoded, rest, [size]⟩)
            else pure none

/-! ### Values -/

/-- The loop of `parse_array`, from the byte in front of which the next item is
allocated. On failure the blocks of the list built so far are handed back. -/
def parseElements (parseValue : List Byte → Program Heap (Option (Parsed (Node ν)))) :
    Nat → List Byte → List (Node ν) → List Nat →
      Program Heap (Except (List Nat) (Parsed (List (Node ν))))
  | 0, _, _, owned => pure (.error owned)
  | passes + 1, input, children, owned => do
      let allocated ← Heap.malloc nodeSize
      if allocated then
        match ← parseValue (skipWhitespace input) with
        | none => pure (.error (owned ++ [nodeSize]))
        | some item =>
            let rest := skipWhitespace item.rest
            let owned := owned ++ nodeSize :: item.owned
            let children := children ++ [item.value]
            if rest.head? = some (ascii ',') then
              parseElements parseValue passes (rest.drop 1) children owned
            else if rest.head? = some (ascii ']') then
              pure (.ok ⟨children, rest.drop 1, owned⟩)
            else pure (.error owned)
      else pure (.error owned)

/-- The loop of `parse_object`. -/
def parseMembers (parseValue : List Byte → Program Heap (Option (Parsed (Node ν)))) :
    Nat → List Byte → List (List Byte × Node ν) → List Nat →
      Program Heap (Except (List Nat) (Parsed (List (List Byte × Node ν))))
  | 0, _, _, owned => pure (.error owned)
  | passes + 1, input, members, owned => do
      let allocated ← Heap.malloc nodeSize
      if allocated then
        match ← parseString (skipWhitespace input) with
        | none => pure (.error (owned ++ [nodeSize]))
        | some name =>
            let afterName := skipWhitespace name.rest
            let owned := owned ++ nodeSize :: name.owned
            if afterName.head? = some (ascii ':') then do
              match ← parseValue (skipWhitespace (afterName.drop 1)) with
              | none => pure (.error owned)
              | some item =>
                  let rest := skipWhitespace item.rest
                  let owned := owned ++ item.owned
                  let members := members ++ [(name.value, item.value)]
                  if rest.head? = some (ascii ',') then
                    parseMembers parseValue passes (rest.drop 1) members owned
                  else if rest.head? = some (ascii '}') then
                    pure (.ok ⟨members, rest.drop 1, owned⟩)
                  else pure (.error owned)
            else pure (.error owned)
      else pure (.error owned)

/-- `parse_array` and `parse_object` around their loop: the items, or nothing with
every block of the partial list released. -/
def parseContainer {α : Type} (close : Byte) (wrap : List α → Node ν)
    (items : List Byte → Program Heap (Except (List Nat) (Parsed (List α))))
    (input : List Byte) : Program Heap (Option (Parsed (Node ν))) :=
  let inside := skipWhitespace (input.drop 1)
  if inside.head? = some close then pure (some ⟨wrap [], inside.drop 1, []⟩)
  else if inside = [] then pure none
  else do
    match ← items inside with
    | .error owned => do
        release owned
        pure none
    | .ok parsed => pure (some ⟨wrap parsed.value, parsed.rest, parsed.owned⟩)

/-- `parse_value`. The first argument is `CJSON_NESTING_LIMIT - depth`, so it is 0
where `parse_array` and `parse_object` refuse to go deeper. -/
def parseValue (convert : List Byte → ν) :
    Nat → List Byte → Program Heap (Option (Parsed (Node ν)))
  | room, input =>
      if input.take 4 = bytesOf "null" then pure (some ⟨.null, input.drop 4, []⟩)
      else if input.take 5 = bytesOf "false" then pure (some ⟨.bool false, input.drop 5, []⟩)
      else if input.take 4 = bytesOf "true" then pure (some ⟨.bool true, input.drop 4, []⟩)
      else
        match input.head? with
        | none => pure none
        | some first =>
            if first = ascii '"' then do
              match ← parseString input with
              | none => pure none
              | some parsed => pure (some ⟨.string parsed.value, parsed.rest, parsed.owned⟩)
            else if first = ascii '-' ∨ Json.IsDigit first then
              match parseNumber convert input with
              | none => pure none
              | some (number, rest) => pure (some ⟨.number number, rest, []⟩)
            else
              match room with
              | 0 => pure none
              | room + 1 =>
                  if first = ascii '[' then
                    parseContainer (ascii ']') Node.array
                      (fun inside => parseElements (parseValue convert room) inside.length inside [] [])
                      input
                  else if first = ascii '{' then
                    parseContainer (ascii '}') Node.object
                      (fun inside => parseMembers (parseValue convert room) inside.length inside [] [])
                      input
                  else pure none

/-- `cJSON_ParseWithLengthOpts(value, length, NULL, require_null_terminated)`. -/
def cJSONParseWithLengthOpts (convert : List Byte → ν) (content : List Byte)
    (requireNullTerminated : Bool) : Program Heap (Option (Parsed (Node ν))) :=
  if content = [] then pure none
  else do
    let allocated ← Heap.malloc nodeSize
    if allocated then
      match ← parseValue convert nestingLimit (skipWhitespace (skipUtf8Bom content)) with
      | none => do
          release [nodeSize]
          pure none
      | some item =>
          let owned := nodeSize :: item.owned
          if requireNullTerminated ∧ (skipWhitespace item.rest).head? ≠ some 0 then do
            release owned
            pure none
          else pure (some ⟨item.value, item.rest, owned⟩)
    else pure none

/-- `cJSON_Parse`: the buffer is the C string at `value` with its terminator. -/
def cJSONParse (convert : List Byte → ν) (value : List Byte) :
    Program Heap (Option (Parsed (Node ν))) :=
  cJSONParseWithLengthOpts convert (value.takeWhile (· ≠ 0) ++ [0]) false

end IperfSwift.CJson
