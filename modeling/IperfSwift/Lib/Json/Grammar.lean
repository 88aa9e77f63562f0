import IperfSwift.Lib.Utf8

/-!
Contract: the concrete syntax of JSON texts (RFC 8259) with their layout.

Owns: concrete trees, in which every token keeps its spelling and every run of
white space its place; the bytes of a tree; and what the bytes denote.

A tree is well formed by construction: digits are digits, a number has no
leading zero, a string holds no raw control character, and a surrogate escape
comes in a pair. A text is therefore accepted by the grammar exactly when it is
the bytes of some tree.
-/

set_option autoImplicit false

namespace IperfSwift.Lib.Json

/-! ### White space and literals -/

def IsSpace (byte : Byte) : Prop :=
  byte = ascii ' ' ∨ byte = ascii '\t' ∨ byte = ascii '\r' ∨ byte = ascii '\n'

instance (byte : Byte) : Decidable (IsSpace byte) := inferInstanceAs (Decidable (_ ∨ _))

theorem IsSpace.le {byte : Byte} (isSpace : IsSpace byte) : byte.toNat ≤ 0x20 := by
  rcases isSpace with rfl | rfl | rfl | rfl <;> decide

abbrev Space := { bytes : List Byte // ∀ byte ∈ bytes, IsSpace byte }

/-- No white space. -/
def Space.none : Space := ⟨[], by simp⟩

inductive Literal where
  | null
  | true
  | false
deriving DecidableEq, Repr

def Literal.bytes : Literal → List Byte
  | .null => bytesOf "null"
  | .true => bytesOf "true"
  | .false => bytesOf "false"

/-! ### Numbers -/

def IsDigit (byte : Byte) : Prop := 0x30 ≤ byte.toNat ∧ byte.toNat ≤ 0x39

instance (byte : Byte) : Decidable (IsDigit byte) := inferInstanceAs (Decidable (_ ∧ _))

abbrev Digits := { bytes : List Byte // bytes ≠ [] ∧ ∀ byte ∈ bytes, IsDigit byte }

theorem Digits.exists_first (digits : Digits) :
    ∃ first tail, digits.val = first :: tail ∧ IsDigit first := by
  obtain ⟨bytes, nonempty, isDigits⟩ := digits
  obtain ⟨first, tail, rfl⟩ := List.exists_cons_of_ne_nil nonempty
  exact ⟨first, tail, rfl, isDigits first (List.mem_cons_self ..)⟩

structure Exponent where
  marker : Byte
  isMarker : marker = ascii 'e' ∨ marker = ascii 'E'
  sign : Option Byte
  isSign : ∀ byte ∈ sign, byte = ascii '+' ∨ byte = ascii '-'
  digits : Digits

def Exponent.bytes (exponent : Exponent) : List Byte :=
  exponent.marker :: exponent.sign.toList ++ exponent.digits.val

structure Number where
  negative : Bool
  whole : Digits
  noLeadingZero : whole.val.head? = some (ascii '0') → whole.val = [ascii '0']
  fraction : Option Digits
  exponent : Option Exponent

namespace Number

def signBytes (number : Number) : List Byte := if number.negative then [ascii '-'] else []

def fractionBytes (number : Number) : List Byte :=
  match number.fraction with
  | none => []
  | some digits => ascii '.' :: digits.val

def exponentBytes (number : Number) : List Byte :=
  match number.exponent with
  | none => []
  | some exponent => exponent.bytes

def bytes (number : Number) : List Byte :=
  number.signBytes ++ (number.whole.val ++ (number.fractionBytes ++ number.exponentBytes))

theorem exists_first (number : Number) :
    ∃ first tail, number.bytes = first :: tail ∧ (first = ascii '-' ∨ IsDigit first) := by
  rw [bytes, signBytes]
  cases number.negative with
  | true => exact ⟨ascii '-', _, rfl, .inl rfl⟩
  | false =>
      obtain ⟨first, tail, whole, digit⟩ := Digits.exists_first number.whole
      exact ⟨first, _, by rw [whole]; rfl, .inr digit⟩

end Number

/-! ### Strings -/

/-- The two-character escapes. -/
inductive Escape where
  | quote
  | backslash
  | slash
  | backspace
  | formFeed
  | lineFeed
  | carriageReturn
  | tab
deriving DecidableEq, Repr

namespace Escape

def letter : Escape → Byte
  | .quote => ascii '"'
  | .backslash => ascii '\\'
  | .slash => ascii '/'
  | .backspace => ascii 'b'
  | .formFeed => ascii 'f'
  | .lineFeed => ascii 'n'
  | .carriageReturn => ascii 'r'
  | .tab => ascii 't'

def scalar : Escape → Char
  | .quote => '"'
  | .backslash => '\\'
  | .slash => '/'
  | .backspace => '\x08'
  | .formFeed => '\x0c'
  | .lineFeed => '\n'
  | .carriageReturn => '\r'
  | .tab => '\t'

theorem letter_injective {first second : Escape} (same : first.letter = second.letter) :
    first = second := by
  revert same
  cases first <;> cases second <;> decide

theorem letter_ne_u (letter : Escape) : letter.letter ≠ ascii 'u' := by
  cases letter <;> decide

end Escape

/-- The value of a hexadecimal digit of either case. -/
def hexValue (byte : Byte) : Option Nat :=
  if 0x30 ≤ byte.toNat ∧ byte.toNat ≤ 0x39 then some (byte.toNat - 0x30)
  else if 0x61 ≤ byte.toNat ∧ byte.toNat ≤ 0x66 then some (byte.toNat - 0x61 + 10)
  else if 0x41 ≤ byte.toNat ∧ byte.toNat ≤ 0x46 then some (byte.toNat - 0x41 + 10)
  else none

theorem hexValue_lt {byte : Byte} {value : Nat} (digit : hexValue byte = some value) :
    value < 16 := by
  simp only [hexValue] at digit
  split_ifs at digit <;> simp only [Option.some.injEq] at digit <;> omega

/-- The number that hexadecimal digits append to `start`. -/
def hexNumber (start : Nat) (values : List Nat) : Nat :=
  values.foldl (fun total digit => total * 16 + digit) start

theorem hexNumber_lt {values : List Nat} (small : ∀ value ∈ values, value < 16) (start : Nat) :
    hexNumber start values < (start + 1) * 16 ^ values.length := by
  induction values generalizing start with
  | nil => simp [hexNumber]
  | cons digit rest inductionHypothesis =>
      have digitSmall := small digit (List.mem_cons_self ..)
      have restLt := inductionHypothesis
        (fun value member => small value (List.mem_cons_of_mem _ member)) (start * 16 + digit)
      calc hexNumber start (digit :: rest)
          = hexNumber (start * 16 + digit) rest := rfl
        _ < (start * 16 + digit + 1) * 16 ^ rest.length := restLt
        _ ≤ ((start + 1) * 16) * 16 ^ rest.length := by gcongr; omega
        _ = (start + 1) * 16 ^ (digit :: rest).length := by
          rw [List.length_cons, Nat.pow_succ]
          ring

/-- Four hexadecimal digits with their values. -/
structure Hex4 where
  bytes : List Byte
  values : List Nat
  four : bytes.length = 4
  spelled : bytes.map hexValue = values.map some

namespace Hex4

def value (hex : Hex4) : Nat := hexNumber 0 hex.values

theorem values_length (hex : Hex4) : hex.values.length = 4 := by
  have lengths := congrArg List.length hex.spelled
  rw [List.length_map, List.length_map, hex.four] at lengths
  exact lengths.symm

theorem values_small (hex : Hex4) : ∀ value ∈ hex.values, value < 16 := by
  intro value member
  have spelled : some value ∈ hex.bytes.map hexValue := by
    rw [hex.spelled]
    exact List.mem_map_of_mem member
  obtain ⟨byte, -, digit⟩ := List.mem_map.mp spelled
  exact hexValue_lt digit

theorem value_lt (hex : Hex4) : hex.value < 0x10000 := by
  have bound := hexNumber_lt hex.values_small 0
  rw [hex.values_length] at bound
  exact bound

end Hex4

/-- One scalar of a string, spelled in one of the four ways. -/
inductive Spelling where
  | raw (scalar : Char) (plain : 0x20 ≤ scalar.toNat ∧ scalar ≠ '"' ∧ scalar ≠ '\\')
  | escape (letter : Escape)
  | unicode (hex : Hex4) (single : ¬ (0xd800 ≤ hex.value ∧ hex.value ≤ 0xdfff))
  | pair (high low : Hex4) (isHigh : 0xd800 ≤ high.value ∧ high.value ≤ 0xdbff)
      (isLow : 0xdc00 ≤ low.value ∧ low.value ≤ 0xdfff)

namespace Spelling

def bytes : Spelling → List Byte
  | .raw scalar _ => String.utf8EncodeChar scalar
  | .escape letter => [ascii '\\', letter.letter]
  | .unicode hex _ => ascii '\\' :: ascii 'u' :: hex.bytes
  | .pair high low _ _ =>
      ascii '\\' :: ascii 'u' :: (high.bytes ++ ascii '\\' :: ascii 'u' :: low.bytes)

/-- The number of the scalar. -/
def code : Spelling → Nat
  | .raw scalar _ => scalar.toNat
  | .escape letter => letter.scalar.toNat
  | .unicode hex _ => hex.value
  | .pair high low _ _ => 0x10000 + (high.value - 0xd800) * 0x400 + (low.value - 0xdc00)

theorem code_isScalar (spelling : Spelling) : Utf8.IsScalar 0 spelling.code := by
  cases spelling with
  | raw scalar _ => exact Utf8.isScalar_toNat scalar
  | escape letter => exact Utf8.isScalar_toNat letter.scalar
  | unicode hex single =>
      exact ⟨Nat.zero_le _, hex.value_lt.le.trans (by decide), single⟩
  | pair high low isHigh isLow =>
      change Utf8.IsScalar 0 (0x10000 + (high.value - 0xd800) * 0x400 + (low.value - 0xdc00))
      generalize high.value = highValue at isHigh
      generalize low.value = lowValue at isLow
      simp only [Utf8.IsScalar]
      omega

def scalar (spelling : Spelling) : Char := Char.ofNat spelling.code

theorem scalar_toNat (spelling : Spelling) : spelling.scalar.toNat = spelling.code :=
  Utf8.toNat_ofNat spelling.code_isScalar

theorem encode_escape (letter : Escape) :
    [UInt8.ofNat letter.scalar.toNat] = String.utf8EncodeChar (escape letter).scalar := by
  have same : (escape letter).scalar = letter.scalar := Utf8.char_eq (scalar_toNat _)
  rw [same, Utf8.encodeChar_small]
  cases letter <;> decide

/-- Every escape starts with a backslash. -/
theorem exists_raw {spelling : Spelling} {first : Byte} {tail : List Byte}
    (spelled : spelling.bytes = first :: tail) (noEscape : first ≠ ascii '\\') :
    ∃ scalar plain, spelling = .raw scalar plain := by
  cases spelling with
  | raw scalar plain => exact ⟨scalar, plain, rfl⟩
  | escape letter | unicode hex single | pair high low isHigh isLow => exact absurd (List.cons.inj spelled).1.symm noEscape

/-- A scalar that stands for itself starts neither an escape nor the end of the string. -/
theorem raw_first {scalar : Char} {first : Byte} {tail : List Byte}
    (plain : 0x20 ≤ scalar.toNat ∧ scalar ≠ '"' ∧ scalar ≠ '\\')
    (spelled : String.utf8EncodeChar scalar = first :: tail) :
    0x20 ≤ first.toNat ∧ first ≠ ascii '"' ∧ first ≠ ascii '\\' := by
  obtain ⟨printable, noQuote, noBackslash⟩ := plain
  by_cases small : scalar.toNat < 0x80
  · rw [Utf8.encodeChar_small small] at spelled
    obtain ⟨rfl, -⟩ := List.cons.inj spelled
    have same : (UInt8.ofNat scalar.toNat).toNat = scalar.toNat := by
      rw [UInt8.toNat_ofNat']
      omega
    refine ⟨by omega, fun quote => noQuote ?_, fun backslash => noBackslash ?_⟩
    · exact Utf8.char_eq (same.symm.trans (congrArg UInt8.toNat quote))
    · exact Utf8.char_eq (same.symm.trans (congrArg UInt8.toNat backslash))
  · obtain ⟨first', rest, info, encoded, leads, -⟩ :=
      Utf8.encodeChar_multibyte scalar (Nat.le_of_not_lt small)
    rw [spelled] at encoded
    obtain ⟨rfl, -⟩ := List.cons.inj encoded
    have large : 0x80 ≤ first.toNat := by
      by_contra small'
      rw [Utf8.lead_of_small (by omega)] at leads
      cases leads
    refine ⟨by omega, ?_, ?_⟩
    · rintro rfl
      exact absurd large (by decide)
    · rintro rfl
      exact absurd large (by decide)

end Spelling

/-- What stands between the quotes of a string token. -/
abbrev Text := List Spelling

namespace Text

def body (text : Text) : List Byte := text.flatMap Spelling.bytes

def token (text : Text) : List Byte := ascii '"' :: (text.body ++ [ascii '"'])

def scalars (text : Text) : List Char := text.map Spelling.scalar

/-- The decoded text as UTF-8. -/
def decoded (text : Text) : List Byte := Utf8.encode text.scalars

/-- The text can be read as a C string. -/
def NoNul (text : Text) : Prop := ∀ scalar ∈ text.scalars, scalar.toNat ≠ 0

instance (text : Text) : Decidable text.NoNul :=
  inferInstanceAs (Decidable (∀ scalar ∈ text.scalars, scalar.toNat ≠ 0))

theorem noNul_iff (text : Text) : text.NoNul ↔ ∀ spelling ∈ text, spelling.code ≠ 0 := by
  simp only [NoNul, scalars, List.forall_mem_map, Spelling.scalar_toNat]

end Text

/-! ### Values -/

inductive Kind where
  | array
  | object
deriving DecidableEq, Repr

namespace Kind

def opening : Kind → Byte
  | .array => ascii '['
  | .object => ascii '{'

def closing : Kind → Byte
  | .array => ascii ']'
  | .object => ascii '}'

end Kind

/-- What stands before the value of an object member: its name, and the white space
around the colon. -/
structure Key where
  text : Text
  after : Space
  beforeValue : Space

def Key.bytes (key : Key) : List Byte :=
  key.text.token ++ (key.after.val ++ ascii ':' :: key.beforeValue.val)

/-- What stands before one value of a container. -/
def Lead : Kind → Type
  | .array => Unit
  | .object => Key

def Lead.bytes : {kind : Kind} → Lead kind → List Byte
  | .array, _ => []
  | .object, key => Key.bytes key

mutual

/-- The white space of a container stands behind its opening bracket. -/
inductive Value where
  | literal (literal : Literal)
  | number (number : Number)
  | text (text : Text)
  | empty (kind : Kind) (space : Space)
  | container (kind : Kind) (space : Space) (items : Items kind)

/-- The values of a nonempty container. The space `next` stands behind the comma. -/
inductive Items : Kind → Type where
  | last {kind : Kind} (lead : Lead kind) (value : Value) (after : Space) : Items kind
  | cons {kind : Kind} (lead : Lead kind) (value : Value) (after next : Space)
      (rest : Items kind) : Items kind

end

mutual

def Value.bytes : Value → List Byte
  | .literal literal => literal.bytes
  | .number number => number.bytes
  | .text text => text.token
  | .empty kind space => kind.opening :: (space.val ++ [kind.closing])
  | .container kind space items => kind.opening :: (space.val ++ (items.bytes ++ [kind.closing]))

def Items.bytes : {kind : Kind} → Items kind → List Byte
  | _, .last lead value after => lead.bytes ++ (value.bytes ++ after.val)
  | _, .cons lead value after next rest =>
      lead.bytes ++ (value.bytes ++ (after.val ++ ascii ',' :: (next.val ++ rest.bytes)))

end

/-- A byte of ASCII that is neither white space nor a control character. -/
def IsVisible (byte : Byte) : Prop := 0x20 < byte.toNat ∧ byte.toNat < 0x80

instance (byte : Byte) : Decidable (IsVisible byte) := inferInstanceAs (Decidable (_ ∧ _))

/-- A value starts with a visible byte that closes nothing. -/
theorem Value.exists_first (value : Value) : ∃ first tail, value.bytes = first :: tail ∧
    IsVisible first ∧ ∀ kind : Kind, first ≠ kind.closing := by
  cases value with
  | literal literal =>
      cases literal <;> exact ⟨_, _, rfl, by decide, fun kind => by cases kind <;> decide⟩
  | number number =>
      obtain ⟨first, tail, bytes, start⟩ := number.exists_first
      refine ⟨first, tail, bytes, ?_, fun kind => ?_⟩
      · rcases start with rfl | digit
        · decide
        · exact ⟨Nat.lt_of_lt_of_le (by decide) digit.1, Nat.lt_of_le_of_lt digit.2 (by decide)⟩
      · rintro rfl
        revert start
        cases kind <;> decide
  | text text => exact ⟨_, _, rfl, by decide, fun kind => by cases kind <;> decide⟩
  | empty kind space | container kind space items =>
      cases kind <;> exact ⟨_, _, rfl, by decide, fun kind => by cases kind <;> decide⟩

/-- So do the values of a container, each with what stands before it. -/
theorem Items.exists_first {kind : Kind} (items : Items kind) : ∃ first tail,
    items.bytes = first :: tail ∧ IsVisible first ∧ first ≠ kind.closing := by
  have start : ∀ (lead : Lead kind) (value : Value) (rest : List Byte), ∃ first tail,
      lead.bytes ++ (value.bytes ++ rest) = first :: tail ∧ IsVisible first ∧
        first ≠ kind.closing := by
    intro lead value rest
    cases kind with
    | array =>
        obtain ⟨first, tail, bytes, visible, notClosing⟩ := value.exists_first
        exact ⟨first, tail ++ rest, by rw [bytes]; rfl, visible, notClosing .array⟩
    | object => exact ⟨ascii '"', _, rfl, by decide, by decide⟩
  cases items with
  | last lead value after | cons lead value after next rest => exact start lead value _

mutual

/-- The number of values in a value, itself included. -/
def Value.count : Value → Nat
  | .literal _ => 1
  | .number _ => 1
  | .text _ => 1
  | .empty _ _ => 1
  | .container _ _ items => 1 + items.count

def Items.count : {kind : Kind} → Items kind → Nat
  | _, .last _ value _ => value.count
  | _, .cons _ value _ _ rest => value.count + rest.count

end

mutual

/-- The number of values on the longest path into a value, itself included. -/
def Value.depth : Value → Nat
  | .literal _ => 1
  | .number _ => 1
  | .text _ => 1
  | .empty _ _ => 1
  | .container _ _ items => 1 + items.depth

def Items.depth : {kind : Kind} → Items kind → Nat
  | _, .last _ value _ => value.depth
  | _, .cons _ value _ _ rest => max value.depth rest.depth

end

theorem Value.depth_pos (value : Value) : 0 < value.depth := by
  cases value with
  | container kind space items => exact Nat.lt_of_lt_of_le Nat.zero_lt_one (Nat.le_add_right 1 _)
  | _ => exact Nat.zero_lt_one

theorem Items.depth_pos {kind : Kind} (items : Items kind) : 0 < items.depth := by
  cases items with
  | last lead value after => exact value.depth_pos
  | cons lead value after next rest => exact lt_max_of_lt_left value.depth_pos

def Lead.keys : {kind : Kind} → Lead kind → List Text
  | .array, _ => []
  | .object, key => [Key.text key]

mutual

/-- The object keys in a value, at any depth. -/
def Value.keys : Value → List Text
  | .literal _ => []
  | .number _ => []
  | .text _ => []
  | .empty _ _ => []
  | .container _ _ items => items.keys

def Items.keys : {kind : Kind} → Items kind → List Text
  | _, .last lead value _ => lead.keys ++ value.keys
  | _, .cons lead value _ _ rest => lead.keys ++ (value.keys ++ rest.keys)

end

mutual

/-- The numbers in a value, at any depth. -/
def Value.numbers : Value → List Number
  | .literal _ => []
  | .number number => [number]
  | .text _ => []
  | .empty _ _ => []
  | .container _ _ items => items.numbers

def Items.numbers : {kind : Kind} → Items kind → List Number
  | _, .last _ value _ => value.numbers
  | _, .cons _ value _ _ rest => value.numbers ++ rest.numbers

end

def Lead.compact : {kind : Kind} → Lead kind → Lead kind
  | .array, lead => lead
  | .object, key => (⟨Key.text key, Space.none, Space.none⟩ : Key)

mutual

/-- The same value without white space between its tokens. -/
def Value.compact : Value → Value
  | .literal literal => .literal literal
  | .number number => .number number
  | .text text => .text text
  | .empty kind _ => .empty kind Space.none
  | .container kind _ items => .container kind Space.none items.compact

def Items.compact : {kind : Kind} → Items kind → Items kind
  | _, .last lead value _ => .last lead.compact value.compact Space.none
  | _, .cons lead value _ _ rest =>
      .cons lead.compact value.compact Space.none Space.none rest.compact

end

mutual

theorem Value.compact_depth : (value : Value) → value.compact.depth = value.depth
  | .literal _ => rfl
  | .number _ => rfl
  | .text _ => rfl
  | .empty _ _ => rfl
  | .container _ _ items => congrArg (1 + ·) items.compact_depth

theorem Items.compact_depth : {kind : Kind} → (items : Items kind) →
    items.compact.depth = items.depth
  | _, .last _ value _ => value.compact_depth
  | _, .cons _ value _ _ rest => congrArg₂ max value.compact_depth rest.compact_depth

end

mutual

theorem Value.compact_count : (value : Value) → value.compact.count = value.count
  | .literal _ => rfl
  | .number _ => rfl
  | .text _ => rfl
  | .empty _ _ => rfl
  | .container _ _ items => congrArg (1 + ·) items.compact_count

theorem Items.compact_count : {kind : Kind} → (items : Items kind) →
    items.compact.count = items.count
  | _, .last _ value _ => value.compact_count
  | _, .cons _ value _ _ rest => congrArg₂ (· + ·) value.compact_count rest.compact_count

end

mutual

theorem Value.compact_numbers : (value : Value) → value.compact.numbers = value.numbers
  | .literal _ => rfl
  | .number _ => rfl
  | .text _ => rfl
  | .empty _ _ => rfl
  | .container _ _ items => items.compact_numbers

theorem Items.compact_numbers : {kind : Kind} → (items : Items kind) →
    items.compact.numbers = items.numbers
  | _, .last _ value _ => value.compact_numbers
  | _, .cons _ value _ _ rest => congrArg₂ (· ++ ·) value.compact_numbers rest.compact_numbers

end

/-! ### No terminators

No text of the grammar has a NUL byte, so it is its own C string. -/

theorem Space.zero_notMem (space : Space) : (0 : Byte) ∉ space.val :=
  fun member => absurd (space.property 0 member) (by decide)

theorem Digits.zero_notMem (digits : Digits) : (0 : Byte) ∉ digits.val :=
  fun member => absurd (digits.property.2 0 member) (by decide)

theorem Exponent.zero_notMem (exponent : Exponent) : (0 : Byte) ∉ exponent.bytes := by
  have marker : (0 : Byte) ≠ exponent.marker := by
    rcases exponent.isMarker with isMarker | isMarker <;> rw [isMarker] <;> decide
  have sign : (0 : Byte) ∉ exponent.sign.toList := by
    intro member
    rcases exponent.isSign 0 (Option.mem_toList.mp member) with isSign | isSign <;>
      exact absurd isSign (by decide)
  simp [Exponent.bytes, marker, sign, Digits.zero_notMem exponent.digits]

theorem Number.zero_notMem (number : Number) : (0 : Byte) ∉ number.bytes := by
  have sign : (0 : Byte) ∉ number.signBytes := by
    unfold signBytes
    split <;> decide
  have fraction : (0 : Byte) ∉ number.fractionBytes := by
    unfold fractionBytes
    split
    · exact List.not_mem_nil
    · rw [List.mem_cons, not_or]
      exact ⟨by decide, Digits.zero_notMem _⟩
  have exponent : (0 : Byte) ∉ number.exponentBytes := by
    unfold exponentBytes
    split
    · exact List.not_mem_nil
    · exact Exponent.zero_notMem _
  simp [bytes, sign, fraction, exponent, Digits.zero_notMem number.whole]

theorem Hex4.zero_notMem (hex : Hex4) : (0 : Byte) ∉ hex.bytes := by
  intro member
  have spelled : hexValue 0 ∈ hex.bytes.map hexValue := List.mem_map_of_mem member
  rw [hex.spelled] at spelled
  obtain ⟨value, -, isDigit⟩ := List.mem_map.mp spelled
  have notDigit : hexValue 0 = none := by decide
  rw [notDigit] at isDigit
  cases isDigit

theorem Spelling.zero_notMem (spelling : Spelling) : (0 : Byte) ∉ spelling.bytes := by
  cases spelling with
  | raw scalar plain =>
      intro member
      by_cases small : scalar.toNat < 0x80
      · rw [bytes, Utf8.encodeChar_small small] at member
        have same := congrArg UInt8.toNat (List.mem_singleton.mp member)
        rw [UInt8.toNat_ofNat'] at same
        have printable := plain.1
        have zero : (0 : Byte).toNat = 0 := rfl
        omega
      · exact absurd (Utf8.encodeChar_large (Nat.le_of_not_lt small) 0 member) (by decide)
  | escape letter => cases letter <;> decide
  | unicode hex single =>
      rw [bytes, List.mem_cons, List.mem_cons, not_or, not_or]
      exact ⟨by decide, by decide, hex.zero_notMem⟩
  | pair high low isHigh isLow =>
      simp only [bytes, List.mem_cons, List.mem_append, not_or]
      exact ⟨by decide, by decide, high.zero_notMem, by decide, by decide, low.zero_notMem⟩

theorem Text.zero_notMem (text : Text) : (0 : Byte) ∉ text.token := by
  have body : (0 : Byte) ∉ text.body := by
    intro member
    obtain ⟨spelling, -, here⟩ := List.mem_flatMap.mp member
    exact spelling.zero_notMem here
  simp only [token, List.mem_cons, List.mem_append, List.not_mem_nil, or_false, not_or]
  exact ⟨by decide, body, by decide⟩

theorem Key.zero_notMem (key : Key) : (0 : Byte) ∉ key.bytes := by
  simp only [bytes, List.mem_cons, List.mem_append, not_or]
  exact ⟨Text.zero_notMem key.text, Space.zero_notMem key.after, by decide,
    Space.zero_notMem key.beforeValue⟩

theorem Lead.zero_notMem {kind : Kind} (lead : Lead kind) : (0 : Byte) ∉ lead.bytes := by
  cases kind with
  | array => exact List.not_mem_nil
  | object => exact Key.zero_notMem lead

theorem Kind.zero_ne (kind : Kind) : (0 : Byte) ≠ kind.opening ∧ (0 : Byte) ≠ kind.closing := by
  cases kind <;> decide

mutual

theorem Value.zero_notMem : (value : Value) → (0 : Byte) ∉ value.bytes
  | .literal literal => by cases literal <;> decide
  | .number number => number.zero_notMem
  | .text text => Text.zero_notMem text
  | .empty kind space => by
      simp [Value.bytes, kind.zero_ne, Space.zero_notMem space]
  | .container kind space items => by
      simp [Value.bytes, kind.zero_ne, Space.zero_notMem space, items.zero_notMem]

theorem Items.zero_notMem : {kind : Kind} → (items : Items kind) → (0 : Byte) ∉ items.bytes
  | _, .last lead value after => by
      simp [Items.bytes, lead.zero_notMem, value.zero_notMem, Space.zero_notMem after]
  | _, .cons lead value after next rest => by
      simp [Items.bytes, lead.zero_notMem, value.zero_notMem, Space.zero_notMem after,
        Space.zero_notMem next, rest.zero_notMem]

end

/-! ### Documents -/

/-- A member of the outermost object. -/
structure Member where
  key : Key
  value : Value
  after : Space

def Member.bytes (member : Member) : List Byte :=
  member.key.bytes ++ (member.value.bytes ++ member.after.val)

/-- The members of a nonempty outermost object. -/
inductive Members where
  | last (member : Member)
  | cons (member : Member) (next : Space) (rest : Members)

namespace Members

def bytes : Members → List Byte
  | .last member => member.bytes
  | .cons member next rest => member.bytes ++ ascii ',' :: (next.val ++ rest.bytes)

def toList : Members → List Member
  | .last member => [member]
  | .cons member _ rest => member :: rest.toList

/-- The members as the values of an object. -/
def items : Members → Items .object
  | .last member => .last member.key member.value member.after
  | .cons member next rest => .cons member.key member.value member.after next rest.items

/-- Members with nothing behind their commas. -/
def ofList (first : Member) : List Member → Members
  | [] => .last first
  | second :: rest => .cons first Space.none (ofList second rest)

theorem items_bytes (members : Members) : members.items.bytes = members.bytes := by
  induction members with
  | last member => rfl
  | cons member next rest inductionHypothesis =>
      show member.key.bytes ++ (member.value.bytes ++ (member.after.val ++
        ascii ',' :: (next.val ++ rest.items.bytes))) = _
      rw [inductionHypothesis]
      simp only [bytes, Member.bytes, List.append_assoc]

theorem items_depth_le {members : Members} {limit : Nat}
    (shallow : ∀ member ∈ members.toList, member.value.depth ≤ limit) :
    members.items.depth ≤ limit := by
  induction members with
  | last member => exact shallow member (List.mem_singleton_self _)
  | cons member next rest inductionHypothesis =>
      obtain ⟨first, later⟩ := List.forall_mem_cons.mp shallow
      exact max_le first (inductionHypothesis later)

theorem items_numbers (members : Members) :
    members.items.numbers = members.toList.flatMap fun member => member.value.numbers := by
  induction members with
  | last member => simp [items, Items.numbers, toList]
  | cons member next rest inductionHypothesis =>
      show member.value.numbers ++ rest.items.numbers = _
      rw [inductionHypothesis]
      rfl

@[simp] theorem toList_ofList (first : Member) (rest : List Member) :
    (ofList first rest).toList = first :: rest := by
  induction rest generalizing first with
  | nil => rfl
  | cons second rest inductionHypothesis => rw [ofList, toList, inductionHypothesis]

theorem ofList_bytes (first : Member) (rest : List Member) :
    (ofList first rest).bytes =
      first.bytes ++ rest.flatMap fun member => ascii ',' :: member.bytes := by
  induction rest generalizing first with
  | nil => simp [ofList, bytes]
  | cons second rest inductionHypothesis =>
      rw [ofList, bytes, inductionHypothesis]
      rfl

end Members

/-- One object, alone in its text. -/
structure Document where
  before : Space
  inside : Space
  members : Option Members
  after : Space

namespace Document

def membersBytes (document : Document) : List Byte :=
  match document.members with
  | none => []
  | some members => members.bytes

def bytes (document : Document) : List Byte :=
  document.before.val ++ ascii '{' ::
    (document.inside.val ++ (document.membersBytes ++ ascii '}' :: document.after.val))

def memberList (document : Document) : List Member :=
  match document.members with
  | none => []
  | some members => members.toList

/-- The document as a value. -/
def value (document : Document) : Value :=
  match document.members with
  | none => .empty .object document.inside
  | some members => .container .object document.inside members.items

theorem bytes_eq (document : Document) :
    document.bytes = document.before.val ++ (document.value.bytes ++ document.after.val) := by
  obtain ⟨before, inside, members, after⟩ := document
  cases members with
  | none => simp [bytes, membersBytes, value, Value.bytes, Kind.opening, Kind.closing]
  | some members =>
      simp [bytes, membersBytes, value, Value.bytes, Kind.opening, Kind.closing,
        Members.items_bytes]

theorem zero_notMem (document : Document) : (0 : Byte) ∉ document.bytes := by
  simp [bytes_eq, Space.zero_notMem, document.value.zero_notMem]

theorem value_depth_le {document : Document} {limit : Nat}
    (shallow : ∀ member ∈ document.memberList, member.value.depth ≤ limit) :
    document.value.depth ≤ limit + 1 := by
  obtain ⟨before, inside, members, after⟩ := document
  cases members with
  | none => exact Nat.le_add_left 1 limit
  | some members =>
      have items := Members.items_depth_le shallow
      rw [value, Value.depth, Nat.add_comm]
      exact Nat.succ_le_succ items

theorem value_numbers (document : Document) :
    document.value.numbers = document.memberList.flatMap fun member => member.value.numbers := by
  obtain ⟨before, inside, members, after⟩ := document
  cases members with
  | none => rfl
  | some members => exact members.items_numbers

/-- A document of these members with no white space around them. -/
def ofList : List Member → Document
  | [] => ⟨Space.none, Space.none, none, Space.none⟩
  | first :: rest => ⟨Space.none, Space.none, some (Members.ofList first rest), Space.none⟩

@[simp] theorem memberList_ofList (members : List Member) :
    (ofList members).memberList = members := by
  cases members with
  | nil => rfl
  | cons first rest => exact Members.toList_ofList first rest

end Document

end IperfSwift.Lib.Json
