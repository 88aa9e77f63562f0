import IperfSwift.CJson.Parse

/-!
Contract: cJSON reads every string and number token of the JSON grammar.

Owns: the result of `parse_string` on a token, with the size of the block it
asks for; and the length `strtod` consumes of a number.

The other direction does not hold and is not needed: cJSON also accepts tokens
that the grammar does not have.
-/

set_option autoImplicit false

namespace IperfSwift.CJson

open IperfSwift.Lib

variable {byte : Byte} {tail : List Byte}

/-! ### Plain bytes -/

/-- A byte that neither ends a string nor starts an escape. -/
def IsPlain (byte : Byte) : Prop := byte ≠ ascii '"' ∧ byte ≠ ascii '\\'

theorem isPlain_of_large (large : 0x80 ≤ byte.toNat) : IsPlain byte := by
  constructor
  · rintro rfl
    exact absurd large (by decide)
  · rintro rfl
    exact absurd large (by decide)

theorem isPlain_hex {value : Nat} (digit : Json.hexValue byte = some value) : IsPlain byte := by
  constructor
  · rintro rfl
    exact absurd (digit.symm.trans (by decide : Json.hexValue (ascii '"') = none))
      (Option.some_ne_none _)
  · rintro rfl
    exact absurd (digit.symm.trans (by decide : Json.hexValue (ascii '\\') = none))
      (Option.some_ne_none _)

theorem isPlain_raw {scalar : Char}
    (plain : 0x20 ≤ scalar.toNat ∧ scalar ≠ '"' ∧ scalar ≠ '\\') :
    ∀ byte ∈ String.utf8EncodeChar scalar, IsPlain byte := by
  intro byte member
  by_cases small : scalar.toNat < 0x80
  · have spelled := Utf8.encodeChar_small small
    obtain ⟨-, noQuote, noBackslash⟩ := Json.Spelling.raw_first plain spelled
    rw [spelled] at member
    rw [List.mem_singleton.mp member]
    exact ⟨noQuote, noBackslash⟩
  · exact isPlain_of_large (Utf8.encodeChar_large (Nat.le_of_not_lt small) byte member)

theorem isPlain_hex4 (hex : Json.Hex4) : ∀ byte ∈ hex.bytes, IsPlain byte := by
  intro byte member
  have spelled : Json.hexValue byte ∈ hex.values.map some := by
    rw [← hex.spelled]
    exact List.mem_map_of_mem member
  obtain ⟨value, -, digit⟩ := List.mem_map.mp spelled
  exact isPlain_hex digit.symm

/-! ### The end of a string -/

/-- The escapes `parse_string` counts in a spelling. -/
def escapes : Json.Spelling → Nat
  | .raw _ _ => 0
  | .escape _ => 1
  | .unicode _ _ => 1
  | .pair _ _ _ _ => 2

theorem scanString_quote (tail : List Byte) :
    scanString (ascii '"' :: tail) = some ([], 0, tail) := by
  rw [scanString.eq_def]
  exact if_pos rfl

theorem scanString_byte (plain : IsPlain byte) (tail : List Byte) :
    scanString (byte :: tail) =
      (scanString tail).map fun found => (byte :: found.1, found.2.1, found.2.2) := by
  rw [scanString.eq_def]
  simp only [if_neg plain.1, if_neg plain.2]

theorem scanString_escape (letter : Byte) (tail : List Byte) :
    scanString (ascii '\\' :: letter :: tail) = (scanString tail).map fun found =>
      (ascii '\\' :: letter :: found.1, found.2.1 + 1, found.2.2) := by
  rw [scanString.eq_def]
  rfl

theorem scanString_plain {bytes : List Byte} (plain : ∀ byte ∈ bytes, IsPlain byte)
    (tail : List Byte) : scanString (bytes ++ tail) =
      (scanString tail).map fun found => (bytes ++ found.1, found.2.1, found.2.2) := by
  induction bytes with
  | nil => simp
  | cons byte bytes inductionHypothesis =>
      rw [List.cons_append, scanString_byte (plain byte (List.mem_cons_self ..)),
        inductionHypothesis fun other member => plain other (List.mem_cons_of_mem _ member),
        Option.map_map]
      rfl

theorem scanString_spelling (spelling : Json.Spelling) (tail : List Byte) :
    scanString (spelling.bytes ++ tail) = (scanString tail).map fun found =>
      (spelling.bytes ++ found.1, found.2.1 + escapes spelling, found.2.2) := by
  cases spelling with
  | raw scalar plain => exact scanString_plain (isPlain_raw plain) tail
  | escape letter => exact scanString_escape letter.letter tail
  | unicode hex single =>
      have hexPlain := scanString_plain (isPlain_hex4 hex) tail
      simp only [Json.Spelling.bytes, List.cons_append]
      rw [scanString_escape, hexPlain, Option.map_map]
      rfl
  | pair high low isHigh isLow =>
      have lowPlain := scanString_plain (isPlain_hex4 low) tail
      have highPlain := scanString_plain (isPlain_hex4 high)
        (ascii '\\' :: ascii 'u' :: (low.bytes ++ tail))
      simp only [Json.Spelling.bytes, List.cons_append, List.append_assoc]
      rw [scanString_escape, highPlain, scanString_escape, lowPlain, Option.map_map,
        Option.map_map, Option.map_map]
      simp [Function.comp_def, escapes]

def escapeCount (text : Json.Text) : Nat := (text.map escapes).sum

theorem scanString_text (text : Json.Text) (rest : List Byte) :
    scanString (text.body ++ ascii '"' :: rest) = some (text.body, escapeCount text, rest) := by
  induction text with
  | nil => exact scanString_quote rest
  | cons spelling text inductionHypothesis =>
      rw [Json.Text.body, List.flatMap_cons, List.append_assoc, scanString_spelling]
      change (scanString (Json.Text.body text ++ _)).map _ = _
      rw [inductionHypothesis]
      simp [escapeCount, Nat.add_comm]
      rfl

/-! ### Decoding -/

theorem and_or_self (left right : Nat) : left &&& right ||| right = right := by
  apply Nat.eq_of_testBit_eq
  intro bit
  rw [Nat.testBit_or, Nat.testBit_and]
  cases left.testBit bit <;> cases right.testBit bit <;> rfl

theorem continuationByte_eq (codepoint : Nat) :
    continuationByte codepoint = .ofNat (0x80 + codepoint % 64) := by
  have masked : (codepoint ||| 0x80) &&& 0xbf = 0x80 ||| codepoint &&& 0x3f := by
    calc (codepoint ||| 0x80) &&& 0xbf
        = codepoint &&& (0x3f ||| 0x80) ||| 0x80 := by rw [Nat.and_or_distrib_right]; rfl
      _ = codepoint &&& 0x3f ||| (codepoint &&& 0x80 ||| 0x80) := by
        rw [Nat.and_or_distrib_left, Nat.or_assoc]
      _ = 0x80 ||| codepoint &&& 0x3f := by
        rw [and_or_self, Nat.or_comm]
  rw [continuationByte, masked, Utf8.tail_bits]

/-- The bits of a lead byte, cut to a byte. -/
theorem lead_bits (width mark : Nat) {bits : Nat} (small : bits < 2 ^ width)
    (byte : 2 ^ width * mark + bits < 256) :
    (bits ||| 2 ^ width * mark) &&& 0xff = 2 ^ width * mark + bits := by
  rw [Nat.or_comm, ← Nat.two_pow_add_eq_or_of_lt small, Nat.and_two_pow_sub_one_eq_mod _ 8]
  exact Nat.mod_eq_of_lt byte

theorem utf8OfCodepoint_toNat (scalar : Char) :
    utf8OfCodepoint scalar.toNat = String.utf8EncodeChar scalar := by
  have range := Utf8.char_range scalar
  have bound : ∀ limit, scalar.toNat < limit + 1 ↔ scalar.toNat ≤ limit := fun _ => Nat.lt_succ_iff
  rw [Utf8.encodeChar_eq, utf8OfCodepoint]
  simp only [continuationByte_eq, Nat.shiftRight_eq_div_pow, Nat.reducePow, bound 0x7f, bound 0x7ff,
    bound 0xffff]
  split_ifs with one two three
  · rw [Nat.and_two_pow_sub_one_eq_mod _ 7, Nat.mod_eq_of_lt (Nat.lt_succ_of_le one)]
  · have first : (scalar.toNat / 64 ||| 0xc0) &&& 0xff = 0xc0 + scalar.toNat / 64 :=
      lead_bits 5 6 (by omega) (by omega)
    rw [first]
  · have first : (scalar.toNat / 4096 ||| 0xe0) &&& 0xff = 0xe0 + scalar.toNat / 4096 :=
      lead_bits 4 14 (by omega) (by omega)
    rw [first]
  · have first : (scalar.toNat / 262144 ||| 0xf0) &&& 0xff = 0xf0 + scalar.toNat / 262144 :=
      lead_bits 3 30 (by omega) (by omega)
    rw [first]

theorem utf8OfCodepoint_code (spelling : Json.Spelling) :
    utf8OfCodepoint spelling.code = String.utf8EncodeChar spelling.scalar := by
  rw [← spelling.scalar_toNat, utf8OfCodepoint_toNat]

theorem parseHex4_hex (hex : Json.Hex4) (tail : List Byte) :
    parseHex4 (hex.bytes ++ tail) = hex.value := by
  obtain ⟨bytes, values, four, spelled⟩ := hex
  obtain ⟨a, b, c, d, rfl⟩ := List.length_eq_four.mp four
  have fourValues : values.length = 4 := by
    have lengths := congrArg List.length spelled
    rw [List.length_map, List.length_map] at lengths
    exact lengths.symm
  obtain ⟨w, x, y, z, rfl⟩ := List.length_eq_four.mp fourValues
  simp only [List.map_cons, List.map_nil, List.cons.injEq, and_true] at spelled
  obtain ⟨first, second, third, fourth⟩ := spelled
  simp only [List.cons_append, List.nil_append, parseHex4, first, second, third, fourth]
  simp [Json.Hex4.value, Json.hexNumber, Nat.shiftLeft_eq]

theorem pair_bits {high low : Nat} (isHigh : 0xd800 ≤ high ∧ high ≤ 0xdbff)
    (isLow : 0xdc00 ≤ low ∧ low ≤ 0xdfff) :
    0x10000 + (((high &&& 0x3ff) <<< 10) ||| (low &&& 0x3ff)) =
      0x10000 + (high - 0xd800) * 0x400 + (low - 0xdc00) := by
  have lowSmall : low % 2 ^ 10 < 2 ^ 10 := Nat.mod_lt _ (by decide)
  rw [Nat.and_two_pow_sub_one_eq_mod high 10, Nat.and_two_pow_sub_one_eq_mod low 10,
    Nat.shiftLeft_eq, Nat.mul_comm, ← Nat.two_pow_add_eq_or_of_lt lowSmall]
  omega

theorem utf16LiteralToUtf8_unicode (hex : Json.Hex4)
    (single : ¬ (0xd800 ≤ hex.value ∧ hex.value ≤ 0xdfff)) (tail : List Byte) :
    utf16LiteralToUtf8 (ascii '\\' :: ascii 'u' :: (hex.bytes ++ tail)) =
      some (utf8OfCodepoint hex.value, 6) := by
  have long : ¬ (ascii '\\' :: ascii 'u' :: (hex.bytes ++ tail)).length < 6 := by
    simp only [List.length_cons, List.length_append, hex.four]
    omega
  have first := parseHex4_hex hex tail
  unfold utf16LiteralToUtf8
  simp only [if_neg long, List.drop_succ_cons, List.drop_zero, first]
  rw [if_neg (by omega), if_neg (by omega)]

theorem utf16LiteralToUtf8_pair {high low : Json.Hex4}
    (isHigh : 0xd800 ≤ high.value ∧ high.value ≤ 0xdbff)
    (isLow : 0xdc00 ≤ low.value ∧ low.value ≤ 0xdfff) (tail : List Byte) :
    utf16LiteralToUtf8 (ascii '\\' :: ascii 'u' :: (high.bytes ++
      ascii '\\' :: ascii 'u' :: (low.bytes ++ tail))) =
      some (utf8OfCodepoint (0x10000 + (high.value - 0xd800) * 0x400 + (low.value - 0xdc00)), 12) := by
  have long : ¬ (ascii '\\' :: ascii 'u' :: (high.bytes ++
      ascii '\\' :: ascii 'u' :: (low.bytes ++ tail))).length < 6 := by
    simp only [List.length_cons, List.length_append, high.four]
    omega
  have second : (high.bytes ++ ascii '\\' :: ascii 'u' :: (low.bytes ++ tail)).drop 4 =
      ascii '\\' :: ascii 'u' :: (low.bytes ++ tail) := List.drop_left' high.four
  have secondLong : ¬ (ascii '\\' :: ascii 'u' :: (low.bytes ++ tail)).length < 6 := by
    simp only [List.length_cons, List.length_append, low.four]
    omega
  have first := parseHex4_hex high (ascii '\\' :: ascii 'u' :: (low.bytes ++ tail))
  have following := parseHex4_hex low tail
  unfold utf16LiteralToUtf8
  simp only [if_neg long, List.drop_succ_cons, List.drop_zero, first, second, if_neg secondLong,
    following, List.head?_cons]
  rw [if_neg (by omega), if_pos isHigh, if_neg (by simp), if_neg (by omega),
    pair_bits isHigh isLow]

theorem simpleEscape_letter (letter : Json.Escape) :
    simpleEscape letter.letter = some (.ofNat letter.scalar.toNat) := by
  cases letter <;> decide

theorem decodeString_byte (noBackslash : byte ≠ ascii '\\') (passes : Nat) (tail : List Byte) :
    decodeString (passes + 1) (byte :: tail) = (decodeString passes tail).map (byte :: ·) := by
  rw [decodeString.eq_def]
  simp only [if_pos noBackslash]

theorem decodeString_letter (letter : Json.Escape) (passes : Nat) (tail : List Byte) :
    decodeString (passes + 1) (ascii '\\' :: letter.letter :: tail) =
      (decodeString passes tail).map (.ofNat letter.scalar.toNat :: ·) := by
  rw [decodeString.eq_def]
  simp only [ne_eq, not_true_eq_false, if_false, if_neg letter.letter_ne_u, simpleEscape_letter]

theorem decodeString_literal {encoded : List Byte} {length : Nat}
    (literal : utf16LiteralToUtf8 (ascii '\\' :: ascii 'u' :: tail) = some (encoded, length))
    (passes : Nat) : decodeString (passes + 1) (ascii '\\' :: ascii 'u' :: tail) =
      (decodeString passes ((ascii '\\' :: ascii 'u' :: tail).drop length)).map (encoded ++ ·) := by
  rw [decodeString.eq_def]
  simp only [ne_eq, not_true_eq_false, if_false, if_true, literal]

theorem decodeString_plain {bytes : List Byte} (plain : ∀ byte ∈ bytes, IsPlain byte)
    (passes : Nat) (tail : List Byte) : decodeString (bytes.length + passes) (bytes ++ tail) =
      (decodeString passes tail).map (bytes ++ ·) := by
  induction bytes with
  | nil => simp
  | cons byte bytes inductionHypothesis =>
      have noBackslash := (plain byte (List.mem_cons_self ..)).2
      rw [List.length_cons, Nat.add_right_comm, List.cons_append, decodeString_byte noBackslash,
        inductionHypothesis fun other member => plain other (List.mem_cons_of_mem _ member),
        Option.map_map]
      rfl

theorem passes_behind {byte : Byte} {bytes : List Byte} {passes : Nat}
    (enough : (byte :: bytes ++ tail).length ≤ passes) :
    ∃ left, passes = left + 1 ∧ tail.length ≤ left := by
  simp only [List.length_append, List.length_cons] at enough
  exact ⟨passes - 1, by omega, by omega⟩

/-- One spelling is decoded to the scalar it stands for. -/
theorem decodeString_spelling (spelling : Json.Spelling) {passes : Nat}
    (enough : (spelling.bytes ++ tail).length ≤ passes) :
    ∃ left, tail.length ≤ left ∧ decodeString passes (spelling.bytes ++ tail) =
      (decodeString left tail).map (String.utf8EncodeChar spelling.scalar ++ ·) := by
  cases spelling with
  | raw scalar plain =>
      rw [List.length_append] at enough
      obtain ⟨left, rfl⟩ := Nat.exists_eq_add_of_le (Nat.le_of_add_right_le enough)
      refine ⟨left, Nat.le_of_add_le_add_left enough, ?_⟩
      have same : (Json.Spelling.raw scalar plain).scalar = scalar :=
        Utf8.char_eq (Json.Spelling.scalar_toNat _)
      rw [same]
      exact decodeString_plain (isPlain_raw plain) left tail
  | escape letter =>
      obtain ⟨left, rfl, room⟩ := passes_behind enough
      refine ⟨left, room, ?_⟩
      rw [← Json.Spelling.encode_escape]
      exact decodeString_letter letter left tail
  | unicode hex single =>
      obtain ⟨left, rfl, room⟩ := passes_behind enough
      refine ⟨left, room, ?_⟩
      have literal := utf16LiteralToUtf8_unicode hex single tail
      rw [← utf8OfCodepoint_code]
      change decodeString (left + 1) (ascii '\\' :: ascii 'u' :: (hex.bytes ++ tail)) = _
      rw [decodeString_literal literal, List.drop_succ_cons, List.drop_succ_cons,
        List.drop_left' hex.four]
      rfl
  | pair high low isHigh isLow =>
      obtain ⟨left, rfl, room⟩ := passes_behind enough
      refine ⟨left, room, ?_⟩
      have literal := utf16LiteralToUtf8_pair isHigh isLow tail
      have dropped : (ascii '\\' :: ascii 'u' :: (high.bytes ++
          ascii '\\' :: ascii 'u' :: (low.bytes ++ tail))).drop 12 = tail := by
        have length : (ascii '\\' :: ascii 'u' :: (high.bytes ++
            ascii '\\' :: ascii 'u' :: low.bytes)).length = 12 := by
          simp [high.four, low.four]
        have split : (ascii '\\' :: ascii 'u' :: (high.bytes ++
            ascii '\\' :: ascii 'u' :: low.bytes) ++ tail).drop 12 = tail :=
          List.drop_left' length
        simpa using split
      rw [← utf8OfCodepoint_code]
      simp only [Json.Spelling.bytes, List.cons_append, List.append_assoc]
      rw [decodeString_literal literal, dropped]
      rfl

theorem decodeString_text (text : Json.Text) {passes : Nat} (enough : text.body.length ≤ passes) :
    decodeString passes text.body = some text.decoded := by
  induction text generalizing passes with
  | nil =>
      rw [Json.Text.body, List.flatMap_nil, decodeString.eq_def]
      rfl
  | cons spelling text inductionHypothesis =>
      rw [Json.Text.body, List.flatMap_cons] at enough ⊢
      obtain ⟨left, leftEnough, decoded⟩ := decodeString_spelling spelling enough
      rw [decoded]
      have later := inductionHypothesis leftEnough
      rw [Json.Text.body] at later
      rw [later]
      rfl

/-! ### Numbers -/

theorem digitsLength_append (digits : Json.Digits)
    (stops : ∀ byte ∈ tail.head?, ¬ Json.IsDigit byte) :
    digitsLength (digits.val ++ tail) = digits.val.length := by
  have all : ∀ byte ∈ digits.val, decide (Json.IsDigit byte) = true :=
    fun byte member => decide_eq_true (digits.property.2 byte member)
  have none : tail.takeWhile (fun byte => Json.IsDigit byte) = [] := by
    cases tail with
    | nil => rfl
    | cons byte tail => simp [stops byte rfl]
  rw [digitsLength, List.takeWhile_append_of_pos all, none, List.append_nil]

/-- What follows the digits of the whole part, and of the fraction. -/
theorem exponent_stops (number : Json.Number) :
    ∀ byte ∈ number.exponentBytes.head?, ¬ Json.IsDigit byte := by
  obtain ⟨negative, whole, noLeadingZero, fraction, exponent⟩ := number
  intro byte found
  cases exponent with
  | none => exact absurd found (Option.not_mem_none _)
  | some exponent =>
      rw [← Option.mem_some_iff.mp found]
      rcases exponent.isMarker with marker | marker <;> rw [marker] <;> decide

theorem fraction_stops (number : Json.Number) :
    ∀ byte ∈ (number.fractionBytes ++ number.exponentBytes).head?, ¬ Json.IsDigit byte := by
  have exponent := exponent_stops number
  intro byte found
  cases isFraction : number.fraction with
  | none =>
      rw [Json.Number.fractionBytes, isFraction] at found
      exact exponent byte found
  | some digits =>
      rw [Json.Number.fractionBytes, isFraction] at found
      rw [← Option.mem_some_iff.mp found]
      decide

theorem digit_not_sign {digits : Json.Digits} {tail : List Byte} :
    ¬ ((digits.val ++ tail).head? = some (ascii '+') ∨
      (digits.val ++ tail).head? = some (ascii '-')) := by
  obtain ⟨bytes, nonempty, isDigits⟩ := digits
  obtain ⟨first, rest, rfl⟩ := List.exists_cons_of_ne_nil nonempty
  have digit := isDigits first (List.mem_cons_self ..)
  rintro (same | same)
  · rw [Option.some.inj same] at digit
    exact absurd digit (by decide)
  · rw [Option.some.inj same] at digit
    exact absurd digit (by decide)

theorem digits_pos (digits : Json.Digits) : 0 < digits.val.length :=
  List.length_pos_iff.mpr digits.property.1

/-- The point and the digits behind it, as `strtod` counts them. -/
theorem fraction_length (number : Json.Number) {point fraction : Nat}
    (pointIs : point = if (number.fractionBytes ++ number.exponentBytes).head? = some (ascii '.')
      then 1 else 0)
    (fractionIs : fraction = if point = 1 then
      digitsLength ((number.fractionBytes ++ number.exponentBytes).drop 1) else 0) :
    point + fraction = number.fractionBytes.length := by
  have stops := exponent_stops number
  cases isFraction : number.fraction with
  | none =>
      have noPoint : ¬ number.exponentBytes.head? = some (ascii '.') := by
        rw [Json.Number.exponentBytes]
        cases number.exponent with
        | none => exact Option.some_ne_none _ ∘ Eq.symm
        | some exponent =>
            intro same
            have marker := exponent.isMarker
            rw [Option.some.inj same] at marker
            exact absurd marker (by decide)
      have empty : number.fractionBytes = [] := by rw [Json.Number.fractionBytes, isFraction]
      rw [empty, List.nil_append, if_neg noPoint] at pointIs
      rw [pointIs, if_neg (by decide)] at fractionIs
      rw [pointIs, fractionIs, empty]
      rfl
  | some digits =>
      have bytes : number.fractionBytes = ascii '.' :: digits.val := by
        rw [Json.Number.fractionBytes, isFraction]
      rw [bytes, List.cons_append, List.head?_cons, if_pos rfl] at pointIs
      rw [pointIs, if_pos rfl, bytes, List.cons_append, List.drop_one, List.tail_cons,
        digitsLength_append digits stops] at fractionIs
      rw [pointIs, fractionIs, bytes, List.length_cons, Nat.add_comm]

/-- The sign and the digits of an exponent, as `strtod` counts them. -/
theorem exponent_length (exponent : Json.Exponent) {sign digits : Nat}
    (signIs : sign = if (exponent.bytes.drop 1).head? = some (ascii '+') ∨
      (exponent.bytes.drop 1).head? = some (ascii '-') then 1 else 0)
    (digitsIs : digits = digitsLength ((exponent.bytes.drop 1).drop sign)) :
    digits ≠ 0 ∧ 1 + sign + digits = exponent.bytes.length := by
  have all : digitsLength exponent.digits.val = exponent.digits.val.length := by
    have counted := digitsLength_append exponent.digits
      (fun _ (found : _ ∈ ([] : List Byte).head?) => absurd found (Option.not_mem_none _))
    rwa [List.append_nil] at counted
  have positive := Nat.pos_iff_ne_zero.mp (digits_pos exponent.digits)
  have behind : exponent.bytes.drop 1 = exponent.sign.toList ++ exponent.digits.val := rfl
  have total : exponent.bytes.length =
      1 + exponent.sign.toList.length + exponent.digits.val.length := by
    simp only [Json.Exponent.bytes, List.length_append, List.length_cons]
    omega
  rw [behind] at signIs digitsIs
  cases found : exponent.sign with
  | none =>
      have noSign := @digit_not_sign exponent.digits []
      rw [List.append_nil] at noSign
      rw [found, Option.toList_none, List.nil_append, if_neg noSign] at signIs
      rw [signIs, found, Option.toList_none, List.nil_append, List.drop_zero, all] at digitsIs
      rw [total, signIs, digitsIs, found]
      exact ⟨positive, rfl⟩
  | some byte =>
      have isSign : some byte = some (ascii '+') ∨ some byte = some (ascii '-') := by
        rcases exponent.isSign byte found with rfl | rfl
        · exact .inl rfl
        · exact .inr rfl
      rw [found, Option.toList_some, List.singleton_append, List.head?_cons, if_pos isSign] at signIs
      rw [signIs, found, Option.toList_some, List.singleton_append, List.drop_one, List.tail_cons,
        all] at digitsIs
      rw [total, signIs, digitsIs, found]
      exact ⟨positive, rfl⟩

/-- `strtod` consumes a number of the grammar to its end. -/
theorem strtodLength_number (number : Json.Number) :
    strtodLength number.bytes = number.bytes.length := by
  have whole := digitsLength_append number.whole (fraction_stops number)
  have positive := digits_pos number.whole
  have signIs : (if number.bytes.head? = some (ascii '+') ∨ number.bytes.head? = some (ascii '-')
      then 1 else 0) = number.signBytes.length := by
    rw [Json.Number.bytes, Json.Number.signBytes]
    cases number.negative with
    | true => rfl
    | false => exact if_neg digit_not_sign
  have afterSign : number.bytes.drop number.signBytes.length =
      number.whole.val ++ (number.fractionBytes ++ number.exponentBytes) := List.drop_left
  have afterWhole : (number.whole.val ++ (number.fractionBytes ++ number.exponentBytes)).drop
      number.whole.val.length = number.fractionBytes ++ number.exponentBytes := List.drop_left
  unfold strtodLength
  simp only [signIs, afterSign, whole, afterWhole]
  generalize pointIs : (if (number.fractionBytes ++ number.exponentBytes).head? = some (ascii '.')
    then 1 else 0) = point
  generalize fractionIs : (if point = 1 then
    digitsLength ((number.fractionBytes ++ number.exponentBytes).drop 1) else 0) = fraction
  have fractionLength := fraction_length number pointIs.symm fractionIs.symm
  have mantissa : number.signBytes.length + number.whole.val.length + point + fraction =
      (number.signBytes ++ (number.whole.val ++ number.fractionBytes)).length := by
    rw [List.length_append, List.length_append, ← fractionLength]
    omega
  have afterMantissa : number.bytes.drop
      (number.signBytes ++ (number.whole.val ++ number.fractionBytes)).length =
        number.exponentBytes := by
    have split : number.bytes = (number.signBytes ++ (number.whole.val ++ number.fractionBytes)) ++
        number.exponentBytes := by
      simp [Json.Number.bytes]
    rw [split]
    exact List.drop_left
  have total : number.bytes.length =
      (number.signBytes ++ (number.whole.val ++ number.fractionBytes)).length +
        number.exponentBytes.length := by
    simp [Json.Number.bytes]
    omega
  rw [if_neg (by omega)]
  simp only [mantissa, afterMantissa]
  rw [total]
  generalize (number.signBytes ++ (number.whole.val ++ number.fractionBytes)).length = length
  rw [Json.Number.exponentBytes]
  cases number.exponent with
  | none => rfl
  | some exponent =>
      have marked : exponent.bytes.head? = some (ascii 'e') ∨
          exponent.bytes.head? = some (ascii 'E') := by
        rcases exponent.isMarker with marker | marker
        · exact .inl (congrArg some marker)
        · exact .inr (congrArg some marker)
      obtain ⟨nonzero, counted⟩ := exponent_length exponent rfl rfl
      simp only [if_pos marked, if_neg nonzero]
      rw [← counted]
      omega

theorem isNumberByte_digit (digit : Json.IsDigit byte) : isNumberByte byte = true :=
  decide_eq_true (.inl digit)

theorem isNumberByte_number (number : Json.Number) :
    ∀ byte ∈ number.bytes, isNumberByte byte = true := by
  intro byte member
  rw [Json.Number.bytes, List.mem_append, List.mem_append, List.mem_append] at member
  rcases member with sign | whole | fraction | exponent
  · rw [Json.Number.signBytes] at sign
    split at sign
    · rw [List.mem_singleton.mp sign]
      decide
    · exact absurd sign List.not_mem_nil
  · exact isNumberByte_digit (number.whole.property.2 byte whole)
  · rw [Json.Number.fractionBytes] at fraction
    split at fraction
    · exact absurd fraction List.not_mem_nil
    · rcases List.mem_cons.mp fraction with rfl | digit
      · decide
      · rename_i digits _
        exact isNumberByte_digit (digits.property.2 byte digit)
  · rw [Json.Number.exponentBytes] at exponent
    split at exponent
    · exact absurd exponent List.not_mem_nil
    · rename_i part _
      rw [Json.Exponent.bytes, List.mem_append, List.mem_cons, Option.mem_toList] at exponent
      rcases exponent with (marker | sign) | digit
      · rw [marker]
        rcases part.isMarker with isMarker | isMarker <;> rw [isMarker] <;> decide
      · rcases part.isSign byte sign with rfl | rfl <;> decide
      · exact isNumberByte_digit (part.digits.property.2 byte digit)

/-- `parse_number` reads a number whole if it fits its buffer. -/
theorem parseNumber_number {ν : Type} (convert : List Byte → ν) {number : Json.Number}
    (fits : number.bytes.length ≤ numberBuffer) {rest : List Byte}
    (stops : ∀ byte ∈ rest.head?, isNumberByte byte = false) :
    parseNumber convert (number.bytes ++ rest) = some (convert number.bytes, rest) := by
  have copied : ((number.bytes ++ rest).take numberBuffer).takeWhile isNumberByte =
      number.bytes := by
    have ends : (rest.take (numberBuffer - number.bytes.length)).takeWhile isNumberByte = [] := by
      cases rest with
      | nil => rw [List.take_nil, List.takeWhile_nil]
      | cons byte rest =>
          cases numberBuffer - number.bytes.length with
          | zero => rfl
          | succ room => rw [List.take_succ_cons, List.takeWhile_cons, stops byte rfl]; rfl
    rw [List.take_append, List.take_of_length_le fits,
      List.takeWhile_append_of_pos (isNumberByte_number number), ends, List.append_nil]
  have positive : number.bytes.length ≠ 0 := by
    have whole := digits_pos number.whole
    rw [Json.Number.bytes, List.length_append, List.length_append]
    omega
  unfold parseNumber
  simp only [copied, strtodLength_number, if_neg positive, List.take_length, List.drop_left]

end IperfSwift.CJson
