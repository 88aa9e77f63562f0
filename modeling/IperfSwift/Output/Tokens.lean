import IperfSwift.Output.Trace

/-!
Contract: the tokens of the scanner are the tokens of JSON.

Owns: the exact specifications of `whitespace`, `string`, `number` and `literal`
in terms of the concrete syntax.

Does not own: values, and what the traces do to the scanner's state.
-/

set_option autoImplicit false

namespace IperfSwift.Output

open IperfSwift.Lib
open IperfSwift.Lib.Program

/-! ### White space -/

def skips (space : Json.Space) : List Event := space.val.map .skip

def takes (bytes : List Byte) : List Event := bytes.map .take

@[simp] theorem consumed_skips (space : Json.Space) : consumed (skips space) = space.val := by
  obtain ⟨bytes, isSpace⟩ := space
  simp only [skips]
  clear isSpace
  induction bytes with
  | nil => rfl
  | cons byte rest inductionHypothesis =>
      rw [List.map_cons, consumed_cons, inductionHypothesis]
      rfl

@[simp] theorem consumed_takes (bytes : List Byte) : consumed (takes bytes) = bytes := by
  induction bytes with
  | nil => rfl
  | cons byte rest inductionHypothesis =>
      rw [takes, List.map_cons, consumed_cons]
      exact congrArg (byte :: ·) inductionHypothesis

theorem takes_append (first second : List Byte) :
    takes (first ++ second) = takes first ++ takes second := List.map_append

/-- The next byte, if there is one, is no white space. -/
def Dense (rest : List Byte) : Prop := ∀ byte ∈ rest.head?, ¬ Json.IsSpace byte

/-- What one pass of `whitespace` does. -/
def SpacePass : Spec (Step Unit Unit) := fun result trace rest =>
  (∃ byte, Json.IsSpace byte ∧ result = .again () ∧ trace = [.skip byte]) ∨
    (result = .done () ∧ trace = [] ∧ Dense rest)

theorem exact_spacePass : Exact (spacePass Stream.source) SpacePass where
  keeps := by
    intro parser failed
    rw [spacePass, bind_apply, peek_of_error failed]
    rfl
  sound := by
    intro ending bytes scan result final clean run _
    rw [spacePass, bind_apply, peek_position clean] at run
    cases bytes with
    | nil =>
        obtain ⟨rfl, rfl⟩ := Prod.mk.inj run
        exact ⟨[], [], scan, rfl, rfl, .inr ⟨rfl, rfl, by simp [Dense]⟩, rfl⟩
    | cons byte bytes =>
        by_cases isSpace : Json.IsSpace byte
        · simp only [List.head?_cons, isSpace, if_true] at run
          obtain ⟨rfl, rfl⟩ := Prod.mk.inj run
          exact ⟨[.skip byte], bytes, scan, rfl, rfl, .inl ⟨byte, isSpace, rfl, rfl⟩, rfl⟩
        · simp only [List.head?_cons, isSpace, if_false] at run
          obtain ⟨rfl, rfl⟩ := Prod.mk.inj run
          refine ⟨[], byte :: bytes, scan, rfl, rfl, .inr ⟨rfl, rfl, ?_⟩, rfl⟩
          simpa [Dense] using isSpace
  complete := by
    rintro ending _ rest scan scan' _ clean (⟨byte, isSpace, rfl, rfl⟩ | ⟨rfl, rfl, dense⟩) run
    · obtain rfl : scan = scan' := congrArg Prod.snd run
      change spacePass Stream.source (position ending (byte :: rest) scan) = _
      rw [spacePass, bind_apply, peek_position clean]
      simp only [List.head?_cons, isSpace, if_true]
      rfl
    · obtain rfl : scan = scan' := congrArg Prod.snd run
      rw [spacePass, bind_apply, peek_position clean]
      cases rest with
      | nil => rfl
      | cons byte rest =>
          have notSpace : ¬ Json.IsSpace byte := dense byte rfl
          simp only [consumed_nil, List.nil_append, List.head?_cons, notSpace, if_false]
          rfl

/-- `whitespace` skips all the white space there is. -/
def SkipsSpace : Spec Unit := fun _ trace rest =>
  ∃ space : Json.Space, trace = skips space ∧ Dense rest

theorem exact_whitespace : Exact (whitespace Stream.source) SkipsSpace := by
  have looped : Exact (whitespace Stream.source) (Iterates (fun _ : Unit => SpacePass) ()) := by
    refine exact_scanLoop (fun _ => exact_spacePass) ?_ () ()
    rintro _ _ _ _ (⟨byte, -, -, rfl⟩ | ⟨impossible, -⟩)
    · simp [Event.consumed]
    · cases impossible
  refine looped.congr fun result trace rest => ?_
  constructor
  · generalize () = carried
    intro iterates
    induction iterates with
    | done holds =>
        rcases holds with ⟨_, _, impossible, _⟩ | ⟨-, rfl, dense⟩
        · cases impossible
        · exact ⟨Json.Space.none, rfl, dense⟩
    | again holds later inductionHypothesis =>
        rcases holds with ⟨byte, isSpace, -, rfl⟩ | ⟨impossible, -⟩
        · obtain ⟨space, rfl, dense⟩ := inductionHypothesis
          refine ⟨⟨byte :: space.val, ?_⟩, rfl, dense⟩
          intro other member
          rcases List.mem_cons.mp member with rfl | later
          · exact isSpace
          · exact space.property other later
        · cases impossible
  · rintro ⟨⟨bytes, isSpace⟩, rfl, dense⟩
    induction bytes with
    | nil => exact .done (.inr ⟨rfl, rfl, dense⟩)
    | cons byte bytes inductionHypothesis =>
        have later := inductionHypothesis fun other member =>
          isSpace other (List.mem_cons_of_mem _ member)
        have first : SpacePass (.again ()) [.skip byte] (consumed (bytes.map .skip) ++ rest) :=
          .inl ⟨byte, isSpace byte (List.mem_cons_self ..), rfl, rfl⟩
        exact .again first later

/-! ### Literals -/

theorem exact_literal (bytes : List Byte) : Exact (literal Stream.source bytes)
    (Succeeds fun trace _ => trace = takes bytes) := by
  induction bytes with
  | nil => exact exact_pure true
  | cons byte bytes inductionHypothesis =>
      refine (exact_andThen (exact_expect byte) inductionHypothesis).congr fun result trace rest => ?_
      constructor
      · rintro ⟨rfl, _, _, rfl, rfl, rfl⟩
        exact ⟨rfl, rfl⟩
      · rintro ⟨rfl, rfl⟩
        exact ⟨rfl, [.take byte], takes bytes, rfl, rfl, rfl⟩

/-! ### Escapes -/

theorem exact_noScalar : Exact (noScalar : Program (Parser Stream) (Option Nat)) Never := by
  refine (exact_bind (exact_fail (by decide : EPROTO ≠ 0)) fun _ => exact_pure none).congr
    fun result trace rest => ?_
  constructor
  · rintro ⟨_, _, _, -, never, -⟩
    exact never.elim
  · exact False.elim

theorem shift_or_digit (total : Nat) {digit : Nat} (small : digit < 16) :
    (total <<< 4) ||| digit = total * 16 + digit := by
  rw [← Nat.shiftLeft_add_eq_or_of_lt (by simpa using small), Nat.shiftLeft_eq]

/-- `hex4` reads that many hexadecimal digits. -/
def HexRuns (count start : Nat) : Nat → List Event → List Byte → Prop := fun result trace _ =>
  ∃ (bytes : List Byte) (values : List Nat), bytes.length = count ∧
    bytes.map Json.hexValue = values.map some ∧ result = Json.hexNumber start values ∧
    trace = takes bytes

theorem exact_hexDigits (count start : Nat) :
    Exact (hexDigits Stream.source count start) (Yields (HexRuns count start)) := by
  induction count generalizing start with
  | zero =>
      refine (exact_pure (some start)).congr fun result trace rest => ?_
      constructor
      · rintro ⟨rfl, rfl⟩
        exact ⟨start, rfl, [], [], rfl, rfl, rfl, rfl⟩
      · rintro ⟨value, rfl, bytes, values, empty, spelled, rfl, rfl⟩
        obtain rfl := List.length_eq_zero_iff.mp empty
        obtain rfl : values = [] := by simpa using spelled.symm
        exact ⟨rfl, rfl⟩
  | succ count inductionHypothesis =>
      refine Exact.congr (exact_bind_option exact_take exact_noScalar fun byte => show Exact _
        (fun result trace rest => ∃ digit, Json.hexValue byte = some digit ∧
          Yields (HexRuns count (start * 16 + digit)) result trace rest) from ?_)
        fun result trace rest => ?_
      · cases found : Json.hexValue byte with
        | none =>
            simp only [Option.bind_some, found]
            exact exact_noScalar.congr fun _ _ _ => by simp [Never]
        | some digit =>
            simp only [Option.bind_some, found]
            rw [shift_or_digit start (Json.hexValue_lt found)]
            exact (inductionHypothesis _).congr fun _ _ _ => by simp
      constructor
      · rintro ⟨byte, _, _, rfl, rfl, digit, found, value, rfl, bytes, values, length, spelled,
          rfl, rfl⟩
        refine ⟨_, rfl, byte :: bytes, digit :: values, ?_, ?_, rfl, rfl⟩
        · rw [List.length_cons, length]
        · rw [List.map_cons, List.map_cons, found, spelled]
      · rintro ⟨value, rfl, bytes, values, length, spelled, rfl, rfl⟩
        obtain ⟨byte, bytes, rfl⟩ := List.exists_cons_of_length_eq_add_one length
        obtain ⟨digit, values, rfl⟩ : ∃ digit rest, values = digit :: rest := by
          cases values with
          | nil => simp at spelled
          | cons digit rest => exact ⟨digit, rest, rfl⟩
        obtain ⟨found, spelled⟩ := List.cons.inj spelled
        refine ⟨byte, [.take byte], takes bytes, rfl, rfl, digit, found, _, rfl, bytes, values, ?_,
          spelled, rfl, rfl⟩
        simpa using length

theorem exact_hex4 : Exact (hex4 Stream.source)
    (Yields fun value trace _ => ∃ hex : Json.Hex4, value = hex.value ∧ trace = takes hex.bytes) := by
  refine (exact_hexDigits 4 0).congr fun result trace rest => ?_
  constructor
  · rintro ⟨_, rfl, bytes, values, four, spelled, rfl, rfl⟩
    exact ⟨_, rfl, ⟨bytes, values, four, spelled⟩, rfl, rfl⟩
  · rintro ⟨_, rfl, hex, rfl, rfl⟩
    exact ⟨_, rfl, hex.bytes, hex.values, hex.four, hex.spelled, rfl, rfl⟩

/-! The arithmetic of surrogates, on plain numbers. -/

theorem low_iff (code : Nat) :
    ¬ (code < 0xdc00 ∨ 0xdfff < code) ↔ 0xdc00 ≤ code ∧ code ≤ 0xdfff := by
  omega

theorem single_iff (code : Nat) :
    (¬ (0xd800 ≤ code ∧ code ≤ 0xdbff) ∧ ¬ (0xdc00 ≤ code ∧ code ≤ 0xdfff)) ↔
      ¬ (0xd800 ≤ code ∧ code ≤ 0xdfff) := by
  omega

theorem pair_code (high : Nat) {low : Nat} (isLow : 0xdc00 ≤ low) :
    0x10000 + ((high - 0xd800) <<< 10) + low - 0xdc00 =
      0x10000 + (high - 0xd800) * 0x400 + (low - 0xdc00) := by
  rw [Nat.shiftLeft_eq, Nat.add_sub_assoc isLow]

/-- A `\u` escape behind its letter: one code unit, or a pair of surrogates. -/
def UnicodeRuns (code : Nat) (trace : List Event) : Prop :=
  (∃ hex : Json.Hex4, ¬ (0xd800 ≤ hex.value ∧ hex.value ≤ 0xdfff) ∧ code = hex.value ∧
      trace = takes hex.bytes) ∨
    ∃ high low : Json.Hex4, (0xd800 ≤ high.value ∧ high.value ≤ 0xdbff) ∧
      (0xdc00 ≤ low.value ∧ low.value ≤ 0xdfff) ∧
      code = 0x10000 + (high.value - 0xd800) * 0x400 + (low.value - 0xdc00) ∧
      trace = takes (high.bytes ++ ascii '\\' :: ascii 'u' :: low.bytes)

/-- The second half of a pair, from its backslash on. -/
theorem exact_lowSurrogate (high : Nat) :
    Exact (do
      let marked ← andThen (expect Stream.source (ascii '\\')) (expect Stream.source (ascii 'u'))
      if marked then do
        match ← hex4 Stream.source with
        | none => pure none
        | some low =>
            if low < 0xdc00 ∨ 0xdfff < low then noScalar
            else pure (some (0x10000 + ((high - 0xd800) <<< 10) + low - 0xdc00))
      else pure none)
    (Yields fun code trace _ => ∃ low : Json.Hex4, (0xdc00 ≤ low.value ∧ low.value ≤ 0xdfff) ∧
      code = 0x10000 + (high - 0xd800) * 0x400 + (low.value - 0xdc00) ∧
      trace = takes (ascii '\\' :: ascii 'u' :: low.bytes)) := by
  refine Exact.congr (exact_bind (exact_andThen (exact_expect _) (exact_expect _)) fun marked =>
    exact_ite (fun _ => exact_bind_option exact_hex4 (exact_pure none) fun low =>
      exact_ite (fun _ => exact_noScalar) (fun _ => exact_pure _))
      (fun _ => exact_pure none)) fun result trace rest => ?_
  constructor
  · rintro ⟨_, _, _, rfl, ⟨rfl, _, _, rfl, rfl, rfl⟩, ⟨-, low, _, _, rfl, ⟨hex, rfl, rfl⟩,
      ⟨-, never⟩ | ⟨isLow, rfl, rfl⟩⟩ | ⟨no, -⟩⟩
    · exact never.elim
    · have inRange := (low_iff _).mp isLow
      exact ⟨_, rfl, hex, inRange, pair_code high inRange.1, by simp [takes]⟩
    · exact absurd rfl no
  · rintro ⟨code, rfl, low, isLow, codeIs, rfl⟩
    refine ⟨true, [.take (ascii '\\'), .take (ascii 'u')], takes low.bytes, rfl,
      ⟨rfl, [.take (ascii '\\')], [.take (ascii 'u')], rfl, rfl, rfl⟩, .inl ⟨rfl, low.value,
      takes low.bytes, [], (List.append_nil _).symm, ⟨low, rfl, rfl⟩,
      .inr ⟨(low_iff _).mpr isLow, ?_, rfl⟩⟩⟩
    rw [codeIs, pair_code high isLow.1]

theorem exact_unicodeEscape :
    Exact (unicodeEscape Stream.source) (Yields fun code trace _ => UnicodeRuns code trace) := by
  refine Exact.congr (exact_bind_option exact_hex4 (exact_pure none) fun scalar =>
    exact_ite (fun _ => exact_lowSurrogate scalar)
      (fun _ => exact_ite (fun _ => exact_noScalar) (fun _ => exact_pure _)))
    fun result trace rest => ?_
  constructor
  · rintro ⟨_, _, _, rfl, ⟨hex, rfl, rfl⟩, ⟨isHigh, code, rfl, low, isLow, codeIs, rfl⟩ |
      ⟨notHigh, ⟨-, never⟩ | ⟨notLow, rfl, rfl⟩⟩⟩
    · exact ⟨_, rfl, .inr ⟨hex, low, isHigh, isLow, codeIs, (takes_append _ _).symm⟩⟩
    · exact never.elim
    · have single := (single_iff _).mp ⟨notHigh, notLow⟩
      exact ⟨_, rfl, .inl ⟨hex, single, rfl, List.append_nil _⟩⟩
  · rintro ⟨code, rfl, ⟨hex, single, rfl, rfl⟩ | ⟨high, low, isHigh, isLow, codeIs, rfl⟩⟩
    · obtain ⟨notHigh, notLow⟩ := (single_iff _).mpr single
      exact ⟨_, takes hex.bytes, [], (List.append_nil _).symm, ⟨hex, rfl, rfl⟩,
        .inr ⟨notHigh, .inr ⟨notLow, rfl, rfl⟩⟩⟩
    · exact ⟨_, takes high.bytes, _, takes_append _ _, ⟨high, rfl, rfl⟩,
        .inl ⟨isHigh, code, rfl, low, isLow, codeIs, rfl⟩⟩

/-- What follows a backslash. -/
def EscapeRuns (code : Nat) (trace : List Event) : Prop :=
  (∃ letter : Json.Escape, code = letter.scalar.toNat ∧ trace = [.take letter.letter]) ∨
    ∃ later, trace = .take (ascii 'u') :: later ∧ UnicodeRuns code later

/-- A letter behind the backslash that stands for one scalar. -/
theorem exact_letter (letter : Json.Escape) :
    Exact (pure (some letter.scalar.toNat) : Program (Parser Stream) (Option Nat))
      (Yields fun code trace _ => EscapeRuns code (.take letter.letter :: trace)) := by
  refine (exact_pure _).congr fun result trace rest => ?_
  constructor
  · rintro ⟨rfl, rfl⟩
    exact ⟨_, rfl, .inl ⟨letter, rfl, rfl⟩⟩
  · rintro ⟨_, rfl, ⟨other, rfl, same⟩ | ⟨later, same, -⟩⟩
    · obtain ⟨sameLetter, rfl⟩ := List.cons.inj same
      rw [Json.Escape.letter_injective (Event.take.inj sameLetter)]
      exact ⟨rfl, rfl⟩
    · exact absurd (Event.take.inj (List.cons.inj same).1) letter.letter_ne_u

/-- The branches on the letter behind a backslash. -/
theorem exact_escapeLetter (letter : Byte) :
    Exact (if letter = ascii '"' ∨ letter = ascii '\\' ∨ letter = ascii '/' then
        pure (some letter.toNat)
      else if letter = ascii 'b' then pure (some 0x08)
      else if letter = ascii 'f' then pure (some 0x0c)
      else if letter = ascii 'n' then pure (some 0x0a)
      else if letter = ascii 'r' then pure (some 0x0d)
      else if letter = ascii 't' then pure (some 0x09)
      else if letter = ascii 'u' then unicodeEscape Stream.source
      else noScalar)
    (Yields fun code trace _ => EscapeRuns code (.take letter :: trace)) := by
  split_ifs with itself backspace formFeed lineFeed carriageReturn tab unicode
  · rcases itself with rfl | rfl | rfl
    · exact exact_letter .quote
    · exact exact_letter .backslash
    · exact exact_letter .slash
  · subst backspace
    exact exact_letter .backspace
  · subst formFeed
    exact exact_letter .formFeed
  · subst lineFeed
    exact exact_letter .lineFeed
  · subst carriageReturn
    exact exact_letter .carriageReturn
  · subst tab
    exact exact_letter .tab
  · subst unicode
    refine exact_unicodeEscape.congr fun result trace rest => ?_
    constructor
    · rintro ⟨code, rfl, runs⟩
      exact ⟨code, rfl, .inr ⟨trace, rfl, runs⟩⟩
    · rintro ⟨code, rfl, ⟨other, -, same⟩ | ⟨later, same, runs⟩⟩
      · exact absurd (Event.take.inj (List.cons.inj same).1).symm other.letter_ne_u
      · rw [(List.cons.inj same).2]
        exact ⟨code, rfl, runs⟩
  · refine exact_noScalar.congr fun result trace rest => ?_
    constructor
    · exact False.elim
    · rintro ⟨code, rfl, ⟨other, -, same⟩ | ⟨later, same, -⟩⟩
      · have isLetter := Event.take.inj (List.cons.inj same).1
        cases other <;> simp_all [Json.Escape.letter]
      · exact absurd (Event.take.inj (List.cons.inj same).1) unicode

theorem exact_escapeSequence :
    Exact (escapeSequence Stream.source) (Yields fun code trace _ => EscapeRuns code trace) := by
  refine Exact.congr (exact_bind_option exact_take exact_noScalar exact_escapeLetter)
    fun result trace rest => ?_
  constructor
  · rintro ⟨letter, _, later, rfl, rfl, code, rfl, runs⟩
    exact ⟨code, rfl, runs⟩
  · rintro ⟨code, rfl, runs⟩
    have started : ∃ letter later, trace = .take letter :: later := by
      rcases runs with ⟨letter, -, rfl⟩ | ⟨later, rfl, -⟩
      · exact ⟨_, _, rfl⟩
      · exact ⟨_, _, rfl⟩
    obtain ⟨letter, later, rfl⟩ := started
    exact ⟨letter, [.take letter], later, rfl, rfl, code, rfl, runs⟩

/-! ### Scalars of several bytes -/

theorem exact_tailBytes (following start : Nat) : Exact (tailBytes Stream.source following start)
    (Yields fun code trace _ => ∃ bytes : List Byte, bytes.length = following ∧
      (∀ byte ∈ bytes, Utf8.IsTail byte) ∧ code = bytes.foldl Utf8.push start ∧
      trace = takes bytes) := by
  induction following generalizing start with
  | zero =>
      refine (exact_pure (some start)).congr fun result trace rest => ?_
      constructor
      · rintro ⟨rfl, rfl⟩
        exact ⟨start, rfl, [], rfl, by simp, rfl, rfl⟩
      · rintro ⟨_, rfl, bytes, empty, -, rfl, rfl⟩
        obtain rfl := List.length_eq_zero_iff.mp empty
        exact ⟨rfl, rfl⟩
  | succ following inductionHypothesis =>
      refine Exact.congr (exact_bind_option exact_take exact_noScalar fun byte =>
        exact_ite (fun _ => inductionHypothesis (Utf8.push start byte)) (fun _ => exact_noScalar))
        fun result trace rest => ?_
      constructor
      · rintro ⟨byte, _, _, rfl, rfl, ⟨isTail, _, rfl, bytes, length, tails, rfl, rfl⟩ |
          ⟨-, never⟩⟩
        · refine ⟨_, rfl, byte :: bytes, by rw [List.length_cons, length], ?_, rfl, rfl⟩
          intro other member
          rcases List.mem_cons.mp member with rfl | later
          · exact isTail
          · exact tails other later
        · exact never.elim
      · rintro ⟨_, rfl, bytes, length, tails, rfl, rfl⟩
        obtain ⟨byte, bytes, rfl⟩ := List.exists_cons_of_length_eq_add_one length
        refine ⟨byte, [.take byte], takes bytes, rfl, rfl, .inl ⟨?_, _, rfl, bytes, ?_, ?_, rfl,
          rfl⟩⟩
        · exact tails byte (List.mem_cons_self ..)
        · simpa using length
        · exact fun other member => tails other (List.mem_cons_of_mem _ member)

/-- A scalar of several bytes is the encoding of a scalar from 0x80 on. -/
theorem exact_multibyte (first : Byte) : Exact (multibyte Stream.source first)
    (Yields fun code trace _ => ∃ (scalar : Char) (bytes : List Byte), 0x80 ≤ scalar.toNat ∧
      String.utf8EncodeChar scalar = first :: bytes ∧ code = scalar.toNat ∧
      trace = takes bytes) := by
  unfold multibyte
  cases found : Utf8.lead first with
  | none =>
      refine exact_noScalar.congr fun result trace rest => ?_
      constructor
      · exact False.elim
      · rintro ⟨code, rfl, scalar, bytes, large, encoded, -, -⟩
        obtain ⟨lead, rest, info, encoded', leads, -⟩ := Utf8.encodeChar_multibyte scalar large
        rw [encoded] at encoded'
        rw [(List.cons.inj encoded').1, leads] at found
        cases found
  | some lead =>
      refine Exact.congr (exact_bind_option (exact_tailBytes _ _) (exact_pure none) fun scalar =>
        exact_ite (fun _ => exact_pure _) (fun _ => exact_noScalar)) fun result trace rest => ?_
      constructor
      · rintro ⟨_, _, _, rfl, ⟨bytes, length, tails, rfl, rfl⟩, ⟨valid, rfl, rfl⟩ | ⟨-, never⟩⟩
        · obtain ⟨scalar, same, large, encoded⟩ :=
            Utf8.encodeChar_of_multibyte found length tails valid
          exact ⟨_, rfl, scalar, bytes, large, encoded, same.symm, List.append_nil _⟩
        · exact never.elim
      · rintro ⟨_, rfl, scalar, bytes, large, encoded, rfl, rfl⟩
        obtain ⟨first', rest', info, encoded', leads, length, tails, value, valid⟩ :=
          Utf8.encodeChar_multibyte scalar large
        obtain ⟨rfl, rfl⟩ := List.cons.inj (encoded.symm.trans encoded')
        obtain rfl : lead = info := Option.some.inj (found.symm.trans leads)
        exact ⟨scalar.toNat, takes bytes, [], (List.append_nil _).symm,
          ⟨bytes, length, tails, value.symm, rfl⟩, .inl ⟨valid, rfl, rfl⟩⟩

/-! ### Strings -/

/-- The rest of a spelling behind its first byte. -/
def SpellingRuns (first : Byte) (code : Nat) (trace : List Event) : Prop :=
  ∃ (spelling : Json.Spelling) (tail : List Byte), spelling.bytes = first :: tail ∧
    code = spelling.code ∧ trace = takes tail

theorem escapeRuns_iff (code : Nat) (trace : List Event) :
    EscapeRuns code trace ↔ SpellingRuns (ascii '\\') code trace := by
  constructor
  · rintro (⟨letter, codeIs, rfl⟩ | ⟨_, rfl, ⟨hex, single, codeIs, rfl⟩ |
      ⟨high, low, isHigh, isLow, codeIs, rfl⟩⟩)
    · exact ⟨.escape letter, [letter.letter], rfl, codeIs, rfl⟩
    · exact ⟨.unicode hex single, ascii 'u' :: hex.bytes, rfl, codeIs, rfl⟩
    · exact ⟨.pair high low isHigh isLow, _, rfl, codeIs, rfl⟩
  · rintro ⟨spelling, tail, spelled, codeIs, rfl⟩
    cases spelling with
    | raw scalar plain => exact absurd rfl (Json.Spelling.raw_first plain spelled).2.2
    | escape letter =>
        obtain ⟨-, rfl⟩ := List.cons.inj spelled
        exact .inl ⟨letter, codeIs, rfl⟩
    | unicode hex single =>
        obtain ⟨-, rfl⟩ := List.cons.inj spelled
        exact .inr ⟨takes hex.bytes, rfl, .inl ⟨hex, single, codeIs, rfl⟩⟩
    | pair high low isHigh isLow =>
        obtain ⟨-, rfl⟩ := List.cons.inj spelled
        exact .inr ⟨_, rfl, .inr ⟨high, low, isHigh, isLow, codeIs, rfl⟩⟩

/-- A byte below 0x80 that is no backslash is a spelling by itself. -/
theorem asciiRuns_iff {first : Byte} (printable : 0x20 ≤ first.toNat)
    (noQuote : first ≠ ascii '"') (noBackslash : first ≠ ascii '\\') (small : first.toNat < 0x80)
    (code : Nat) (trace : List Event) :
    SpellingRuns first code trace ↔ code = first.toNat ∧ trace = [] := by
  have isScalar : Utf8.IsScalar 0 first.toNat := ⟨Nat.zero_le _, by omega, by omega⟩
  have scalarIs : (Char.ofNat first.toNat).toNat = first.toNat := Utf8.toNat_ofNat isScalar
  constructor
  · rintro ⟨spelling, tail, spelled, codeIs, rfl⟩
    obtain ⟨scalar, plain, rfl⟩ := Json.Spelling.exists_raw spelled noBackslash
    change String.utf8EncodeChar scalar = first :: tail at spelled
    by_cases scalarSmall : scalar.toNat < 0x80
    · rw [Utf8.encodeChar_small scalarSmall] at spelled
      obtain ⟨rfl, rfl⟩ := List.cons.inj spelled
      refine ⟨codeIs.trans ?_, rfl⟩
      change scalar.toNat = _
      rw [UInt8.toNat_ofNat']
      omega
    · obtain ⟨first', rest, info, encoded, leads, -⟩ :=
        Utf8.encodeChar_multibyte scalar (Nat.le_of_not_lt scalarSmall)
      obtain ⟨rfl, -⟩ := List.cons.inj (spelled.symm.trans encoded)
      rw [Utf8.lead_of_small small] at leads
      cases leads
  · rintro ⟨rfl, rfl⟩
    refine ⟨.raw (Char.ofNat first.toNat) ⟨by omega, ?_, ?_⟩, [], ?_, scalarIs.symm, rfl⟩
    · intro quote
      exact noQuote (UInt8.toNat_inj.mp (scalarIs.symm.trans (congrArg Char.toNat quote)))
    · intro backslash
      exact noBackslash (UInt8.toNat_inj.mp (scalarIs.symm.trans (congrArg Char.toNat backslash)))
    · change String.utf8EncodeChar _ = _
      rw [Utf8.encodeChar_small (by omega), scalarIs, UInt8.ofNat_toNat]

theorem multibyteRuns_iff {first : Byte} (large : 0x80 ≤ first.toNat) (code : Nat)
    (trace : List Event) :
    SpellingRuns first code trace ↔ ∃ (scalar : Char) (bytes : List Byte), 0x80 ≤ scalar.toNat ∧
      String.utf8EncodeChar scalar = first :: bytes ∧ code = scalar.toNat ∧
      trace = takes bytes := by
  constructor
  · rintro ⟨spelling, tail, spelled, codeIs, rfl⟩
    have noBackslash : first ≠ ascii '\\' := by
      rintro rfl
      exact absurd large (by decide)
    obtain ⟨scalar, plain, rfl⟩ := Json.Spelling.exists_raw spelled noBackslash
    refine ⟨scalar, tail, ?_, spelled, codeIs, rfl⟩
    change String.utf8EncodeChar scalar = first :: tail at spelled
    by_contra scalarSmall
    rw [Utf8.encodeChar_small (Nat.lt_of_not_le scalarSmall)] at spelled
    obtain ⟨rfl, -⟩ := List.cons.inj spelled
    rw [UInt8.toNat_ofNat'] at large
    omega
  · rintro ⟨scalar, bytes, scalarLarge, encoded, codeIs, rfl⟩
    refine ⟨.raw scalar ⟨by omega, ?_, ?_⟩, bytes, encoded, codeIs, rfl⟩
    · rintro rfl
      exact absurd scalarLarge (by decide)
    · rintro rfl
      exact absurd scalarLarge (by decide)

theorem exact_scalarFrom {first : Byte} (printable : 0x20 ≤ first.toNat)
    (noQuote : first ≠ ascii '"') : Exact (scalarFrom Stream.source first)
    (Yields fun code trace _ => SpellingRuns first code trace) := by
  unfold scalarFrom
  split_ifs with backslash small
  · subst backslash
    exact exact_escapeSequence.congr fun _ _ _ => by simp only [Yields, escapeRuns_iff]
  · refine (exact_pure _).congr fun result trace rest => ?_
    simp only [Yields, asciiRuns_iff printable noQuote backslash small]
    constructor
    · rintro ⟨rfl, rfl⟩
      exact ⟨_, rfl, rfl, rfl⟩
    · rintro ⟨_, rfl, rfl, rfl⟩
      exact ⟨rfl, rfl⟩
  · exact (exact_multibyte first).congr fun _ _ _ => by
      simp only [Yields, multibyteRuns_iff (Nat.le_of_not_lt small)]

/-- Reading one spelling and passing its scalar on. -/
def spellingEvents (destination : Option Decoded) (spelling : Json.Spelling) : List Event :=
  takes spelling.bytes ++ [.scalar destination spelling.code]

/-- Reading a string token. -/
def textEvents (destination : Option Decoded) (text : Json.Text) : List Event :=
  .take (ascii '"') :: (text.flatMap (spellingEvents destination) ++ [.take (ascii '"')])

@[simp] theorem consumed_spellingEvents (destination : Option Decoded)
    (spelling : Json.Spelling) :
    consumed (spellingEvents destination spelling) = spelling.bytes := by
  simp [spellingEvents, Event.consumed]

@[simp] theorem consumed_textEvents (destination : Option Decoded) (text : Json.Text) :
    consumed (textEvents destination text) = text.token := by
  have body : consumed (text.flatMap (spellingEvents destination)) = text.body := by
    induction text with
    | nil => rfl
    | cons spelling rest inductionHypothesis =>
        rw [List.flatMap_cons, consumed_append, consumed_spellingEvents, inductionHypothesis]
        rfl
  simp [textEvents, Event.consumed, body, Json.Text.token]

/-- One pass of `string`: the closing quote, or one more scalar. -/
def StringPass (destination : Option Decoded) : Spec (Step Unit Bool) := fun result trace _ =>
  (result = .done true ∧ trace = [.take (ascii '"')]) ∨
    ∃ spelling, result = .again () ∧ trace = spellingEvents destination spelling

theorem spelling_first (spelling : Json.Spelling) : ∃ first tail,
    spelling.bytes = first :: tail ∧ 0x20 ≤ first.toNat ∧ first ≠ ascii '"' := by
  cases spelling with
  | raw scalar plain =>
      obtain ⟨first, tail, spelled⟩ : ∃ first tail,
          String.utf8EncodeChar scalar = first :: tail := by
        by_cases small : scalar.toNat < 0x80
        · exact ⟨_, _, Utf8.encodeChar_small small⟩
        · obtain ⟨first, rest, _, encoded, -⟩ :=
            Utf8.encodeChar_multibyte scalar (Nat.le_of_not_lt small)
          exact ⟨first, rest, encoded⟩
      obtain ⟨printable, noQuote, -⟩ := Json.Spelling.raw_first plain spelled
      exact ⟨first, tail, spelled, printable, noQuote⟩
  | escape letter | unicode hex single | pair high low isHigh isLow => exact ⟨_, _, rfl, by decide, by decide⟩

/-- The scalar behind its first byte, and what becomes of it. -/
theorem exact_keepScalar (destination : Option Decoded) {first : Byte}
    (printable : 0x20 ≤ first.toNat) (noQuote : first ≠ ascii '"') :
    Exact (do
      match ← scalarFrom Stream.source first with
      | none => pure (.done false)
      | some scalar => do
          let kept ← lift (decodedScalar destination scalar)
          pure (if kept then .again () else .done false))
    (fun result trace _ => ∃ code later, SpellingRuns first code later ∧
      (result : Step Unit Bool) = .again () ∧ trace = later ++ [.scalar destination code]) := by
  refine Exact.congr (exact_bind_option (exact_scalarFrom printable noQuote) (exact_pure _)
    fun code => exact_bind (exact_lift (.scalar destination code)
      (honest_decodedScalar destination code) (sticky_decodedScalar destination code) rfl rfl)
      fun kept => exact_pure _) fun result trace rest => ?_
  constructor
  · rintro ⟨code, later, _, rfl, runs, _, _, _, rfl, ⟨rfl, rfl⟩, rfl, rfl⟩
    exact ⟨code, later, runs, rfl, rfl⟩
  · rintro ⟨code, later, runs, rfl, rfl⟩
    exact ⟨code, later, [.scalar destination code], rfl, runs, true,
      [.scalar destination code], [], rfl, ⟨rfl, rfl⟩, rfl, rfl⟩

/-- What `string` does with a byte it has taken. -/
theorem exact_stringByte (destination : Option Decoded) (byte : Byte) :
    Exact (if byte = ascii '"' then pure (.done true)
      else if byte.toNat < 0x20 then do
        let failed ← lift (fail EPROTO)
        pure (.done failed)
      else do
        match ← scalarFrom Stream.source byte with
        | none => pure (.done false)
        | some scalar => do
            let kept ← lift (decodedScalar destination scalar)
            pure (if kept then .again () else .done false))
    (fun result trace rest => StringPass destination result (.take byte :: trace) rest) := by
  split_ifs with quote control
  · subst quote
    refine (exact_pure _).congr fun result trace rest => ?_
    constructor
    · rintro ⟨rfl, rfl⟩
      exact .inl ⟨rfl, rfl⟩
    · rintro (⟨rfl, same⟩ | ⟨spelling, -, same⟩)
      · exact ⟨rfl, (List.cons.inj same).2⟩
      · obtain ⟨first, tail, spelled, -, noQuote⟩ := spelling_first spelling
        rw [spellingEvents, spelled] at same
        exact absurd (Event.take.inj (List.cons.inj same).1).symm noQuote
  · refine Exact.congr (exact_bind (exact_fail (by decide)) fun _ => exact_pure _)
      fun result trace rest => ?_
    constructor
    · rintro ⟨_, _, _, -, never, -⟩
      exact never.elim
    · rintro (⟨-, same⟩ | ⟨spelling, -, same⟩)
      · exact absurd (Event.take.inj (List.cons.inj same).1) quote
      · obtain ⟨first, tail, spelled, printable, -⟩ := spelling_first spelling
        rw [spellingEvents, spelled] at same
        rw [Event.take.inj (List.cons.inj same).1] at control
        omega
  · refine (exact_keepScalar destination (Nat.le_of_not_lt control) quote).congr
      fun result trace rest => ?_
    constructor
    · rintro ⟨_, _, ⟨spelling, tail, spelled, rfl, rfl⟩, rfl, rfl⟩
      refine .inr ⟨spelling, rfl, ?_⟩
      rw [spellingEvents, spelled]
      rfl
    · rintro (⟨-, same⟩ | ⟨spelling, rfl, same⟩)
      · exact absurd (Event.take.inj (List.cons.inj same).1) quote
      · obtain ⟨first, tail, spelled, -, -⟩ := spelling_first spelling
        rw [spellingEvents, spelled] at same
        obtain ⟨sameByte, rfl⟩ := List.cons.inj same
        rw [Event.take.inj sameByte]
        exact ⟨_, takes tail, ⟨spelling, tail, spelled, rfl, rfl⟩, rfl, rfl⟩

theorem exact_stringPass (destination : Option Decoded) :
    Exact (stringPass Stream.source destination) (StringPass destination) := by
  refine Exact.congr (exact_bind exact_errorNow fun error => exact_ite (fun _ => exact_pure _)
    (fun _ => exact_bind_option exact_take
      (exact_bind (exact_fail (by decide)) fun _ => exact_pure _)
      (exact_stringByte destination))) fun result trace rest => ?_
  constructor
  · rintro ⟨_, _, _, rfl, ⟨rfl, rfl⟩, ⟨failed, -⟩ | ⟨-, byte, _, _, rfl, rfl, runs⟩⟩
    · exact absurd rfl failed
    · exact runs
  · intro runs
    have started : ∃ byte later, trace = .take byte :: later := by
      rcases runs with ⟨-, rfl⟩ | ⟨spelling, -, rfl⟩
      · exact ⟨_, _, rfl⟩
      · obtain ⟨first, tail, spelled, -, -⟩ := spelling_first spelling
        rw [spellingEvents, spelled]
        exact ⟨_, _, rfl⟩
    obtain ⟨byte, later, rfl⟩ := started
    exact ⟨0, [], _, rfl, ⟨rfl, rfl⟩, .inr ⟨fun failed => failed rfl, byte, [.take byte], later,
      rfl, rfl, runs⟩⟩

/-- The loop of `string`, behind the opening quote. -/
theorem exact_stringLoop (destination : Option Decoded) :
    Exact (scanLoop Stream.source (fun _ => stringPass Stream.source destination) false ())
      (Succeeds fun trace _ => ∃ text : Json.Text,
        trace = text.flatMap (spellingEvents destination) ++ [.take (ascii '"')]) := by
  have progress : ∀ (carried next : Unit) trace rest,
      StringPass destination (.again next) trace rest → consumed trace ≠ [] := by
    rintro _ _ _ _ (⟨impossible, -⟩ | ⟨spelling, -, rfl⟩)
    · cases impossible
    · obtain ⟨first, tail, spelled, -, -⟩ := spelling_first spelling
      rw [consumed_spellingEvents, spelled]
      exact List.cons_ne_nil _ _
  refine (exact_scanLoop (fun _ => exact_stringPass destination) progress false ()).congr
    fun result trace rest => ?_
  constructor
  · generalize () = carried
    intro iterates
    induction iterates with
    | done holds =>
        rcases holds with ⟨same, rfl⟩ | ⟨spelling, impossible, -⟩
        · exact ⟨Step.done.inj same, [], rfl⟩
        · cases impossible
    | again holds later inductionHypothesis =>
        rcases holds with ⟨impossible, -⟩ | ⟨spelling, -, rfl⟩
        · cases impossible
        · obtain ⟨rfl, text, rfl⟩ := inductionHypothesis
          exact ⟨rfl, spelling :: text, by rw [List.flatMap_cons, List.append_assoc]⟩
  · rintro ⟨rfl, text, rfl⟩
    induction text with
    | nil => exact .done (.inl ⟨rfl, rfl⟩)
    | cons spelling text inductionHypothesis =>
        rw [List.flatMap_cons, List.append_assoc]
        exact .again (.inr ⟨spelling, rfl, rfl⟩) inductionHypothesis

/-- `string` reads exactly the string tokens of JSON. -/
theorem exact_string (destination : Option Decoded) : Exact (string Stream.source destination)
    (Succeeds fun trace _ => ∃ text, trace = textEvents destination text) := by
  refine (exact_andThen (exact_expect (ascii '"')) (exact_stringLoop destination)).congr
    fun result trace rest => ?_
  constructor
  · rintro ⟨rfl, _, _, rfl, rfl, text, rfl⟩
    exact ⟨rfl, text, rfl⟩
  · rintro ⟨rfl, text, rfl⟩
    exact ⟨rfl, [.take (ascii '"')], _, rfl, rfl, text, rfl⟩

end IperfSwift.Output
