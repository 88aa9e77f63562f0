import IperfSwift.Log.Retention
import IperfSwift.Output.Prefix
import IperfSwift.Output.Tally

/-!
Contract: the three UTF-8 routines of the engine agree.

Owns: that `string` of the scanner accepts the raw bytes of a text exactly when
`utf8_prefix` of the output budget does, and hands them on unchanged; and that
the three bytes at which the log looks are enough to find the same boundary.

Does not own: the routines, each of which is modelled where it belongs.
-/

set_option autoImplicit false

namespace IperfSwift.Output

open IperfSwift.Lib
open IperfSwift.Lib.Program

variable {destination : Option Decoded} {bytes rest : List Byte} {scan : ScanState} {count : Nat}

/-! ### Success and errors of `string` -/

section Success

variable {σ : Type} (source : Source σ)
variable {parser : Parser σ}

theorem take_some_clean {byte : Byte} (taken : (take source parser).1 = some byte) :
    (take source parser).2.scan.error = 0 := by
  simp only [take, bind_apply] at taken ⊢
  cases peeked : (peek source parser).1 with
  | none => simp [peeked] at taken
  | some found =>
      have clean : (peek source parser).2.scan.error = 0 := by
        rw [peek] at peeked ⊢
        split_ifs at peeked ⊢ with failed
        cases seen : (source.peek parser.input).1 with
        | byte next => simpa [seen] using failed
        | finished | failed error => simp [seen] at peeked
      simp only [peeked, bind_apply, pure_apply] at taken ⊢
      split_ifs at taken with emitted
      exact (honest_emit found _ clean).mp emitted

theorem stringPass_done (done : (stringPass source destination parser).1 = .done true) :
    (stringPass source destination parser).2.scan.error = 0 := by
  rw [stringPass, bind_apply] at done ⊢
  by_cases failed : (errorNow parser).1 ≠ 0
  · simp [failed] at done
  · rw [if_neg failed, bind_apply] at done ⊢
    cases taken : (take source (errorNow parser).2).1 with
    | none => simp [taken, lift, fail] at done
    | some byte =>
        rw [taken] at done
        dsimp only at done ⊢
        split_ifs at done ⊢ with quote control
        · exact take_some_clean source taken
        · simp [lift, fail] at done
        · rw [bind_apply] at done
          cases scalar : (scalarFrom source byte (take source (errorNow parser).2).2).1 with
          | none => simp [scalar] at done
          | some code =>
              simp only [scalar, bind_apply, pure_apply] at done
              split_ifs at done
              cases done

theorem stringLoop_clean {allowance : Nat} (succeeded :
      (loop (fun _ => stringPass source destination) false allowance () parser).1 = true) :
    (loop (fun _ => stringPass source destination) false allowance () parser).2.scan.error = 0 := by
  induction allowance generalizing parser with
  | zero => cases succeeded
  | succ allowance inductionHypothesis =>
      cases pass : (stringPass source destination parser).1 with
      | again next =>
          rw [loop_again pass] at succeeded ⊢
          exact inductionHypothesis succeeded
      | done result =>
          rw [loop_done pass] at succeeded ⊢
          cases succeeded
          exact stringPass_done source pass

/-- A string that `string` has accepted leaves no error. -/
theorem string_clean (succeeded : (string source destination parser).1 = true) :
    (string source destination parser).2.scan.error = 0 := by
  have run := andThen_eq_true (Prod.ext succeeded rfl :
    string source destination parser = (true, (string source destination parser).2))
  have clean := stringLoop_clean source (congrArg Prod.fst run.2)
  exact (congrArg (fun outcome => outcome.2.scan.error) run.2).symm.trans clean

end Success

/-! ### Raw bytes between quotes -/

/-- No quote, no backslash and no control character. -/
def Raw (bytes : List Byte) : Prop :=
  ∀ byte ∈ bytes, 0x20 ≤ byte.toNat ∧ byte ≠ ascii '"' ∧ byte ≠ ascii '\\'

instance (bytes : List Byte) : Decidable (Raw bytes) :=
  inferInstanceAs (Decidable (∀ byte ∈ bytes, _))

theorem raw_no_quote {c : Char} (plain : 0x20 ≤ c.toNat ∧ c ≠ '"' ∧ c ≠ '\\') :
    ascii '"' ∉ String.utf8EncodeChar c := by
  intro quoted
  by_cases small : c.toNat < 0x80
  · rw [Utf8.encodeChar_small small, List.mem_singleton] at quoted
    have same : '"'.toNat = c.toNat % 2 ^ 8 := by
      rw [← UInt8.toNat_ofNat', ← quoted]
      rfl
    exact plain.2.1 (Utf8.char_eq (by omega))
  · have large := Utf8.encodeChar_large (Nat.le_of_not_lt small) _ quoted
    exact absurd large (by decide)

/-- What has no quote and begins a text up to its first quote, begins the text itself. -/
theorem exists_of_append_eq {quote : Byte} {front later : List Byte}
    (same : front ++ later = bytes ++ quote :: rest) (noQuote : quote ∉ front) :
    ∃ more, bytes = front ++ more ∧ later = more ++ quote :: rest := by
  rcases List.append_eq_append_iff.mp same with ⟨more, whole, behind⟩ | ⟨more, whole, behind⟩
  · exact ⟨more, whole, behind⟩
  · cases more with
    | nil => exact ⟨[], by simpa using whole.symm, by simpa using behind.symm⟩
    | cons byte tail =>
        obtain ⟨rfl, -⟩ := List.cons.inj behind
        exact absurd (by rw [whole]; simp) noQuote

/-- A token with raw bytes between its quotes spells scalars that stand for themselves. -/
theorem text_of_raw {text : Json.Text} {rest' : List Byte} (raw : Raw bytes)
    (same : text.body ++ ascii '"' :: rest' = bytes ++ ascii '"' :: rest) :
    bytes = Utf8.encode text.scalars ∧ rest' = rest := by
  induction text generalizing bytes with
  | nil =>
      cases bytes with
      | nil => exact ⟨rfl, (List.cons.inj same).2⟩
      | cons byte more =>
          exact absurd (List.cons.inj same).1.symm (raw byte List.mem_cons_self).2.1
  | cons spelling text inductionHypothesis =>
      obtain ⟨first, tail, spelled, -, notQuote⟩ := spelling_first spelling
      rw [Json.Text.body, List.flatMap_cons, List.append_assoc] at same
      have notEscape : first ≠ ascii '\\' := by
        rw [spelled] at same
        cases bytes with
        | nil => exact absurd (List.cons.inj same).1 notQuote
        | cons byte more =>
            rw [(List.cons.inj same).1]
            exact (raw byte List.mem_cons_self).2.2
      obtain ⟨scalar, plain, rfl⟩ := Json.Spelling.exists_raw spelled notEscape
      obtain ⟨more, rfl, later⟩ := exists_of_append_eq same (raw_no_quote plain)
      have rawMore : Raw more := fun byte member => raw byte (List.mem_append_right _ member)
      obtain ⟨encoded, behind⟩ := inductionHypothesis rawMore later
      have itself : (Json.Spelling.raw scalar plain).scalar = scalar :=
        Utf8.char_eq (Json.Spelling.scalar_toNat _)
      refine ⟨?_, behind⟩
      rw [Json.Text.scalars, List.map_cons, Utf8.encode_cons, itself, encoded]
      rfl

theorem plain_of_raw {c : Char} (raw : Raw (String.utf8EncodeChar c)) :
    0x20 ≤ c.toNat ∧ c ≠ '"' ∧ c ≠ '\\' := by
  by_cases small : c.toNat < 0x80
  · have byte := raw (.ofNat c.toNat) (by simp [Utf8.encodeChar_small small])
    rw [UInt8.toNat_ofNat', Nat.mod_eq_of_lt (by omega)] at byte
    refine ⟨byte.1, ?_, ?_⟩
    · rintro rfl
      exact byte.2.1 rfl
    · rintro rfl
      exact byte.2.2 rfl
  · refine ⟨by omega, ?_, ?_⟩
    · rintro rfl
      exact small (by decide)
    · rintro rfl
      exact small (by decide)

/-- Scalars without quotes, backslashes and control characters are a text as they are. -/
theorem exists_text_of_raw {scalars : List Char} (raw : Raw (Utf8.encode scalars)) :
    ∃ text : Json.Text, text.body = Utf8.encode scalars ∧ text.scalars = scalars := by
  induction scalars with
  | nil => exact ⟨[], rfl, rfl⟩
  | cons c rest inductionHypothesis =>
      rw [Utf8.encode_cons] at raw
      have plain := plain_of_raw fun byte member => raw byte (List.mem_append_left _ member)
      obtain ⟨text, body, scalars⟩ :=
        inductionHypothesis fun byte member => raw byte (List.mem_append_right _ member)
      have itself : (Json.Spelling.raw c plain).scalar = c :=
        Utf8.char_eq (Json.Spelling.scalar_toNat _)
      refine ⟨.raw c plain :: text, ?_, ?_⟩
      · rw [Utf8.encode_cons, ← body]
        rfl
      · rw [← scalars, Json.Text.scalars, List.map_cons, itself]
        rfl

/-! ### What becomes of the scalars -/

/-- The key buffer of `root` can take so many more bytes, where it is the destination. -/
def KeyRoom (destination : Option Decoded) (scan : ScanState) (count : Nat) : Prop :=
  ∀ decoded ∈ destination, decoded.key = true → scan.key.length + count ≤ keyBuffer

/-- The bytes that are taken go nowhere, or into a core text that has room for them. -/
def CoreRoom (scan : ScanState) (count : Nat) : Prop :=
  scan.capture = .discard ∨
    scan.capture = .core ∧ scan.core.length + count ≤ resultCoreMaxBytes

/-- What was taken goes into the core text where that is captured, and the bytes that it stands for
to where the destination says. -/
structure Reencodes (destination : Option Decoded) (taken bytes : List Byte)
    (scan after : ScanState) : Prop where
  capture : after.capture = scan.capture
  limit : after.limit = scan.limit
  core : after.core = if scan.capture = .core then scan.core ++ taken else scan.core
  key : ∀ decoded ∈ destination, decoded.key = true → after.key = scan.key ++ bytes
  text : ∀ decoded ∈ destination, decoded.key = false → decoded.outputText = true →
    ∀ held, scan.output.state = .complete → scan.output.value = some held →
      held.length + bytes.length ≤ scan.limit →
        after.output.state = .complete ∧ after.output.value = some (held ++ bytes)

theorem Reencodes.refl (destination : Option Decoded) (scan : ScanState) :
    Reencodes destination [] [] scan scan :=
  ⟨rfl, rfl, by simp, by simp, fun _ _ _ _ _ complete value _ => ⟨complete, by simp [value]⟩⟩

theorem Reencodes.trans {taken more first second : List Byte} {middle after : ScanState}
    (one : Reencodes destination taken first scan middle)
    (two : Reencodes destination more second middle after) :
    Reencodes destination (taken ++ more) (first ++ second) scan after := by
  refine ⟨two.capture.trans one.capture, two.limit.trans one.limit, ?_, ?_, ?_⟩
  · rw [two.core, one.capture, one.core]
    split_ifs
    · rw [List.append_assoc]
    · rfl
  · intro decoded given isKey
    rw [two.key decoded given isKey, one.key decoded given isKey, List.append_assoc]
  · intro decoded given notKey isText held complete value fits
    rw [List.length_append] at fits
    obtain ⟨complete', value'⟩ :=
      one.text decoded given notKey isText held complete value (by omega)
    have again := two.text decoded given notKey isText _ complete' value'
      (by rw [List.length_append, one.limit]; omega)
    rwa [List.append_assoc] at again

theorem Reencodes.coreRoom {taken : List Byte} {after : ScanState}
    (reencodes : Reencodes destination taken bytes scan after)
    (room : CoreRoom scan (taken.length + count)) : CoreRoom after count := by
  refine room.imp reencodes.capture.trans fun ⟨core, fits⟩ => ⟨reencodes.capture.trans core, ?_⟩
  rw [reencodes.core, if_pos core, List.length_append]
  omega

/-- One scalar other than NUL. -/
theorem decodedScalar_reencodes {code : Nat} (notNul : code ≠ 0)
    (room : KeyRoom destination scan (scalarBytes code).length) :
    ∃ after, decodedScalar destination code scan = (true, after) ∧
      Reencodes destination [] (scalarBytes code) scan after := by
  cases destination with
  | none => exact ⟨scan, rfl, rfl, rfl, by simp, nofun, nofun⟩
  | some decoded =>
      rw [decodedScalar]
      dsimp only
      rw [if_neg (by simp [notNul])]
      by_cases isKey : decoded.key = true
      · have fits := room decoded rfl isKey
        rw [if_pos isKey, if_neg (by omega)]
        refine ⟨_, rfl, rfl, rfl, by simp, fun _ _ _ => rfl, ?_⟩
        rintro _ ⟨⟩ notKey
        rw [isKey] at notKey
        cases notKey
      · rw [if_neg isKey]
        split_ifs with isText
        · have frame : (decodedText code (scalarBytes code) scan).capture = scan.capture ∧
              (decodedText code (scalarBytes code) scan).limit = scan.limit ∧
              (decodedText code (scalarBytes code) scan).core = scan.core := by
            rw [decodedText]
            dsimp only
            split_ifs <;> exact ⟨rfl, rfl, rfl⟩
          refine ⟨_, rfl, frame.1, frame.2.1, by simp [frame.2.2], ?_, ?_⟩
          · rintro _ ⟨⟩ isKey'
            exact absurd isKey' isKey
          · rintro _ ⟨⟩ _ _ held complete value fits
            have within : ¬ scan.limit < held.length + (scalarBytes code).length := by omega
            simp [decodedText, ServerOutput.held, notNul, complete, value, within]
        · refine ⟨scan, rfl, rfl, rfl, by simp, ?_, ?_⟩
          · rintro _ ⟨⟩ isKey'
            exact absurd isKey' isKey
          · rintro _ ⟨⟩ _ isText'
            exact absurd isText' isText

/-- A byte that is taken is all that can be added to the core text. -/
theorem emit_reencodes (destination : Option Decoded) (byte : Byte)
    (space : CoreRoom scan (count + 1)) :
    ∃ after, emit byte scan = (true, after) ∧ Reencodes destination [byte] [] scan after := by
  have same := Reencodes.refl destination scan
  rcases space with idle | ⟨core, fits⟩
  · exact ⟨scan, by rw [emit, idle], { same with core := by simp [idle] }⟩
  · refine ⟨{ scan with core := scan.core ++ [byte] }, ?_, { same with core := by simp [core] }⟩
    rw [emit, core]
    exact if_neg (by omega)

theorem perform_takes (destination : Option Decoded) {bytes : List Byte} {scan : ScanState}
    (space : CoreRoom scan bytes.length) :
    ∃ after, perform (takes bytes) scan = (true, after) ∧
      Reencodes destination bytes [] scan after := by
  induction bytes generalizing scan with
  | nil => exact ⟨scan, rfl, .refl destination scan⟩
  | cons byte rest inductionHypothesis =>
      obtain ⟨middle, emitted, first⟩ := emit_reencodes destination byte space
      obtain ⟨after, run, second⟩ := inductionHypothesis
        (first.coreRoom (by rwa [List.length_singleton, Nat.add_comm]))
      refine ⟨after, ?_, first.trans second⟩
      rw [takes, List.map_cons, perform, Event.perform, andThen_of_true (by rw [emitted]), emitted]
      exact run

theorem perform_spellings {destination : Option Decoded} {text : Json.Text} {scan : ScanState}
    (space : CoreRoom scan text.body.length) (notNul : text.NoNul)
    (room : KeyRoom destination scan text.decoded.length) :
    ∃ after, perform (text.flatMap (spellingEvents destination)) scan = (true, after) ∧
      Reencodes destination text.body text.decoded scan after := by
  induction text generalizing scan with
  | nil => exact ⟨scan, rfl, .refl destination scan⟩
  | cons spelling text inductionHypothesis =>
      have split : Json.Text.decoded (spelling :: text) =
          scalarBytes spelling.code ++ Json.Text.decoded text := by
        rw [scalarBytes_code, Json.Text.decoded, Json.Text.scalars, List.map_cons,
          Utf8.encode_cons]
        rfl
      rw [split] at room ⊢
      rw [Json.Text.NoNul, Json.Text.scalars, List.map_cons, List.forall_mem_cons,
        spelling.scalar_toNat] at notNul
      have fits (decoded : Decoded) (given : decoded ∈ destination) (isKey : decoded.key = true) :=
        room decoded given isKey
      simp only [List.length_append] at fits
      have body : Json.Text.body (spelling :: text) = spelling.bytes ++ Json.Text.body text := rfl
      rw [body, List.length_append] at space
      have front : CoreRoom scan spelling.bytes.length :=
        space.imp_right fun holds =>
          ⟨holds.1, (Nat.add_le_add_left (Nat.le_add_right _ _) _).trans holds.2⟩
      obtain ⟨taken, took, zeroth⟩ := perform_takes destination front
      have here : KeyRoom destination taken (scalarBytes spelling.code).length :=
        fun decoded given isKey => by
          have fits := fits decoded given isKey
          rw [zeroth.key decoded given isKey, List.append_nil]
          omega
      obtain ⟨middle, kept, first⟩ := decodedScalar_reencodes notNul.1 here
      have step : Reencodes destination spelling.bytes (scalarBytes spelling.code) scan middle := by
        simpa using zeroth.trans first
      have later : KeyRoom destination middle (Json.Text.decoded text).length :=
        fun decoded given isKey => by
          have fits := fits decoded given isKey
          rw [step.key decoded given isKey, List.length_append]
          omega
      obtain ⟨after, run, second⟩ := inductionHypothesis (step.coreRoom space) notNul.2 later
      refine ⟨after, ?_, body ▸ step.trans second⟩
      rw [List.flatMap_cons, spellingEvents, List.append_assoc]
      refine perform_append_iff.mpr ⟨taken, took, ?_⟩
      exact perform_append_iff.mpr ⟨middle, by
        rw [perform, Event.perform, andThen_of_true (by rw [kept]), kept]
        rfl, run⟩

/-- The raw bytes of a text between quotes: accepted exactly if they are well formed, and then
handed on as they are. -/
theorem string_raw (raw : Raw bytes) {ending : Errno} (clean : scan.error = 0)
    (space : CoreRoom scan (bytes.length + 2)) (room : KeyRoom destination scan bytes.length) :
    let run := string Stream.source destination
      (position ending (ascii '"' :: (bytes ++ ascii '"' :: rest)) scan)
    (run.1 = true ↔ PlainText bytes) ∧
      (PlainText bytes → ∃ after, run = (true, position ending rest after) ∧
        Reencodes destination (ascii '"' :: (bytes ++ [ascii '"'])) bytes scan after) := by
  intro run
  have accepted : PlainText bytes → ∃ after, run = (true, position ending rest after) ∧
      Reencodes destination (ascii '"' :: (bytes ++ [ascii '"'])) bytes scan after := by
    rintro ⟨scalars, notNul, rfl⟩
    obtain ⟨text, body, rfl⟩ := exists_text_of_raw raw
    rw [← body] at space
    have first : CoreRoom scan (1 + (text.body.length + 1)) := by
      rwa [Nat.add_comm 1, Nat.add_assoc]
    obtain ⟨opened, opens, quote⟩ := @perform_takes destination [ascii '"'] scan
      (first.imp_right fun ⟨core, fits⟩ => ⟨core, by rw [List.length_singleton]; omega⟩)
    have open_ : KeyRoom destination opened text.decoded.length := fun decoded given isKey => by
      rw [quote.key decoded given isKey, List.append_nil]
      exact room decoded given isKey
    have inside := quote.coreRoom first
    obtain ⟨middle, performed, spelled⟩ := @perform_spellings destination text opened
      (inside.imp_right fun ⟨core, fits⟩ => ⟨core, by omega⟩) notNul open_
    obtain ⟨after, closes, closed⟩ := @perform_takes destination [ascii '"'] middle
      (spelled.coreRoom inside)
    have reencodes : Reencodes destination (ascii '"' :: (text.body ++ [ascii '"'])) text.decoded
        scan after := by
      simpa using quote.trans (spelled.trans closed)
    rw [body] at reencodes
    have whole : perform (textEvents destination text) scan = (true, after) :=
      perform_append_iff.mpr ⟨opened, opens, perform_append_iff.mpr ⟨middle, performed, closes⟩⟩
    have ran := @Exact.complete _ _ _ (exact_string destination) ending (textEvents destination text)
      rest scan after true clean ⟨rfl, text, rfl⟩ whole
    refine ⟨after, ?_, reencodes⟩
    rw [← ran, consumed_textEvents, Json.Text.token, body]
    simp only [run, List.cons_append, List.append_assoc, List.nil_append]
  refine ⟨⟨fun succeeded => ?_, fun plain => ?_⟩, accepted⟩
  · obtain ⟨trace, behind, _, _, split, ⟨_, text, rfl⟩, _⟩ :=
      (exact_string destination).sound clean rfl (string_clean Stream.source succeeded)
    rw [consumed_textEvents, Json.Text.token, List.cons_append, List.append_assoc] at split
    obtain ⟨encoded, -⟩ := text_of_raw raw (List.cons.inj split).2.symm
    refine ⟨text.scalars, fun c member zero => ?_, encoded.symm⟩
    obtain ⟨byte, spelled⟩ : ∃ byte, byte ∈ String.utf8EncodeChar c ∧ byte.toNat = 0 := by
      refine ⟨.ofNat c.toNat, ?_, ?_⟩
      · rw [Utf8.encodeChar_small (by omega)]
        exact List.mem_singleton_self _
      · rw [zero]
        rfl
    have printable := (raw byte (by
      rw [encoded]
      exact List.mem_flatMap.mpr ⟨c, member, spelled.1⟩)).1
    omega
  · obtain ⟨after, ran, -⟩ := accepted plain
    rw [ran]

/-! ### The log -/

/-- The log finds the boundary that `utf8_prefix` of the output budget finds. -/
theorem log_utf8Prefix_eq {scalars : List Char} (notNul : ∀ c ∈ scalars, c.toNat ≠ 0)
    (within : count ≤ (Utf8.encode scalars).length) :
    count - min count 3 +
        Log.utf8Prefix (((Utf8.encode scalars).take count).drop (count - min count 3)) =
      (utf8Prefix ((Utf8.encode scalars).take count) true).2 := by
  have window : count - min count 3 = count - 3 := by omega
  have found := congrArg List.length (Log.take_utf8Prefix within)
  have inside := Log.utf8Prefix_le (((Utf8.encode scalars).take count).drop (count - 3))
  rw [List.length_append, List.length_take, List.length_take_of_le inside, List.length_take,
    Nat.min_eq_left within, Nat.min_eq_left (Nat.sub_le count 3)] at found
  rw [utf8Prefix_take notNul, window]
  exact found

/-- All three on the same bytes. -/
theorem utf8_routines_agree (s : List Byte) :
    ((utf8Prefix s false).1 = true ↔ PlainText s) ∧
    (∀ scalars, (∀ c ∈ scalars, c.toNat ≠ 0) → s <+: Utf8.encode scalars →
      ∃ kept, Utf8.LongestWithin s.length scalars kept ∧
        utf8Prefix s true = (true, (Utf8.encode kept).length)) ∧
    (Raw s → ∀ destination ending rest scan, scan.error = 0 → CoreRoom scan (s.length + 2) →
      KeyRoom destination scan s.length →
        ((string Stream.source destination
            (position ending (ascii '"' :: (s ++ ascii '"' :: rest)) scan)).1 = true ↔
          (utf8Prefix s false).1 = true) ∧
        ((utf8Prefix s false).1 = true → ∃ after,
          string Stream.source destination
              (position ending (ascii '"' :: (s ++ ascii '"' :: rest)) scan) =
            (true, position ending rest after) ∧
          Reencodes destination (ascii '"' :: (s ++ [ascii '"'])) s scan after)) ∧
    (PlainText s → ∀ p, p ≤ s.length →
      p - min p 3 + Log.utf8Prefix ((s.take p).drop (p - min p 3)) =
        (utf8Prefix (s.take p) true).2) := by
  refine ⟨utf8Prefix_accepts_iff s, ?_, ?_, ?_⟩
  · intro scalars notNul isPrefix
    refine ⟨_, Utf8.cut_longest s.length scalars, ?_⟩
    nth_rewrite 1 [List.prefix_iff_eq_take.mp isPrefix]
    exact utf8Prefix_take notNul s.length
  · intro raw destination ending rest scan clean space room
    rw [utf8Prefix_accepts_iff]
    exact string_raw raw clean space room
  · rintro ⟨scalars, notNul, rfl⟩ p within
    exact log_utf8Prefix_eq notNul within

/-- The scanner in front of a text. -/
def textScan (capture : Capture) : ScanState :=
  { core := [], limit := 64, capture := capture
    output := { value := some [], state := .complete, format := .text }
    metrics := {}, values := 0, outputValues := 0, error := 0, key := []
    heap := ⟨fun _ => true, []⟩ }

/-- Scalars of one, two and three bytes: all of them are captured, as a text and with its quotes as
a part of the core text, and a cut in the middle of the last one is moved to where it begins. -/
theorem agree_of_threeScalars :
    (∃ after,
      string Stream.source (some { outputText := true })
          (position 0 (ascii '"' :: ([0x61, 0xc3, 0xa9, 0xe2, 0x80, 0xa6] ++ [ascii '"']))
            (textScan .discard)) = (true, position 0 [] after) ∧
      after.output.value = some [0x61, 0xc3, 0xa9, 0xe2, 0x80, 0xa6]) ∧
      (∃ after,
        string Stream.source none
            (position 0 (ascii '"' :: ([0x61, 0xc3, 0xa9, 0xe2, 0x80, 0xa6] ++ [ascii '"']))
              (textScan .core)) = (true, position 0 [] after) ∧
        after.core = ascii '"' :: ([0x61, 0xc3, 0xa9, 0xe2, 0x80, 0xa6] ++ [ascii '"'])) ∧
      utf8Prefix [0x61, 0xc3, 0xa9, 0xe2, 0x80] true = (true, 3) ∧
      2 + Log.utf8Prefix [0xa9, 0xe2, 0x80] = 3 := by
  obtain ⟨whole, -, scanner, log⟩ := utf8_routines_agree [0x61, 0xc3, 0xa9, 0xe2, 0x80, 0xa6]
  have plain : PlainText [0x61, 0xc3, 0xa9, 0xe2, 0x80, 0xa6] := whole.mp (by decide +kernel)
  obtain ⟨after, ran, reencodes⟩ := (scanner (by decide) (some { outputText := true }) 0 []
    (textScan .discard) rfl (.inl rfl) (by simp [KeyRoom])).2 (whole.mpr plain)
  obtain ⟨cored, ran', copies⟩ := (scanner (by decide) none 0 [] (textScan .core) rfl
    (.inr ⟨rfl, by decide⟩) (by simp [KeyRoom])).2 (whole.mpr plain)
  exact ⟨⟨after, ran, (reencodes.text _ rfl rfl rfl [] rfl rfl (by decide)).2⟩,
    ⟨cored, ran', copies.core⟩, by decide +kernel, log plain 5 (by decide)⟩

end IperfSwift.Output
