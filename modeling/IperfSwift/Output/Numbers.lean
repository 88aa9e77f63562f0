import IperfSwift.Output.Tokens

/-!
Contract: `number` reads exactly the numbers of JSON, up to their length.

Owns: the exact specification of `number`, with the condition on what may
follow: the scanner takes the longest number there is.
-/

set_option autoImplicit false

namespace IperfSwift.Output

open IperfSwift.Lib
open IperfSwift.Lib.Program

variable {α τ : Type}

/-! ### Loops with a fixed allowance -/

/-- At most so many passes, and `spent` if they were not enough. -/
def Within (pass : τ → Spec (Step τ α)) (spent : α) : Nat → τ → Spec α
  | 0, _ => Returns spent
  | allowance + 1, carried => (pass carried).bind fun step =>
      match step with
      | .again next => Within pass spent allowance next
      | .done result => Returns result

theorem exact_loop {body : τ → Program (Parser Stream) (Step τ α)} {pass : τ → Spec (Step τ α)}
    (bodyExact : ∀ carried, Exact (body carried) (pass carried)) (spent : α) (allowance : Nat)
    (carried : τ) : Exact (loop body spent allowance carried)
      (Within pass spent allowance carried) := by
  induction allowance generalizing carried with
  | zero => exact exact_pure spent
  | succ allowance inductionHypothesis =>
      refine exact_bind (bodyExact carried) fun step => ?_
      cases step with
      | again next => exact inductionHypothesis next
      | done result => exact exact_pure result

/-! ### Digits -/

/-- The next byte is a digit. -/
def AtDigit (rest : List Byte) : Prop := ∃ byte ∈ rest.head?, Json.IsDigit byte

@[simp] theorem atDigit_cons (byte : Byte) (rest : List Byte) :
    AtDigit (byte :: rest) ↔ Json.IsDigit byte := by
  simp [AtDigit]

theorem exact_atDigit : Exact (atDigit Stream.source)
    (fun result trace rest => (result = true ↔ AtDigit rest) ∧ trace = []) := by
  refine Exact.congr (exact_bind exact_peek fun found => show Exact _
    (Returns (found.elim false fun byte => decide (Json.IsDigit byte))) by
      cases found <;> exact exact_pure _)
    fun result trace rest => ?_
  constructor
  · rintro ⟨_, _, _, rfl, ⟨rfl, rfl⟩, rfl, rfl⟩
    cases rest <;> simp [AtDigit]
  · rintro ⟨agrees, rfl⟩
    refine ⟨rest.head?, [], [], rfl, ⟨rfl, rfl⟩, ?_, rfl⟩
    cases rest with
    | nil => simpa [AtDigit] using agrees
    | cons byte rest =>
        rw [atDigit_cons] at agrees
        cases result <;> simp_all

/-- One pass of a digit loop. -/
def DigitPass (count : Nat) : Spec (Step Nat (Option Nat)) := fun result trace rest =>
  ∃ byte, trace = [.take byte] ∧ count + 1 ≤ resultMaxNumberLength ∧
    ((AtDigit rest ∧ result = .again (count + 1)) ∨
      (¬ AtDigit rest ∧ result = .done (some (count + 1))))

theorem exact_digitPass (count : Nat) :
    Exact (digitPass Stream.source count) (DigitPass count) := by
  refine Exact.congr (exact_bind exact_take fun _ => exact_ite
    (fun _ => exact_bind (exact_fail (by decide)) fun _ => exact_pure _)
    (fun _ => exact_bind exact_atDigit fun more => exact_pure _)) fun result trace rest => ?_
  constructor
  · rintro ⟨_, _, _, rfl, ⟨byte, rfl, rfl⟩, ⟨-, _, _, _, -, never, -⟩ |
      ⟨fits, more, _, _, rfl, ⟨agrees, rfl⟩, rfl, rfl⟩⟩
    · exact never.elim
    · refine ⟨byte, rfl, Nat.le_of_not_lt fits, ?_⟩
      cases more with
      | true => exact .inl ⟨agrees.mp rfl, rfl⟩
      | false => exact .inr ⟨fun digit => Bool.noConfusion (agrees.mpr digit), rfl⟩
  · rintro ⟨byte, rfl, fits, ⟨digit, rfl⟩ | ⟨noDigit, rfl⟩⟩
    · exact ⟨_, [.take byte], [], rfl, ⟨byte, rfl, rfl⟩, .inr ⟨Nat.not_lt_of_le fits, true, [], [],
        rfl, ⟨⟨fun _ => digit, fun _ => rfl⟩, rfl⟩, rfl, rfl⟩⟩
    · exact ⟨_, [.take byte], [], rfl, ⟨byte, rfl, rfl⟩, .inr ⟨Nat.not_lt_of_le fits, false, [], [],
        rfl, ⟨⟨Bool.noConfusion, fun digit => absurd digit noDigit⟩, rfl⟩, rfl, rfl⟩⟩

/-- A run of a digit loop. Its first byte was looked at before the loop. -/
def DigitRuns (start count : Nat) (trace : List Event) (rest : List Byte) : Prop :=
  ∃ (first : Byte) (bytes : List Byte), trace = takes (first :: bytes) ∧
    (∀ byte ∈ bytes, Json.IsDigit byte) ∧ ¬ AtDigit rest ∧ count = start + 1 + bytes.length ∧
    count ≤ resultMaxNumberLength

theorem within_digitPass {allowance start : Nat} (enough : resultMaxNumberLength ≤ start + allowance)
    (result : Option Nat) (trace : List Event) (rest : List Byte) :
    Within DigitPass none (allowance + 1) start result trace rest ↔
      Yields (DigitRuns start) result trace rest := by
  induction allowance generalizing start result trace with
  | zero =>
      constructor
      · rintro ⟨step, _, _, rfl, ⟨byte, rfl, fits, ⟨-, rfl⟩ | ⟨noDigit, rfl⟩⟩, later⟩
        · omega
        · omega
      · rintro ⟨_, rfl, first, bytes, -, -, -, rfl, fits⟩
        omega
  | succ allowance inductionHypothesis =>
      have laterIff : ∀ result trace,
          Within DigitPass none (allowance + 1) (start + 1) result trace rest ↔
            Yields (DigitRuns (start + 1)) result trace rest :=
        fun result trace => inductionHypothesis (by omega) result trace
      constructor
      · rintro ⟨step, _, after, rfl, ⟨byte, rfl, fits, ⟨digit, rfl⟩ | ⟨noDigit, rfl⟩⟩, later⟩
        · obtain ⟨count, rfl, first, bytes, rfl, isDigits, stops, rfl, fits'⟩ :=
            (laterIff _ _).mp later
          rw [consumed_takes, List.cons_append, atDigit_cons] at digit
          refine ⟨_, rfl, byte, first :: bytes, rfl, ?_, stops, ?_, fits'⟩
          · intro other member
            rcases List.mem_cons.mp member with rfl | inTail
            · exact digit
            · exact isDigits other inTail
          · rw [List.length_cons]
            omega
        · obtain ⟨rfl, rfl⟩ := later
          exact ⟨_, rfl, byte, [], rfl, by simp, noDigit, rfl, fits⟩
      · rintro ⟨count, rfl, byte, bytes, rfl, isDigits, stops, rfl, fits⟩
        cases bytes with
        | nil =>
            exact ⟨.done (some (start + 1)), [.take byte], [], rfl,
              ⟨byte, rfl, fits, .inr ⟨stops, rfl⟩⟩, rfl, rfl⟩
        | cons first bytes =>
            rw [List.length_cons] at fits ⊢
            refine ⟨.again (start + 1), [.take byte], takes (first :: bytes), rfl,
              ⟨byte, rfl, by omega, .inl ⟨?_, rfl⟩⟩, (laterIff _ _).mpr ?_⟩
            · rw [consumed_takes, List.cons_append, atDigit_cons]
              exact isDigits first (List.mem_cons_self ..)
            · refine ⟨_, rfl, first, bytes, rfl, ?_, stops, by omega, by omega⟩
              exact fun other member => isDigits other (List.mem_cons_of_mem _ member)

theorem exact_digits (count : Nat) :
    Exact (digits Stream.source count) (Yields (DigitRuns count)) :=
  (exact_loop exact_digitPass none _ count).congr
    (within_digitPass (Nat.le_add_left _ _))

/-- The digits that `number` insists on. -/
def RequiredRuns (start count : Nat) (trace : List Event) (rest : List Byte) : Prop :=
  ∃ digits : Json.Digits, trace = takes digits.val ∧ ¬ AtDigit rest ∧
    count = start + digits.val.length ∧ count ≤ resultMaxNumberLength

theorem exact_requiredDigits (start : Nat) :
    Exact (requiredDigits Stream.source start) (Yields (RequiredRuns start)) := by
  refine Exact.congr (exact_bind exact_atDigit fun more => exact_ite (fun _ => exact_digits start)
    (fun _ => exact_noScalar)) fun result trace rest => ?_
  constructor
  · rintro ⟨more, _, _, rfl, ⟨agrees, rfl⟩, ⟨isMore, count, rfl, first, bytes, rfl, isDigits, stops,
      rfl, fits⟩ | ⟨-, never⟩⟩
    · have digit := agrees.mp isMore
      rw [consumed_takes, List.cons_append, atDigit_cons] at digit
      refine ⟨_, rfl, ⟨first :: bytes, List.cons_ne_nil _ _, ?_⟩, rfl, stops, ?_, fits⟩
      · intro byte member
        rcases List.mem_cons.mp member with rfl | inTail
        · exact digit
        · exact isDigits byte inTail
      · rw [List.length_cons]
        omega
    · exact never.elim
  · rintro ⟨count, rfl, ⟨bytes, nonempty, isDigits⟩, rfl, stops, rfl, fits⟩
    obtain ⟨first, bytes, rfl⟩ := List.exists_cons_of_ne_nil nonempty
    have digit := isDigits first (List.mem_cons_self ..)
    rw [List.length_cons] at fits ⊢
    refine ⟨true, [], takes (first :: bytes), rfl, ⟨⟨fun _ => ?_, fun _ => rfl⟩, rfl⟩,
      .inl ⟨rfl, _, rfl, first, bytes, rfl, ?_, stops, by omega, fits⟩⟩
    · rw [consumed_takes, List.cons_append, atDigit_cons]
      exact digit
    · exact fun byte member => isDigits byte (List.mem_cons_of_mem _ member)

/-! ### Optional bytes -/

/-- The next byte, if there is one, is none of these. -/
def Avoids (bytes rest : List Byte) : Prop := ∀ byte ∈ rest.head?, byte ∉ bytes

theorem exact_optionalByte (wanted : List Byte) (count : Nat) :
    Exact (optionalByte Stream.source wanted count) (fun result trace rest =>
      (∃ byte ∈ wanted, result = (true, count + 1) ∧ trace = [.take byte]) ∨
        (result = (false, count) ∧ trace = [] ∧ Avoids wanted rest)) := by
  -- The look-ahead decides which byte `take` consumes, so the branches keep it.
  refine Exact.congr (exact_bind exact_peek fun found => show Exact _ (fun result trace _ =>
      (∃ byte, found = some byte ∧ byte ∈ wanted ∧ result = (true, count + 1) ∧
          ∃ taken, trace = [.take taken]) ∨
        ((∀ byte ∈ found, byte ∉ wanted) ∧ result = (false, count) ∧ trace = [])) from ?_)
    fun result trace rest => ?_
  · cases found with
    | none =>
        exact (exact_pure _).congr fun _ _ _ => by simp [Returns]
    | some byte =>
        by_cases member : byte ∈ wanted
        · simp only [member, if_true]
          refine Exact.congr (exact_bind exact_take fun _ => exact_pure _) fun result trace rest => ?_
          constructor
          · rintro ⟨_, _, _, rfl, ⟨taken, rfl, rfl⟩, rfl, rfl⟩
            exact .inl ⟨byte, rfl, member, rfl, taken, rfl⟩
          · rintro (⟨_, -, -, rfl, taken, rfl⟩ | ⟨avoided, -⟩)
            · exact ⟨_, [.take taken], [], rfl, ⟨taken, rfl, rfl⟩, rfl, rfl⟩
            · exact absurd member (avoided byte rfl)
        · simp only [member, if_false]
          exact (exact_pure _).congr fun _ _ _ => by simp [Returns, member]
  constructor
  · rintro ⟨_, _, _, rfl, ⟨rfl, rfl⟩, ⟨byte, found, member, rfl, taken, rfl⟩ |
      ⟨avoided, rfl, rfl⟩⟩
    · obtain rfl : taken = byte := by simpa [Event.consumed] using found
      exact .inl ⟨taken, member, rfl, rfl⟩
    · exact .inr ⟨rfl, rfl, avoided⟩
  · rintro (⟨byte, member, rfl, rfl⟩ | ⟨rfl, rfl, avoided⟩)
    · exact ⟨some byte, [], [.take byte], rfl, ⟨rfl, rfl⟩, .inl ⟨byte, rfl, member, rfl, byte, rfl⟩⟩
    · exact ⟨rest.head?, [], [], rfl, ⟨rfl, rfl⟩, .inr ⟨avoided, rfl, rfl⟩⟩

/-- A single zero, or digits that do not start with one. -/
def WholeRuns (start count : Nat) (trace : List Event) (rest : List Byte) : Prop :=
  (trace = [.take (ascii '0')] ∧ count = start + 1) ∨
    (RequiredRuns start count trace rest ∧ Avoids [ascii '0'] (consumed trace ++ rest))

theorem exact_wholeDigits (start : Nat) :
    Exact (wholeDigits Stream.source start) (Yields (WholeRuns start)) := by
  refine Exact.congr (exact_bind (exact_optionalByte [ascii '0'] start) fun zero =>
    exact_ite (fun _ => exact_pure _) (fun _ => exact_requiredDigits start))
    fun result trace rest => ?_
  constructor
  · rintro ⟨_, _, _, rfl, ⟨byte, member, rfl, rfl⟩ | ⟨rfl, rfl, avoided⟩,
      ⟨taken, held⟩ | ⟨notTaken, held⟩⟩
    · obtain ⟨rfl, rfl⟩ := held
      rw [List.mem_singleton.mp member]
      exact ⟨_, rfl, .inl ⟨rfl, rfl⟩⟩
    · exact absurd rfl notTaken
    · cases taken
    · obtain ⟨count, rfl, runs⟩ := held
      exact ⟨count, rfl, .inr ⟨runs, avoided⟩⟩
  · rintro ⟨count, rfl, ⟨rfl, rfl⟩ | ⟨runs, avoided⟩⟩
    · exact ⟨(true, start + 1), [.take (ascii '0')], [], rfl,
        .inl ⟨_, List.mem_singleton_self _, rfl, rfl⟩, .inl ⟨rfl, rfl, rfl⟩⟩
    · exact ⟨(false, start), [], trace, rfl, .inr ⟨rfl, rfl, avoided⟩,
        .inr ⟨Bool.noConfusion, count, rfl, runs⟩⟩

/-- Nothing, or a marker with an optional sign and digits. -/
def PartRuns (wanted sign : List Byte) (start count : Nat) (trace : List Event)
    (rest : List Byte) : Prop :=
  (trace = [] ∧ count = start ∧ Avoids wanted rest) ∨
    ∃ (marker : Byte) (signed : Option Byte) (digits : Json.Digits), marker ∈ wanted ∧
      (∀ byte ∈ signed, byte ∈ sign) ∧
      trace = takes (marker :: (signed.toList ++ digits.val)) ∧ ¬ AtDigit rest ∧
      count = start + (marker :: (signed.toList ++ digits.val)).length ∧
      count ≤ resultMaxNumberLength

/-- What digits avoid depends on the first of them. -/
theorem avoids_digits {wanted rest : List Byte} (digits : Json.Digits)
    (other : ∀ byte, Json.IsDigit byte ∧ digits.val.head? = some byte → byte ∉ wanted) :
    Avoids wanted (digits.val ++ rest) := by
  obtain ⟨bytes, nonempty, isDigits⟩ := digits
  obtain ⟨first, bytes, rfl⟩ := List.exists_cons_of_ne_nil nonempty
  rintro byte found
  obtain rfl : first = byte := by simpa using found
  exact other first ⟨isDigits first (List.mem_cons_self ..), rfl⟩

theorem exact_optionalPart {wanted sign : List Byte}
    (noDigitSign : ∀ byte ∈ sign, ¬ Json.IsDigit byte) (start : Nat) :
    Exact (optionalPart Stream.source wanted sign start) (Yields (PartRuns wanted sign start)) := by
  refine Exact.congr (exact_bind (exact_optionalByte wanted start) fun started =>
    exact_ite (fun _ => exact_bind (exact_optionalByte sign started.2) fun signed =>
      exact_requiredDigits signed.2) (fun _ => exact_pure _)) fun result trace rest => ?_
  constructor
  · rintro ⟨_, _, _, rfl, ⟨marker, isMarker, rfl, rfl⟩ | ⟨rfl, rfl, avoided⟩,
      ⟨taken, held⟩ | ⟨notTaken, held⟩⟩
    · obtain ⟨_, _, _, rfl, signRun, count, rfl, digits, rfl, stops, rfl, fits⟩ := held
      rcases signRun with ⟨byte, isSign, rfl, rfl⟩ | ⟨rfl, rfl, -⟩
      · refine ⟨_, rfl, .inr ⟨marker, some byte, digits, isMarker, ?_, rfl, stops, ?_, fits⟩⟩
        · intro other found
          rw [← Option.mem_some_iff.mp found]
          exact isSign
        · simp only [Option.toList_some, List.length_cons, List.length_append, List.length_nil]
          omega
      · refine ⟨_, rfl, .inr ⟨marker, none, digits, isMarker, by simp, rfl, stops, ?_, fits⟩⟩
        simp only [Option.toList_none, List.length_cons, List.length_append, List.length_nil]
        omega
    · exact absurd rfl notTaken
    · cases taken
    · obtain ⟨rfl, rfl⟩ := held
      exact ⟨start, rfl, .inl ⟨rfl, rfl, avoided⟩⟩
  · rintro ⟨count, rfl, ⟨rfl, rfl, avoided⟩ |
      ⟨marker, signed, digits, isMarker, isSign, rfl, stops, rfl, fits⟩⟩
    · exact ⟨(false, count), [], [], rfl, .inr ⟨rfl, rfl, avoided⟩, .inr ⟨Bool.noConfusion, rfl, rfl⟩⟩
    · refine ⟨(true, start + 1), [.take marker], takes (signed.toList ++ digits.val), rfl,
        .inl ⟨marker, isMarker, rfl, rfl⟩, .inl ⟨rfl, ?_⟩⟩
      cases signed with
      | some byte =>
          rw [Option.toList_some, List.length_cons, List.length_append, List.length_singleton]
            at fits ⊢
          exact ⟨(true, start + 1 + 1), [.take byte], takes digits.val, rfl,
            .inl ⟨byte, isSign byte rfl, rfl, rfl⟩, _, rfl, digits, rfl, stops, by omega, fits⟩
      | none =>
          rw [Option.toList_none, List.nil_append, List.length_cons] at fits ⊢
          refine ⟨(false, start + 1), [], takes digits.val, rfl, .inr ⟨rfl, rfl, ?_⟩, _, rfl,
            digits, rfl, stops, by omega, fits⟩
          rw [consumed_takes]
          exact avoids_digits digits fun byte isDigit member => noDigitSign byte member isDigit.1

/-! ### Numbers -/

/-- The bytes behind a number do not continue it. -/
def NumberStops (number : Json.Number) (rest : List Byte) : Prop :=
  match number.exponent, number.fraction with
  | some _, _ => ¬ AtDigit rest
  | none, some _ => Avoids [ascii 'e', ascii 'E'] rest ∧ ¬ AtDigit rest
  | none, none => Avoids [ascii 'e', ascii 'E'] rest ∧ Avoids [ascii '.'] rest ∧
      (number.whole.val ≠ [ascii '0'] → ¬ AtDigit rest)

/-- The sign of a number. -/
theorem exact_sign : Exact (optionalByte Stream.source [ascii '-'] 0) (fun result trace rest =>
    ∃ negative : Bool, let sign := if negative then [ascii '-'] else []
      trace = takes sign ∧ result = (negative, sign.length) ∧
        (negative = false → Avoids [ascii '-'] rest)) := by
  refine (exact_optionalByte _ _).congr fun result trace rest => ?_
  constructor
  · rintro (⟨byte, member, rfl, rfl⟩ | ⟨rfl, rfl, avoided⟩)
    · rw [List.mem_singleton.mp member]
      exact ⟨true, rfl, rfl, Bool.noConfusion⟩
    · exact ⟨false, rfl, rfl, fun _ => avoided⟩
  · rintro ⟨negative, rfl, rfl, avoided⟩
    cases negative with
    | true => exact .inl ⟨_, List.mem_singleton_self _, rfl, rfl⟩
    | false => exact .inr ⟨rfl, rfl, avoided rfl⟩

/-- The digits before the point, as the grammar has them. -/
theorem wholeRuns_iff (start count : Nat) (trace : List Event) (rest : List Byte) :
    WholeRuns start count trace rest ↔ ∃ digits : Json.Digits,
      (digits.val.head? = some (ascii '0') → digits.val = [ascii '0']) ∧
      trace = takes digits.val ∧ (digits.val ≠ [ascii '0'] → ¬ AtDigit rest ∧
        count ≤ resultMaxNumberLength) ∧ count = start + digits.val.length := by
  constructor
  · rintro (⟨rfl, rfl⟩ | ⟨⟨digits, rfl, stops, rfl, fits⟩, avoided⟩)
    · exact ⟨⟨[ascii '0'], List.cons_ne_nil _ _, by decide⟩, fun _ => rfl, rfl,
        fun other => absurd rfl other, rfl⟩
    · refine ⟨digits, fun zero => absurd (List.mem_singleton_self _) (avoided (ascii '0') ?_), rfl,
        fun _ => ⟨stops, fits⟩, rfl⟩
      rw [consumed_takes]
      obtain ⟨bytes, nonempty, isDigits⟩ := digits
      obtain ⟨first, bytes, rfl⟩ := List.exists_cons_of_ne_nil nonempty
      simpa using zero
  · rintro ⟨⟨bytes, nonempty, isDigits⟩, noLeadingZero, rfl, stops, rfl⟩
    by_cases zero : bytes = [ascii '0']
    · subst zero
      exact .inl ⟨rfl, rfl⟩
    · obtain ⟨notDigit, fits⟩ := stops zero
      refine .inr ⟨⟨⟨bytes, nonempty, isDigits⟩, rfl, notDigit, rfl, fits⟩, ?_⟩
      rw [consumed_takes]
      refine avoids_digits ⟨bytes, nonempty, isDigits⟩ fun byte isFirst member => ?_
      exact zero (noLeadingZero (List.mem_singleton.mp member ▸ isFirst.2))

/-- The part behind the point. -/
theorem fractionRuns_iff (start count : Nat) (trace : List Event) (rest : List Byte) :
    PartRuns [ascii '.'] [] start count trace rest ↔ ∃ fraction : Option Json.Digits,
      let bytes := match fraction with
        | none => []
        | some digits => ascii '.' :: digits.val
      trace = takes bytes ∧ count = start + bytes.length ∧
        (fraction = none → Avoids [ascii '.'] rest) ∧
        (fraction ≠ none → ¬ AtDigit rest ∧ count ≤ resultMaxNumberLength) := by
  constructor
  · rintro (⟨rfl, rfl, avoided⟩ | ⟨marker, signed, digits, isMarker, isSign, rfl, stops, rfl, fits⟩)
    · exact ⟨none, rfl, rfl, fun _ => avoided, fun other => absurd rfl other⟩
    · obtain rfl : signed = none := by
        cases signed with
        | none => rfl
        | some byte => exact absurd (isSign byte rfl) (List.not_mem_nil)
      rw [List.mem_singleton.mp isMarker] at fits ⊢
      exact ⟨some digits, rfl, rfl, fun impossible => absurd impossible (Option.some_ne_none _),
        fun _ => ⟨stops, fits⟩⟩
  · rintro ⟨fraction, rfl, rfl, avoided, stops⟩
    cases fraction with
    | none => exact .inl ⟨rfl, rfl, avoided rfl⟩
    | some digits =>
        obtain ⟨notDigit, fits⟩ := stops (Option.some_ne_none _)
        exact .inr ⟨_, none, digits, List.mem_singleton_self _, by simp, rfl, notDigit, rfl, fits⟩

/-- The exponent. -/
theorem exponentRuns_iff (start count : Nat) (trace : List Event) (rest : List Byte) :
    PartRuns [ascii 'e', ascii 'E'] [ascii '+', ascii '-'] start count trace rest ↔
      ∃ exponent : Option Json.Exponent,
        let bytes := match exponent with
          | none => []
          | some exponent => exponent.bytes
        trace = takes bytes ∧ count = start + bytes.length ∧
          (exponent = none → Avoids [ascii 'e', ascii 'E'] rest) ∧
          (exponent ≠ none → ¬ AtDigit rest ∧ count ≤ resultMaxNumberLength) := by
  constructor
  · rintro (⟨rfl, rfl, avoided⟩ | ⟨marker, signed, digits, isMarker, isSign, rfl, stops, rfl, fits⟩)
    · exact ⟨none, rfl, rfl, fun _ => avoided, fun other => absurd rfl other⟩
    · refine ⟨some ⟨marker, by simpa using isMarker, signed, fun byte found => by
        simpa using isSign byte found, digits⟩, rfl, rfl,
        fun impossible => absurd impossible (Option.some_ne_none _), fun _ => ⟨stops, fits⟩⟩
  · rintro ⟨exponent, rfl, rfl, avoided, stops⟩
    cases exponent with
    | none => exact .inl ⟨rfl, rfl, avoided rfl⟩
    | some exponent =>
        obtain ⟨notDigit, fits⟩ := stops (Option.some_ne_none _)
        refine .inr ⟨exponent.marker, exponent.sign, exponent.digits, ?_, ?_, rfl, notDigit, rfl,
          fits⟩
        · simpa using exponent.isMarker
        · intro byte found
          simpa using exponent.isSign byte found

theorem noDigitSign : ∀ byte ∈ [ascii '+', ascii '-'], ¬ Json.IsDigit byte := by decide

/-- A digit run in front of something that is no digit. -/
theorem avoids_minus_digits (digits : Json.Digits) (rest : List Byte) :
    Avoids [ascii '-'] (digits.val ++ rest) := by
  refine avoids_digits digits fun byte isDigit member => ?_
  rw [List.mem_singleton.mp member] at isDigit
  exact absurd isDigit.1 (by decide)

/-- The specification of `number` part by part. -/
theorem exact_numberParts : Exact (number Stream.source) (Succeeds fun trace rest =>
    ∃ (negative : Bool) (wholeTrace fractionTrace exponentTrace : List Event)
      (whole fraction exponent : Nat),
      let sign := if negative then [ascii '-'] else []
      trace = takes sign ++ (wholeTrace ++ (fractionTrace ++ exponentTrace)) ∧
      (negative = false → Avoids [ascii '-']
        (consumed (wholeTrace ++ (fractionTrace ++ exponentTrace)) ++ rest)) ∧
      WholeRuns sign.length whole wholeTrace (consumed (fractionTrace ++ exponentTrace) ++ rest) ∧
      PartRuns [ascii '.'] [] whole fraction fractionTrace (consumed exponentTrace ++ rest) ∧
      PartRuns [ascii 'e', ascii 'E'] [ascii '+', ascii '-'] fraction exponent exponentTrace rest) := by
  refine Exact.congr (exact_bind exact_sign fun minus =>
    exact_bind_option (exact_wholeDigits minus.2) (exact_pure _) fun whole =>
      exact_bind_option (exact_optionalPart (by simp) whole) (exact_pure _) fun fraction =>
        exact_bind_option (exact_optionalPart noDigitSign fraction) (exact_pure _) fun _ =>
          exact_bind exact_errorNow fun error => exact_pure _) fun result trace rest => ?_
  constructor
  · rintro ⟨_, _, _, rfl, ⟨negative, rfl, rfl, avoided⟩, whole, wholeTrace, _, rfl, wholeRuns,
      fraction, fractionTrace, _, rfl, fractionRuns, exponent, exponentTrace, _, rfl, exponentRuns,
      _, _, _, rfl, ⟨rfl, rfl⟩, rfl, rfl⟩
    simp only [List.append_nil] at avoided wholeRuns fractionRuns exponentRuns ⊢
    exact ⟨rfl, negative, wholeTrace, fractionTrace, exponentTrace, whole, fraction, exponent, rfl,
      avoided, wholeRuns, fractionRuns, exponentRuns⟩
  · rintro ⟨rfl, negative, wholeTrace, fractionTrace, exponentTrace, whole, fraction, exponent, rfl,
      avoided, wholeRuns, fractionRuns, exponentRuns⟩
    exact ⟨_, _, _, rfl, ⟨negative, rfl, rfl, avoided⟩, whole, wholeTrace, _, rfl, wholeRuns,
      fraction, fractionTrace, exponentTrace, rfl, fractionRuns, exponent, exponentTrace, [],
      (List.append_nil _).symm, exponentRuns, 0, [], [], rfl, ⟨rfl, rfl⟩, rfl, rfl⟩

theorem not_atDigit_exponent (exponent : Json.Exponent) (rest : List Byte) :
    ¬ AtDigit (exponent.bytes ++ rest) := by
  change ¬ AtDigit (exponent.marker :: _)
  rw [atDigit_cons]
  rcases exponent.isMarker with marker | marker <;> rw [marker] <;> decide

theorem avoids_point_exponent (exponent : Json.Exponent) (rest : List Byte) :
    Avoids [ascii '.'] (exponent.bytes ++ rest) := by
  intro byte found
  obtain rfl : exponent.marker = byte := Option.some.inj found
  rcases exponent.isMarker with marker | marker <;> rw [marker] <;> decide

theorem not_atDigit_point (bytes rest : List Byte) : ¬ AtDigit (ascii '.' :: bytes ++ rest) := by
  rw [List.cons_append, atDigit_cons]
  decide

/-- The parts of a number, one behind the other. -/
theorem consumed_parts (fraction exponent : List Byte) (rest : List Byte) :
    consumed (takes fraction ++ takes exponent) ++ rest = fraction ++ (exponent ++ rest) := by
  rw [consumed_append, consumed_takes, consumed_takes, List.append_assoc]

theorem number_of_parts {negative : Bool} {trace wholeTrace fractionTrace exponentTrace : List Event}
    {whole fraction exponent : Nat} {rest : List Byte}
    (traceIs : trace = takes (if negative then [ascii '-'] else []) ++
      (wholeTrace ++ (fractionTrace ++ exponentTrace)))
    (wholeRuns : WholeRuns (if negative then [ascii '-'] else []).length whole wholeTrace
      (consumed (fractionTrace ++ exponentTrace) ++ rest))
    (fractionRuns : PartRuns [ascii '.'] [] whole fraction fractionTrace
      (consumed exponentTrace ++ rest))
    (exponentRuns : PartRuns [ascii 'e', ascii 'E'] [ascii '+', ascii '-'] fraction exponent
      exponentTrace rest) :
    ∃ number : Json.Number, trace = takes number.bytes ∧
      number.bytes.length ≤ resultMaxNumberLength ∧ NumberStops number rest := by
  obtain ⟨digits, noLeadingZero, rfl, wholeStops, rfl⟩ := (wholeRuns_iff _ _ _ _).mp wholeRuns
  obtain ⟨fractionPart, rfl, rfl, noPoint, fractionStops⟩ :=
    (fractionRuns_iff _ _ _ _).mp fractionRuns
  obtain ⟨exponentPart, rfl, rfl, noMarker, exponentStops⟩ :=
    (exponentRuns_iff _ _ _ _).mp exponentRuns
  rw [consumed_parts] at wholeStops
  rw [consumed_takes] at noPoint fractionStops
  have signShort : (if negative then [ascii '-'] else []).length ≤ 1 := by
    cases negative <;> decide
  refine ⟨⟨negative, digits, noLeadingZero, fractionPart, exponentPart⟩, ?_, ?_, ?_⟩
  · simp only [Json.Number.bytes, takes_append] at traceIs ⊢
    exact traceIs
  · have total : (Json.Number.bytes
        ⟨negative, digits, noLeadingZero, fractionPart, exponentPart⟩).length =
        (if negative then [ascii '-'] else []).length + digits.val.length +
          (match fractionPart with | none => [] | some digits => ascii '.' :: digits.val).length +
          (match exponentPart with | none => [] | some exponent => exponent.bytes).length := by
      rw [Json.Number.bytes, List.length_append, List.length_append, List.length_append,
        ← Nat.add_assoc, ← Nat.add_assoc]
      rfl
    rw [total]
    cases exponentPart with
    | some exponent => exact (exponentStops (Option.some_ne_none _)).2
    | none =>
        cases fractionPart with
        | some digits => exact (fractionStops (Option.some_ne_none _)).2
        | none =>
            by_cases zero : digits.val = [ascii '0']
            · rw [zero]
              simp only [List.length_nil, List.length_singleton, resultMaxNumberLength]
              omega
            · exact (wholeStops zero).2
  · cases exponentPart with
    | some exponent => exact (exponentStops (Option.some_ne_none _)).1
    | none =>
        cases fractionPart with
        | some digits => exact ⟨noMarker rfl, (fractionStops (Option.some_ne_none _)).1⟩
        | none => exact ⟨noMarker rfl, noPoint rfl, fun notZero => (wholeStops notZero).1⟩

theorem parts_of_number {number : Json.Number} {rest : List Byte}
    (fits : number.bytes.length ≤ resultMaxNumberLength) (stops : NumberStops number rest) :
    WholeRuns number.signBytes.length (number.signBytes.length + number.whole.val.length)
        (takes number.whole.val)
        (consumed (takes number.fractionBytes ++ takes number.exponentBytes) ++ rest) ∧
      PartRuns [ascii '.'] [] (number.signBytes.length + number.whole.val.length)
        (number.signBytes.length + number.whole.val.length + number.fractionBytes.length)
        (takes number.fractionBytes) (consumed (takes number.exponentBytes) ++ rest) ∧
      PartRuns [ascii 'e', ascii 'E'] [ascii '+', ascii '-']
        (number.signBytes.length + number.whole.val.length + number.fractionBytes.length)
        (number.signBytes.length + number.whole.val.length + number.fractionBytes.length +
          number.exponentBytes.length) (takes number.exponentBytes) rest := by
  rw [Json.Number.bytes, List.length_append, List.length_append, List.length_append,
    ← Nat.add_assoc, ← Nat.add_assoc] at fits
  have fractionFits : number.signBytes.length + number.whole.val.length +
      number.fractionBytes.length ≤ resultMaxNumberLength := (Nat.le_add_right _ _).trans fits
  have wholeFits : number.signBytes.length + number.whole.val.length ≤ resultMaxNumberLength :=
    (Nat.le_add_right _ _).trans fractionFits
  obtain ⟨negative, whole, noLeadingZero, fraction, exponent⟩ := number
  rw [consumed_parts, consumed_takes]
  refine ⟨(wholeRuns_iff _ _ _ _).mpr ⟨whole, noLeadingZero, rfl, fun notZero => ⟨?_, wholeFits⟩,
      rfl⟩,
    (fractionRuns_iff _ _ _ _).mpr ⟨fraction, rfl, rfl, ?_, fun present => ⟨?_, fractionFits⟩⟩,
    (exponentRuns_iff _ _ _ _).mpr ⟨exponent, rfl, rfl, ?_, fun present => ⟨?_, fits⟩⟩⟩
  · cases fraction with
    | some digits => exact not_atDigit_point _ _
    | none =>
        cases exponent with
        | some exponent => exact not_atDigit_exponent _ _
        | none => exact stops.2.2 notZero
  · rintro rfl
    cases exponent with
    | some exponent => exact avoids_point_exponent _ _
    | none => exact stops.2.1
  · cases exponent with
    | some exponent => exact not_atDigit_exponent _ _
    | none =>
        cases fraction with
        | some digits => exact stops.2
        | none => exact absurd rfl present
  · rintro rfl
    cases fraction with
    | some digits | none => exact stops.1
  · cases exponent with
    | some exponent => exact stops
    | none => exact absurd rfl present

/-- `number` reads exactly the numbers of JSON that are short enough. -/
theorem exact_number : Exact (number Stream.source) (Succeeds fun trace rest =>
    ∃ number : Json.Number, trace = takes number.bytes ∧
      number.bytes.length ≤ resultMaxNumberLength ∧ NumberStops number rest) := by
  refine exact_numberParts.congr fun result trace rest => ?_
  constructor
  · rintro ⟨rfl, negative, wholeTrace, fractionTrace, exponentTrace, whole, fraction, exponent,
      traceIs, -, wholeRuns, fractionRuns, exponentRuns⟩
    exact ⟨rfl, number_of_parts traceIs wholeRuns fractionRuns exponentRuns⟩
  · rintro ⟨rfl, number, rfl, fits, stops⟩
    obtain ⟨wholeRuns, fractionRuns, exponentRuns⟩ := parts_of_number fits stops
    refine ⟨rfl, number.negative, _, _, _, _, _, _, ?_, fun _ => ?_, wholeRuns, fractionRuns,
      exponentRuns⟩
    · simp only [Json.Number.bytes, takes_append]
      rfl
    · rw [consumed_append, consumed_takes, List.append_assoc]
      exact avoids_minus_digits _ _

end IperfSwift.Output
