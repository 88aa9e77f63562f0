import Mathlib.Data.List.DropRight
import Mathlib.Data.List.TakeWhile
import Mathlib.Data.Nat.Digits.Lemmas
import IperfSwift.Lib.Bytes

/-!
Contract: one format string that `snprintf` writes with and `sscanf` reads with.

Owns: the directives, decimal numbers, printing and scanning as the C standard has
them; that a scanned text is a word, and that scanning gives back what was printed
from words.

A number that does not fit into 64 bits is cut to the nearest that does.

Does not own: field widths, and conversions other than `%s` and of 64-bit integers.
-/

set_option autoImplicit false

namespace IperfSwift.Lib.Format

/-- `isspace` of the C locale. -/
def isSpace (byte : Byte) : Bool := byte = 0x20 ∨ 0x09 ≤ byte.toNat ∧ byte.toNat ≤ 0x0d

def isDigit (byte : Byte) : Bool := 0x30 ≤ byte.toNat ∧ byte.toNat ≤ 0x39

inductive Directive where
  | char (byte : Byte)
  | string
  | int64
deriving DecidableEq, Repr

/-- The directives of a format string with `%s` and `%lld`. -/
def directives : List Byte → List Directive
  | 0x25 :: 0x73 :: rest => .string :: directives rest
  | 0x25 :: 0x6c :: 0x6c :: 0x64 :: rest => .int64 :: directives rest
  | byte :: rest => .char byte :: directives rest
  | [] => []

inductive Value where
  | string (text : List Byte)
  | int64 (n : Int)
deriving DecidableEq, Repr

abbrev InRange (n : Int) : Prop := -2 ^ 63 ≤ n ∧ n < 2 ^ 63

def saturate (n : Int) : Int := max (-2 ^ 63) (min n (2 ^ 63 - 1))

/-! ### Numbers -/

def decimalNat (n : Nat) : List Byte :=
  if n = 0 then [0x30] else (Nat.digits 10 n).reverse.map fun digit => .ofNat (0x30 + digit)

def decimal : Int → List Byte
  | .ofNat n => decimalNat n
  | .negSucc n => ascii '-' :: decimalNat (n + 1)

/-- The number that the digits spell. -/
def natValue (digits : List Byte) : Nat :=
  digits.foldl (fun sum digit => sum * 10 + (digit.toNat - 0x30)) 0

/-- The digits at the front, if there are any. -/
def readNat (text : List Byte) : Option (Nat × List Byte) :=
  let digits := text.takeWhile isDigit
  if digits = [] then none else some (natValue digits, text.dropWhile isDigit)

/-- An optional sign and digits. -/
def readInt : List Byte → Option (Int × List Byte)
  | [] => none
  | first :: rest =>
      if first = ascii '-' then (readNat rest).map fun (n, rest) => (saturate (-n), rest)
      else if first = ascii '+' then (readNat rest).map fun (n, rest) => (saturate n, rest)
      else (readNat (first :: rest)).map fun (n, rest) => (saturate n, rest)

/-! ### Printing and scanning -/

/-- `snprintf` into a buffer that is large enough. -/
def print : List Directive → List Value → List Byte
  | .char byte :: format, values => byte :: print format values
  | .string :: format, .string text :: values => text ++ print format values
  | .int64 :: format, .int64 n :: values => decimal n ++ print format values
  | _, _ => []

/-- One directive of `sscanf`: what it assigns, if anything, and the rest of the text. -/
def Directive.read : Directive → List Byte → Option (Option Value × List Byte)
  | .char byte, text =>
      if isSpace byte then some (none, text.dropWhile isSpace)
      else if text.head? = some byte then some (none, text.tail)
      else none
  | .string, text =>
      let text := text.dropWhile isSpace
      let word := text.takeWhile (!isSpace ·)
      if word = [] then none else some (some (.string word), text.dropWhile (!isSpace ·))
  | .int64, text =>
      (readInt (text.dropWhile isSpace)).map fun (n, rest) => (some (.int64 n), rest)

/-- `sscanf`: the values that are assigned before the first directive that fails. -/
def scan : List Directive → List Byte → List Value
  | [], _ => []
  | directive :: format, text =>
      match directive.read text with
      | none => []
      | some (value, rest) => value.toList ++ scan format rest

/-! ### Words -/

/-- A text that `%s` reads as a whole. -/
structure IsWord (text : List Byte) : Prop where
  content : text ≠ []
  solid : ∀ byte ∈ text, isSpace byte = false

theorem Directive.read_isWord {directive : Directive} {text word rest : List Byte}
    (read : directive.read text = some (some (.string word), rest)) : IsWord word := by
  cases directive with
  | char byte =>
      rw [Directive.read] at read
      split_ifs at read
      all_goals cases read
  | string =>
      rw [Directive.read] at read
      split_ifs at read with empty
      cases read
      exact ⟨empty, fun byte inside => by simpa using List.mem_takeWhile_imp inside⟩
  | int64 =>
      obtain ⟨n, -, assigned⟩ := Option.map_eq_some_iff.mp read
      cases assigned

/-- Only words are scanned. -/
theorem isWord_of_mem_scan {format : List Directive} {text word : List Byte}
    (member : .string word ∈ scan format text) : IsWord word := by
  induction format generalizing text with
  | nil => cases member
  | cons directive format inductionHypothesis =>
      rw [scan] at member
      cases read : directive.read text with
      | none =>
          rw [read] at member
          cases member
      | some result =>
          rw [read] at member
          rcases List.mem_append.mp member with now | later
          · obtain ⟨value, rest⟩ := result
            rw [Option.mem_toList] at now
            cases now
            exact Directive.read_isWord read
          · exact inductionHypothesis later

/-! ### Scanning what was printed -/

/-- The values are of the kinds that the format asks for, texts are words and numbers fit. -/
inductive Fits : List Directive → List Value → Prop where
  | nil : Fits [] []
  | char {format : List Directive} {values : List Value} (byte : Byte) (rest : Fits format values) :
      Fits (.char byte :: format) values
  | string {format : List Directive} {values : List Value} {text : List Byte} (word : IsWord text)
      (rest : Fits format values) : Fits (.string :: format) (.string text :: values)
  | int64 {format : List Directive} {values : List Value} {n : Int} (range : InRange n)
      (rest : Fits format values) : Fits (.int64 :: format) (.int64 n :: values)

theorem Fits.chars {format : List Directive} {values : List Value} (fits : Fits format values)
    (bytes : List Byte) : Fits (bytes.map .char ++ format) values := by
  induction bytes with
  | nil => exact fits
  | cons byte bytes inductionHypothesis => exact .char byte inductionHypothesis

/-- A conversion is followed by a character that it does not read, or by nothing. -/
def Separable : List Directive → Bool
  | [] => true
  | [_] => true
  | .char _ :: format => Separable format
  | .string :: .char byte :: format => isSpace byte && Separable (.char byte :: format)
  | .int64 :: .char byte :: format => !isDigit byte && Separable (.char byte :: format)
  | _ => false

section Numbers

theorem natValue_reverse {digits : List Nat} (small : ∀ digit ∈ digits, digit < 10) :
    natValue (digits.reverse.map fun digit => .ofNat (0x30 + digit)) = Nat.ofDigits 10 digits := by
  rw [natValue, List.map_reverse, List.foldl_reverse]
  induction digits with
  | nil => rfl
  | cons digit digits inductionHypothesis =>
      have first := small digit List.mem_cons_self
      rw [List.map_cons, List.foldr_cons,
        inductionHypothesis fun other member => small other (List.mem_cons_of_mem _ member),
        Nat.ofDigits_cons, UInt8.toNat_ofNat']
      omega

theorem isDigit_decimalNat (n : Nat) : ∀ byte ∈ decimalNat n, isDigit byte = true := by
  intro byte member
  rw [decimalNat] at member
  split_ifs at member with zero
  · rw [List.mem_singleton] at member
    subst member
    decide
  · obtain ⟨digit, inside, rfl⟩ := List.mem_map.mp member
    have small : digit < 10 := Nat.digits_lt_base (by decide) (List.mem_reverse.mp inside)
    have all : ∀ d : Fin 10, isDigit (.ofNat (0x30 + d.val)) = true := by decide
    exact all ⟨digit, small⟩

theorem decimalNat_ne_nil (n : Nat) : decimalNat n ≠ [] := by
  rw [decimalNat]
  split_ifs with zero
  · exact List.cons_ne_nil _ _
  · simp [Nat.digits_ne_nil_iff_ne_zero, zero]

theorem natValue_decimalNat (n : Nat) : natValue (decimalNat n) = n := by
  rw [decimalNat]
  split_ifs with zero
  · exact zero.symm
  · rw [natValue_reverse fun digit member => Nat.digits_lt_base (by decide) member,
      Nat.ofDigits_digits]

variable {rest : List Byte}

theorem readNat_decimalNat (n : Nat) (stop : ∀ byte ∈ rest.head?, isDigit byte = false) :
    readNat (decimalNat n ++ rest) = some (n, rest) := by
  have ends : rest.takeWhile isDigit = [] ∧ rest.dropWhile isDigit = rest := by
    cases rest with
    | nil => exact ⟨rfl, rfl⟩
    | cons byte others => simp [stop byte rfl]
  rw [readNat, List.takeWhile_append_of_pos (isDigit_decimalNat n),
    List.dropWhile_append_of_pos (isDigit_decimalNat n), ends.1, ends.2, List.append_nil,
    if_neg (decimalNat_ne_nil n), natValue_decimalNat]

theorem saturate_eq {n : Int} (range : InRange n) : saturate n = n := by
  rw [saturate]
  omega

theorem readInt_decimal {n : Int} (range : InRange n)
    (stop : ∀ byte ∈ rest.head?, isDigit byte = false) :
    readInt (decimal n ++ rest) = some (n, rest) := by
  cases n with
  | ofNat n =>
      rw [decimal]
      have read := readNat_decimalNat n stop
      cases spelled : decimalNat n with
      | nil => exact absurd spelled (decimalNat_ne_nil n)
      | cons first digits =>
          have digit := isDigit_decimalNat n first (by rw [spelled]; exact List.mem_cons_self)
          have unsigned : first ≠ ascii '-' ∧ first ≠ ascii '+' := by
            constructor <;> rintro rfl <;> exact absurd digit (by decide)
          rw [spelled] at read
          rw [List.cons_append] at read ⊢
          rw [readInt, if_neg unsigned.1, if_neg unsigned.2, read]
          exact congrArg some (congrArg (·, rest) (saturate_eq range))
  | negSucc n =>
      rw [decimal, List.cons_append, readInt, if_pos rfl, readNat_decimalNat _ stop]
      exact congrArg some (congrArg (·, rest) (saturate_eq range))

theorem isWord_decimalNat (n : Nat) : IsWord (decimalNat n) := by
  refine ⟨decimalNat_ne_nil n, fun byte member => ?_⟩
  have digit := isDigit_decimalNat n byte member
  rw [isDigit, decide_eq_true_iff] at digit
  rw [isSpace, decide_eq_false_iff_not]
  rintro (rfl | space)
  · exact absurd digit (by decide)
  · omega

theorem isWord_decimal (n : Int) : IsWord (decimal n) := by
  cases n with
  | ofNat n => exact isWord_decimalNat n
  | negSucc n =>
      refine ⟨List.cons_ne_nil _ _, fun byte member => ?_⟩
      rcases List.mem_cons.mp member with rfl | later
      · decide
      · exact (isWord_decimalNat _).solid byte later

theorem zero_not_mem_decimal (n : Int) : 0 ∉ decimal n := by
  have digits (m : Nat) : 0 ∉ decimalNat m := fun member =>
    absurd (isDigit_decimalNat m 0 member) (by decide)
  cases n with
  | ofNat n => exact digits n
  | negSucc n => exact List.not_mem_cons_of_ne_of_not_mem (by decide) (digits _)

theorem decimalNat_length {n count : Nat} (positive : 0 < count) (small : n < 10 ^ count) :
    (decimalNat n).length ≤ count := by
  rw [decimalNat]
  split_ifs
  · exact positive
  · rw [List.length_map, List.length_reverse]
    exact (Nat.digits_length_le_iff (by decide) n).mpr small

/-- A sign and nineteen digits at most. -/
theorem decimal_length {n : Int} (range : InRange n) : (decimal n).length ≤ 20 := by
  cases n with
  | ofNat n =>
      rw [Int.ofNat_eq_natCast] at range
      exact (decimalNat_length (by decide) (by omega : n < 10 ^ 19)).trans (by decide)
  | negSucc n =>
      rw [decimal, List.length_cons]
      exact Nat.succ_le_succ (decimalNat_length (by decide) (by omega))

end Numbers

section RoundTrip

variable {format : List Directive} {values : List Value}

theorem IsWord.dropWhile {word : List Byte} (isWord : IsWord word) (rest : List Byte) :
    (word ++ rest).dropWhile isSpace = word ++ rest := by
  cases word with
  | nil => exact absurd rfl isWord.content
  | cons first others =>
      rw [List.cons_append, List.dropWhile_cons_of_neg]
      rw [isWord.solid first List.mem_cons_self]
      exact Bool.false_ne_true

theorem IsWord.takeWhile {word rest : List Byte} (isWord : IsWord word)
    (stop : ∀ byte ∈ rest.head?, isSpace byte = true) :
    (word ++ rest).takeWhile (!isSpace ·) = word ∧ (word ++ rest).dropWhile (!isSpace ·) = rest := by
  have solid : ∀ byte ∈ word, (!isSpace byte) = true := fun byte member => by
    rw [isWord.solid byte member, Bool.not_false]
  have ends : rest.takeWhile (!isSpace ·) = [] ∧ rest.dropWhile (!isSpace ·) = rest := by
    cases rest with
    | nil => exact ⟨rfl, rfl⟩
    | cons byte others => simp [stop byte rfl]
  rw [List.takeWhile_append_of_pos solid, List.dropWhile_append_of_pos solid, ends.1, ends.2,
    List.append_nil]
  exact ⟨rfl, rfl⟩

/-- White space before what was printed makes no difference, nor does its absence. -/
theorem scan_skip (fits : Fits format values) :
    scan format ((print format values).dropWhile isSpace) = scan format (print format values) := by
  cases fits with
  | nil => rfl
  | char byte rest =>
      by_cases space : isSpace byte = true
      · rw [scan, scan, Directive.read, Directive.read, if_pos space, if_pos space,
          List.dropWhile_idempotent]
      · rw [print, List.dropWhile_cons_of_neg space]
  | string word rest =>
      rw [print, word.dropWhile]
  | int64 range rest =>
      rw [print, (isWord_decimal _).dropWhile]

/-- A conversion meets something that it does not read. -/
theorem Separable.string (fits : Fits format values)
    (separable : Separable (.string :: format) = true) :
    ∀ byte ∈ (print format values).head?, isSpace byte = true := by
  intro byte head
  cases fits with
  | nil => cases head
  | char byte rest =>
      cases head
      exact (Bool.and_eq_true_iff.mp separable).1
  | string word rest | int64 range rest => cases separable

theorem Separable.int64 (fits : Fits format values)
    (separable : Separable (.int64 :: format) = true) :
    ∀ byte ∈ (print format values).head?, isDigit byte = false := by
  intro byte head
  cases fits with
  | nil => cases head
  | char byte rest =>
      cases head
      simpa using (Bool.and_eq_true_iff.mp separable).1
  | string word rest | int64 range rest => cases separable

theorem Separable.tail {directive : Directive}
    (separable : Separable (directive :: format) = true) : Separable format = true := by
  cases format with
  | nil => rfl
  | cons next format =>
      cases directive with
      | char byte => exact separable
      | string | int64 =>
          cases next with
          | char byte => exact (Bool.and_eq_true_iff.mp separable).2
          | string | int64 => cases separable

/-- Scanning gives the printed values back. -/
theorem scan_print (separable : Separable format = true) (fits : Fits format values) :
    scan format (print format values) = values := by
  induction fits with
  | nil => rfl
  | @char format values byte rest inductionHypothesis =>
      have later := inductionHypothesis (Separable.tail separable)
      rw [scan, print, Directive.read]
      by_cases space : isSpace byte = true
      · rw [if_pos space, List.dropWhile_cons_of_pos space]
        exact (scan_skip rest).trans later
      · rw [if_neg space, List.head?_cons, if_pos rfl]
        exact later
  | @string format values text word rest inductionHypothesis =>
      obtain ⟨taken, dropped⟩ := word.takeWhile (Separable.string rest separable)
      rw [scan, print, Directive.read, word.dropWhile, taken, dropped, if_neg word.content]
      exact congrArg _ (inductionHypothesis (Separable.tail separable))
  | @int64 format values n range rest inductionHypothesis =>
      rw [scan, print, Directive.read, (isWord_decimal n).dropWhile,
        readInt_decimal range (Separable.int64 rest separable)]
      exact congrArg _ (inductionHypothesis (Separable.tail separable))

end RoundTrip

end IperfSwift.Lib.Format
