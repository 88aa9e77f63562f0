import IperfSwift.Lib.Bytes

/-!
Contract: standard Base64 with padding.

Owns: the alphabet, the encoder of whole blocks and the decoder that gives zeros for
padding; the shape and the length of what the encoder writes, and that the decoder
gives it back.

Does not own: line breaks, and texts that are not whole blocks.
-/

set_option autoImplicit false

namespace IperfSwift.Lib.Base64

/-- The character of a group of six bits. -/
def symbol (n : Nat) : Byte :=
  if n < 26 then .ofNat (0x41 + n)
  else if n < 52 then .ofNat (0x61 + (n - 26))
  else if n < 62 then .ofNat (0x30 + (n - 52))
  else if n = 62 then ascii '+'
  else ascii '/'

abbrev IsSymbol (byte : Byte) : Prop :=
  0x41 ≤ byte.toNat ∧ byte.toNat ≤ 0x5a ∨ 0x61 ≤ byte.toNat ∧ byte.toNat ≤ 0x7a ∨
    0x30 ≤ byte.toNat ∧ byte.toNat ≤ 0x39 ∨ byte = ascii '+' ∨ byte = ascii '/'

/-- The bits of a character. Padding stands for zeros. -/
def value (byte : Byte) : Option Nat :=
  if 0x41 ≤ byte.toNat ∧ byte.toNat ≤ 0x5a then some (byte.toNat - 0x41)
  else if 0x61 ≤ byte.toNat ∧ byte.toNat ≤ 0x7a then some (byte.toNat - 0x61 + 26)
  else if 0x30 ≤ byte.toNat ∧ byte.toNat ≤ 0x39 then some (byte.toNat - 0x30 + 52)
  else if byte = ascii '+' then some 62
  else if byte = ascii '/' then some 63
  else if byte = ascii '=' then some 0
  else none

/-- Three bytes as four characters. -/
def group (a b c : Nat) : List Byte :=
  [symbol (a / 4), symbol (a % 4 * 16 + b / 16), symbol (b % 16 * 4 + c / 64), symbol (c % 64)]

def encode : List Byte → List Byte
  | a :: b :: c :: rest => group a.toNat b.toNat c.toNat ++ encode rest
  | [a, b] => (group a.toNat b.toNat 0).take 3 ++ [ascii '=']
  | [a] => (group a.toNat 0 0).take 2 ++ [ascii '=', ascii '=']
  | [] => []

def decode : List Byte → Option (List Byte)
  | w :: x :: y :: z :: rest => do
      let w ← value w
      let x ← value x
      let y ← value y
      let z ← value z
      let rest ← decode rest
      some (.ofNat (w * 4 + x / 16) :: .ofNat (x % 16 * 16 + y / 4) :: .ofNat (y % 4 * 64 + z) ::
        rest)
  | [] => some []
  | _ => none

/-! ### The alphabet -/

theorem value_symbol {n : Nat} (small : n < 64) : value (symbol n) = some n := by
  have all : ∀ n : Fin 64, value (symbol n) = some n.val := by decide
  exact all ⟨n, small⟩

theorem isSymbol_symbol {n : Nat} (small : n < 64) : IsSymbol (symbol n) := by
  have all : ∀ n : Fin 64, IsSymbol (symbol n) := by decide
  exact all ⟨n, small⟩

theorem IsSymbol.ne_pad {byte : Byte} (isSymbol : IsSymbol byte) : byte ≠ ascii '=' := by
  rintro rfl
  revert isSymbol
  decide

theorem value_pad : value (ascii '=') = some 0 := by decide

theorem isSymbol_group {a b c : Nat} (first : a < 256) (second : b < 256) (third : c < 256)
    {byte : Byte} (member : byte ∈ group a b c) : IsSymbol byte := by
  simp only [group, List.mem_cons, List.not_mem_nil, or_false] at member
  rcases member with rfl | rfl | rfl | rfl <;> exact isSymbol_symbol (by omega)

/-! ### What the encoder writes -/

/-- How many characters of padding stand at the end. -/
def padding (length : Nat) : Nat := (3 - length % 3) % 3

/-- Characters of the alphabet, then the padding. -/
theorem encode_eq (bytes : List Byte) :
    ∃ body, encode bytes = body ++ List.replicate (padding bytes.length) (ascii '=') ∧
      (∀ byte ∈ body, IsSymbol byte) ∧
      body.length + padding bytes.length = 4 * ((bytes.length + 2) / 3) := by
  induction bytes using encode.induct with
  | case1 a b c rest inductionHypothesis =>
      obtain ⟨body, shape, symbols, length⟩ := inductionHypothesis
      have same : padding (rest.length + 1 + 1 + 1) = padding rest.length := by
        rw [padding, padding]
        omega
      refine ⟨group a.toNat b.toNat c.toNat ++ body, ?_, ?_, ?_⟩
      · rw [encode, shape, List.append_assoc, List.length_cons, List.length_cons,
          List.length_cons, same]
      · intro byte member
        rcases List.mem_append.mp member with head | tail
        · exact isSymbol_group a.toNat_lt b.toNat_lt c.toNat_lt head
        · exact symbols byte tail
      · simp only [List.length_append, List.length_cons, same, group, List.length_nil]
        omega
  | case2 a b =>
      refine ⟨(group a.toNat b.toNat 0).take 3, rfl, fun byte member => ?_, by simp [group, padding]⟩
      exact isSymbol_group a.toNat_lt b.toNat_lt (by decide) (List.mem_of_mem_take member)
  | case3 a =>
      refine ⟨(group a.toNat 0 0).take 2, rfl, fun byte member => ?_, by simp [group, padding]⟩
      exact isSymbol_group a.toNat_lt (by decide) (by decide) (List.mem_of_mem_take member)
  | case4 => exact ⟨[], rfl, nofun, rfl⟩

/-- Decoding gives the bytes back, and a zero for each character of padding. -/
theorem decode_encode (bytes : List Byte) :
    decode (encode bytes) = some (bytes ++ List.replicate (padding bytes.length) 0) := by
  induction bytes using encode.induct with
  | case1 a b c rest inductionHypothesis =>
      have first := a.toNat_lt
      have second := b.toNat_lt
      have third := c.toNat_lt
      have same : padding (rest.length + 1 + 1 + 1) = padding rest.length := by
        rw [padding, padding]
        omega
      simp only [encode, group, List.cons_append, List.nil_append, decode, inductionHypothesis,
        List.length_cons, same]
      rw [value_symbol (by omega), value_symbol (by omega), value_symbol (by omega),
        value_symbol (by omega)]
      simp only [Option.bind_eq_bind, Option.bind_some]
      rw [ofNat_eq a (by omega), ofNat_eq b (by omega), ofNat_eq c (by omega)]
  | case2 a b =>
      have first := a.toNat_lt
      have second := b.toNat_lt
      simp only [encode, group, List.take, List.cons_append, List.nil_append, decode, value_pad]
      rw [value_symbol (by omega), value_symbol (by omega), value_symbol (by omega)]
      simp only [Option.bind_eq_bind, Option.bind_some]
      rw [ofNat_eq a (by omega), ofNat_eq b (by omega), ofNat_eq 0 (by simp)]
      rfl
  | case3 a =>
      have first := a.toNat_lt
      simp only [encode, group, List.take, List.cons_append, List.nil_append, decode, value_pad]
      rw [value_symbol (by omega), value_symbol (by omega)]
      simp only [Option.bind_eq_bind, Option.bind_some]
      rw [ofNat_eq a (by omega), ofNat_eq 0 (by simp), ofNat_eq 0 (by simp)]
      rfl
  | case4 => rfl

end IperfSwift.Lib.Base64
