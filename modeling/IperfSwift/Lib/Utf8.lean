import IperfSwift.Lib.Bytes

/-!
Contract: UTF-8 as a prefix code on Unicode scalars.

Owns: the lead and continuation byte tables, the agreement of reading a
sequence with `String.utf8EncodeChar` in both directions, and the unique
decomposition of a text into scalars.

A scalar is a `Char`; its bytes are `String.utf8EncodeChar`.
-/

set_option autoImplicit false

namespace IperfSwift.Lib.Utf8

/-- What a lead byte announces: how many continuation bytes follow, the bits it
contributes, and the least scalar that needs this width. -/
structure Lead where
  following : Nat
  payload : Nat
  minimum : Nat
deriving DecidableEq, Repr

/-- The lead bytes of two, three and four byte sequences. -/
def lead (byte : Byte) : Option Lead :=
  if 0xc2 ≤ byte.toNat ∧ byte.toNat ≤ 0xdf then some ⟨1, byte.toNat &&& 0x1f, 0x80⟩
  else if 0xe0 ≤ byte.toNat ∧ byte.toNat ≤ 0xef then some ⟨2, byte.toNat &&& 0x0f, 0x800⟩
  else if 0xf0 ≤ byte.toNat ∧ byte.toNat ≤ 0xf4 then some ⟨3, byte.toNat &&& 0x07, 0x10000⟩
  else none

def IsTail (byte : Byte) : Prop := 0x80 ≤ byte.toNat ∧ byte.toNat ≤ 0xbf

instance (byte : Byte) : Decidable (IsTail byte) := inferInstanceAs (Decidable (_ ∧ _))

/-- Append the six bits of a continuation byte. -/
def push (scalar : Nat) (byte : Byte) : Nat := (scalar <<< 6) ||| (byte.toNat &&& 0x3f)

/-- A scalar of the announced width: not overlong, in range, not a surrogate. -/
def IsScalar (minimum scalar : Nat) : Prop :=
  minimum ≤ scalar ∧ scalar ≤ 0x10ffff ∧ ¬ (0xd800 ≤ scalar ∧ scalar ≤ 0xdfff)

instance (minimum scalar : Nat) : Decidable (IsScalar minimum scalar) :=
  inferInstanceAs (Decidable (_ ∧ _))

theorem push_eq (scalar : Nat) (byte : Byte) : push scalar byte = scalar * 64 + byte.toNat % 64 := by
  unfold push
  rw [show byte.toNat &&& 0x3f = byte.toNat % 64 from Nat.and_two_pow_sub_one_eq_mod _ 6,
    ← Nat.shiftLeft_add_eq_or_of_lt (Nat.mod_lt _ (by decide)), Nat.shiftLeft_eq]

private theorem and_fiveBits (n : Nat) : n &&& 0x1f = n % 32 := Nat.and_two_pow_sub_one_eq_mod _ 5
private theorem and_fourBits (n : Nat) : n &&& 0x0f = n % 16 := Nat.and_two_pow_sub_one_eq_mod _ 4
private theorem and_threeBits (n : Nat) : n &&& 0x07 = n % 8 := Nat.and_two_pow_sub_one_eq_mod _ 3

/-- The bits of a tail byte. -/
theorem tail_bits (bits : Nat) : 0x80 ||| bits &&& 0x3f = 0x80 + bits % 64 := by
  rw [Nat.and_two_pow_sub_one_eq_mod bits 6]
  exact (Nat.two_pow_add_eq_or_of_lt (Nat.mod_lt bits (by decide : 0 < 2 ^ 6)) 2).symm

theorem char_range (c : Char) : c.toNat < 0xd800 ∨ 0xdfff < c.toNat ∧ c.toNat < 0x110000 := c.valid

theorem isScalar_toNat (c : Char) : IsScalar 0 c.toNat := by
  have range := char_range c
  simp only [IsScalar]
  omega

/-- The encoding by width, with the redundant masks of the definition gone. -/
theorem encodeChar_eq (c : Char) : String.utf8EncodeChar c =
    if c.toNat ≤ 0x7f then [.ofNat c.toNat]
    else if c.toNat ≤ 0x7ff then [.ofNat (0xc0 + c.toNat / 64), .ofNat (0x80 + c.toNat % 64)]
    else if c.toNat ≤ 0xffff then
      [.ofNat (0xe0 + c.toNat / 4096), .ofNat (0x80 + c.toNat / 64 % 64),
        .ofNat (0x80 + c.toNat % 64)]
    else [.ofNat (0xf0 + c.toNat / 262144), .ofNat (0x80 + c.toNat / 4096 % 64),
        .ofNat (0x80 + c.toNat / 64 % 64), .ofNat (0x80 + c.toNat % 64)] := by
  have range := char_range c
  simp only [String.utf8EncodeChar, Char.toNat_val]
  split_ifs with one two three
  · rfl
  · rw [Nat.mod_eq_of_lt (by omega), Nat.add_comm, Nat.add_comm (_ % _)]
  · rw [Nat.mod_eq_of_lt (by omega), Nat.add_comm, Nat.add_comm (_ % _), Nat.add_comm (_ % _)]
  · rw [Nat.mod_eq_of_lt (by omega), Nat.add_comm, Nat.add_comm (_ % _), Nat.add_comm (_ % _),
      Nat.add_comm (_ % _)]

/-- Reading the bytes of a scalar from 0x80 on gives the scalar back. -/
theorem encodeChar_multibyte (c : Char) (large : 0x80 ≤ c.toNat) :
    ∃ first rest info, String.utf8EncodeChar c = first :: rest ∧ lead first = some info ∧
      rest.length = info.following ∧ (∀ byte ∈ rest, IsTail byte) ∧
      rest.foldl push info.payload = c.toNat ∧ IsScalar info.minimum c.toNat := by
  have range := char_range c
  rw [encodeChar_eq, if_neg (by omega)]
  split_ifs with two three
  · refine ⟨_, _, ⟨1, c.toNat / 64, 0x80⟩, rfl, ?_, rfl, ?_, ?_, ?_⟩
    · simp only [lead, and_fiveBits, UInt8.toNat_ofNat']
      rw [if_pos (by omega)]
      congr 2
      omega
    · simp only [List.mem_singleton, forall_eq, IsTail, UInt8.toNat_ofNat']
      omega
    · simp only [List.foldl, push_eq, UInt8.toNat_ofNat']
      omega
    · simp only [IsScalar]
      omega
  · refine ⟨_, _, ⟨2, c.toNat / 4096, 0x800⟩, rfl, ?_, rfl, ?_, ?_, ?_⟩
    · simp only [lead, and_fourBits, and_fiveBits, UInt8.toNat_ofNat']
      rw [if_neg (by omega), if_pos (by omega)]
      congr 2
      omega
    · simp only [List.mem_cons, List.not_mem_nil, or_false, forall_eq_or_imp, forall_eq, IsTail,
        UInt8.toNat_ofNat']
      omega
    · simp only [List.foldl, push_eq, UInt8.toNat_ofNat']
      omega
    · simp only [IsScalar]
      omega
  · refine ⟨_, _, ⟨3, c.toNat / 262144, 0x10000⟩, rfl, ?_, rfl, ?_, ?_, ?_⟩
    · simp only [lead, and_fourBits, and_fiveBits, and_threeBits, UInt8.toNat_ofNat']
      rw [if_neg (by omega), if_neg (by omega), if_pos (by omega)]
      congr 2
      omega
    · simp only [List.mem_cons, List.not_mem_nil, or_false, forall_eq_or_imp, forall_eq, IsTail,
        UInt8.toNat_ofNat']
      omega
    · simp only [List.foldl, push_eq, UInt8.toNat_ofNat']
      omega
    · simp only [IsScalar]
      omega

theorem toNat_ofNat {scalar minimum : Nat} (valid : IsScalar minimum scalar) :
    (Char.ofNat scalar).toNat = scalar := by
  have isValid : scalar.isValidChar := by
    simp only [IsScalar] at valid
    simp only [Nat.isValidChar]
    omega
  rw [Char.ofNat, dif_pos isValid]
  rfl

/-- Every sequence that passes the checks is the encoding of a scalar. -/
theorem encodeChar_of_multibyte {first : Byte} {rest : List Byte} {info : Lead}
    (leads : lead first = some info) (length : rest.length = info.following)
    (tails : ∀ byte ∈ rest, IsTail byte)
    (valid : IsScalar info.minimum (rest.foldl push info.payload)) :
    ∃ c : Char, c.toNat = rest.foldl push info.payload ∧ 0x80 ≤ c.toNat ∧
      String.utf8EncodeChar c = first :: rest := by
  have same := toNat_ofNat valid
  generalize Char.ofNat (rest.foldl push info.payload) = c at same
  refine ⟨c, same, ?_⟩
  rw [← same] at valid
  rw [encodeChar_eq]
  simp only [lead] at leads
  split_ifs at leads with two three four
  · obtain rfl := Option.some.inj leads
    obtain ⟨a, rfl⟩ := List.length_eq_one_iff.mp length
    simp only [List.mem_singleton, forall_eq, IsTail] at tails
    simp only [IsScalar] at valid
    simp only [List.foldl, push_eq, and_fiveBits] at same
    refine ⟨by omega, ?_⟩
    rw [if_neg (by omega), if_pos (by omega), ofNat_eq first (by omega),
      ofNat_eq a (by omega)]
  · obtain rfl := Option.some.inj leads
    obtain ⟨a, b, rfl⟩ := List.length_eq_two.mp length
    simp only [List.mem_cons, List.not_mem_nil, or_false, forall_eq_or_imp, forall_eq,
      IsTail] at tails
    simp only [IsScalar] at valid
    simp only [List.foldl, push_eq, and_fourBits] at same
    refine ⟨by omega, ?_⟩
    rw [if_neg (by omega), if_neg (by omega), if_pos (by omega),
      ofNat_eq first (by omega), ofNat_eq a (by omega),
      ofNat_eq b (by omega)]
  · obtain rfl := Option.some.inj leads
    obtain ⟨a, b, d, rfl⟩ := List.length_eq_three.mp length
    simp only [List.mem_cons, List.not_mem_nil, or_false, forall_eq_or_imp, forall_eq,
      IsTail] at tails
    simp only [IsScalar] at valid
    simp only [List.foldl, push_eq, and_threeBits] at same
    refine ⟨by omega, ?_⟩
    rw [if_neg (by omega), if_neg (by omega), if_neg (by omega),
      ofNat_eq first (by omega), ofNat_eq a (by omega),
      ofNat_eq b (by omega), ofNat_eq d (by omega)]

theorem encodeChar_small {c : Char} (small : c.toNat < 0x80) :
    String.utf8EncodeChar c = [.ofNat c.toNat] := by
  rw [encodeChar_eq, if_pos (by omega)]

/-- A scalar from 0x80 on has no byte of ASCII. -/
theorem encodeChar_large {c : Char} (large : 0x80 ≤ c.toNat) :
    ∀ byte ∈ String.utf8EncodeChar c, 0x80 ≤ byte.toNat := by
  have range := char_range c
  rw [encodeChar_eq]
  intro byte member
  split_ifs at member with one two three
  · omega
  all_goals
    simp only [List.mem_cons, List.not_mem_nil, or_false] at member
    rcases member with rfl | rfl | rfl | rfl <;> rw [UInt8.toNat_ofNat'] <;> omega

theorem lead_of_small {byte : Byte} (small : byte.toNat < 0x80) : lead byte = none := by
  simp only [lead]
  rw [if_neg (by omega), if_neg (by omega), if_neg (by omega)]

theorem char_eq {c d : Char} (same : c.toNat = d.toNat) : c = d :=
  Char.toNat_inj.mp same

/-! ### Texts -/

/-- The bytes of a sequence of scalars. -/
def encode (scalars : List Char) : List Byte := scalars.flatMap String.utf8EncodeChar

@[simp] theorem encode_nil : encode [] = [] := rfl

@[simp] theorem encode_cons (c : Char) (rest : List Char) :
    encode (c :: rest) = String.utf8EncodeChar c ++ encode rest := by
  simp [encode]

@[simp] theorem encode_append (left right : List Char) :
    encode (left ++ right) = encode left ++ encode right := by
  simp [encode]

/-- The bytes are the encoding of some sequence of scalars. -/
def WellFormed (bytes : List Byte) : Prop := ∃ scalars, encode scalars = bytes

end IperfSwift.Lib.Utf8
