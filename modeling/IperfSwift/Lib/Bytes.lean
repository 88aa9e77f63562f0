import Mathlib.Tactic

/-!
Contract: bytes, ASCII text as bytes, and the C locale's case folding.
-/

set_option autoImplicit false

namespace IperfSwift.Lib

abbrev Byte := UInt8

-- Bytes and characters are finite types, but a list of them is checked along the list.
instance (priority := 1100) forallMemDecidable {α : Type} (p : α → Prop) [DecidablePred p]
    (list : List α) : Decidable (∀ x ∈ list, p x) :=
  List.decidableBAll p list

instance (priority := 1100) existsMemDecidable {α : Type} (p : α → Prop) [DecidablePred p]
    (list : List α) : Decidable (∃ x ∈ list, p x) :=
  List.decidableBEx p list

/-- The byte of an ASCII character. -/
abbrev ascii (c : Char) : Byte := .ofNat c.toNat

/-- The bytes of an ASCII text. -/
def bytesOf (text : String) : List Byte := text.toList.map ascii

/-- `tolower` of the C locale. -/
def lower (byte : Byte) : Byte :=
  if 0x41 ≤ byte.toNat ∧ byte.toNat ≤ 0x5a then byte + 0x20 else byte

/-- `strcasecmp(left, right) == 0` for texts without a terminator inside. -/
def sameIgnoringCase (left right : List Byte) : Bool := left.map lower = right.map lower

theorem ofNat_eq (byte : Byte) {n : Nat} (same : n = byte.toNat) : UInt8.ofNat n = byte := by
  rw [same, UInt8.ofNat_toNat]

end IperfSwift.Lib
