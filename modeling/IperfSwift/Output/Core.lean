import IperfSwift.CJson.Complete
import IperfSwift.Output.Cost

/-!
Contract: the core text of a document is a document itself.

Owns: the spelling `core_key` gives a name; the document whose bytes are the
core text; and what cJSON makes of both documents.

Does not own: when the scanner gets as far as the core text.
-/

set_option autoImplicit false

namespace IperfSwift.Output

open IperfSwift.Lib
open IperfSwift.CJson

variable {ν : Type}

/-! ### Names -/

theorem controlHex_spelled : ∀ code < 0x20,
    ([ascii '0', ascii '0', hexDigit (code >>> 4), hexDigit (code &&& 15)] : List Byte).map
      Json.hexValue = [0, 0, code >>> 4, code &&& 15].map some := by
  decide

/-- The four digits `core_key` writes for a control character. -/
def controlHex (code : Nat) (control : code < 0x20) : Json.Hex4 where
  bytes := [ascii '0', ascii '0', hexDigit (code >>> 4), hexDigit (code &&& 15)]
  values := [0, 0, code >>> 4, code &&& 15]
  four := rfl
  spelled := controlHex_spelled code control

theorem controlHex_value (code : Nat) (control : code < 0x20) :
    (controlHex code control).value = code := by
  revert code
  decide

/-- The spelling `core_key` gives a scalar. -/
def coreSpelling (scalar : Char) : Json.Spelling :=
  if quote : scalar = '"' then .escape .quote
  else if backslash : scalar = '\\' then .escape .backslash
  else if control : scalar.toNat < 0x20 then
    .unicode (controlHex scalar.toNat control) (by rw [controlHex_value]; omega)
  else .raw scalar ⟨Nat.le_of_not_lt control, quote, backslash⟩

theorem coreSpelling_code (scalar : Char) : (coreSpelling scalar).code = scalar.toNat := by
  unfold coreSpelling
  split_ifs with quote backslash control
  · rw [quote]
    rfl
  · rw [backslash]
    rfl
  · exact controlHex_value scalar.toNat control
  · rfl

theorem coreSpelling_scalar (scalar : Char) : (coreSpelling scalar).scalar = scalar := by
  apply Utf8.char_eq
  rw [Json.Spelling.scalar_toNat, coreSpelling_code]

/-- A byte from 0x20 on that is neither a quote nor a backslash stands for itself. -/
theorem coreKeyByte_plain {byte : Byte} (printable : 0x20 ≤ byte.toNat)
    (noQuote : byte ≠ ascii '"') (noBackslash : byte ≠ ascii '\\') : coreKeyByte byte = [byte] := by
  have special : ¬ (byte = ascii '"' ∨ byte = ascii '\\') :=
    fun either => either.elim noQuote noBackslash
  rw [coreKeyByte, if_neg special, if_neg (Nat.not_lt.mpr printable)]

theorem coreSpelling_bytes (scalar : Char) :
    (String.utf8EncodeChar scalar).flatMap coreKeyByte = (coreSpelling scalar).bytes := by
  by_cases small : scalar.toNat < 0x80
  · have same : (UInt8.ofNat scalar.toNat).toNat = scalar.toNat := by
      rw [UInt8.toNat_ofNat']
      omega
    rw [Utf8.encodeChar_small small, List.flatMap_singleton, coreSpelling]
    split_ifs with quote backslash control
    · rw [quote]
      rfl
    · rw [backslash]
      rfl
    · have noQuote : ¬ (UInt8.ofNat scalar.toNat = ascii '"' ∨
          UInt8.ofNat scalar.toNat = ascii '\\') := by
        rintro (isQuote | isBackslash)
        · exact quote (Utf8.char_eq (same.symm.trans (congrArg UInt8.toNat isQuote)))
        · exact backslash (Utf8.char_eq (same.symm.trans (congrArg UInt8.toNat isBackslash)))
      rw [coreKeyByte, if_neg noQuote, same, if_pos control]
      rfl
    · rw [Json.Spelling.bytes, Utf8.encodeChar_small small]
      refine coreKeyByte_plain (by omega) (fun isQuote => quote ?_) (fun isBackslash => backslash ?_)
      · exact Utf8.char_eq (same.symm.trans (congrArg UInt8.toNat isQuote))
      · exact Utf8.char_eq (same.symm.trans (congrArg UInt8.toNat isBackslash))
  · have large := Nat.le_of_not_lt small
    have plain : ∀ byte ∈ String.utf8EncodeChar scalar, coreKeyByte byte = [byte] := by
      intro byte member
      have byteLarge := Utf8.encodeChar_large large byte member
      refine coreKeyByte_plain (by omega) ?_ ?_ <;> rintro rfl <;> exact absurd byteLarge (by decide)
    have isRaw : coreSpelling scalar =
        .raw scalar ⟨by omega, fun quote => small (quote ▸ by decide),
          fun backslash => small (backslash ▸ by decide)⟩ := by
      unfold coreSpelling
      split_ifs with quote backslash control
      · exact absurd (quote ▸ by decide) small
      · exact absurd (backslash ▸ by decide) small
      · omega
      · rfl
    rw [isRaw, Json.Spelling.bytes, List.flatMap_congr plain, List.flatMap_singleton']

/-- A name as the core text spells it. -/
def coreName (text : Json.Text) : Json.Text := text.scalars.map coreSpelling

theorem coreName_scalars (text : Json.Text) : (coreName text).scalars = text.scalars := by
  rw [Json.Text.scalars, coreName, List.map_map]
  exact (List.map_congr_left fun scalar _ => coreSpelling_scalar scalar).trans (List.map_id _)

theorem coreName_decoded (text : Json.Text) : (coreName text).decoded = text.decoded := by
  rw [Json.Text.decoded, coreName_scalars, Json.Text.decoded]

theorem coreName_body (text : Json.Text) :
    (coreName text).body = text.decoded.flatMap coreKeyByte := by
  rw [Json.Text.body, coreName, Json.Text.decoded, Utf8.encode, List.flatMap_map,
    List.flatMap_assoc]
  exact List.flatMap_congr fun scalar _ => (coreSpelling_bytes scalar).symm

/-! ### The core document -/

/-- A member as the core text spells it. -/
def respelled (member : Json.Member) : Json.Member where
  key := ⟨coreName member.key.text, Json.Space.none, Json.Space.none⟩
  value := member.value.compact
  after := Json.Space.none

theorem respelled_bytes (member : Json.Member) : (respelled member).bytes = memberText member := by
  simp [Json.Member.bytes, Json.Key.bytes, Json.Text.token, respelled, coreName_body, memberText,
    coreKeyText, memberName, Json.Space.none]

/-- What is handed to cJSON, as a document. -/
def coreDocument (document : Json.Document) : Json.Document :=
  .ofList ((coreMembers document.memberList).map respelled)

theorem coreDocument_memberList (document : Json.Document) : (coreDocument document).memberList =
    (coreMembers document.memberList).map respelled :=
  Json.Document.memberList_ofList _

theorem coreDocument_text (document : Json.Document) :
    (coreDocument document).value.bytes = coreText document := by
  have text : ∀ member, ascii ',' :: (respelled member).bytes = ascii ',' :: memberText member :=
    fun member => congrArg _ (respelled_bytes member)
  unfold coreDocument coreText
  cases coreMembers document.memberList with
  | nil => rfl
  | cons first rest =>
      show ascii '{' :: ([] ++ ((Json.Members.ofList (respelled first)
        (rest.map respelled)).items.bytes ++ [ascii '}'])) = _
      rw [Json.Members.items_bytes, Json.Members.ofList_bytes, respelled_bytes, List.flatMap_map]
      simp only [text, joined, List.nil_append]

theorem coreDocument_depth {document : Json.Document} {limit : Nat}
    (shallow : ∀ member ∈ document.memberList, member.value.depth ≤ limit) :
    (coreDocument document).value.depth ≤ limit + 1 := by
  apply Json.Document.value_depth_le
  rw [coreDocument_memberList, List.forall_mem_map]
  intro member core
  show member.value.compact.depth ≤ limit
  rw [Json.Value.compact_depth]
  exact shallow member (List.mem_of_mem_filter core)

theorem coreDocument_numbers {document : Json.Document} {property : Json.Number → Prop}
    (all : ∀ member ∈ document.memberList, ∀ number ∈ member.value.numbers, property number) :
    ∀ number ∈ (coreDocument document).value.numbers, property number := by
  rw [Json.Document.value_numbers, coreDocument_memberList, List.flatMap_map]
  intro number found
  obtain ⟨member, core, here⟩ := List.mem_flatMap.mp found
  rw [show (respelled member).value = member.value.compact from rfl,
    Json.Value.compact_numbers] at here
  exact all member (List.mem_of_mem_filter core) number here

/-- The tree without the members that carry server output. -/
def withoutOutput : Node ν → Node ν
  | .object members => .object (members.filter fun member => !isOutput member.1)
  | node => node

/-- Reading the core text drops the output members of the whole tree and nothing else. -/
theorem tree_coreDocument (convert : List Byte → ν) (document : Json.Document) :
    tree convert (coreDocument document).value = withoutOutput (tree convert document.value) := by
  have sameTree : ∀ member, ((respelled member).key.text.decoded,
      tree convert (respelled member).value) = (memberName member, tree convert member.value) :=
    fun member => Prod.ext (coreName_decoded member.key.text) (tree_compact convert member.value)
  rw [tree_document, tree_document, coreDocument_memberList, List.map_map, withoutOutput,
    List.filter_map]
  exact congrArg Node.object (List.map_congr_left fun member _ => sameTree member)

end IperfSwift.Output
