import IperfSwift.CJson.Node
import Mathlib.Data.Rat.Floor

/-!
Contract: the lookups and type tests of cJSON on a finished tree.

Owns: the number of a node as `valuedouble` and `valueint`;
`cJSON_GetObjectItemCaseSensitive`, `cJSON_IsNumber` and `cJSON_IsObject`; and
when a number is a small integer.

Does not own: how a tree comes about.
-/

set_option autoImplicit false

namespace IperfSwift.CJson

open IperfSwift.Lib

/-! ### Numbers -/

/-- What `strtod` gives for a JSON number, which is never a NaN. -/
inductive Double where
  | finite (value : ℚ)
  | infinite (negative : Bool)
deriving DecidableEq

/-- `valueint`: the number without its fraction, saturated. -/
def Double.valueint : Double → Int
  | .finite value =>
      if 2 ^ 63 ≤ value then 2 ^ 63 - 1
      else if value ≤ -2 ^ 63 then -2 ^ 63
      else value.num.tdiv value.den
  | .infinite negative => if negative then -2 ^ 63 else 2 ^ 63 - 1

/-- `valueint` as a `double` again. It is exact but for the largest value, which no field may
have. -/
def Double.ofInt (value : Int) : Double := .finite value

theorem valueint_ofInt {value : Int} (large : -2 ^ 63 < value) (small : value < 2 ^ 63) :
    (Double.ofInt value).valueint = value := by
  have notHuge : ¬ ((2 : ℚ) ^ 63 ≤ (value : ℚ)) := by
    rw [not_le]
    exact_mod_cast small
  have notTiny : ¬ ((value : ℚ) ≤ -2 ^ 63) := by
    rw [not_le]
    exact_mod_cast large
  rw [Double.ofInt, Double.valueint, if_neg notHuge, if_neg notTiny]
  simp

/-- A number that equals its own `valueint` is an integer. -/
theorem integer_iff {number : Double} {low high : Int} (large : -2 ^ 63 < low)
    (small : high < 2 ^ 63) :
    (number = .ofInt number.valueint ∧ low ≤ number.valueint ∧ number.valueint ≤ high) ↔
      ∃ value, number = .ofInt value ∧ low ≤ value ∧ value ≤ high := by
  constructor
  · rintro ⟨same, above, below⟩
    exact ⟨number.valueint, same, above, below⟩
  · rintro ⟨value, rfl, above, below⟩
    rw [valueint_ofInt (by omega) (by omega)]
    exact ⟨rfl, above, below⟩

/-! ### Items -/

variable {ν : Type}

/-- What the string functions of C see of some bytes. -/
def cString (bytes : List Byte) : List Byte := bytes.takeWhile (· ≠ 0)

/-- `cJSON_GetObjectItemCaseSensitive`. The children of an array have no names. -/
def getObjectItemCaseSensitive (object : Node ν) (name : List Byte) : Option (Node ν) :=
  match object with
  | .object members =>
      (members.find? fun member => decide (cString member.1 = name)).map Prod.snd
  | _ => none

/-- `cJSON_IsNumber`. -/
def isNumber : Option (Node ν) → Bool
  | some (.number _) => true
  | _ => false

/-- `cJSON_IsObject`. -/
def isObjectNode : Node ν → Bool
  | .object _ => true
  | _ => false

/-- `item->valuedouble`, which is read behind `cJSON_IsNumber` only. -/
def valuedouble : Option (Node Double) → Double
  | some (.number number) => number
  | _ => .finite 0

/-- `item->valueint`. -/
def valueint (item : Option (Node Double)) : Int := (valuedouble item).valueint

theorem isNumber_iff {item : Option (Node Double)} :
    isNumber item = true ↔ item = some (.number (valuedouble item)) := by
  cases item with
  | none => simp [isNumber]
  | some node => cases node <;> simp [isNumber, valuedouble]

/-- An item that is an integer in a range. -/
theorem integerItem_iff {item : Option (Node Double)} {low high : Int} (large : -2 ^ 63 < low)
    (small : high < 2 ^ 63) :
    (isNumber item = true ∧ valuedouble item = .ofInt (valueint item) ∧ low ≤ valueint item ∧
        valueint item ≤ high) ↔
      ∃ value, item = some (.number (.ofInt value)) ∧ low ≤ value ∧ value ≤ high := by
  rw [isNumber_iff, valueint, integer_iff large small]
  constructor
  · rintro ⟨number, value, same, range⟩
    rw [same] at number
    exact ⟨value, number, range⟩
  · rintro ⟨value, rfl, range⟩
    exact ⟨rfl, value, rfl, range⟩

end IperfSwift.CJson
