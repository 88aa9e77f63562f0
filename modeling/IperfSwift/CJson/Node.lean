import IperfSwift.Lib.Bytes

/-!
Contract: the tree cJSON builds and prints.

A `struct cJSON` carries its type, its payload and, inside an object, its name.
`Node` keeps those and drops the list links. Numbers are an arbitrary type:
parsing and printing take the conversions as parameters.
-/

set_option autoImplicit false

namespace IperfSwift.CJson

open IperfSwift.Lib

/-- `sizeof(cJSON)` with eight-byte pointers. -/
def nodeSize : Nat := 64

/-- `CJSON_NESTING_LIMIT`. -/
def nestingLimit : Nat := 1000

inductive Node (ν : Type) where
  | null
  | bool (value : Bool)
  | number (number : ν)
  | string (bytes : List Byte)
  | raw (bytes : List Byte)
  | array (children : List (Node ν))
  | object (members : List (List Byte × Node ν))

end IperfSwift.CJson
