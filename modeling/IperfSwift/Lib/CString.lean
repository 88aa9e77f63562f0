import Mathlib.Data.List.TakeWhile
import IperfSwift.Lib.Bytes

/-!
Contract: strings in memory that end with a NUL, and tokens cut out of them in place.

Owns: texts that a NUL can end; the string at an offset of a block of memory; what
`strcspn`, a NUL written into a string and `strsep` do to it, and which strings of
the same block they leave as they are.

Does not own: pointers into other blocks.
-/

set_option autoImplicit false

namespace IperfSwift.Lib

/-- A text that a NUL can end. -/
structure CString where
  bytes : List Byte
  clean : 0 ∉ bytes
deriving DecidableEq

namespace CString

/-- The string at an offset: what stands before the first NUL. -/
def stringAt (memory : List Byte) (pointer : Nat) : List Byte :=
  (memory.drop pointer).takeWhile (· ≠ 0)

/-- `strcspn(pointer, stop)` for one character to stop at. -/
def strcspn (memory : List Byte) (pointer : Nat) (stop : Byte) : Nat :=
  ((stringAt memory pointer).takeWhile (· ≠ stop)).length

/-- `strsep(&pointer, delimiter)` for one delimiter: the token, the memory and the pointer
after it. -/
def strsep (memory : List Byte) (delimiter : Byte) :
    Option Nat → Option Nat × List Byte × Option Nat
  | none => (none, memory, none)
  | some pointer =>
      let length := strcspn memory pointer delimiter
      if (stringAt memory pointer).length ≤ length then (some pointer, memory, none)
      else (some pointer, memory.set (pointer + length) 0, some (pointer + length + 1))

/-- The string at the offset is `text`. -/
structure Holds (memory : List Byte) (pointer : Nat) (text : List Byte) : Prop where
  clean : 0 ∉ text
  stored : text ++ [0] <+: memory.drop pointer

section Lists

variable {α : Type} [DecidableEq α] {stop : α} {text later : List α}

theorem takeWhile_ne_of_not_mem (absent : stop ∉ text) : text.takeWhile (· ≠ stop) = text := by
  rw [List.takeWhile_eq_self_iff]
  intro x member
  exact decide_eq_true fun same => absent (same ▸ member)

theorem takeWhile_ne_append (absent : stop ∉ text) :
    (text ++ stop :: later).takeWhile (· ≠ stop) = text := by
  rw [List.takeWhile_append_of_pos]
  · simp
  · intro x member
    exact decide_eq_true fun same => absent (same ▸ member)

end Lists

variable {memory text later : List Byte} {pointer : Nat} {delimiter : Byte}

theorem Holds.stringAt (holds : Holds memory pointer text) : stringAt memory pointer = text := by
  obtain ⟨rest, stored⟩ := holds.stored
  rw [CString.stringAt, ← stored, List.append_assoc]
  exact takeWhile_ne_append holds.clean

theorem Holds.strcspn (holds : Holds memory pointer text) (stop : Byte) :
    strcspn memory pointer stop = (text.takeWhile (· ≠ stop)).length := by
  rw [CString.strcspn, holds.stringAt]

/-- The first byte of a string, its NUL if it is empty. -/
theorem Holds.head (holds : Holds memory pointer text) :
    memory.getD pointer 0 = text.headD 0 := by
  obtain ⟨rest, stored⟩ := holds.stored
  have first : memory.getD pointer 0 = (memory.drop pointer).headD 0 := by
    rw [List.headD_eq_head?_getD, List.head?_drop, List.getD_eq_getElem?_getD]
  rw [first, ← stored]
  cases text <;> rfl

/-- A string is not touched by what is written in front of it or behind its NUL. -/
theorem Holds.of_set (holds : Holds memory pointer text) {index : Nat}
    (outside : index < pointer ∨ pointer + text.length < index) (byte : Byte) :
    Holds (memory.set index byte) pointer text := by
  refine ⟨holds.clean, ?_⟩
  rcases outside with before | behind
  · rw [List.drop_set_of_lt before]
    exact holds.stored
  · obtain ⟨rest, stored⟩ := holds.stored
    rw [List.drop_set, if_neg (by omega), ← stored, List.set_append_right _ _ (by simp; omega)]
    exact List.prefix_append _ _

/-- A NUL written into a string ends it there. -/
theorem Holds.cut {first second : List Byte} (holds : Holds memory pointer (first ++ second)) :
    Holds (memory.set (pointer + first.length) 0) pointer first := by
  obtain ⟨rest, stored⟩ := holds.stored
  refine ⟨fun member => holds.clean (List.mem_append_left _ member), ?_⟩
  rw [List.drop_set, if_neg (by omega), Nat.add_sub_cancel_left, ← stored, List.append_assoc,
    List.append_assoc, List.set_append_right _ _ (Nat.le_refl _), Nat.sub_self,
    List.prefix_append_right_inj]
  cases second with
  | nil | cons byte others => exact ⟨_, rfl⟩

/-- What follows a character of a string is a string. -/
theorem Holds.suffix {first : List Byte} {byte : Byte}
    (holds : Holds memory pointer (first ++ byte :: later)) :
    Holds memory (pointer + first.length + 1) later := by
  refine ⟨fun member => holds.clean (by simp [member]), ?_⟩
  obtain ⟨rest, stored⟩ := holds.stored
  refine ⟨rest, ?_⟩
  have shape : first ++ byte :: later ++ [0] ++ rest = (first ++ [byte]) ++ (later ++ [0] ++ rest) := by
    simp
  rw [Nat.add_assoc, ← List.drop_drop, ← stored, shape, List.drop_left' (by simp)]

/-- Without a delimiter the rest of the string is the token. -/
theorem Holds.strsep_last (holds : Holds memory pointer text) (absent : delimiter ∉ text) :
    strsep memory delimiter (some pointer) = (some pointer, memory, none) := by
  rw [strsep, holds.strcspn, holds.stringAt, takeWhile_ne_of_not_mem absent, if_pos (Nat.le_refl _)]

/-- A token ends at the first delimiter, which is overwritten. -/
theorem Holds.strsep_token (holds : Holds memory pointer (text ++ delimiter :: later))
    (absent : delimiter ∉ text) :
    strsep memory delimiter (some pointer) =
      (some pointer, memory.set (pointer + text.length) 0, some (pointer + text.length + 1)) := by
  rw [strsep, holds.strcspn, holds.stringAt, takeWhile_ne_append absent, if_neg]
  simp

/-- `token` is cut off the front of `text`: strings apart from it stay, and the next token
starts behind the delimiter or there is none. -/
structure Separated (memory : List Byte) (pointer : Nat) (text : List Byte) (delimiter : Byte)
    (after : List Byte) (next : Option Nat) (token : List Byte) : Prop where
  holds : Holds after pointer token
  frame : ∀ {other : Nat} {content : List Byte}, Holds memory other content →
    other + content.length < pointer ∨ pointer + text.length < other → Holds after other content
  next : next = none ∧ text.splitOn delimiter = [token] ∨
    ∃ later, next = some (pointer + token.length + 1) ∧
      Holds after (pointer + token.length + 1) later ∧
      text.length = token.length + 1 + later.length ∧
      text.splitOn delimiter = token :: later.splitOn delimiter

/-- `strsep` takes the pieces of `splitOn` one by one. -/
theorem Holds.strsep (holds : Holds memory pointer text) (delimiter : Byte) :
    ∃ after next token, strsep memory delimiter (some pointer) = (some pointer, after, next) ∧
      Separated memory pointer text delimiter after next token := by
  by_cases member : delimiter ∈ text
  · obtain ⟨token, later, rfl, absent⟩ := List.eq_append_cons_of_mem member
    refine ⟨_, _, token, holds.strsep_token absent, holds.cut, ?_, .inr ⟨later, rfl, ?_, ?_, ?_⟩⟩
    · intro other content stored apart
      refine stored.of_set ?_ 0
      rw [List.length_append, List.length_cons] at apart
      omega
    · exact holds.suffix.of_set (.inl (Nat.lt_succ_self _)) 0
    · rw [List.length_append, List.length_cons]
      omega
    · exact List.splitOn_append_cons_self_of_not_mem absent later
  · exact ⟨memory, none, text, holds.strsep_last member, holds, fun stored _ => stored,
      .inl ⟨rfl, List.splitOn_eq_singleton member⟩⟩

end CString

end IperfSwift.Lib
