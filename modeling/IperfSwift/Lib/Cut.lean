import IperfSwift.Lib.Utf8

/-!
Contract: the longest prefix of a text that fits a number of bytes and ends
between two scalars.

Owns: the cut of a sequence of scalars, and that it is the longest; how cuts
compose with each other and with concatenation.

Does not own: texts that are not well formed.
-/

set_option autoImplicit false

namespace IperfSwift.Lib.Utf8

theorem encodeChar_length_pos (c : Char) : 0 < (String.utf8EncodeChar c).length := by
  rw [encodeChar_eq]
  split_ifs <;> simp

/-- The scalars from the front whose bytes fit. -/
def cut (limit : Nat) : List Char → List Char
  | [] => []
  | c :: rest =>
      if (String.utf8EncodeChar c).length ≤ limit then
        c :: cut (limit - (String.utf8EncodeChar c).length) rest
      else []

/-- A prefix within the limit that every other such prefix begins. -/
structure LongestWithin (limit : Nat) (scalars kept : List Char) : Prop where
  isPrefix : kept <+: scalars
  fits : (encode kept).length ≤ limit
  longest : ∀ other, other <+: scalars → (encode other).length ≤ limit → other <+: kept

theorem cut_longest (limit : Nat) (scalars : List Char) :
    LongestWithin limit scalars (cut limit scalars) := by
  induction scalars generalizing limit with
  | nil => exact ⟨List.prefix_rfl, by simp [cut], fun other start _ => start⟩
  | cons c rest inductionHypothesis =>
      rw [cut]
      split_ifs with room
      · obtain ⟨isPrefix, fits, longest⟩ :=
          inductionHypothesis (limit - (String.utf8EncodeChar c).length)
        refine ⟨List.cons_prefix_cons.mpr ⟨rfl, isPrefix⟩, ?_, ?_⟩
        · rw [encode_cons, List.length_append]
          omega
        · intro other start within
          cases other with
          | nil => exact List.nil_prefix
          | cons d tail =>
              obtain ⟨rfl, later⟩ := List.cons_prefix_cons.mp start
              rw [encode_cons, List.length_append] at within
              exact List.cons_prefix_cons.mpr ⟨rfl, longest tail later (by omega)⟩
      · have start : [] <+: c :: rest := List.nil_prefix
        refine ⟨start, Nat.zero_le _, ?_⟩
        intro other start within
        cases other with
        | nil => exact List.prefix_rfl
        | cons d tail =>
            obtain ⟨rfl, _⟩ := List.cons_prefix_cons.mp start
            rw [encode_cons, List.length_append] at within
            exact absurd (by omega) room

/-- The longest prefix is unique. -/
theorem LongestWithin.eq_cut {limit : Nat} {scalars kept : List Char}
    (longest : LongestWithin limit scalars kept) : kept = cut limit scalars := by
  have other := cut_longest limit scalars
  have forth := other.longest kept longest.isPrefix longest.fits
  have back := longest.longest _ other.isPrefix other.fits
  exact forth.eq_of_length (Nat.le_antisymm forth.length_le back.length_le)

theorem cut_of_fits {limit : Nat} {scalars : List Char}
    (fits : (encode scalars).length ≤ limit) : cut limit scalars = scalars :=
  (LongestWithin.eq_cut ⟨List.prefix_rfl, fits, fun _ start _ => start⟩).symm

/-- What fits as a whole is passed over. -/
theorem cut_append {limit : Nat} {first : List Char} (second : List Char)
    (fits : (encode first).length ≤ limit) :
    cut limit (first ++ second) = first ++ cut (limit - (encode first).length) second := by
  induction first generalizing limit with
  | nil => simp
  | cons c rest inductionHypothesis =>
      rw [encode_cons, List.length_append] at fits
      rw [List.cons_append, cut, if_pos (by omega), inductionHypothesis (by omega), encode_cons,
        List.length_append, List.cons_append, Nat.sub_sub]

/-- Once a scalar does not fit, nothing behind it is kept. -/
theorem cut_append_of_long {limit : Nat} {first : List Char} (second : List Char)
    (long : limit < (encode first).length) :
    cut limit (first ++ second) = cut limit first := by
  induction first generalizing limit with
  | nil => simp at long
  | cons c rest inductionHypothesis =>
      rw [List.cons_append, cut, cut]
      split_ifs with room
      · rw [encode_cons, List.length_append] at long
        rw [inductionHypothesis (by omega)]
      · rfl

/-- Some first bytes of a scalar, but not all of them. -/
structure Begun (c : Char) (part : List Byte) : Prop where
  some : part ≠ []
  isPrefix : part <+: String.utf8EncodeChar c
  short : part.length < (String.utf8EncodeChar c).length

/-- The first bytes of a text are whole scalars and perhaps the beginning of one. -/
theorem take_encode (limit : Nat) (scalars : List Char) :
    ∃ part, (encode scalars).take limit = encode (cut limit scalars) ++ part ∧
      (part = [] ∨ ∃ c ∈ scalars, Begun c part) := by
  induction scalars generalizing limit with
  | nil => exact ⟨[], by simp [cut], .inl rfl⟩
  | cons c rest inductionHypothesis =>
      rw [cut, encode_cons]
      split_ifs with room
      · obtain ⟨part, taken, begun⟩ :=
          inductionHypothesis (limit - (String.utf8EncodeChar c).length)
        refine ⟨part, ?_, begun.imp_right fun ⟨d, later, begun⟩ =>
          ⟨d, List.mem_cons_of_mem c later, begun⟩⟩
        rw [List.take_append, List.take_of_length_le room, taken, encode_cons, List.append_assoc]
      · have less := Nat.lt_of_not_le room
        refine ⟨(String.utf8EncodeChar c).take limit, ?_, ?_⟩
        · rw [List.take_append_of_le_length less.le, encode_nil, List.nil_append]
        · rcases Nat.eq_zero_or_pos limit with rfl | positive
          · exact .inl rfl
          · refine .inr ⟨c, List.mem_cons_self, ?_, List.take_prefix _ _, ?_⟩
            · rw [← List.length_pos_iff, List.length_take_of_le less.le]
              exact positive
            · rwa [List.length_take_of_le less.le]

end IperfSwift.Lib.Utf8
