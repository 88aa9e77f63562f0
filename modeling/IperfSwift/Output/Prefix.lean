import IperfSwift.Lib.Cut

/-!
Contract: `utf8_prefix` of `iperf_output_budget.c`.

Owns: the forward decoder, that it accepts exactly the encodings of scalars other
than NUL, and the boundary it finds in a text that a limit has cut.

Does not own: the decoders of the scanner and of the log.
-/

set_option autoImplicit false

namespace IperfSwift.Output

open IperfSwift.Lib

variable {c : Char} {scalars : List Char}

/-! ### The decoder -/

/-- What the first byte of a scalar announces; a NUL begins nothing. -/
def scalarHead (c : Byte) : Option Utf8.Lead :=
  if c ≠ 0 ∧ c.toNat < 0x80 then some ⟨0, c.toNat, 0⟩ else Utf8.lead c

/-- The loop over the bytes behind the first one. -/
def pushTails : Nat → List Byte → Option Nat
  | scalar, [] => some scalar
  | scalar, next :: more =>
      if Utf8.IsTail next then pushTails (Utf8.push scalar next) more else none

/-- The loop over the scalars: the text from `i` on, and `*valid`, which is `i`. Every pass
uses up a byte, so the length of the text bounds their number. -/
def utf8Scalars (cut : Bool) : Nat → List Byte → Nat → Bool × Nat
  | 0, _, valid => (true, valid)
  | _ + 1, [], valid => (true, valid)
  | passes + 1, c :: rest, valid =>
      match scalarHead c with
      | none => (false, valid)
      | some lead =>
          if rest.length < lead.following then (cut, valid)
          else
            match pushTails lead.payload (rest.take lead.following) with
            | none => (false, valid)
            | some scalar =>
                if Utf8.IsScalar lead.minimum scalar then
                  utf8Scalars cut passes (rest.drop lead.following) (valid + (lead.following + 1))
                else (false, valid)

/-- `utf8_prefix`: what it returns, and `*valid`. -/
def utf8Prefix (text : List Byte) (cut : Bool) : Bool × Nat := utf8Scalars cut text.length text 0

/-! ### One scalar -/

theorem pushTails_eq_some_iff {start scalar : Nat} {bytes : List Byte} :
    pushTails start bytes = some scalar ↔
      (∀ byte ∈ bytes, Utf8.IsTail byte) ∧ bytes.foldl Utf8.push start = scalar := by
  induction bytes generalizing start with
  | nil => simp [pushTails]
  | cons next more inductionHypothesis =>
      rw [pushTails, List.forall_mem_cons, List.foldl_cons]
      by_cases isTail : Utf8.IsTail next
      · rw [if_pos isTail, inductionHypothesis]
        simp [isTail]
      · simp [isTail]

/-- What `scalarHead` and the checks behind it say about the bytes of a scalar. -/
structure Decodes (c : Char) (first : Byte) (tail : List Byte) (lead : Utf8.Lead) : Prop where
  bytes : String.utf8EncodeChar c = first :: tail
  head : scalarHead first = some lead
  length : tail.length = lead.following
  tails : ∀ byte ∈ tail, Utf8.IsTail byte
  value : tail.foldl Utf8.push lead.payload = c.toNat
  valid : Utf8.IsScalar lead.minimum c.toNat

/-- Every scalar but NUL is decoded. -/
theorem exists_decodes (notNul : c.toNat ≠ 0) : ∃ first tail lead, Decodes c first tail lead := by
  by_cases small : c.toNat < 0x80
  · have same : (UInt8.ofNat c.toNat).toNat = c.toNat := by
      rw [UInt8.toNat_ofNat', Nat.mod_eq_of_lt (by omega)]
    refine ⟨_, [], ⟨0, c.toNat, 0⟩, Utf8.encodeChar_small small, ?_, rfl, nofun, rfl,
      Utf8.isScalar_toNat c⟩
    have begun : UInt8.ofNat c.toNat ≠ 0 := fun zero =>
      notNul (same.symm.trans (congrArg UInt8.toNat zero))
    rw [scalarHead, same, if_pos ⟨begun, small⟩]
  · obtain ⟨first, tail, lead, bytes, leads, length, tails, value, valid⟩ :=
      Utf8.encodeChar_multibyte c (Nat.le_of_not_lt small)
    have large := Utf8.encodeChar_large (Nat.le_of_not_lt small) first (by simp [bytes])
    refine ⟨first, tail, lead, bytes, ?_, length, tails, value, valid⟩
    rw [scalarHead, if_neg (by omega), leads]

/-- What passes the checks is the encoding of a scalar other than NUL. -/
theorem exists_of_decoded {first : Byte} {tail : List Byte} {lead : Utf8.Lead}
    (head : scalarHead first = some lead) (length : tail.length = lead.following)
    (tails : ∀ byte ∈ tail, Utf8.IsTail byte)
    (valid : Utf8.IsScalar lead.minimum (tail.foldl Utf8.push lead.payload)) :
    ∃ c : Char, c.toNat ≠ 0 ∧ String.utf8EncodeChar c = first :: tail := by
  rw [scalarHead] at head
  split_ifs at head with small
  · obtain rfl := Option.some.inj head
    obtain rfl := List.length_eq_zero_iff.mp length
    have same : (Char.ofNat first.toNat).toNat = first.toNat := Utf8.toNat_ofNat valid
    refine ⟨Char.ofNat first.toNat, ?_, ?_⟩
    · rw [same]
      exact fun zero => small.1 (UInt8.toNat_inj.mp zero)
    · rw [Utf8.encodeChar_small (same.trans_lt small.2), same]
      simp
  · obtain ⟨c, -, large, bytes⟩ := Utf8.encodeChar_of_multibyte head length tails valid
    exact ⟨c, by omega, bytes⟩

/-! ### Texts -/

/-- Encodings of scalars other than NUL. -/
def PlainText (bytes : List Byte) : Prop :=
  ∃ scalars, (∀ c ∈ scalars, c.toNat ≠ 0) ∧ Utf8.encode scalars = bytes

/-- A scalar is passed over. -/
theorem utf8Scalars_scalar (cut : Bool) (notNul : c.toNat ≠ 0) (passes : Nat) (rest : List Byte)
    (valid : Nat) :
    utf8Scalars cut (passes + 1) (String.utf8EncodeChar c ++ rest) valid =
      utf8Scalars cut passes rest (valid + (String.utf8EncodeChar c).length) := by
  obtain ⟨first, tail, lead, decodes⟩ := exists_decodes notNul
  have pushed : pushTails lead.payload ((tail ++ rest).take lead.following) = some c.toNat := by
    rw [← decodes.length, List.take_left]
    exact pushTails_eq_some_iff.mpr ⟨decodes.tails, decodes.value⟩
  rw [decodes.bytes, List.cons_append, utf8Scalars, decodes.head]
  dsimp only
  rw [if_neg (by rw [List.length_append, decodes.length]; omega), pushed]
  dsimp only
  rw [if_pos decodes.valid, ← decodes.length, List.drop_left, List.length_cons]

/-- At a scalar that is not all there, the loop ends. -/
theorem utf8Scalars_incomplete (cut : Bool) (notNul : c.toNat ≠ 0) (passes : Nat)
    {part : List Byte} (begun : Utf8.Begun c part) (valid : Nat) :
    utf8Scalars cut (passes + 1) part valid = (cut, valid) := by
  obtain ⟨first, tail, lead, decodes⟩ := exists_decodes notNul
  obtain ⟨nonempty, isPrefix, short⟩ := begun
  rw [decodes.bytes] at isPrefix short
  cases part with
  | nil => exact absurd rfl nonempty
  | cons byte more =>
      obtain ⟨rfl, -⟩ := List.cons_prefix_cons.mp isPrefix
      have less : more.length < lead.following := by
        rw [List.length_cons, List.length_cons, decodes.length] at short
        omega
      rw [utf8Scalars, decodes.head]
      dsimp only
      rw [if_pos less]

theorem utf8Scalars_text (cut : Bool) (notNul : ∀ c ∈ scalars, c.toNat ≠ 0) (passes : Nat)
    (rest : List Byte) (valid : Nat) :
    utf8Scalars cut (scalars.length + passes) (Utf8.encode scalars ++ rest) valid =
      utf8Scalars cut passes rest (valid + (Utf8.encode scalars).length) := by
  induction scalars generalizing valid with
  | nil => simp
  | cons c more inductionHypothesis =>
      obtain ⟨here, later⟩ := List.forall_mem_cons.mp notNul
      rw [Utf8.encode_cons, List.append_assoc, List.length_cons, Nat.add_right_comm,
        utf8Scalars_scalar cut here, inductionHypothesis later, List.length_append, Nat.add_assoc]

/-- The loop without a cut goes through scalars only. -/
theorem plainText_of_utf8Scalars {passes : Nat} {text : List Byte} {valid : Nat}
    (enough : text.length ≤ passes) (accepted : (utf8Scalars false passes text valid).1 = true) :
    PlainText text := by
  induction passes generalizing text valid with
  | zero =>
      obtain rfl := List.length_eq_zero_iff.mp (Nat.le_zero.mp enough)
      exact ⟨[], nofun, rfl⟩
  | succ passes inductionHypothesis =>
      cases text with
      | nil => exact ⟨[], nofun, rfl⟩
      | cons first rest =>
          rw [utf8Scalars] at accepted
          cases head : scalarHead first with
          | none => simp [head] at accepted
          | some lead =>
              rw [head] at accepted
              dsimp only at accepted
              split_ifs at accepted with short
              cases pushed : pushTails lead.payload (rest.take lead.following) with
              | none => simp [pushed] at accepted
              | some scalar =>
                  rw [pushed] at accepted
                  dsimp only at accepted
                  split_ifs at accepted with isScalar
                  obtain ⟨tails, rfl⟩ := pushTails_eq_some_iff.mp pushed
                  obtain ⟨c, notNul, bytes⟩ := exists_of_decoded head
                    (List.length_take_of_le (Nat.le_of_not_lt short)) tails isScalar
                  obtain ⟨scalars, others, encoded⟩ :=
                    inductionHypothesis (by simp at enough ⊢; omega) accepted
                  refine ⟨c :: scalars, List.forall_mem_cons.mpr ⟨notNul, others⟩, ?_⟩
                  rw [Utf8.encode_cons, encoded, bytes, List.cons_append, List.take_append_drop]

theorem utf8Scalars_nil (cut : Bool) (passes valid : Nat) :
    utf8Scalars cut passes [] valid = (true, valid) := by
  cases passes <;> rfl

theorem encode_length_ge (scalars : List Char) : scalars.length ≤ (Utf8.encode scalars).length := by
  induction scalars with
  | nil => exact le_rfl
  | cons c rest inductionHypothesis =>
      have positive := Utf8.encodeChar_length_pos c
      rw [Utf8.encode_cons, List.length_append, List.length_cons]
      omega

/-- Scalars other than NUL, and behind them perhaps the beginning of another one. -/
theorem utf8Prefix_append (notNul : ∀ c ∈ scalars, c.toNat ≠ 0) {part : List Byte}
    (rest : part = [] ∨ ∃ c : Char, c.toNat ≠ 0 ∧ Utf8.Begun c part) :
    utf8Prefix (Utf8.encode scalars ++ part) true = (true, (Utf8.encode scalars).length) := by
  have enough := encode_length_ge scalars
  obtain ⟨passes, split⟩ := Nat.exists_eq_add_of_le (enough.trans (Nat.le_add_right _ part.length))
  rw [utf8Prefix, List.length_append, split, utf8Scalars_text true notNul, Nat.zero_add]
  rcases rest with rfl | ⟨c, here, begun⟩
  · exact utf8Scalars_nil true _ _
  · have some := List.length_pos_iff.mpr begun.some
    obtain ⟨more, rfl⟩ : ∃ more, passes = more + 1 := ⟨passes - 1, by omega⟩
    exact utf8Scalars_incomplete true here more begun _

theorem utf8Prefix_whole (notNul : ∀ c ∈ scalars, c.toNat ≠ 0) (cut : Bool) :
    utf8Prefix (Utf8.encode scalars) cut = (true, (Utf8.encode scalars).length) := by
  obtain ⟨passes, split⟩ := Nat.exists_eq_add_of_le (encode_length_ge scalars)
  have run := utf8Scalars_text cut notNul passes [] 0
  rw [List.append_nil, Nat.zero_add, utf8Scalars_nil, ← split] at run
  exact run

/-- Without a cut exactly the plain texts are accepted. -/
theorem utf8Prefix_accepts_iff (text : List Byte) :
    (utf8Prefix text false).1 = true ↔ PlainText text := by
  constructor
  · exact plainText_of_utf8Scalars le_rfl
  · rintro ⟨scalars, notNul, rfl⟩
    rw [utf8Prefix_whole notNul]

/-- With a cut, the first bytes of a plain text are accepted up to the last scalar that is
all there. -/
theorem utf8Prefix_take (notNul : ∀ c ∈ scalars, c.toNat ≠ 0) (count : Nat) :
    utf8Prefix ((Utf8.encode scalars).take count) true =
      (true, (Utf8.encode (Utf8.cut count scalars)).length) := by
  obtain ⟨part, taken, begun⟩ := Utf8.take_encode count scalars
  have kept := (Utf8.cut_longest count scalars).isPrefix.subset
  rw [taken]
  exact utf8Prefix_append (fun c inside => notNul c (kept inside))
    (begun.imp_right fun ⟨c, inside, begun⟩ => ⟨c, notNul c inside, begun⟩)

end IperfSwift.Output
