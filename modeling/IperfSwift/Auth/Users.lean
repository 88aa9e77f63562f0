import IperfSwift.Lib.CString

/-!
Contract: who is let in by `check_authentication`.

Owns: the salted password and its hash, the check of the time stamp, the loop that
cuts the text of the users into lines and fields in place; and that it finds an
account if and only if one line of the text lists it.

The digest is any function. A difference of two times that does not fit into
`time_t` is undefined in C: the model takes any value for it.

Does not own: where the name, the password and the time stamp come from.
-/

set_option autoImplicit false

namespace IperfSwift.Auth

open IperfSwift.Lib
open IperfSwift.Lib.CString

/-! ### The hash -/

def hexDigit (n : Nat) : Byte := if n < 10 then .ofNat (0x30 + n) else .ofNat (0x57 + n)

abbrev IsHex (byte : Byte) : Prop :=
  0x30 ≤ byte.toNat ∧ byte.toNat ≤ 0x39 ∨ 0x41 ≤ byte.toNat ∧ byte.toNat ≤ 0x46 ∨
    0x61 ≤ byte.toNat ∧ byte.toNat ≤ 0x66

/-- The 64 hexadecimal characters of a hash. -/
structure HexText where
  bytes : List Byte
  length_eq : bytes.length = 64
  hex : ∀ byte ∈ bytes, IsHex byte

theorem isHex_hexDigit {n : Nat} (small : n < 16) : IsHex (hexDigit n) := by
  interval_cases n <;> decide

/-- `sha256`: every byte of the digest with `%02x`. -/
def sha256 (digest : List Byte → Vector Byte 32) (string : CString) : HexText where
  bytes := (digest string.bytes).toList.flatMap fun byte =>
    [hexDigit (byte.toNat / 16), hexDigit (byte.toNat % 16)]
  length_eq := by simp
  hex byte member := by
    obtain ⟨source, -, digit⟩ := List.mem_flatMap.mp member
    have range := source.toNat_lt
    rcases List.mem_pair.mp digit with rfl | rfl
    · exact isHex_hexDigit (by omega)
    · exact isHex_hexDigit (by omega)

/-- `{username}password`. -/
def salted (username password : CString) : CString where
  bytes := ascii '{' :: username.bytes ++ ascii '}' :: password.bytes
  clean := by simp [username.clean, password.clean]

/-! ### The users -/

def lineFeed : Byte := 0x0a
def carriageReturn : Byte := 0x0d

/-- `s_username`, `s_password` and the text after they are cut out. -/
def lineFields (memory : List Byte) (line : Nat) : Option Nat × Option Nat × List Byte :=
  let (sUsername, memory, linePtr) := strsep memory (ascii ',') (some line)
  let (sPassword, memory, _) := strsep memory (ascii ',') linePtr
  (sUsername, sPassword, memory)

/-- The body of the loop for one line: whether it names the account, and the text after it. -/
def checkLine (username passwordHash : List Byte) (memory : List Byte) (line : Nat) :
    Bool × List Byte :=
  let memory := memory.set (line + strcspn memory line carriageReturn) 0
  if memory.getD line 0 = 0 ∨ memory.getD line 0 = ascii '#' then (false, memory)
  else
    match lineFields memory line with
    | (some sUsername, some sPassword, memory) =>
        (stringAt memory sUsername = username ∧ stringAt memory sPassword = passwordHash, memory)
    | (_, _, memory) => (false, memory)

/-- `while (p)`: nothing is returned when the steps do not suffice. -/
def checkLines (username passwordHash : List Byte) : Nat → List Byte → Option Nat → Option Nat
  | _, _, none => some 3
  | 0, _, some _ => none
  | steps + 1, memory, some p =>
      let (line, memory, p) := strsep memory lineFeed (some p)
      match line with
      | none => none
      | some line =>
          let (found, memory) := checkLine username passwordHash memory line
          if found then some 0 else checkLines username passwordHash steps memory p

/-! ### The whole function -/

/-- `t - ts` in `time_t`: a difference that does not fit is whatever `overflow` makes of it. -/
def timeDifference (overflow : Int → Int) (t ts : Int64) : Int :=
  if -2 ^ 63 ≤ t.toInt - ts.toInt ∧ t.toInt - ts.toInt < 2 ^ 63 then t.toInt - ts.toInt
  else overflow (t.toInt - ts.toInt)

/-- `check_authentication(username, password, ts, filename, skew_threshold)` at the time `t`.
`copied` is false when `strdup` fails. -/
def checkAuthentication (hash : CString → HexText) (overflow : Int → Int) (t : Int64)
    (copied : Bool) (username password : Option CString) (ts : Int64) (filename : Option CString)
    (skewThreshold : Int32) : Option Nat :=
  match username, password, filename with
  | some username, some password, some filename =>
      if timeDifference overflow t ts > skewThreshold.toInt ∨
          timeDifference overflow t ts < -skewThreshold.toInt then some 1
      else if copied then
        checkLines username.bytes (hash (salted username password)).bytes
          (filename.bytes.length + 1) (filename.bytes ++ [0]) (some 0)
      else some 3
  | _, _, _ => some 3

/-! ### Accounts -/

/-- The line up to its first carriage return. -/
def account (line : List Byte) : List Byte := line.takeWhile (· ≠ carriageReturn)

/-- The line is no comment and its first two fields are the name and the hash. -/
structure Lists (username passwordHash line : List Byte) : Prop where
  content : account line ≠ []
  active : (account line).head? ≠ some (ascii '#')
  fields : ∃ more, (account line).splitOn (ascii ',') = username :: passwordHash :: more

/-- Some line of the text lists the account. -/
def Listed (username passwordHash text : List Byte) : Prop :=
  ∃ line ∈ text.splitOn lineFeed, Lists username passwordHash line

section Lines

variable {username passwordHash memory line : List Byte} {pointer : Nat}

/-- The carriage return and what follows it are cut off. -/
theorem holds_account (holds : Holds memory pointer line) :
    Holds (memory.set (pointer + strcspn memory pointer carriageReturn) 0) pointer
      (account line) := by
  have whole : account line ++ line.dropWhile (· ≠ carriageReturn) = line :=
    List.takeWhile_append_dropWhile
  rw [holds.strcspn]
  rw [← whole] at holds
  exact holds.cut

/-- A blank line or a comment is skipped. -/
theorem skipped_iff {text : List Byte} (holds : Holds memory pointer text) :
    (memory.getD pointer 0 = 0 ∨ memory.getD pointer 0 = ascii '#') ↔
      text = [] ∨ text.head? = some (ascii '#') := by
  rw [holds.head]
  cases text with
  | nil => simp
  | cons first others =>
      have nonzero : first ≠ 0 := fun zero => holds.clean (by simp [zero])
      simp [nonzero]

/-- The fields of a line: one alone, or the first two of them. Nothing behind the line is
touched. -/
theorem lineFields_spec {text : List Byte} (holds : Holds memory pointer text) :
    ∃ second after, lineFields memory pointer = (some pointer, second, after) ∧
      (∀ {other : Nat} {content : List Byte}, Holds memory other content →
        pointer + text.length < other → Holds after other content) ∧
      ((∃ name, second = none ∧ text.splitOn (ascii ',') = [name]) ∨
        ∃ name secret next more, second = some next ∧ Holds after pointer name ∧
          Holds after next secret ∧ text.splitOn (ascii ',') = name :: secret :: more) := by
  obtain ⟨after, next, name, cut, separated⟩ := holds.strsep (ascii ',')
  rcases separated.next with ⟨rfl, alone⟩ | ⟨later, rfl, rest, length, fields⟩
  · refine ⟨none, after, ?_, fun stored behind => separated.frame stored (.inr behind), ?_⟩
    · rw [lineFields, cut]
      rfl
    · exact .inl ⟨name, rfl, alone⟩
  · obtain ⟨after', next', secret, cut', separated'⟩ := rest.strsep (ascii ',')
    refine ⟨some (pointer + name.length + 1), after', ?_, ?_, ?_⟩
    · rw [lineFields, cut]
      dsimp only
      rw [cut']
    · intro other content stored behind
      exact separated'.frame (separated.frame stored (.inr behind)) (.inr (by omega))
    · have first := separated'.frame separated.holds (.inl (by omega))
      rcases separated'.next with ⟨-, alone⟩ | ⟨later', -, -, -, fields'⟩
      · exact .inr ⟨name, secret, _, [], rfl, first, separated'.holds, by rw [fields, alone]⟩
      · exact .inr ⟨name, secret, _, _, rfl, first, separated'.holds, by rw [fields, fields']⟩

/-- One line names the account if and only if it lists it, and what stands behind it stays. -/
theorem checkLine_spec (holds : Holds memory pointer line) :
    ((checkLine username passwordHash memory pointer).1 = true ↔
      Lists username passwordHash line) ∧
    ∀ {other : Nat} {content : List Byte}, Holds memory other content →
      pointer + line.length < other →
      Holds (checkLine username passwordHash memory pointer).2 other content := by
  have kept := holds_account holds
  have shorter : (account line).length ≤ line.length := (List.takeWhile_prefix _).length_le
  have frame {other : Nat} {content : List Byte} (stored : Holds memory other content)
      (behind : pointer + line.length < other) :
      Holds (memory.set (pointer + strcspn memory pointer carriageReturn) 0) other content := by
    rw [holds.strcspn]
    exact stored.of_set (.inl (by rw [account] at shorter; omega)) 0
  rw [checkLine]
  generalize memory.set (pointer + strcspn memory pointer carriageReturn) 0 = cut
    at kept frame ⊢
  split_ifs with skipped
  · refine ⟨iff_of_false nofun fun lists => ?_, frame⟩
    rcases (skipped_iff kept).mp skipped with blank | comment
    · exact lists.content blank
    · exact lists.active comment
  · rw [skipped_iff kept, not_or] at skipped
    obtain ⟨second, after, fields, frame', found⟩ := lineFields_spec kept
    rw [fields]
    have frame'' {other : Nat} {content : List Byte} (stored : Holds memory other content)
        (behind : pointer + line.length < other) : Holds after other content :=
      frame' (frame stored behind) (by omega)
    rcases found with ⟨name, rfl, alone⟩ | ⟨name, secret, next, more, rfl, first, second, pieces⟩
    · refine ⟨iff_of_false nofun fun lists => ?_, frame''⟩
      obtain ⟨more, pieces⟩ := lists.fields
      rw [alone] at pieces
      cases pieces
    · dsimp only
      rw [first.stringAt, second.stringAt, decide_eq_true_iff]
      refine ⟨⟨?_, ?_⟩, frame''⟩
      · rintro ⟨rfl, rfl⟩
        exact ⟨skipped.1, skipped.2, more, pieces⟩
      · intro lists
        obtain ⟨more', pieces'⟩ := lists.fields
        rw [pieces] at pieces'
        cases pieces'
        exact ⟨rfl, rfl⟩

/-- The loop finds the account if and only if some line of the text lists it. -/
theorem checkLines_eq {text : List Byte} {steps : Nat} (holds : Holds memory pointer text)
    (enough : text.length < steps) :
    ∃ code, checkLines username passwordHash steps memory (some pointer) = some code ∧
      (code = 0 ↔ Listed username passwordHash text) := by
  induction steps generalizing memory pointer text with
  | zero => exact absurd enough (Nat.not_lt_zero _)
  | succ steps inductionHypothesis =>
      obtain ⟨after, next, line, cut, separated⟩ := holds.strsep lineFeed
      obtain ⟨found, frame⟩ :=
        @checkLine_spec username passwordHash _ _ _ separated.holds
      rw [checkLines, cut]
      dsimp only
      by_cases listed : Lists username passwordHash line
      · rw [if_pos (found.mpr listed)]
        refine ⟨0, rfl, iff_of_true rfl ⟨line, ?_, listed⟩⟩
        rcases separated.next with ⟨-, alone⟩ | ⟨later, -, -, -, pieces⟩
        · rw [alone]
          exact List.mem_singleton_self line
        · rw [pieces]
          exact List.mem_cons_self
      · rw [if_neg (mt found.mp listed)]
        rcases separated.next with ⟨rfl, alone⟩ | ⟨later, rfl, rest, length, pieces⟩
        · refine ⟨3, by cases steps <;> rfl, iff_of_false (by decide) ?_⟩
          rintro ⟨other, member, lists⟩
          rw [alone, List.mem_singleton] at member
          exact listed (member ▸ lists)
        · obtain ⟨code, result, accepted⟩ :=
            inductionHypothesis (frame rest (by omega)) (by omega)
          refine ⟨code, result, accepted.trans ?_⟩
          rw [Listed, Listed, pieces]
          simp only [List.mem_cons, exists_eq_or_imp, listed, false_or]

end Lines

/-! ### Who is let in -/

section Accepts

variable (hash : CString → HexText) (overflow : Int → Int) {t ts : Int64}
  (username password filename : CString) {skewThreshold : Int32}

/-- A time stamp within the threshold leaves the decision to the text of the users. -/
theorem checkAuthentication_eq :
    ∃ code, checkAuthentication hash overflow t true (some username) (some password) ts
        (some filename) skewThreshold = some code ∧
      (code = 0 ↔ |timeDifference overflow t ts| ≤ skewThreshold.toInt ∧
        Listed username.bytes (hash (salted username password)).bytes filename.bytes) := by
  have holds : Holds (filename.bytes ++ [0]) 0 filename.bytes :=
    ⟨filename.clean, List.prefix_rfl⟩
  rw [checkAuthentication, abs_le]
  by_cases late : timeDifference overflow t ts > skewThreshold.toInt ∨
      timeDifference overflow t ts < -skewThreshold.toInt
  · rw [if_pos late]
    exact ⟨1, rfl, iff_of_false (by decide) fun accepted => by omega⟩
  · rw [if_neg late, if_pos rfl]
    obtain ⟨code, result, accepted⟩ :=
      @checkLines_eq username.bytes (hash (salted username password)).bytes _ _ _ _ holds
        (Nat.lt_succ_self _)
    exact ⟨code, result, accepted.trans (iff_and_self.mpr fun _ => by omega)⟩

/-- A difference that fits is taken as it is. -/
theorem timeDifference_eq (now : 0 ≤ t.toInt) (fits : t.toInt - ts.toInt < 2 ^ 63) :
    timeDifference overflow t ts = t.toInt - ts.toInt := by
  have range := ts.toInt_lt
  rw [timeDifference, if_pos ⟨by omega, fits⟩]

theorem timeDifference_overflow (large : 2 ^ 63 ≤ t.toInt - ts.toInt) :
    timeDifference overflow t ts = overflow (t.toInt - ts.toInt) := by
  rw [timeDifference, if_neg (by omega)]

end Accepts

/-- Exactly the listed accounts within the threshold are let in, whatever an overflow gives, if
and only if there is none or the account is not listed. -/
theorem checkAuthentication_accepts_iff (hash : CString → HexText)
    (username password filename : CString) (t ts : Int64) (skewThreshold : Int32)
    (now : 0 ≤ t.toInt) (positive : 0 < skewThreshold.toInt) :
    (∀ overflow, ∃ code, checkAuthentication hash overflow t true (some username) (some password)
        ts (some filename) skewThreshold = some code ∧
      (code = 0 ↔ |t.toInt - ts.toInt| ≤ skewThreshold.toInt ∧
        Listed username.bytes (hash (salted username password)).bytes filename.bytes)) ↔
      t.toInt - ts.toInt < 2 ^ 63 ∨
        ¬ Listed username.bytes (hash (salted username password)).bytes filename.bytes := by
  constructor
  · intro exactly
    by_contra! overflows
    obtain ⟨code, result, accepted⟩ := exactly fun _ => 0
    obtain ⟨code', result', accepted'⟩ := @checkAuthentication_eq hash (fun _ => 0) t ts
      username password filename skewThreshold
    rw [result] at result'
    cases result'
    rw [timeDifference_overflow _ overflows.1] at accepted'
    have early := (accepted.mp (accepted'.mpr ⟨by rw [abs_zero]; omega, overflows.2⟩)).1
    have range := skewThreshold.toInt_lt
    rw [abs_le] at early
    omega
  · intro condition overflow
    obtain ⟨code, result, accepted⟩ := @checkAuthentication_eq hash overflow t ts
      username password filename skewThreshold
    refine ⟨code, result, accepted.trans ?_⟩
    rcases condition with fits | unlisted
    · rw [timeDifference_eq overflow now fits]
    · exact iff_of_false (fun both => unlisted both.2) fun both => unlisted both.2

def mario : CString := ⟨bytesOf "mario", by decide⟩
def rossi : CString := ⟨bytesOf "rossi", by decide⟩

/-- A hash for tests: 64 times `0`. -/
def zeroHash : CString → HexText := sha256 fun _ => .replicate 32 0

/-- A comment and the account, with line ends of two characters. -/
def marioUsers : CString :=
  ⟨bytesOf "# users\r\nmario," ++ List.replicate 64 (ascii '0') ++ bytesOf "\r\n", by decide +kernel⟩

theorem accepts_of_mario :
    0 ≤ (1700000009 : Int64).toInt ∧ 0 < (10 : Int32).toInt ∧
    ∀ overflow, ∃ code, checkAuthentication zeroHash overflow 1700000009 true (some mario)
        (some rossi) 1700000000 (some marioUsers) 10 = some code ∧
      (code = 0 ↔ |(1700000009 : Int64).toInt - (1700000000 : Int64).toInt| ≤ (10 : Int32).toInt ∧
        Listed mario.bytes (zeroHash (salted mario rossi)).bytes marioUsers.bytes) :=
  ⟨by decide, by decide,
    (checkAuthentication_accepts_iff zeroHash mario rossi marioUsers 1700000009 1700000000 10
      (by decide) (by decide)).mpr (.inl (by decide))⟩

/-- With two's complement the oldest time stamp is one second ahead of the last moment. -/
theorem accepted_of_oldestStamp :
    checkAuthentication zeroHash (Int.bmod · (2 ^ 64)) Int64.maxValue true (some mario)
        (some rossi) Int64.minValue (some marioUsers) 1 = some 0 ∧
      ¬ |Int64.maxValue.toInt - Int64.minValue.toInt| ≤ (1 : Int32).toInt := by
  decide +kernel

end IperfSwift.Auth
