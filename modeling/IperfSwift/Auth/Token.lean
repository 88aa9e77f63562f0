import IperfSwift.Auth.Users
import IperfSwift.Client.Configuration
import IperfSwift.Lib.Base64
import IperfSwift.Lib.Cut
import IperfSwift.Lib.Format

/-!
Contract: the token that carries the credentials of a client to the server.

Owns: `encode_auth_setting` and `decode_auth_setting` with the Base64 and RSA helpers
they call, every allocation that can fail included; and which credentials survive.

The RSA functions are any pair of functions in which decryption inverts encryption.

Does not own: parsing of keys, and what the server does with the credentials.
-/

set_option autoImplicit false

namespace IperfSwift.Auth

open IperfSwift.Lib
open IperfSwift.Lib.Format

variable {token : List Byte} {usePkcs1Padding : Bool}

def intMax : Nat := 2 ^ 31 - 1

/-! ### Base64 -/

/-- `Base64Encode`. -/
def base64Encode (granted : Bool) (buffer : List Byte) : Option (List Byte) :=
  if buffer.length = 0 ∨ intMax / 4 * 3 < buffer.length then none
  else if granted then
    if (Base64.encode buffer).length = 4 * ((buffer.length + 2) / 3) then
      some (Base64.encode buffer)
    else none
  else none

def calcDecodeLength (b64input : List Byte) : Nat :=
  let len := b64input.length
  let padding :=
    if 2 ≤ len ∧ b64input[len - 1]? = some (ascii '=') ∧ b64input[len - 2]? = some (ascii '=')
    then 2
    else if 1 ≤ len ∧ b64input[len - 1]? = some (ascii '=') then 1
    else 0
  if padding ≤ len / 4 * 3 then len / 4 * 3 - padding else 0

/-- `Base64Decode`. -/
def base64Decode (granted : Bool) (b64message : List Byte) : Option (List Byte) :=
  let inputLength := b64message.length
  let decodedLength := calcDecodeLength b64message
  let padding := inputLength / 4 * 3 - decodedLength
  if inputLength = 0 ∨ intMax < inputLength ∨ inputLength % 4 ≠ 0 then none
  else if ∀ byte ∈ b64message.take (inputLength - padding), Base64.IsSymbol byte then
    if granted then
      match Base64.decode b64message with
      | none => none
      | some decoded =>
          if decoded.length = decodedLength + padding then some (decoded.take decodedLength)
          else none
    else none
  else none

/-! ### RSA -/

/-- A public key and the private key that matches it. The first argument says whether the
padding is that of PKCS 1. -/
structure KeyPair where
  size : Nat
  encrypt : Bool → List Byte → Option (List Byte)
  decrypt : Bool → List Byte → Option (List Byte)
  inverts : ∀ {usePkcs1Padding : Bool} {text cipher : List Byte},
    encrypt usePkcs1Padding text = some cipher → decrypt usePkcs1Padding cipher = some text

/-- `encrypt_rsa_message`. -/
def encryptRsaMessage (pair : KeyPair) (granted : Bool) (plaintext : List Byte)
    (usePkcs1Padding : Bool) : Option (List Byte) :=
  if pair.size = 0 ∨ intMax < pair.size then none
  else if granted then pair.encrypt usePkcs1Padding plaintext
  else none

/-- `decrypt_rsa_message`. -/
def decryptRsaMessage (pair : KeyPair) (granted : Bool) (encryptedtext : List Byte)
    (usePkcs1Padding : Bool) : Option (List Byte) :=
  if encryptedtext = [] ∨ pair.size = 0 ∨ intMax < pair.size then none
  else if granted then (pair.decrypt usePkcs1Padding encryptedtext).filter (· ≠ [])
  else none

/-! ### Tokens -/

def authTextFormat : List Byte := bytesOf "user: %s\npwd:  %s\nts:   %lld"

/-- What is written for the credentials, before it is cut to the buffer. -/
def tokenText (username password : CString) (utcSeconds : Int64) : List Byte :=
  print (directives authTextFormat)
    [.string username.bytes, .string password.bytes, .int64 utcSeconds.toInt]

/-- The allocations of `encode_auth_setting`. -/
structure EncodeGrants where
  text : Bool
  encrypted : Bool
  encoded : Bool

/-- `encode_auth_setting` at the time `utcSeconds`. -/
def encodeAuthSetting (pair : KeyPair) (granted : EncodeGrants) (utcSeconds : Int64)
    (username password : CString) (usePkcs1Padding : Bool) : Option (List Byte) :=
  if pair.size = 0 ∨ pair.size < username.bytes.length ∨ pair.size < password.bytes.length then
    none
  else
    let textLen :=
      authTextFormat.length + username.bytes.length + password.bytes.length + 32
    if granted.text then
      let text := (tokenText username password utcSeconds).take (textLen - 1)
      match encryptRsaMessage pair granted.encrypted text usePkcs1Padding with
      | none => none
      | some encrypted =>
          if encrypted = [] then none else base64Encode granted.encoded encrypted
    else none

/-- The allocations of `decode_auth_setting`. -/
structure DecodeGrants where
  decoded : Bool
  plaintext : Bool
  username : Bool
  password : Bool

/-- `decode_auth_setting`: the user name, the password and the time stamp. -/
def decodeAuthSetting (pair : KeyPair) (granted : DecodeGrants) (authtoken : List Byte)
    (usePkcs1Padding : Bool) : Option (List Byte × List Byte × Int) :=
  match base64Decode granted.decoded authtoken with
  | none => none
  | some encrypted =>
      match decryptRsaMessage pair granted.plaintext encrypted usePkcs1Padding with
      | none => none
      | some plaintext =>
          if granted.username ∧ granted.password then
            match scan (directives authTextFormat) (plaintext.takeWhile (· ≠ 0)) with
            | [.string username, .string password, .int64 utcSeconds] =>
                some (username, password, utcSeconds)
            | _ => none
          else none

/-! ### Base64 round trip -/

/-- The padding that is counted is the padding that was written. -/
theorem calcDecodeLength_eq {body : List Byte} {count : Nat}
    (symbols : ∀ byte ∈ body, Base64.IsSymbol byte) (content : body ≠ []) (few : count < 3)
    (room : count ≤ (body.length + count) / 4 * 3) :
    calcDecodeLength (body ++ List.replicate count (ascii '=')) =
      (body.length + count) / 4 * 3 - count := by
  obtain ⟨start, last, rfl⟩ := (List.eq_nil_or_concat' body).resolve_left content
  have symbol : last ≠ 61 := (symbols last (by simp)).ne_pad
  rw [List.length_append, List.length_singleton] at room ⊢
  interval_cases count
  · simp [calcDecodeLength, symbol]
  · simp [calcDecodeLength, symbol]
    omega
  · simp [calcDecodeLength]
    omega

theorem base64Decode_encode {granted : Bool} {bytes : List Byte}
    (encoded : base64Encode granted bytes = some token) : base64Decode true token = some bytes := by
  rw [base64Encode] at encoded
  split_ifs at encoded with limits allocated length
  obtain rfl := Option.some.inj encoded
  rw [not_or, Nat.not_lt] at limits
  obtain ⟨body, shape, symbols, total⟩ := Base64.encode_eq bytes
  have few : Base64.padding bytes.length < 3 := Nat.mod_lt _ (by decide)
  have blocks : (body.length + Base64.padding bytes.length) / 4 * 3 =
      bytes.length + Base64.padding bytes.length := by
    rw [total, Base64.padding]
    omega
  have nonempty : body ≠ [] := by
    rintro rfl
    rw [List.length_nil] at total
    omega
  have counted : calcDecodeLength (Base64.encode bytes) = bytes.length := by
    rw [shape, calcDecodeLength_eq symbols nonempty few (by omega), blocks, Nat.add_sub_cancel]
  have written : (Base64.encode bytes).length / 4 * 3 - bytes.length =
      Base64.padding bytes.length := by
    rw [length, ← total, blocks, Nat.add_sub_cancel_left]
  have taken : (Base64.encode bytes).take
      ((Base64.encode bytes).length - Base64.padding bytes.length) = body := by
    rw [shape, List.length_append, List.length_replicate, Nat.add_sub_cancel, List.take_left]
  rw [base64Decode, counted, written, taken, if_neg ?range, if_pos symbols, if_pos rfl,
    Base64.decode_encode]
  · simp
  · rw [length]
    have large : intMax / 4 * 3 = 1610612733 := rfl
    have limit : intMax = 2147483647 := rfl
    omega

/-! ### The text of a token -/

variable {pair : KeyPair} {granted : EncodeGrants}

section Text

variable {username password : CString} {utcSeconds : Int64}

theorem directives_authTextFormat : directives authTextFormat =
    (bytesOf "user: ").map .char ++ .string :: ((bytesOf "\npwd:  ").map .char ++
      .string :: ((bytesOf "\nts:   ").map .char ++ [.int64])) := by
  decide

theorem tokenText_eq : tokenText username password utcSeconds =
    bytesOf "user: " ++ (username.bytes ++ (bytesOf "\npwd:  " ++ (password.bytes ++
      (bytesOf "\nts:   " ++ decimal utcSeconds.toInt)))) := by
  rw [tokenText, directives_authTextFormat]
  simp [bytesOf, print]

theorem inRange_toInt (n : Int64) : InRange n.toInt := ⟨n.le_toInt, n.toInt_lt⟩

/-- The buffer holds the text and its NUL. -/
theorem tokenText_fits : (tokenText username password utcSeconds).length ≤
    authTextFormat.length + username.bytes.length + password.bytes.length + 32 - 1 := by
  have number := decimal_length (inRange_toInt utcSeconds)
  have lengths : (bytesOf "user: ").length = 6 ∧ (bytesOf "\npwd:  ").length = 7 ∧
      (bytesOf "\nts:   ").length = 7 ∧ authTextFormat.length = 28 := by
    decide
  rw [tokenText_eq]
  simp only [List.length_append]
  omega

theorem tokenText_clean : 0 ∉ tokenText username password utcSeconds := by
  have clean : 0 ∉ bytesOf "user: " ∧ 0 ∉ bytesOf "\npwd:  " ∧ 0 ∉ bytesOf "\nts:   " := by
    decide
  rw [tokenText_eq]
  simp only [List.mem_append, not_or]
  exact ⟨clean.1, username.clean, clean.2.1, password.clean, clean.2.2,
    zero_not_mem_decimal _⟩

/-- A token is the encrypted text. -/
theorem encodeAuthSetting_some
    (encoded : encodeAuthSetting pair granted utcSeconds username password usePkcs1Padding =
      some token) :
    ∃ cipher, pair.encrypt usePkcs1Padding (tokenText username password utcSeconds) =
        some cipher ∧ cipher ≠ [] ∧ ¬ (pair.size = 0 ∨ intMax < pair.size) ∧
      base64Encode granted.encoded cipher = some token := by
  rw [encodeAuthSetting] at encoded
  dsimp only at encoded
  rw [List.take_of_length_le tokenText_fits, encryptRsaMessage] at encoded
  split_ifs at encoded with small allocated sizes allocated'
  cases encrypted : pair.encrypt usePkcs1Padding (tokenText username password utcSeconds) with
  | none =>
      rw [encrypted] at encoded
      cases encoded
  | some cipher =>
      rw [encrypted] at encoded
      dsimp only at encoded
      split_ifs at encoded with empty
      exact ⟨cipher, rfl, empty, sizes, encoded⟩

/-- The decoder scans the text that was encrypted. -/
theorem decodeAuthSetting_eq
    (encoded : encodeAuthSetting pair granted utcSeconds username password usePkcs1Padding =
      some token) :
    decodeAuthSetting pair ⟨true, true, true, true⟩ token usePkcs1Padding =
      match scan (directives authTextFormat) (tokenText username password utcSeconds) with
      | [.string username, .string password, .int64 utcSeconds] =>
          some (username, password, utcSeconds)
      | _ => none := by
  obtain ⟨cipher, encrypted, content, sizes, written⟩ := encodeAuthSetting_some encoded
  have text : tokenText username password utcSeconds ≠ [] := by
    rw [tokenText_eq]
    exact List.cons_ne_nil _ _
  have decrypted : decryptRsaMessage pair true cipher usePkcs1Padding =
      some (tokenText username password utcSeconds) := by
    rw [decryptRsaMessage, if_neg (not_or.mpr ⟨content, sizes⟩), if_pos rfl,
      pair.inverts encrypted, Option.filter_some, if_pos (decide_eq_true text)]
  rw [decodeAuthSetting, base64Decode_encode written]
  dsimp only
  rw [decrypted]
  dsimp only
  rw [if_pos ⟨rfl, rfl⟩, CString.takeWhile_ne_of_not_mem tokenText_clean]

end Text

/-! ### Which credentials survive -/

/-- No byte of the text is white space. -/
abbrev Solid (text : CString) : Prop := ∀ byte ∈ text.bytes, isSpace byte = false

theorem scan_tokenText {username password : CString} (utcSeconds : Int64)
    (named : IsWord username.bytes) (secret : IsWord password.bytes) :
    scan (directives authTextFormat) (tokenText username password utcSeconds) =
      [.string username.bytes, .string password.bytes, .int64 utcSeconds.toInt] := by
  refine scan_print (by decide) ?_
  rw [directives_authTextFormat]
  exact .chars (.string named (.chars (.string secret (.chars (.int64 (inRange_toInt _) .nil) _)) _)) _

theorem decodeAuthSetting_returns_iff {username password : CString} {utcSeconds : Int64}
    (encoded : encodeAuthSetting pair granted utcSeconds username password usePkcs1Padding =
      some token) (named : username.bytes ≠ []) (secret : password.bytes ≠ []) :
    decodeAuthSetting pair ⟨true, true, true, true⟩ token usePkcs1Padding =
        some (username.bytes, password.bytes, utcSeconds.toInt) ↔
      Solid username ∧ Solid password := by
  rw [decodeAuthSetting_eq encoded]
  constructor
  · intro returned
    split at returned
    · next scanned =>
        cases returned
        have words {text : List Byte} (member : .string text ∈ scan (directives authTextFormat)
            (tokenText username password utcSeconds)) : IsWord text :=
          isWord_of_mem_scan member
        rw [scanned] at words
        exact ⟨(words (by simp)).solid, (words (by simp)).solid⟩
    · cases returned
  · rintro ⟨first, second⟩
    rw [scan_tokenText utcSeconds ⟨named, first⟩ ⟨secret, second⟩]

/-- The bytes of a text are there if the text is. -/
theorem utf8_ne_nil {text : String} (content : text ≠ "") : Utf8.encode text.toList ≠ [] := by
  cases scalars : text.toList with
  | nil => exact absurd (String.toList_eq_nil_iff.mp scalars) content
  | cons c rest =>
      rw [Utf8.encode_cons]
      exact List.append_ne_nil_of_left_ne_nil
        (List.ne_nil_of_length_pos (Utf8.encodeChar_length_pos c)) _

/-- A client with a name is accepted with a password only. -/
theorem password_of_authenticationError {keys : Client.Keys}
    {configuration : Client.IperfConfiguration} (client : configuration.role = .client)
    (named : configuration.username ≠ "")
    (accepted : Client.authenticationError keys configuration = none) :
    configuration.password ≠ "" := by
  have option : configuration.hasAuthenticationOptionForSelectedRole = true := by
    simp [Client.IperfConfiguration.hasAuthenticationOptionForSelectedRole, client, named]
  rw [Client.authenticationError, client, option] at accepted
  dsimp only at accepted
  split_ifs at accepted with auth complete never
  · rintro empty
    simp [empty] at complete
  · exact absurd rfl never

/-- The server gets the credentials of an accepted client if and only if neither has white
space in it. -/
theorem credentials_survive_iff (keys : Client.Keys) (configuration : Client.IperfConfiguration)
    (pair : KeyPair) (granted : EncodeGrants) (utcSeconds : Int64) (token : List Byte)
    (client : configuration.role = .client) (named : configuration.username ≠ "")
    (cleanName : 0 ∉ Utf8.encode configuration.username.toList)
    (cleanSecret : 0 ∉ Utf8.encode configuration.password.toList)
    (accepted : Client.authenticationError keys configuration = none)
    (encoded : encodeAuthSetting pair granted utcSeconds ⟨_, cleanName⟩ ⟨_, cleanSecret⟩
      configuration.usePkcs1Padding = some token) :
    decodeAuthSetting pair ⟨true, true, true, true⟩ token configuration.usePkcs1Padding =
        some (Utf8.encode configuration.username.toList,
          Utf8.encode configuration.password.toList, utcSeconds.toInt) ↔
      Solid ⟨_, cleanName⟩ ∧ Solid ⟨_, cleanSecret⟩ :=
  decodeAuthSetting_returns_iff encoded (utf8_ne_nil named)
    (utf8_ne_nil (password_of_authenticationError client named accepted))

/-! ### Two clients -/

/-- A pair of keys for tests, which hides nothing. -/
def openPair : KeyPair := ⟨256, fun _ text => some text, fun _ cipher => some cipher, Eq.symm⟩

def namedClient (username : String) : Client.IperfConfiguration :=
  { role := .client, isAuth := true, publicKey := "key", username := username,
    password := "rossi" }

def openKeys : Client.Keys := ⟨fun _ => true, fun _ => true⟩

def marioToken : Option (List Byte) :=
  encodeAuthSetting openPair ⟨true, true, true⟩ 7 mario rossi false

theorem credentials_of_mario :
    Client.authenticationError openKeys (namedClient "mario") = none ∧
    ∃ token, marioToken = some token ∧
      decodeAuthSetting openPair ⟨true, true, true, true⟩ token false =
        some (mario.bytes, rossi.bytes, 7) := by
  have returned : marioToken.isSome = true := by decide +kernel
  obtain ⟨token, encoded⟩ := Option.isSome_iff_exists.mp returned
  refine ⟨by decide, token, encoded, ?_⟩
  exact (credentials_survive_iff openKeys (namedClient "mario") openPair ⟨true, true, true⟩ 7 token
    rfl (by decide) (by decide) (by decide) (by decide) encoded).mpr (by decide)

/-- A name of two words is accepted and encoded, and the decoder stops after the first word. -/
theorem credentials_of_twoWords :
    Client.authenticationError openKeys (namedClient "mario rossi") = none ∧
    ∃ token, encodeAuthSetting openPair ⟨true, true, true⟩ 7 ⟨bytesOf "mario rossi", by decide⟩
        rossi false = some token ∧
      decodeAuthSetting openPair ⟨true, true, true, true⟩ token false = none := by
  refine ⟨by decide, Base64.encode (bytesOf "user: mario rossi\npwd:  rossi\nts:   7"), ?_⟩
  decide +kernel

end IperfSwift.Auth
