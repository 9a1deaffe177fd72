import CoopDB.Core.Token
import CoopDB.Lib.Utf8

/-!
# Bearer Tokens and Hashes in Bytes

`ParseBearer`, `HashSecret` and `VerifySecret` of `internal/auth/key.go` once
more, for what the text model of them leaves out: headers and secrets that are
any bytes, an argon2id of which nothing is known, the loop that compares two
hashes, and the panic of `argon2.IDKey`.

`strings.TrimSpace` decodes one character after the other from either end and
goes on while it is white space. Bytes that are no UTF-8 decode to a character
that is none. No encoding of a character begins or ends another, so this drops
the encodings of white space from both ends.

A stored hash is a text in `verifySecretWith` and any bytes in
`verifySecretBytes`. The parts of one are scanned or decoded. `Sscanf` reads
characters, and bytes that are no UTF-8 as the replacement character; to
`DecodeString` everything outside its alphabet is the same.

## Main definitions

* `StoredHash`, `readStoredHash`, `verifySecretBytes`: A stored hash of any bytes.
-/

namespace CoopDB

/-- The characters of `unicode.IsSpace`. -/
def spaceChars : List Char :=
  charsFrom '\t' 5 ++ [' ', '\u0085', '\u00A0', '\u1680'] ++ charsFrom '\u2000' 11 ++
    ['\u2028', '\u2029', '\u202F', '\u205F', '\u3000']

/-- White space in UTF-8. -/
def spaceRunes : List Bytes :=
  spaceChars.map String.utf8EncodeChar

/-- Drop runes off the front, at most so many. -/
def dropRunes (runes : List Bytes) : Nat → Bytes → Bytes
  | 0, l => l
  | n + 1, l =>
    match runes.find? (·.isPrefixOf l) with
    | some rune => dropRunes runes n (l.drop rune.length)
    | none => l

/-- `strings.TrimSpace`. There are not more runes than bytes. -/
def trimSpaceBytes (text : Bytes) : Bytes :=
  let text := dropRunes spaceRunes text.length text
  (dropRunes (spaceRunes.map List.reverse) text.length text.reverse).reverse

/-- `strings.TrimPrefix`. -/
def trimPrefixBytes (start text : Bytes) : Bytes :=
  if start.isPrefixOf text then text.drop start.length else text

/-- The character that separates the parts of a token. -/
def underscore : UInt8 := 0x5F

/-- The env of a tag, if `IsValid`. -/
def environmentOf (tag : Bytes) : Option KeyEnvironment :=
  [.live, .dev, .test].find? fun env : KeyEnvironment => utf8 env.tag = tag

/-- `ParsedKey`. -/
structure BearerKey where
  env : KeyEnvironment
  keyID : Bytes
  secret : Bytes
  fullToken : Bytes
  deriving DecidableEq

/-- `ParseBearer` from the trimmed token on. -/
def parseTokenBytes (header : Bytes) : Option BearerKey :=
  if (utf8 "acd_").isPrefixOf header then
    let rest := header.drop (utf8 "acd_").length
    match rest.idxOf? underscore with
    | none => none
    | some sep =>
      if sep < 1 then none
      else
        match environmentOf (rest.take sep) with
        | none => none
        | some env =>
          let rest := rest.drop (sep + 1)
          if rest.length ≠ keyIDEncodedLen + 1 + secretEncodedLen then none
          else if rest[keyIDEncodedLen]? ≠ some underscore then none
          else some { env := env, keyID := rest.take keyIDEncodedLen
                      secret := rest.drop (keyIDEncodedLen + 1), fullToken := header }
  else none

/-- `ParseBearer`. -/
def parseBearerBytes (header : Bytes) : Option BearerKey :=
  let header := trimSpaceBytes header
  if header.isEmpty then none
  else parseTokenBytes (trimSpaceBytes (trimPrefixBytes (utf8 "Bearer ") header))

/-- `argon2.IDKey`, with a time and threads it takes. -/
abbrev IDKey := (password salt : Bytes) → (time memory threads keyLen : Nat) → Bytes

/-- An argon2id that returns as many bytes as it is asked for. -/
structure Argon2id where
  idKey : IDKey
  length_idKey : ∀ (password salt : Bytes) (time memory threads : Nat),
    (idKey password salt time memory threads argonKeyLen).length = argonKeyLen

/-- `subtleConstantTimeEq`. -/
def subtleConstantTimeEq (a b : Bytes) : Bool :=
  if a.length ≠ b.length then false
  else (a.zip b).foldl (fun v pair => v ||| (pair.1 ^^^ pair.2)) 0 == 0

/-- `HashSecret` of any bytes, with the salt it draws. -/
def hashSecretWith (idKey : IDKey) (secret salt : Bytes) : String :=
  let hash := idKey secret salt argonTime argonMemory argonThreads argonKeyLen
  "$argon2id$v=" ++ toString argonVersion ++ "$m=" ++ toString argonMemory ++ ",t=" ++
    toString argonTime ++ ",p=" ++ toString argonThreads ++ "$" ++
    String.ofList (Base64.encode rawStdEncoding salt) ++ "$" ++
    String.ofList (Base64.encode rawStdEncoding hash)

/-- How a call of `VerifySecret` ends. -/
inductive Verified
  | passed
  | invalidKey
  | panicked
  deriving DecidableEq

/-- `VerifySecret`. -/
def verifySecretWith (idKey : IDKey) (secret : Bytes) (phc : String) : Verified :=
  match phc.toList.splitOn '$' with
  | [_, name, version, parameters, salt, hash] =>
    if name ≠ "argon2id".toList then .invalidKey
    else if scanVersion version ≠ some (argonVersion : Int) then .invalidKey
    else
      match scanParameters parameters, Base64.decode rawStdEncoding salt,
        Base64.decode rawStdEncoding hash with
      | some (m, t, p), some salt, some want =>
        if want.length ≠ argonKeyLen then .invalidKey
        -- `IDKey` panics if the time or the threads are none.
        else if t < 1 ∨ p < 1 then .panicked
        else if subtleConstantTimeEq (idKey secret salt t m p argonKeyLen) want then .passed
        else .invalidKey
      | _, _, _ => .invalidKey
  | _ => .invalidKey

/-- The character between the parts of a stored hash. -/
def phcSeparator : UInt8 := 0x24

/-- What `VerifySecret` has read off a stored hash when it calls `IDKey`. -/
structure StoredHash where
  memory : Nat
  time : Nat
  threads : Nat
  salt : Bytes
  want : Bytes
  length_want : want.length = argonKeyLen

/-- `VerifySecret` up to its call of `IDKey`. Every return on the way is
    `ErrInvalidKey`. -/
def readStoredHash (phc : Bytes) : Option StoredHash :=
  match phc.splitOn phcSeparator with
  | [_, name, version, parameters, salt, hash] =>
    if name ≠ utf8 "argon2id" then none
    else if scanVersion (Utf8.decode version) ≠ some (argonVersion : Int) then none
    else
      match scanParameters (Utf8.decode parameters),
        Base64.decode rawStdEncoding (Utf8.decode salt),
        Base64.decode rawStdEncoding (Utf8.decode hash) with
      | some (m, t, p), some salt, some want =>
        if h : want.length = argonKeyLen then some ⟨m, t, p, salt, want, h⟩ else none
      | _, _, _ => none
  | _ => none

/-- `VerifySecret` with a stored hash of any bytes. -/
def verifySecretBytes (idKey : IDKey) (secret phc : Bytes) : Verified :=
  match readStoredHash phc with
  | none => .invalidKey
  | some stored =>
    if stored.time < 1 ∨ stored.threads < 1 then .panicked
    else if subtleConstantTimeEq (idKey secret stored.salt stored.time stored.memory stored.threads
        argonKeyLen) stored.want then .passed
    else .invalidKey

end CoopDB
