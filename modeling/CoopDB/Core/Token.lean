import CoopDB.Core.Authenticate
import CoopDB.Core.MintKey
import CoopDB.Lib.Base64
import Mathlib.Algebra.Group.Nat.Defs

/-!
# Tokens and the Hashes of Their Secrets

`Mint`, `HashSecret` and `VerifySecret` of `internal/auth/key.go`: how a token is
put together, what is stored of it, and how a secret is checked against that.

A token has an env tag, a key id and a secret. The key id is stored as it is, the
secret as a text in the PHC format, with the salt and the parameters it was
hashed with. `VerifySecret` reads the parameters from the stored text.

argon2id is code of a library. All that is assumed of it is that under one salt
and the same parameters it hashes different secrets to different keys. `Sscanf` is
as in the library for the two formats it is called with: characters of the format
have to be there, a number may have spaces before it, and what follows the last
number is not looked at.

## Main definitions

* `bearerText`, `tokenEnv`: The token in a header, and its env tag.
-/

namespace CoopDB

/-- The characters from one on. -/
def charsFrom (first : Char) (n : Nat) : List Char :=
  (List.range n).map fun i => Char.ofNat (first.toNat + i)

/-- `base64.RawURLEncoding`. -/
def rawURLEncoding : Base64.Alphabet where
  chars := charsFrom 'A' 26 ++ charsFrom 'a' 26 ++ charsFrom '0' 10 ++ ['-', '_']
  length_chars := by decide +kernel
  nodup := by decide +kernel
  newline := by decide +kernel

/-- `base64.RawStdEncoding`. -/
def rawStdEncoding : Base64.Alphabet where
  chars := charsFrom 'A' 26 ++ charsFrom 'a' 26 ++ charsFrom '0' 10 ++ ['+', '/']
  length_chars := by decide +kernel
  nodup := by decide +kernel
  newline := by decide +kernel

/-- The bytes that are drawn for a key id. -/
def keyIDRawBytes : Nat := 12

/-- The bytes that are drawn for a secret. -/
def secretRawBytes : Nat := 24

/-- The version of argon2 that is written into a hash. -/
def argonVersion : Nat := 0x13

def argonTime : Nat := 2

def argonMemory : Nat := 64 * 1024

def argonThreads : Nat := 2

def argonKeyLen : Nat := 32

def argonSaltLen : Nat := 16

/-- A token from its parts. -/
def tokenText (env : KeyEnvironment) (keyID secret : String) : String :=
  "acd_" ++ env.tag ++ "_" ++ keyID ++ "_" ++ secret

/-- The random draws for one key. -/
structure KeyDraws where
  id : Uuid
  idBytes : Bytes
  secBytes : Bytes
  salt : Bytes
  length_idBytes : idBytes.length = keyIDRawBytes
  length_secBytes : secBytes.length = secretRawBytes
  length_salt : salt.length = argonSaltLen

/-- The key id of the draws. -/
def KeyDraws.keyID (draws : KeyDraws) : String :=
  String.ofList (Base64.encode rawURLEncoding draws.idBytes)

/-- The secret of the draws. -/
def KeyDraws.secret (draws : KeyDraws) : String :=
  String.ofList (Base64.encode rawURLEncoding draws.secBytes)

/-- `Mint` with a valid env: the key id, the secret and the token. -/
def mint (env : KeyEnvironment) (draws : KeyDraws) : String × String × String :=
  (draws.keyID, draws.secret, tokenText env draws.keyID draws.secret)

/-- `argon2.IDKey`, which keeps secrets apart in keys of the length that is asked for. -/
structure Argon2 where
  idKey : (password salt : Bytes) → (time memory threads keyLen : Nat) → Bytes
  injective : ∀ (salt : Bytes) (time memory threads : Nat) (a b : Bytes),
    a.length = secretEncodedLen → b.length = secretEncodedLen →
    idKey a salt time memory threads argonKeyLen = idKey b salt time memory threads argonKeyLen →
    a = b

/-- `HashSecret`, with the salt it draws. -/
def hashSecret (argon : Argon2) (secret : String) (salt : Bytes) : String :=
  let hash := argon.idKey (utf8 secret) salt argonTime argonMemory argonThreads argonKeyLen
  "$argon2id$v=" ++ toString argonVersion ++ "$m=" ++ toString argonMemory ++ ",t=" ++
    toString argonTime ++ ",p=" ++ toString argonThreads ++ "$" ++
    String.ofList (Base64.encode rawStdEncoding salt) ++ "$" ++
    String.ofList (Base64.encode rawStdEncoding hash)

/-- The characters of a format have to be there. -/
def scanLiteral (literal text : List Char) : Option (List Char) :=
  if literal.isPrefixOf text then some (text.drop literal.length) else none

/-- `SkipSpace`, which refuses line ends. -/
def skipSpace : List Char → Option (List Char)
  | [] => some []
  | c :: text => if c = '\n' then none else if isSpace c then skipSpace text else some (c :: text)

/-- A decimal number of at least one digit. -/
def scanNumber (text : List Char) : Option (Nat × List Char) :=
  let digits := text.takeWhile Char.isDigit
  if digits.isEmpty then none
  else some (digits.foldl (fun n c => 10 * n + (c.toNat - 48)) 0, text.drop digits.length)

/-- `%d` into an unsigned integer of so many bits. -/
def scanUint (bits : Nat) (text : List Char) : Option (Nat × List Char) := do
  let text ← skipSpace text
  let scanned ← scanNumber text
  if scanned.1 < 2 ^ bits then some scanned else none

/-- `%d` into an `int`. -/
def scanInt (text : List Char) : Option (Int × List Char) := do
  let text ← skipSpace text
  match text with
  | '-' :: text =>
    let scanned ← scanNumber text
    if scanned.1 ≤ 2 ^ 63 then some (-scanned.1, scanned.2) else none
  | '+' :: text =>
    let scanned ← scanNumber text
    if scanned.1 < 2 ^ 63 then some (scanned.1, scanned.2) else none
  | text =>
    let scanned ← scanNumber text
    if scanned.1 < 2 ^ 63 then some (scanned.1, scanned.2) else none

/-- `Sscanf` with the format of the version. -/
def scanVersion (text : List Char) : Option Int := do
  let text ← scanLiteral "v=".toList text
  let version ← scanInt text
  return version.1

/-- `Sscanf` with the format of the parameters: memory, time and threads. -/
def scanParameters (text : List Char) : Option (Nat × Nat × Nat) := do
  let text ← scanLiteral "m=".toList text
  let memory ← scanUint 32 text
  let text ← scanLiteral ",t=".toList memory.2
  let time ← scanUint 32 text
  let text ← scanLiteral ",p=".toList time.2
  let threads ← scanUint 8 text
  return (memory.1, time.1, threads.1)

/-- `VerifySecret` returns no error. -/
def verifySecret (argon : Argon2) (secret phc : String) : Bool :=
  match phc.toList.splitOn '$' with
  | [_, name, version, parameters, salt, hash] =>
    if name ≠ "argon2id".toList then false
    else if scanVersion version ≠ some (argonVersion : Int) then false
    else
      match scanParameters parameters, Base64.decode rawStdEncoding salt,
        Base64.decode rawStdEncoding hash with
      | some (m, t, p), some salt, some want =>
        want.length = argonKeyLen && argon.idKey (utf8 secret) salt t m p argonKeyLen = want
      | _, _, _ => false
  | _ => false

/-- What is made of the draws for a key of the env. -/
def Argon2.minted (argon : Argon2) (env : KeyEnvironment) (draws : KeyDraws) : Minted :=
  let made := mint env draws
  { id := draws.id, keyID := made.1, fullToken := made.2.2
    secretHash := hashSecret argon made.2.1 draws.salt }

/-- The token in a header, after trimming it and removing one `Bearer`. -/
def bearerText (header : String) : String :=
  String.ofList (trimSpace (trimPrefix "Bearer ".toList (trimSpace header.toList)))

/-- The env tag `ParseBearer` reads off a token. -/
def tokenEnv (token : String) : Option KeyEnvironment :=
  keyEnvironment (String.ofList ((token.toList.drop 4).takeWhile (· != '_')))

end CoopDB
