import Mathlib.Algebra.Group.Nat.Defs
import Mathlib.Data.List.Basic

/-!
# SHA-256

The hash function of FIPS 180-4 on lists of bytes: the padding, the message
schedule, the 64 rounds of the compression function, and the digest.

The definitions follow the standard's section numbers and names. Everything is
structural, so a digest can be computed in a proof.

## Main definitions

* `sum256`: The digest.
-/

namespace Sha256

/-- The eight working variables, which are also the eight words of the hash
    value. -/
structure Working where
  a : UInt32
  b : UInt32
  c : UInt32
  d : UInt32
  e : UInt32
  f : UInt32
  g : UInt32
  h : UInt32
  deriving DecidableEq, Repr

/-- The 64 constants of section 4.2.2. -/
def roundConstants : List UInt32 :=
  [0x428a2f98, 0x71374491, 0xb5c0fbcf, 0xe9b5dba5, 0x3956c25b, 0x59f111f1, 0x923f82a4, 0xab1c5ed5,
    0xd807aa98, 0x12835b01, 0x243185be, 0x550c7dc3, 0x72be5d74, 0x80deb1fe, 0x9bdc06a7, 0xc19bf174,
    0xe49b69c1, 0xefbe4786, 0x0fc19dc6, 0x240ca1cc, 0x2de92c6f, 0x4a7484aa, 0x5cb0a9dc, 0x76f988da,
    0x983e5152, 0xa831c66d, 0xb00327c8, 0xbf597fc7, 0xc6e00bf3, 0xd5a79147, 0x06ca6351, 0x14292967,
    0x27b70a85, 0x2e1b2138, 0x4d2c6dfc, 0x53380d13, 0x650a7354, 0x766a0abb, 0x81c2c92e, 0x92722c85,
    0xa2bfe8a1, 0xa81a664b, 0xc24b8b70, 0xc76c51a3, 0xd192e819, 0xd6990624, 0xf40e3585, 0x106aa070,
    0x19a4c116, 0x1e376c08, 0x2748774c, 0x34b0bcb5, 0x391c0cb3, 0x4ed8aa4a, 0x5b9cca4f, 0x682e6ff3,
    0x748f82ee, 0x78a5636f, 0x84c87814, 0x8cc70208, 0x90befffa, 0xa4506ceb, 0xbef9a3f7, 0xc67178f2]

/-- The initial hash value of section 5.3.3. -/
def initialHash : Working :=
  ⟨0x6a09e667, 0xbb67ae85, 0x3c6ef372, 0xa54ff53a,
    0x510e527f, 0x9b05688c, 0x1f83d9ab, 0x5be0cd19⟩

/-- `ROTR`, for `0 < n < 32`. -/
def rotr (n : UInt32) (x : UInt32) : UInt32 :=
  (x >>> n) ||| (x <<< (32 - n))

/-- `Ch`: each bit of `x` chooses between those of `y` and `z`. -/
def ch (x y z : UInt32) : UInt32 :=
  (x &&& y) ^^^ (~~~x &&& z)

/-- `Maj`: the majority of three bits. -/
def maj (x y z : UInt32) : UInt32 :=
  (x &&& y) ^^^ (x &&& z) ^^^ (y &&& z)

/-- `Σ₀` and `Σ₁`, of the rounds. -/
def bigSigma0 (x : UInt32) : UInt32 :=
  rotr 2 x ^^^ rotr 13 x ^^^ rotr 22 x

@[inherit_doc bigSigma0]
def bigSigma1 (x : UInt32) : UInt32 :=
  rotr 6 x ^^^ rotr 11 x ^^^ rotr 25 x

/-- `σ₀` and `σ₁`, of the message schedule. -/
def smallSigma0 (x : UInt32) : UInt32 :=
  rotr 7 x ^^^ rotr 18 x ^^^ (x >>> 3)

@[inherit_doc smallSigma0]
def smallSigma1 (x : UInt32) : UInt32 :=
  rotr 17 x ^^^ rotr 19 x ^^^ (x >>> 10)

/-- `count` words of the message schedule, of which the first sixteen are
    `window`. Each word that is used makes room for one at the end. -/
def expand : Nat → List UInt32 → List UInt32
  | 0, _ => []
  | _ + 1, [] => []
  | count + 1, w :: rest =>
    -- `W[t-2]`, `W[t-7]`, `W[t-15]` and `W[t-16]`, the last of which is `w`.
    w :: expand count (rest ++
      [smallSigma1 (rest.getD 13 0) + rest.getD 8 0 + smallSigma0 (rest.getD 0 0) + w])

/-- One round, with its constant and its word of the schedule. -/
def round (v : Working) (kw : UInt32 × UInt32) : Working :=
  let t1 := v.h + bigSigma1 v.e + ch v.e v.f v.g + kw.1 + kw.2
  let t2 := bigSigma0 v.a + maj v.a v.b v.c
  ⟨t1 + t2, v.a, v.b, v.c, v.d + t1, v.e, v.f, v.g⟩

/-- The compression function on one block of sixteen words. -/
def compress (H : Working) (block : List UInt32) : Working :=
  let v := (roundConstants.zip (expand 64 block)).foldl round H
  ⟨H.a + v.a, H.b + v.b, H.c + v.c, H.d + v.d, H.e + v.e, H.f + v.f, H.g + v.g, H.h + v.h⟩

/-- `count` bytes of a number, most significant first. -/
def bigEndian (count n : Nat) : List UInt8 :=
  (List.range count).reverse.map (fun i => UInt8.ofNat (n / 256 ^ i))

/-- The padded message of section 5.1.1, a whole number of blocks. -/
def pad (message : List UInt8) : List UInt8 :=
  message ++ 0x80 :: List.replicate ((119 - message.length % 64) % 64) 0 ++
    bigEndian 8 (8 * message.length)

/-- Bytes as big-endian words. -/
def words : List UInt8 → List UInt32
  | b₀ :: b₁ :: b₂ :: b₃ :: rest =>
    UInt32.ofNat (((b₀.toNat * 256 + b₁.toNat) * 256 + b₂.toNat) * 256 + b₃.toNat) :: words rest
  | _ => []

/-- The compression function on block after block. -/
def hashBlocks : Nat → Working → List UInt32 → Working
  | 0, H, _ => H
  | blocks + 1, H, ws => hashBlocks blocks (compress H (ws.take 16)) (ws.drop 16)

/-- The digest of a message, 32 bytes. -/
def sum256 (message : List UInt8) : List UInt8 :=
  let ws := words (pad message)
  let H := hashBlocks (ws.length / 16) initialHash ws
  [H.a, H.b, H.c, H.d, H.e, H.f, H.g, H.h].flatMap (fun w => bigEndian 4 w.toNat)

/-- The standard's one-block example, `"abc"`. -/
example : sum256 [0x61, 0x62, 0x63] = bigEndian 32
    0xba7816bf8f01cfea414140de5dae2223b00361a396177a9cb410ff61f20015ad := by
  decide +kernel

end Sha256
