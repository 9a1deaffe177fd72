import Mathlib.Data.List.FinRange
import Mathlib.Data.List.Nodup

/-!
# Base64 Without Padding

Bytes as digits of six bits, four digits for three bytes, and the digits as
characters of an alphabet. There is no padding: one byte left over takes two
digits and two take three.

Decoding drops line ends and refuses every other character that is not of the
alphabet. It does not look at the bits of the last digit that stand for nothing,
so it takes more texts than encoding produces.

## Main definitions

* `encode`, `decode`: Bytes to text and back.

## Theorems

* `bytes_digits`, `decode_encode`: What was encoded decodes to itself.
* `length_encode`: The length of a text.
* `mem_of_mem_encode`: The text is of the alphabet.
-/

namespace Base64

/-- The characters of the digits, in order. -/
structure Alphabet where
  chars : List Char
  length_chars : chars.length = 64
  nodup : chars.Nodup
  newline : '\n' ∉ chars ∧ '\r' ∉ chars

/-- The digits of some bytes, each below 64. -/
def digits : List UInt8 → List (Fin 64)
  | [] => []
  | [a] => [Fin.ofNat 64 (a.toNat / 4), Fin.ofNat 64 (a.toNat % 4 * 16)]
  | [a, b] =>
    [Fin.ofNat 64 (a.toNat / 4), Fin.ofNat 64 (a.toNat % 4 * 16 + b.toNat / 16),
      Fin.ofNat 64 (b.toNat % 16 * 4)]
  | a :: b :: c :: rest =>
    Fin.ofNat 64 (a.toNat / 4) :: Fin.ofNat 64 (a.toNat % 4 * 16 + b.toNat / 16) ::
      Fin.ofNat 64 (b.toNat % 16 * 4 + c.toNat / 64) :: Fin.ofNat 64 (c.toNat % 64) :: digits rest

/-- The bytes of some digits. One digit alone is no byte. -/
def bytes : List (Fin 64) → Option (List UInt8)
  | [] => some []
  | [_] => none
  | [s, t] => some [UInt8.ofNat (s.val * 4 + t.val / 16)]
  | [s, t, u] =>
    some [UInt8.ofNat (s.val * 4 + t.val / 16), UInt8.ofNat (t.val % 16 * 16 + u.val / 4)]
  | s :: t :: u :: v :: rest =>
    (bytes rest).map fun l => UInt8.ofNat (s.val * 4 + t.val / 16) ::
      UInt8.ofNat (t.val % 16 * 16 + u.val / 4) :: UInt8.ofNat (u.val % 4 * 64 + v.val) :: l

namespace Alphabet

variable (α : Alphabet)

/-- The character of a digit. -/
def char (n : Fin 64) : Char :=
  α.chars.get (n.cast α.length_chars.symm)

/-- The digit of a character. -/
def digit (c : Char) : Option (Fin 64) :=
  (List.finRange 64).find? fun n => α.char n = c

theorem char_mem (n : Fin 64) : α.char n ∈ α.chars :=
  List.get_mem _ _

theorem char_injective (m n : Fin 64) (h : α.char m = α.char n) : m = n := by
  have hcast := List.nodup_iff_injective_get.mp α.nodup h
  exact Fin.cast_injective _ hcast

theorem digit_char (n : Fin 64) : α.digit (α.char n) = some n := by
  unfold digit
  cases hfind : (List.finRange 64).find? (fun m => α.char m = α.char n) with
  | none =>
    have hnone := List.find?_eq_none.mp hfind n (List.mem_finRange n)
    exact absurd (decide_eq_true rfl) hnone
  | some m =>
    have hfound := List.find?_some hfind
    have hchar : α.char m = α.char n := of_decide_eq_true (p := α.char m = α.char n) hfound
    rw [α.char_injective m n hchar]

end Alphabet

/-- The text of some bytes. -/
def encode (α : Alphabet) (l : List UInt8) : List Char :=
  (digits l).map α.char

/-- The bytes of a text. Line ends are skipped. -/
def decode (α : Alphabet) (text : List Char) : Option (List UInt8) :=
  ((text.filter fun c => c ≠ '\n' ∧ c ≠ '\r').mapM α.digit).bind bytes

/-- A byte put together from its parts. -/
theorem ofNat_eq {a : UInt8} {n : Nat} (h : n = a.toNat) : UInt8.ofNat n = a := by
  rw [h]
  exact UInt8.ofNat_toNat

/-- The first of three bytes is six bits and two, whatever follows them. -/
theorem first_byte (a : UInt8) (x : Nat) (hx : x < 16) :
    UInt8.ofNat ((Fin.ofNat 64 (a.toNat / 4)).val * 4 +
      (Fin.ofNat 64 (a.toNat % 4 * 16 + x)).val / 16) = a := by
  have ha := a.toNat_lt
  refine ofNat_eq ?_
  simp only [Fin.ofNat]
  omega

/-- The second is four and four. -/
theorem second_byte (b : UInt8) (x y : Nat) (hy : y < 4) :
    UInt8.ofNat ((Fin.ofNat 64 (x * 16 + b.toNat / 16)).val % 16 * 16 +
      (Fin.ofNat 64 (b.toNat % 16 * 4 + y)).val / 4) = b := by
  have hb := b.toNat_lt
  refine ofNat_eq ?_
  simp only [Fin.ofNat]
  omega

/-- The third is two and six. -/
theorem third_byte (c : UInt8) (x : Nat) :
    UInt8.ofNat ((Fin.ofNat 64 (x * 4 + c.toNat / 64)).val % 4 * 64 +
      (Fin.ofNat 64 (c.toNat % 64)).val) = c := by
  have hc := c.toNat_lt
  refine ofNat_eq ?_
  simp only [Fin.ofNat]
  omega

variable (α : Alphabet) (l : List UInt8)

theorem bytes_digits : bytes (digits l) = some l := by
  fun_induction digits l with
  | case1 => rfl
  | case2 a =>
    have hfirst := first_byte a 0 (by decide)
    rw [Nat.add_zero] at hfirst
    rw [bytes, hfirst]
  | case3 a b =>
    have hb : b.toNat / 16 < 16 := Nat.div_lt_of_lt_mul b.toNat_lt
    have hsecond := second_byte b (a.toNat % 4) 0 (by decide)
    rw [Nat.add_zero] at hsecond
    rw [bytes, first_byte a _ hb, hsecond]
  | case4 a b c rest ih =>
    have hb : b.toNat / 16 < 16 := Nat.div_lt_of_lt_mul b.toNat_lt
    have hc : c.toNat / 64 < 4 := Nat.div_lt_of_lt_mul c.toNat_lt
    rw [bytes, ih, Option.map_some, first_byte a _ hb, second_byte b _ _ hc, third_byte c _]

/-- Four digits for three bytes, and one more than the bytes that are left. -/
theorem length_digits : (digits l).length = (4 * l.length + 2) / 3 := by
  fun_induction digits l with
  | case1 => rfl
  | case2 a => simp
  | case3 a b =>
    simp
  | case4 a b c rest ih =>
    simp only [List.length_cons, ih]
    omega

theorem length_encode : (encode α l).length = (4 * l.length + 2) / 3 := by
  rw [encode, List.length_map, length_digits]

theorem mem_of_mem_encode {c : Char} (h : c ∈ encode α l) : c ∈ α.chars := by
  rcases List.mem_map.mp h with ⟨n, _, rfl⟩
  exact α.char_mem n

theorem mapM_digit (ns : List (Fin 64)) : (ns.map α.char).mapM α.digit = some ns := by
  induction ns with
  | nil => rfl
  | cons n ns ih =>
    rw [List.map_cons, List.mapM_cons, α.digit_char, ih]
    rfl

theorem decode_encode : decode α (encode α l) = some l := by
  have hkept : (encode α l).filter (fun c => c ≠ '\n' ∧ c ≠ '\r') = encode α l := by
    refine List.filter_eq_self.mpr fun c hc => decide_eq_true ?_
    have hmem := mem_of_mem_encode α l hc
    exact ⟨fun h => α.newline.1 (h ▸ hmem), fun h => α.newline.2 (h ▸ hmem)⟩
  rw [decode, hkept, encode, mapM_digit, Option.bind_some, bytes_digits]

end Base64
