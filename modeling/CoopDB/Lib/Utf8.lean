import Mathlib.Data.List.Basic

/-!
# Texts in UTF-8

The bytes of a text, one character after the other. No encoding of a character
begins another one, and none ends another one either: a character has its first
byte at the front, and no byte behind it is a first byte. So characters can be
told apart from both ends of a text.

Any bytes can be read as a text. A byte that begins no character stands for the
replacement character then.

## Main definitions

* `encode`, `decode`: The bytes of a text, and the text of any bytes.

## Theorems

* `decode_encode`: Reading the bytes of a text gives the text.
-/

namespace Utf8

open String (utf8EncodeChar)

/-- The bytes of a text. -/
def encode (text : List Char) : List UInt8 :=
  text.flatMap utf8EncodeChar

@[simp] theorem encode_nil : encode [] = [] :=
  rfl

@[simp] theorem encode_cons (c : Char) (text : List Char) :
    encode (c :: text) = utf8EncodeChar c ++ encode text :=
  List.flatMap_cons

@[simp] theorem encode_append (a b : List Char) : encode (a ++ b) = encode a ++ encode b :=
  List.flatMap_append

/-- The character some bytes begin with. -/
def front (bytes : List UInt8) : Option Char :=
  bytes.toByteArray.utf8DecodeChar? 0

variable (c : Char) (text : List Char) (d : Char)

theorem front_encode (rest : List UInt8) : front (utf8EncodeChar c ++ rest) = some c := by
  rw [front, List.toByteArray_append, ← List.utf8Encode_singleton]
  exact List.utf8DecodeChar?_utf8Encode_singleton_append

/-- Bytes begin with the encoding of one character at most. -/
theorem eq_of_front (x y : List UInt8) (h : utf8EncodeChar c ++ x = utf8EncodeChar d ++ y) :
    c = d :=
  Option.some.inj ((front_encode c x).symm.trans (h ▸ front_encode d y))

/-- The first characters of any bytes, not more than `count`. A byte that begins
    no character is passed over alone. -/
def runes : Nat → List UInt8 → List Char
  | 0, _ => []
  | _ + 1, [] => []
  | count + 1, b :: bytes =>
    match front (b :: bytes) with
    | some c => c :: runes count ((b :: bytes).drop c.utf8Size)
    | none => '\uFFFD' :: runes count bytes

/-- The text of any bytes. There are not more characters than bytes. -/
def decode (bytes : List UInt8) : List Char :=
  runes bytes.length bytes

theorem runes_encode (count : Nat) (h : (encode text).length ≤ count) :
    runes count (encode text) = text := by
  induction text generalizing count with
  | nil =>
    cases count with
    | zero | succ => rfl
  | cons c text ih =>
    have hsize : (utf8EncodeChar c).length = c.utf8Size := String.length_utf8EncodeChar c
    have hpos : 0 < c.utf8Size := Char.utf8Size_pos c
    rw [encode_cons, List.length_append, hsize] at h
    obtain ⟨count, rfl⟩ : ∃ m, count = m + 1 := ⟨count - 1, by omega⟩
    obtain ⟨b, bytes, hb⟩ : ∃ b bytes, encode (c :: text) = b :: bytes :=
      List.exists_cons_of_ne_nil
        (List.append_ne_nil_of_left_ne_nil String.utf8EncodeChar_ne_nil (encode text))
    have hfront : front (b :: bytes) = some c := by
      rw [← hb, encode_cons]
      exact front_encode c (encode text)
    have hdrop : (b :: bytes).drop c.utf8Size = encode text := by
      rw [← hb, encode_cons, ← hsize]
      exact List.drop_left
    rw [hb]
    simp only [runes, hfront, hdrop]
    rw [ih count (by omega)]

/-- Reading the bytes of a text gives the text. -/
theorem decode_encode : decode (encode text) = text :=
  runes_encode text _ (Nat.le_refl _)

/-- An encoding that ends another is all of it: its first byte is a first byte there
    too, and there is only one. -/
theorem length_eq_of_suffix (x : List UInt8) (h : utf8EncodeChar d = x ++ utf8EncodeChar c) :
    x = [] := by
  have hpos : 0 < (utf8EncodeChar c).length :=
    List.length_pos_of_ne_nil String.utf8EncodeChar_ne_nil
  have hlength := congrArg List.length h
  rw [List.length_append] at hlength
  have hin : x.length < (utf8EncodeChar d).length := by omega
  have hbyte : (utf8EncodeChar d)[x.length] = (utf8EncodeChar c)[0] := by
    have hget : (utf8EncodeChar d)[x.length]? = (utf8EncodeChar c)[0]? := by
      rw [h, List.getElem?_append_right (Nat.le_refl _), Nat.sub_self]
    rw [List.getElem?_eq_getElem hin, List.getElem?_eq_getElem hpos] at hget
    exact Option.some.inj hget
  have hfirst : ((utf8EncodeChar c)[0]).IsUTF8FirstByte :=
    UInt8.isUTF8FirstByte_getElem_utf8EncodeChar.mpr rfl
  rw [← hbyte] at hfirst
  exact List.eq_nil_of_length_eq_zero (UInt8.isUTF8FirstByte_getElem_utf8EncodeChar.mp hfirst)

/-- Bytes end with the encoding of one character at most. -/
theorem eq_of_back (x y : List UInt8) (h : x ++ utf8EncodeChar c = y ++ utf8EncodeChar d) :
    c = d := by
  have hsame : ∀ (e f : Char) (z : List UInt8), utf8EncodeChar e = z ++ utf8EncodeChar f →
      e = f := by
    intro e f z hz
    rw [length_eq_of_suffix f e z hz, List.nil_append] at hz
    exact eq_of_front e f [] [] (by rw [List.append_nil, List.append_nil, hz])
  rcases List.append_eq_append_iff.mp h with ⟨z, _, hz⟩ | ⟨z, _, hz⟩
  · exact hsame c d z hz
  · exact (hsame d c z hz).symm

/-- The bytes of a text begin with those of another exactly if the text does. -/
theorem encode_prefix_iff (a b : List Char) : encode a <+: encode b ↔ a <+: b := by
  constructor
  · intro h
    induction a generalizing b with
    | nil => exact List.nil_prefix
    | cons c a ih =>
      obtain ⟨x, hx⟩ := h
      cases b with
      | nil =>
        rw [encode_cons, List.append_assoc, encode_nil] at hx
        exact absurd (List.append_eq_nil_iff.mp hx).1 String.utf8EncodeChar_ne_nil
      | cons d b =>
        rw [encode_cons, encode_cons, List.append_assoc] at hx
        obtain rfl := eq_of_front c d _ _ hx
        exact List.cons_prefix_cons.mpr ⟨rfl, ih b ⟨x, List.append_cancel_left hx⟩⟩
  · rintro ⟨x, rfl⟩
    exact ⟨encode x, (encode_append a x).symm⟩

/-- A character of one byte is in the encoding of no other. -/
theorem eq_of_mem (b : UInt8) (hb : utf8EncodeChar c = [b]) (h : b ∈ utf8EncodeChar d) : d = c := by
  obtain ⟨i, hi, hget⟩ := List.mem_iff_getElem.mp h
  have hfirst : b.IsUTF8FirstByte := by
    have hpos : 0 < (utf8EncodeChar c).length :=
      List.length_pos_of_ne_nil String.utf8EncodeChar_ne_nil
    have hzero : ((utf8EncodeChar c)[0]).IsUTF8FirstByte :=
      UInt8.isUTF8FirstByte_getElem_utf8EncodeChar.mpr rfl
    simpa only [hb, List.getElem_cons_zero] using hzero
  rw [← hget] at hfirst
  obtain rfl := UInt8.isUTF8FirstByte_getElem_utf8EncodeChar.mp hfirst
  -- It begins the other encoding, so it is the other encoding.
  refine (eq_of_front c d ((utf8EncodeChar d).drop 1) [] ?_).symm
  rw [hb, List.append_nil, ← hget, List.singleton_append]
  exact List.getElem_cons_drop hi

/-- Where the bytes have a character of one byte, the text has it. -/
theorem position_of_byte {b : UInt8} (hb : utf8EncodeChar c = [b]) (text : List Char) (n : Nat)
    (h : (encode text)[n]? = some b) :
    ∃ before behind, text = before ++ c :: behind ∧ (encode before).length = n := by
  induction text generalizing n with
  | nil => cases h
  | cons d text ih =>
    rw [encode_cons] at h
    by_cases hn : n < (utf8EncodeChar d).length
    · rw [List.getElem?_append_left hn] at h
      obtain rfl := eq_of_mem c d b hb (List.mem_of_getElem? h)
      rw [hb, List.length_singleton] at hn
      obtain rfl : n = 0 := by omega
      exact ⟨[], text, rfl, rfl⟩
    · rw [List.getElem?_append_right (Nat.le_of_not_lt hn)] at h
      obtain ⟨before, behind, rfl, hlength⟩ := ih _ h
      refine ⟨d :: before, behind, rfl, ?_⟩
      rw [encode_cons, List.length_append, hlength]
      omega

/-- A character of one byte is in a text if the byte is among its bytes. -/
theorem mem_of_mem_encode (b : UInt8) (hb : utf8EncodeChar c = [b]) (text : List Char)
    (h : b ∈ encode text) : c ∈ text := by
  obtain ⟨d, hd, hmem⟩ := List.mem_flatMap.mp h
  exact eq_of_mem c d b hb hmem ▸ hd

/-- Splitting a text at a character of one byte splits its bytes at that byte. -/
theorem splitOn_encode (c : Char) (b : UInt8) (hb : utf8EncodeChar c = [b]) (text : List Char) :
    (encode text).splitOn b = (text.splitOn c).map encode := by
  by_cases hc : c ∈ text
  · -- The first part ends where the byte occurs first.
    obtain ⟨before, behind, htext, hbefore⟩ := List.eq_append_cons_of_mem hc
    have hshorter : behind.length < text.length := by
      rw [htext, List.length_append, List.length_cons]
      omega
    have hbytes : b ∉ encode before := fun h => hbefore (mem_of_mem_encode c b hb before h)
    have ih := splitOn_encode c b hb behind
    rw [htext, List.splitOn_append_cons_self_of_not_mem hbefore, encode_append, encode_cons, hb,
      List.singleton_append, List.splitOn_append_cons_self_of_not_mem hbytes, ih, List.map_cons]
  · rw [List.splitOn_eq_singleton hc,
      List.splitOn_eq_singleton (fun h => hc (mem_of_mem_encode c b hb text h)), List.map_cons,
      List.map_nil]
termination_by text.length

/-- The characters below 128 are their own bytes. -/
theorem ascii_table {n : Nat} (h : n < 128) :
    utf8EncodeChar (Char.ofNat n) = [UInt8.ofNat n] ∧ (Char.ofNat n).toNat = n := by
  have hall : ∀ n, n < 128 →
      utf8EncodeChar (Char.ofNat n) = [UInt8.ofNat n] ∧ (Char.ofNat n).toNat = n := by decide
  exact hall n h

theorem utf8EncodeChar_ascii (h : c.toNat < 128) : utf8EncodeChar c = [UInt8.ofNat c.toNat] := by
  have hc := (ascii_table h).1
  rw [Char.ofNat_toNat] at hc
  exact hc

/-- A text of characters below 128 has one byte for each. -/
theorem encode_ascii (h : ∀ c ∈ text, c.toNat < 128) :
    encode text = text.map (fun c => UInt8.ofNat c.toNat) := by
  induction text with
  | nil => rfl
  | cons c text ih =>
    rw [encode_cons, utf8EncodeChar_ascii c (h c List.mem_cons_self),
      ih (fun d hd => h d (List.mem_cons_of_mem c hd)), List.map_cons, List.singleton_append]

/-- Where all bytes are below 128, so are the characters. -/
theorem ascii_of_bytes (h : ∀ b ∈ encode text, b.toNat < 128) : ∀ c ∈ text, c.toNat < 128 := by
  intro c hc
  obtain ⟨b, hb⟩ := List.exists_mem_of_ne_nil (utf8EncodeChar c) String.utf8EncodeChar_ne_nil
  have hsmall := h b (List.mem_flatMap.mpr ⟨c, hc, hb⟩)
  -- The byte is a character of its own, so it is this one.
  obtain ⟨hbyte, hcode⟩ := ascii_table hsmall
  rw [UInt8.ofNat_toNat] at hbyte
  rw [eq_of_mem _ c b hbyte hb, hcode]
  exact hsmall

end Utf8
