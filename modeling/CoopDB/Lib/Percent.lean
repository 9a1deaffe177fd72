import Mathlib.Data.List.Basic

/-!
# Percent-Encoding

A byte may be written as a percent sign and two hexadecimal digits. A form of a text
is the text itself, or whatever decodes to it: any of its bytes may be encoded, with
digits of either case.

## Main definitions

* `unescape`: The decoded text, if all escapes are complete.
* `Form`: A text or an encoding of it.

## Theorems

* `unescape_plain`: What has no percent sign is decoded as it is.
* `eq_of_form`: Without a percent sign, the only form of a text is the text.
-/

namespace Percent

/-- The percent sign. -/
def sign : UInt8 := 0x25

/-- The value of a hexadecimal digit. -/
def hexValue (b : UInt8) : Option UInt8 :=
  if 0x30 ≤ b ∧ b ≤ 0x39 then some (b - 0x30)
  else if 0x41 ≤ b ∧ b ≤ 0x46 then some (b - 0x41 + 10)
  else if 0x61 ≤ b ∧ b ≤ 0x66 then some (b - 0x61 + 10)
  else none

/-- The decoded text. -/
def unescape : List UInt8 → Option (List UInt8)
  | [] => some []
  | b :: text =>
    if b = sign then
      match text with
      | high :: low :: text => do
        let high ← hexValue high
        let low ← hexValue low
        let text ← unescape text
        return (16 * high + low) :: text
      | _ => none
    else (unescape text).map (b :: ·)

/-- A text is written as it is, or encoded. -/
def Form (text e : List UInt8) : Prop :=
  e = text ∨ unescape e = some text

/-- What has no percent sign is decoded as it is. -/
theorem unescape_plain (plain : List UInt8) (h : sign ∉ plain) : unescape plain = some plain := by
  induction plain with
  | nil => simp [unescape]
  | cons b plain ih =>
    rw [List.mem_cons, not_or] at h
    rw [unescape.eq_def]
    simp only [if_neg (Ne.symm h.1), ih h.2, Option.map_some]

/-- Without a percent sign, the only form of a text is the text. -/
theorem eq_of_form {text e : List UInt8} (h : sign ∉ e) (hform : Form text e) : e = text := by
  rcases hform with heq | hdecoded
  · exact heq
  · rw [unescape_plain e h, Option.some.injEq] at hdecoded
    exact hdecoded

end Percent
