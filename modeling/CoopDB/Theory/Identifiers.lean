import CoopDB.Core.Identifiers
import CoopDB.Theory.Auth.Bearer

/-!
# What the Guards on Identifiers Accept

The four guards in Go accept the names of one to 63 characters out of `[a-z0-9_]`. A
name of theirs is ASCII, so the length in bytes they check is its length in
characters.

`_safe_ident` accepts these too, and besides them every text of that length with
letters or digits from beyond ASCII that Python calls lowercase or digits.

## Main definitions

* `SafeIdent`: The names the guards are for.
* `GuardsAgree`: All five guards accept the same names.

## Theorems

* `isSafeRoleName_iff`, `isSafeRole_iff`: The guards in Go.
* `safeIdent_iff`: The guard in Python.
* `guardsAgree_iff`: The guards agree on every text but those that have letters or digits
  from beyond ASCII and are else as they should be.
-/

namespace CoopDB

open Utf8 (encode)

/-- A character of `[a-z0-9_]`. -/
def SafeChar (c : Char) : Prop :=
  (97 ≤ c.toNat ∧ c.toNat ≤ 122) ∨ (48 ≤ c.toNat ∧ c.toNat ≤ 57) ∨ c.toNat = 95

/-- A text that matches `[a-z0-9_]{1,63}`. -/
def SafeIdent (s : String) : Prop :=
  1 ≤ s.toList.length ∧ s.toList.length ≤ 63 ∧ ∀ c ∈ s.toList, SafeChar c

theorem SafeChar.ascii (c : Char) (h : SafeChar c) : c.toNat < 128 := by
  unfold SafeChar at h
  omega

theorem isSafeRoleChar_iff (c : Char) : isSafeRoleChar c = true ↔ SafeChar c := by
  simp [isSafeRoleChar, SafeChar, or_assoc]

theorem length_toList_pos (s : String) : 1 ≤ s.toList.length ↔ s ≠ "" := by
  rw [Nat.one_le_iff_ne_zero, ne_eq, List.length_eq_zero_iff, String.toList_eq_nil_iff]

/-- A text of ASCII has as many bytes as characters. -/
theorem utf8ByteSize_ascii (s : String) (h : ∀ c ∈ s.toList, c.toNat < 128) :
    s.utf8ByteSize = s.toList.length := by
  have hsize : s.utf8ByteSize = (utf8 s).length := rfl
  rw [hsize, utf8_eq_encode, Utf8.encode_ascii _ h, List.length_map]

theorem isSafeRoleName_iff (s : String) : isSafeRoleName s = true ↔ SafeIdent s := by
  simp only [isSafeRoleName, Bool.and_eq_true, Bool.not_eq_true', Bool.or_eq_false_iff,
    beq_eq_false_iff_ne, decide_eq_false_iff_not, Nat.not_lt, List.all_eq_true, isSafeRoleChar_iff,
    SafeIdent, length_toList_pos, and_assoc]
  refine and_congr_right (fun _ => and_congr_left (fun hchars => ?_))
  rw [utf8ByteSize_ascii s (fun c hc => (hchars c hc).ascii)]

/-- The byte `isSafeRole` compares is the character it stands for. -/
theorem safeByte_iff (c : Char) (h : c.toNat < 128) :
    ((0x61 ≤ UInt8.ofNat c.toNat && UInt8.ofNat c.toNat ≤ 0x7A) ||
      (0x30 ≤ UInt8.ofNat c.toNat && UInt8.ofNat c.toNat ≤ 0x39) ||
      UInt8.ofNat c.toNat == 0x5F) = true ↔ SafeChar c := by
  have hcode : (UInt8.ofNat c.toNat).toNat = c.toNat := by
    rw [UInt8.toNat_ofNat']
    omega
  simp only [Bool.or_eq_true, Bool.and_eq_true, decide_eq_true_eq, beq_iff_eq,
    UInt8.le_iff_toNat_le, ← UInt8.toNat_inj, hcode, or_assoc]
  exact Iff.rfl

/-- On bytes the guard is the same. -/
theorem isSafeRole_iff (s : String) : isSafeRole (utf8 s) = true ↔ SafeIdent s := by
  have hchars : (utf8 s).all (fun b => (0x61 ≤ b && b ≤ 0x7A) || (0x30 ≤ b && b ≤ 0x39) ||
      b == 0x5F) = true ↔ ∀ c ∈ s.toList, SafeChar c := by
    rw [utf8_eq_encode, List.all_eq_true]
    constructor
    · intro h c hc
      have hascii := Utf8.ascii_of_bytes s.toList (fun b hb => by
        have hbyte := h b hb
        simp only [Bool.or_eq_true, Bool.and_eq_true, decide_eq_true_eq, beq_iff_eq,
          UInt8.le_iff_toNat_le, ← UInt8.toNat_inj] at hbyte
        simp only [UInt8.reduceToNat] at hbyte
        omega)
      refine (safeByte_iff c (hascii c hc)).mp (h _ ?_)
      rw [Utf8.encode_ascii _ hascii]
      exact List.mem_map_of_mem hc
    · intro h b hb
      rw [Utf8.encode_ascii _ (fun c hc => (h c hc).ascii)] at hb
      obtain ⟨c, hc, rfl⟩ := List.mem_map.mp hb
      exact (safeByte_iff c (h c hc).ascii).mpr (h c hc)
  have hnil : utf8 "" = [] := rfl
  have hempty : utf8 s ≠ [] ↔ s ≠ "" :=
    not_congr ⟨fun h => utf8_injective (h.trans hnil.symm), fun h => by rw [h, hnil]⟩
  simp only [isSafeRole, Bool.and_eq_true, decide_eq_true_eq, hchars, hempty, SafeIdent,
    length_toList_pos, and_assoc]
  refine and_congr_right (fun _ => and_congr_left (fun hsafe => ?_))
  rw [← utf8ByteSize_ascii s (fun c hc => (hsafe c hc).ascii)]
  exact Iff.rfl

section

variable (py : PyText)

theorem safeChar_ascii_iff (c : Char) (h : c.toNat < 128) :
    py.safeChar c = true ↔ SafeChar c := by
  rw [PyText.safeChar, py.islower_ascii c h, py.isdigit_ascii c h]
  have hunderscore : c = '_' ↔ c.toNat = 95 := Char.toNat_inj.symm
  simp [isLower_iff_toNat, isDigit_iff_toNat, hunderscore, SafeChar, or_assoc]

/-- What `_safe_ident` accepts. -/
theorem safeIdent_iff (s : String) :
    (safeIdent py s).isOk = true ↔
      1 ≤ s.toList.length ∧ s.toList.length ≤ 63 ∧ ∀ c ∈ s.toList, py.safeChar c = true := by
  rw [length_toList_pos]
  unfold safeIdent
  by_cases hrefused : s = "" ∨ s.toList.length > 63 ∨ ¬ s.toList.all py.safeChar
  · rw [if_pos hrefused]
    refine iff_of_false Bool.false_ne_true (fun h => ?_)
    rcases hrefused with hempty | hlong | hchars
    · exact h.1 hempty
    · omega
    · exact hchars (List.all_eq_true.mpr h.2.2)
  · rw [if_neg hrefused]
    simp only [not_or, Nat.not_lt, not_not] at hrefused
    exact iff_of_true rfl ⟨hrefused.1, hrefused.2.1, List.all_eq_true.mp hrefused.2.2⟩

/-- All five guards give the same answer on the text, and it is whether the text
    matches `[a-z0-9_]{1,63}`. -/
def GuardsAgree (s : String) : Prop :=
  (isSafeRoleName s = true ↔ SafeIdent s) ∧ (isSafeRole (utf8 s) = true ↔ SafeIdent s) ∧
    (isSafeIdent s = true ↔ SafeIdent s) ∧ (Mcp.isSafeIdent s = true ↔ SafeIdent s) ∧
    ((safeIdent py s).isOk = true ↔ SafeIdent s)

/-- The guards agree on a text unless it has one to 63 characters, all of them
    lowercase or digits to Python or underscores, and not all of them ASCII. -/
theorem guardsAgree_iff (s : String) :
    GuardsAgree py s ↔
      ¬ (1 ≤ s.toList.length ∧ s.toList.length ≤ 63 ∧
        (∀ c ∈ s.toList, py.islower c = true ∨ py.isdigit c = true ∨ c = '_') ∧
        ∃ c ∈ s.toList, 128 ≤ c.toNat) := by
  have hpython : ∀ c, py.safeChar c = true ↔
      py.islower c = true ∨ py.isdigit c = true ∨ c = '_' := by
    intro c
    simp [PyText.safeChar, or_assoc]
  -- Only Python's guard can be off.
  have honly : GuardsAgree py s ↔ ((safeIdent py s).isOk = true ↔ SafeIdent s) :=
    ⟨fun h => h.2.2.2.2, fun h =>
      ⟨isSafeRoleName_iff s, isSafeRole_iff s, isSafeRoleName_iff s, isSafeRoleName_iff s, h⟩⟩
  rw [honly, safeIdent_iff]
  simp only [← hpython]
  by_cases hascii : ∀ c ∈ s.toList, c.toNat < 128
  · have hnone : ¬ ∃ c ∈ s.toList, 128 ≤ c.toNat :=
      fun ⟨c, hc, hlarge⟩ => absurd (hascii c hc) (Nat.not_lt.mpr hlarge)
    refine iff_of_true ?_ (fun h => hnone h.2.2.2)
    refine and_congr_right (fun _ => and_congr_right (fun _ => ?_))
    exact forall_congr' (fun c => forall_congr' (fun hc => safeChar_ascii_iff py c (hascii c hc)))
  · -- Then the text is no name for the guards in Go.
    have hforeign : ¬ SafeIdent s := fun h => hascii (fun c hc => (h.2.2 c hc).ascii)
    have hlarge : ∃ c ∈ s.toList, 128 ≤ c.toNat := by
      simpa only [not_forall, Nat.not_lt, exists_prop] using hascii
    simp [hforeign, hlarge]

end

/-- A lowercase letter that is not ASCII: the client accepts the name, the guards in
    Go do not. -/
theorem sharp_s_accepted : ¬ GuardsAgree cpython311Text "straße" := by
  intro h
  have hpython : (safeIdent cpython311Text "straße").isOk = true := by decide
  have hgo : isSafeRoleName "straße" = false := by decide
  exact Bool.false_ne_true (hgo.symm.trans (h.1.mpr (h.2.2.2.2.mp hpython)))

end CoopDB
