import CoopDB.Core.Basic
import CoopDB.Lib.Sha256

/-!
# The Hash of a Request

`HashRequest` of `internal/rpc/idempotency.go`. Both handlers call it on the
method, the path and the raw bytes of the body, and the result is what an
idempotency key is bound to.

The five writes to the hasher are one message, with a zero byte after the
method and one after the path.

## Main definitions

* `RequestPayload`, `RequestPayload.Agrees`: The three arguments, as they arrive
  over HTTP, and when they are the same.

## Theorems

* `RequestPayload.input_eq_iff`: The hasher's input determines the arguments.
-/

namespace CoopDB

/-- A digit of `hex.EncodeToString`. -/
def hexChar (n : Nat) : Char :=
  ['0', '1', '2', '3', '4', '5', '6', '7', '8', '9', 'a', 'b', 'c', 'd', 'e', 'f'].getD n '0'

/-- The two digits of a byte. -/
def hexPair (b : UInt8) : List Char :=
  [hexChar (b.toNat / 16), hexChar (b.toNat % 16)]

/-- `hex.EncodeToString`. -/
def hexEncodeToString (b : Bytes) : String :=
  String.ofList (b.flatMap hexPair)

/-- The bytes `HashRequest` writes to the hasher, in the order of the
    writes. -/
def hashInput (method path body : Bytes) : Bytes :=
  method ++ [0] ++ path ++ [0] ++ body

/-- `HashRequest`. -/
def hashRequest (method path body : Bytes) : String :=
  hexEncodeToString (Sha256.sum256 (hashInput method path body))

/-- What is hashed of a request. No method and no routed path holds a zero
    byte; a body may hold any. -/
structure RequestPayload where
  method : Bytes
  path : Bytes
  body : Bytes
  method_nul : 0 ∉ method
  path_nul : 0 ∉ path

/-- The input of the hasher. -/
def RequestPayload.input (p : RequestPayload) : Bytes :=
  hashInput p.method p.path p.body

/-- The request hash both handlers pass to the store. -/
def RequestPayload.hash (p : RequestPayload) : String :=
  hashRequest p.method p.path p.body

/-- The same method, path and raw body. -/
def RequestPayload.Agrees (p q : RequestPayload) : Prop :=
  p.method = q.method ∧ p.path = q.path ∧ p.body = q.body

instance (p q : RequestPayload) : Decidable (p.Agrees q) :=
  inferInstanceAs (Decidable (_ ∧ _ ∧ _))

theorem hexChar_injective (m n : Nat) (hm : m < 16) (hn : n < 16) (h : hexChar m = hexChar n) :
    m = n := by
  have hall : ∀ i < 16, ∀ j < 16, hexChar i = hexChar j → i = j := by decide
  exact hall m hm n hn h

theorem hexPair_injective (b c : UInt8) (h : hexPair b = hexPair c) : b = c := by
  have hb : b.toNat < 256 := b.toNat_lt
  have hc : c.toNat < 256 := c.toNat_lt
  simp only [hexPair, List.cons.injEq, and_true] at h
  have hhigh := hexChar_injective _ _ (by omega) (by omega) h.1
  have hlow := hexChar_injective _ _ (by omega) (by omega) h.2
  exact UInt8.toNat_inj.mp (by omega)

/-- Two digits at a time, the bytes can be read back. -/
theorem hexEncodeToString_injective : Function.Injective hexEncodeToString := by
  intro b c h
  have hdigits : b.flatMap hexPair = c.flatMap hexPair := String.ofList_injective h
  induction b generalizing c with
  | nil =>
    cases c with
    | nil => rfl
    | cons => exact absurd hdigits (by simp [hexPair])
  | cons x b ih =>
    cases c with
    | nil => exact absurd hdigits (by simp [hexPair])
    | cons y =>
      simp only [List.flatMap_cons] at hdigits
      obtain ⟨hpair, hrest⟩ := List.append_inj hdigits rfl
      rw [hexPair_injective x y hpair, ih (congrArg String.ofList hrest) hrest]

/-- Up to its first zero byte a text can be read back, whatever follows. -/
theorem append_zero_inj (a b s t : Bytes) (ha : 0 ∉ a) (hb : 0 ∉ b)
    (h : a ++ 0 :: s = b ++ 0 :: t) : a = b ∧ s = t := by
  induction a generalizing b with
  | nil =>
    cases b with
    | nil => exact ⟨rfl, (List.cons.inj h).2⟩
    | cons =>
      -- A text that starts with the separator would hold a zero byte.
      exact absurd (List.mem_cons.mpr (.inl (List.cons.inj h).1)) hb
  | cons x a ih =>
    cases b with
    | nil => exact absurd (List.mem_cons.mpr (.inl (List.cons.inj h).1.symm)) ha
    | cons y b =>
      obtain ⟨hhead, htail⟩ := List.cons.inj h
      obtain ⟨hab, hst⟩ := ih b (fun hmem => ha (List.mem_cons_of_mem x hmem))
        (fun hmem => hb (List.mem_cons_of_mem y hmem)) htail
      exact ⟨by rw [hhead, hab], hst⟩

/-- The input of the hasher determines the payload: each separator is the first
    zero byte of what is left, so a zero byte in a body is no separator. -/
theorem RequestPayload.input_eq_iff (p q : RequestPayload) : p.input = q.input ↔ p.Agrees q := by
  constructor
  · intro h
    simp only [RequestPayload.input, hashInput, List.append_assoc, List.singleton_append] at h
    obtain ⟨hmethod, hrest⟩ := append_zero_inj _ _ _ _ p.method_nul q.method_nul h
    obtain ⟨hpath, hbody⟩ := append_zero_inj _ _ _ _ p.path_nul q.path_nul hrest
    exact ⟨hmethod, hpath, hbody⟩
  · rintro ⟨hmethod, hpath, hbody⟩
    rw [RequestPayload.input, RequestPayload.input, hmethod, hpath, hbody]

/-- Two payloads with the same hash have the same digest. -/
theorem RequestPayload.hash_eq_iff (p q : RequestPayload) :
    p.hash = q.hash ↔ Sha256.sum256 p.input = Sha256.sum256 q.input :=
  hexEncodeToString_injective.eq_iff

end CoopDB
