import CoopDB.Theory.Auth.Bearer
import CoopDB.Theory.Auth.Hash

/-!
# Stored Hashes That Make `VerifySecret` Panic

`VerifySecret` on a stored hash of any bytes.

A stored hash that cannot be read is refused, and one that can be read is compared
with the hash of the secret under its own salt and parameters. In between stands the
call of `argon2.IDKey`, which panics without a pass or without a thread. The
parameters go there as they were scanned.

## Main definitions

* `StoredHash.Fatal`: `IDKey` panics on the parameters.
* `Graceful`: What is asked of a call of `VerifySecret`.

## Theorems

* `readStoredHash_eq_some_iff`: What can be read, part by part.
* `verifySecretBytes_utf8`: On a text this is `verifySecretWith`.
* `graceful_iff`: Of the texts that can be read, exactly those with a time or a thread
  count of zero make the call panic.
-/

namespace CoopDB

/-- `IDKey` panics on these parameters. -/
def StoredHash.Fatal (stored : StoredHash) : Prop :=
  stored.time < 1 ∨ stored.threads < 1

/-- A stored hash is read exactly if it has six parts, of which the second names the
    algorithm and the others are scanned and decoded, the last to 32 bytes. -/
theorem readStoredHash_eq_some_iff (phc : Bytes) (stored : StoredHash) :
    readStoredHash phc = some stored ↔
      ∃ first version parameters salt hash : Bytes,
        phc.splitOn phcSeparator = [first, utf8 "argon2id", version, parameters, salt, hash] ∧
        scanVersion (Utf8.decode version) = some (argonVersion : Int) ∧
        scanParameters (Utf8.decode parameters) =
          some (stored.memory, stored.time, stored.threads) ∧
        Base64.decode rawStdEncoding (Utf8.decode salt) = some stored.salt ∧
        Base64.decode rawStdEncoding (Utf8.decode hash) = some stored.want := by
  -- Each check of the reader that fails ends in `none`.
  constructor
  · intro h
    unfold readStoredHash at h
    split at h
    · rename_i first name version parameters salt hash hparts
      by_cases hname : name = utf8 "argon2id"
      · by_cases hversion : scanVersion (Utf8.decode version) = some (argonVersion : Int)
        · rw [if_neg (not_not_intro hname), if_neg (not_not_intro hversion)] at h
          split at h
          · rename_i m t p saltBytes want hparameters hsalt hwant
            by_cases hlength : want.length = argonKeyLen
            · rw [dif_pos hlength] at h
              obtain rfl := Option.some.inj h
              exact ⟨first, version, parameters, salt, hash, hname ▸ hparts, hversion, hparameters,
                hsalt, hwant⟩
            · rw [dif_neg hlength] at h
              cases h
          · cases h
        · rw [if_neg (not_not_intro hname), if_pos hversion] at h
          cases h
      · rw [if_pos hname] at h
        cases h
    · cases h
  · rintro ⟨first, version, parameters, salt, hash, hparts, hversion, hparameters, hsalt, hwant⟩
    simp [readStoredHash, hparts, hversion, hparameters, hsalt, hwant, stored.length_want]

section

variable (idKey : IDKey)

/-- How a call ends, by what was read. -/
theorem verifySecretBytes_panicked_iff (secret phc : Bytes) :
    verifySecretBytes idKey secret phc = .panicked ↔
      ∃ stored, readStoredHash phc = some stored ∧ stored.Fatal := by
  unfold verifySecretBytes
  cases hread : readStoredHash phc with
  | none => simp
  | some stored =>
    simp only [Option.some.injEq, exists_eq_left']
    by_cases hfatal : stored.time < 1 ∨ stored.threads < 1
    · rw [if_pos hfatal]
      exact iff_of_true rfl hfatal
    · rw [if_neg hfatal]
      refine iff_of_false ?_ hfatal
      split <;> simp only [reduceCtorEq, not_false_eq_true]

/-- A secret that passes was hashed to what the text holds. -/
theorem hashed_of_verifySecretBytes {secret phc : Bytes}
    (h : verifySecretBytes idKey secret phc = .passed) :
    ∃ stored, readStoredHash phc = some stored ∧
      idKey secret stored.salt stored.time stored.memory stored.threads argonKeyLen =
        stored.want := by
  unfold verifySecretBytes at h
  cases hread : readStoredHash phc with
  | none =>
    rw [hread] at h
    cases h
  | some stored =>
    simp only [hread] at h
    split at h
    · cases h
    · split at h
      · rename_i hequal
        exact ⟨stored, rfl, (subtleConstantTimeEq_iff _ _).mp hequal⟩
      · cases h

/-- What is asked of a call: it does not panic, and when it returns nil the text has
    six parts, names argon2id in version 19, and its 32-byte hash is what argon2id
    makes of the secret under its salt and its parameters. -/
def Graceful (secret phc : Bytes) : Prop :=
  (verifySecretBytes idKey secret phc = .passed ∨
    verifySecretBytes idKey secret phc = .invalidKey) ∧
  (verifySecretBytes idKey secret phc = .passed →
    ∃ (first version parameters salt hash : Bytes) (m t p : Nat) (saltBytes want : Bytes),
      phc.splitOn phcSeparator = [first, utf8 "argon2id", version, parameters, salt, hash] ∧
      scanVersion (Utf8.decode version) = some 19 ∧
      scanParameters (Utf8.decode parameters) = some (m, t, p) ∧
      Base64.decode rawStdEncoding (Utf8.decode salt) = some saltBytes ∧
      Base64.decode rawStdEncoding (Utf8.decode hash) = some want ∧
      want.length = 32 ∧ idKey secret saltBytes t m p 32 = want)

/-- A call is graceful exactly if the stored hash cannot be read, or is read with a
    time and a thread count of at least one. -/
theorem graceful_iff (secret phc : Bytes) :
    Graceful idKey secret phc ↔
      ∀ stored, readStoredHash phc = some stored → 1 ≤ stored.time ∧ 1 ≤ stored.threads := by
  have hpanic := verifySecretBytes_panicked_iff idKey secret phc
  constructor
  · intro h stored hread
    have hnot : ¬ stored.Fatal := by
      intro hfatal
      have hpanicked := hpanic.mpr ⟨stored, hread, hfatal⟩
      rcases h.1 with hpassed | hinvalid
      · exact nomatch (hpanicked.symm.trans hpassed)
      · exact nomatch (hpanicked.symm.trans hinvalid)
    unfold StoredHash.Fatal at hnot
    omega
  · intro h
    constructor
    · cases hend : verifySecretBytes idKey secret phc with
      | passed => exact .inl rfl
      | invalidKey => exact .inr rfl
      | panicked =>
        obtain ⟨stored, hread, hfatal⟩ := hpanic.mp hend
        have hcounts := h stored hread
        unfold StoredHash.Fatal at hfatal
        omega
    · intro hpassed
      obtain ⟨stored, hread, hequal⟩ := hashed_of_verifySecretBytes idKey hpassed
      obtain ⟨first, version, parameters, salt, hash, hparts, hversion, hparameters, hsalt,
        hwant⟩ :=
        (readStoredHash_eq_some_iff phc stored).mp hread
      exact ⟨first, version, parameters, salt, hash, stored.memory, stored.time, stored.threads,
        stored.salt, stored.want, hparts, hversion, hparameters, hsalt, hwant, stored.length_want,
        hequal⟩

/-- On a stored hash that is a text, the bytes are verified as the text is. -/
theorem verifySecretBytes_utf8 (secret : Bytes) (phc : String) :
    verifySecretBytes idKey secret (utf8 phc) = verifySecretWith idKey secret phc := by
  have hsplit := Utf8.splitOn_encode '$' phcSeparator (by decide) phc.toList
  unfold verifySecretBytes readStoredHash verifySecretWith
  rw [utf8_eq_encode phc, hsplit]
  -- Only six parts are looked into.
  rcases phc.toList.splitOn '$' with _ | ⟨first, _ | ⟨name, _ | ⟨version, _ | ⟨parameters,
    _ | ⟨salt, _ | ⟨hash, _ | ⟨next, parts⟩⟩⟩⟩⟩⟩⟩
  · rfl
  · rfl
  · rfl
  · rfl
  · rfl
  · rfl
  · have hname : Utf8.encode name = utf8 "argon2id" ↔ name = "argon2id".toList := by
      rw [utf8_eq_encode]
      exact ⟨fun h => by rw [← Utf8.decode_encode name, h, Utf8.decode_encode],
        congrArg Utf8.encode⟩
    simp only [List.map_cons, List.map_nil, Utf8.decode_encode, ne_eq, hname]
    by_cases hargon : name = "argon2id".toList
    · by_cases hversion : scanVersion version = some (argonVersion : Int)
      · simp only [hargon, hversion, not_true_eq_false, if_false]
        rcases scanParameters parameters with _ | ⟨m, t, p⟩
        · rfl
        · cases Base64.decode rawStdEncoding salt with
          | none => rfl
          | some =>
            cases Base64.decode rawStdEncoding hash with
            | none => rfl
            | some want =>
              by_cases hlength : want.length = argonKeyLen
              · simp [hlength]
              · simp [hlength]
      · simp [hargon, hversion]
    · simp only [hargon, not_false_eq_true, if_true]
  · rfl

end

/-- A stored hash without a pass, and otherwise as `HashSecret` writes them. -/
def zeroTime : Bytes :=
  utf8 "$argon2id$v=19$m=65536,t=0,p=2$c2FsdHNhbHRzYWx0c2FsdA$AAAAAAAAAAAAAAAAAAAAAAAAAAAAAAAAAAAAAAAAAAA"

/-- Its call panics, before any hash is compared. -/
theorem zero_time_panics :
    ¬ Graceful (fun _ _ _ _ _ keyLen => List.replicate keyLen 0) (utf8 "secret") zeroTime := by
  have hpanic : verifySecretBytes (fun _ _ _ _ _ keyLen => List.replicate keyLen 0) (utf8 "secret")
      zeroTime = .panicked := by
    decide +kernel
  intro h
  rcases h.1 with hpassed | hinvalid
  · exact nomatch (hpanic.symm.trans hpassed)
  · exact nomatch (hpanic.symm.trans hinvalid)

end CoopDB
