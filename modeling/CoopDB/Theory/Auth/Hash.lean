import CoopDB.Core.Bearer

/-!
# Stored Hashes Verify Their Secret

`HashSecret` writes a text of six parts and `VerifySecret` reads it again. Every
part survives: the constant ones are read back by evaluation, the salt and the
hash because decoding inverts encoding and no character of base64 is the one
that separates the parts.

What is then compared is two hashes, by a loop that collects the bits in which
they differ. It collects none exactly when they are equal.

## Main definitions

* `cutHash`: A hash of the right length, to evaluate the functions with.

## Theorems

* `subtleConstantTimeEq_iff`: The loop decides equality.
* `splitOn_hashSecretWith`: The six parts of a stored hash.
* `verifySecretWith_hashSecretWith`: `VerifySecret` hashes with the same salt and the
  same parameters, and compares.
* `hash_verifies_its_secret`: A secret passes against its own hash, and another exactly
  if argon2id takes both to the same key.
* `verifySecret_of_passed`: What passes here passes in the text model.
-/

namespace CoopDB

/-! ### The comparison -/

/-- The bits that have been collected stay, and a pair adds none only if its bytes
    are equal. -/
theorem foldl_differences (pairs : List (UInt8 × UInt8)) (v : UInt8) :
    pairs.foldl (fun v pair => v ||| (pair.1 ^^^ pair.2)) v = 0 ↔
      v = 0 ∧ ∀ pair ∈ pairs, pair.1 = pair.2 := by
  induction pairs generalizing v with
  | nil =>
    rw [List.foldl_nil]
    exact ⟨fun h => ⟨h, fun pair hpair => absurd hpair List.not_mem_nil⟩, fun h => h.1⟩
  | cons pair pairs ih =>
    rw [List.foldl_cons, ih, UInt8.or_eq_zero_iff, UInt8.xor_eq_zero_iff, List.forall_mem_cons,
      and_assoc]

/-- Lists of one length are equal if all pairs of them are. -/
theorem eq_of_zip {α : Type} (a b : List α) (hlength : a.length = b.length)
    (h : ∀ pair ∈ a.zip b, pair.1 = pair.2) : a = b := by
  induction a generalizing b with
  | nil => exact (List.eq_nil_of_length_eq_zero hlength.symm).symm
  | cons x a ih =>
    cases b with
    | nil => exact absurd hlength (Nat.succ_ne_zero _)
    | cons y b =>
      rw [List.zip_cons_cons, List.forall_mem_cons] at h
      have hhead : x = y := h.1
      rw [hhead, ih b (Nat.succ.inj hlength) h.2]

theorem forall_zip_self {α : Type} (a : List α) : ∀ pair ∈ a.zip a, pair.1 = pair.2 := by
  induction a with
  | nil => exact fun pair hpair => absurd hpair List.not_mem_nil
  | cons x a ih =>
    rw [List.zip_cons_cons, List.forall_mem_cons]
    exact ⟨rfl, ih⟩

theorem subtleConstantTimeEq_iff (a b : Bytes) : subtleConstantTimeEq a b = true ↔ a = b := by
  unfold subtleConstantTimeEq
  by_cases hlength : a.length = b.length
  · rw [if_neg (not_not_intro hlength), beq_iff_eq, foldl_differences]
    constructor
    · intro h
      exact eq_of_zip a b hlength h.2
    · rintro rfl
      exact ⟨rfl, forall_zip_self a⟩
  · rw [if_pos hlength]
    constructor
    · intro h
      exact absurd h Bool.false_ne_true
    · rintro rfl
      exact absurd rfl hlength

/-! ### The parts of a hash -/

/-- No part of a hash has the character that separates them. -/
theorem dollar_not_mem_encode (l : Bytes) : '$' ∉ Base64.encode rawStdEncoding l := by
  intro h
  exact absurd (Base64.mem_of_mem_encode rawStdEncoding l h) (by decide)

section

variable (idKey : IDKey)

/-- The hash that is stored, part by part. -/
theorem splitOn_hashSecretWith (secret salt : Bytes) :
    (hashSecretWith idKey secret salt).toList.splitOn '$' =
      [[], "argon2id".toList, "v=19".toList, "m=65536,t=2,p=2".toList,
        Base64.encode rawStdEncoding salt,
        Base64.encode rawStdEncoding
          (idKey secret salt argonTime argonMemory argonThreads argonKeyLen)] := by
  generalize hhash : idKey secret salt argonTime argonMemory argonThreads argonKeyLen = hash
  have hfront : "$argon2id$v=" ++ toString argonVersion ++ "$m=" ++ toString argonMemory ++ ",t=" ++
      toString argonTime ++ ",p=" ++ toString argonThreads ++ "$" =
      "$argon2id$v=19$m=65536,t=2,p=2$" := by decide
  have hshape : hashSecretWith idKey secret salt = "$argon2id$v=19$m=65536,t=2,p=2$" ++
      String.ofList (Base64.encode rawStdEncoding salt) ++ "$" ++
      String.ofList (Base64.encode rawStdEncoding hash) := by
    rw [← hfront, ← hhash]
    rfl
  have htext : (hashSecretWith idKey secret salt).toList = ['$'].intercalate
      [[], "argon2id".toList, "v=19".toList, "m=65536,t=2,p=2".toList,
        Base64.encode rawStdEncoding salt, Base64.encode rawStdEncoding hash] := by
    have hconstant : "$argon2id$v=19$m=65536,t=2,p=2$".toList = '$' :: ("argon2id".toList ++
        '$' :: ("v=19".toList ++ '$' :: ("m=65536,t=2,p=2".toList ++ ['$']))) := by decide
    have hdollar : "$".toList = ['$'] := rfl
    rw [hshape, String.toList_append, String.toList_append, String.toList_append, hconstant,
      hdollar, String.toList_ofList (l := Base64.encode rawStdEncoding salt),
      String.toList_ofList (l := Base64.encode rawStdEncoding hash)]
    -- The constant parts would be evaluated otherwise.
    generalize "argon2id".toList = name
    generalize "v=19".toList = version
    generalize "m=65536,t=2,p=2".toList = parameters
    simp
  rw [htext]
  refine List.splitOn_intercalate '$' (fun l hl => ?_) (List.cons_ne_nil _ _)
  simp only [List.mem_cons, List.not_mem_nil, or_false] at hl
  rcases hl with rfl | rfl | rfl | rfl | rfl | rfl
  · exact List.not_mem_nil
  · decide
  · decide
  · decide
  · exact dollar_not_mem_encode _
  · exact dollar_not_mem_encode _

theorem scanVersion_stored : scanVersion "v=19".toList = some (argonVersion : Int) := by
  decide

theorem scanParameters_stored : scanParameters "m=65536,t=2,p=2".toList =
    some (argonMemory, argonTime, argonThreads) := by
  decide

/-- What `VerifySecret` makes of a stored hash: it hashes with the same salt and the
    same parameters, and compares. -/
theorem verifySecretWith_hashSecretWith (secret other salt : Bytes)
    (hlength : (idKey other salt argonTime argonMemory argonThreads argonKeyLen).length =
      argonKeyLen) :
    verifySecretWith idKey secret (hashSecretWith idKey other salt) =
      if idKey secret salt argonTime argonMemory argonThreads argonKeyLen =
        idKey other salt argonTime argonMemory argonThreads argonKeyLen then .passed
      else .invalidKey := by
  have hcounts : ¬(argonTime < 1 ∨ argonThreads < 1) := by decide
  unfold verifySecretWith
  rw [splitOn_hashSecretWith]
  simp only [scanVersion_stored, scanParameters_stored, Base64.decode_encode, ne_eq,
    not_true_eq_false, if_false, hlength, hcounts, subtleConstantTimeEq_iff]

end

/-- A secret passes against its own hash, and another exactly if argon2id takes both
    to the same key. -/
theorem hash_verifies_its_secret (argon : Argon2id) (secret salt : Bytes) :
    verifySecretWith argon.idKey secret (hashSecretWith argon.idKey secret salt) = .passed ∧
      ∀ other : Bytes,
        verifySecretWith argon.idKey other (hashSecretWith argon.idKey secret salt) = .passed ↔
          argon.idKey other salt argonTime argonMemory argonThreads argonKeyLen =
            argon.idKey secret salt argonTime argonMemory argonThreads argonKeyLen := by
  have hlength := argon.length_idKey secret salt argonTime argonMemory argonThreads
  constructor
  · rw [verifySecretWith_hashSecretWith argon.idKey secret secret salt hlength, if_pos rfl]
  · intro other
    rw [verifySecretWith_hashSecretWith argon.idKey other secret salt hlength]
    constructor
    · intro h
      by_contra hne
      rw [if_neg hne] at h
      cases h
    · intro h
      rw [if_pos h]

/-- A hash that is the password and the salt, cut or filled up to the length. -/
def cutHash : Argon2id where
  idKey password salt _ _ _ keyLen := (password ++ salt ++ List.replicate keyLen 0).take keyLen
  length_idKey := by
    intro password salt _ _ _
    rw [List.length_take, List.length_append, List.length_replicate]
    omega

/-- A secret passes against its hash, and another secret is refused. -/
theorem other_secret_refused :
    verifySecretWith cutHash.idKey (utf8 "s3cret")
        (hashSecretWith cutHash.idKey (utf8 "s3cret") (List.replicate 16 7)) = .passed ∧
      verifySecretWith cutHash.idKey (utf8 "secret")
        (hashSecretWith cutHash.idKey (utf8 "s3cret") (List.replicate 16 7)) ≠ .passed := by
  obtain ⟨hown, hother⟩ :=
    hash_verifies_its_secret cutHash (utf8 "s3cret") (List.replicate 16 7)
  refine ⟨hown, fun h => ?_⟩
  exact absurd ((hother (utf8 "secret")).mp h) (by decide +kernel)

/-! ### The text model -/

/-- The text model hashes the bytes of the secret. -/
theorem hashSecret_eq (argon : Argon2) (secret : String) (salt : Bytes) :
    hashSecret argon secret salt = hashSecretWith argon.idKey (utf8 secret) salt :=
  rfl

/-- What passes here passes in the text model, which knows no panic. -/
theorem verifySecret_of_passed (argon : Argon2) (secret phc : String)
    (h : verifySecretWith argon.idKey (utf8 secret) phc = .passed) :
    verifySecret argon secret phc = true := by
  unfold verifySecretWith at h
  -- Every branch but one ends in another way.
  split at h
  · rename_i hparts
    split_ifs at h with hname hversion
    split at h
    · rename_i hparameters hsalt hwant
      split_ifs at h with hlength _ hequal
      rw [verifySecret, hparts]
      simp [not_ne_iff.mp hname, not_ne_iff.mp hversion, hparameters, hsalt, hwant,
        not_ne_iff.mp hlength, (subtleConstantTimeEq_iff _ _).mp hequal]
    · cases h
  · cases h

end CoopDB
