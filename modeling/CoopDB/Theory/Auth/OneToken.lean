import CoopDB.Theory.Auth.Hash
import CoopDB.Theory.Auth.Staleness
import CoopDB.Theory.Keys.Usable

/-!
# One Token for Each Key

A token has three parts. The row is found by the key id, the secret is checked
against the hash in the row, and the env tag is only checked to be one of the
three. So a key answers to three tokens.

What is accepted is taken apart on both ways to a record, the table and the cache
(`resolved_for_token`): the key id is that of the row, and the secret hashes to
what the row has. From the parts of a token the whole of it follows, but for the
tag.

## Main definitions

* `Inserted`: A row that one of the three operations inserted, with its token.

## Theorems

* `parseBearer_parts`, `parseBearer_minted`: A token is made of its parts, and a minted
  one is taken apart again.
* `verifySecret_hashSecret`: Only the secret itself passes against its hash.
* `accepted_token_iff`: A header that is accepted for a row has the token the row was
  inserted with exactly if its tag is the env of the row.
* `issued_token_accepted`, `other_tag_accepted`: A key under its own tag and another.
-/

namespace CoopDB

open Transition (run)

/-! ### The parts of a token -/

theorem byteLength_append (a b : List Char) :
    byteLength (a ++ b) = byteLength a + byteLength b := by
  induction a with
  | nil => exact (Nat.zero_add _).symm
  | cons c a ih => rw [List.cons_append, byteLength, byteLength, ih, Nat.add_assoc]

/-- A text that is split is put together again. -/
theorem splitBytes_eq_some (text : List Char) (n : Nat) (a b : List Char)
    (h : splitBytes text n = some (a, b)) : text = a ++ b ∧ byteLength a = n := by
  induction text generalizing n a with
  | nil =>
    cases n with
    | zero =>
      simp only [splitBytes, Option.some.injEq, Prod.mk.injEq] at h
      rcases h with ⟨rfl, rfl⟩
      exact ⟨rfl, rfl⟩
    | succ => simp only [splitBytes, reduceCtorEq] at h
  | cons c text ih =>
    cases n with
    | zero =>
      simp only [splitBytes, Option.some.injEq, Prod.mk.injEq] at h
      rcases h with ⟨rfl, rfl⟩
      exact ⟨rfl, rfl⟩
    | succ =>
      simp only [splitBytes, Option.ite_none_right_eq_some, Option.map_eq_some_iff,
        Prod.mk.injEq, Prod.exists] at h
      rcases h with ⟨hsize, a', b', hrest, rfl, rfl⟩
      rcases ih _ a' hrest with ⟨rfl, hlength⟩
      refine ⟨rfl, ?_⟩
      rw [byteLength, hlength]
      omega

theorem keyEnvironment_eq_some (s : String) (env : KeyEnvironment)
    (h : keyEnvironment s = some env) : s = env.tag := by
  unfold keyEnvironment at h
  split at h
  · rename_i hs
    rw [← Option.some.inj h]
    exact hs
  · split at h
    · rename_i hs
      rw [← Option.some.inj h]
      exact hs
    · rw [Option.ite_none_right_eq_some] at h
      rw [← Option.some.inj h.2]
      exact h.1

theorem tag_injective {env env' : KeyEnvironment} (h : env.tag = env'.tag) : env = env' := by
  have hread : ∀ e : KeyEnvironment, keyEnvironment e.tag = some e := by
    intro e
    cases e <;> rfl
  have hsame := congrArg keyEnvironment h
  rw [hread, hread] at hsame
  exact Option.some.inj hsame

theorem toList_tokenText (env : KeyEnvironment) (keyID secret : String) :
    (tokenText env keyID secret).toList =
      "acd_".toList ++ (env.tag.toList ++ '_' :: (keyID.toList ++ '_' :: secret.toList)) := by
  have hunderscore : "_".toList = ['_'] := rfl
  simp only [tokenText, String.toList_append, hunderscore, List.append_assoc, List.cons_append,
    List.nil_append]

/-- A parsed token is made of a tag, its key id and its secret. -/
theorem parseToken_parts {header : List Char} {p : ParsedKey} (h : parseToken header = some p) :
    ∃ env, tokenEnv p.fullToken = some env ∧ p.fullToken = tokenText env p.keyID p.secret ∧
      byteLength p.secret.toList = secretEncodedLen := by
  have hfull := parseToken_fullToken h
  simp only [parseToken, Option.ite_none_right_eq_some, Option.ite_none_left_eq_some] at h
  rcases h with ⟨hacd, henv, h⟩
  split at h
  case h_2 => cases h
  case h_1 rest hrest =>
    rw [Option.ite_none_left_eq_some] at h
    rcases h with ⟨hlength, h⟩
    split at h
    case h_2 => cases h
    case h_1 keyID secret hsplit =>
      rw [Option.some.injEq] at h
      rcases Option.ne_none_iff_exists'.mp (Option.isNone_iff_eq_none.not.mp henv) with ⟨env, htag⟩
      -- The text is put together again, from the right.
      rcases splitBytes_eq_some rest keyIDEncodedLen keyID _ hsplit with ⟨hrest', hkeyID⟩
      have hdrop : header.drop 4 = env.tag.toList ++ '_' :: (keyID ++ '_' :: secret) := by
        have happend := List.prefix_iff_eq_append.mp
          (List.takeWhile_prefix (l := header.drop 4) (· != '_'))
        have hchars := congrArg String.toList (keyEnvironment_eq_some _ env htag)
        rw [String.toList_ofList] at hchars
        rw [hrest, hrest', hchars] at happend
        exact happend.symm
      have hheader : header = "acd_".toList ++
          (env.tag.toList ++ '_' :: (keyID ++ '_' :: secret)) := by
        rw [← hdrop]
        exact (List.prefix_iff_eq_append.mp (List.isPrefixOf_iff_prefix.mp hacd)).symm
      refine ⟨env, ?_, ?_, ?_⟩
      · rw [hfull, tokenEnv, String.toList_ofList]
        exact htag
      · refine String.toList_inj.mp ?_
        rw [hfull, toList_tokenText, ← h]
        simp only [String.toList_ofList]
        exact hheader
      · have hunderscore : '_'.utf8Size = 1 := rfl
        rw [not_not, hrest', byteLength_append, hkeyID, byteLength, hunderscore] at hlength
        rw [← h, String.toList_ofList]
        omega

/-- The token in a header is made of its tag, its key id and its secret. -/
theorem parseBearer_parts {header : String} {p : ParsedKey} (h : parseBearer header = some p) :
    p.fullToken = bearerText header ∧
      ∃ env, tokenEnv (bearerText header) = some env ∧
        bearerText header = tokenText env p.keyID p.secret ∧
        byteLength p.secret.toList = secretEncodedLen := by
  simp only [parseBearer, Option.ite_none_left_eq_some] at h
  have hfull : p.fullToken = bearerText header := parseToken_fullToken h.2
  refine ⟨hfull, ?_⟩
  rw [← hfull]
  exact parseToken_parts h.2

/-- Tokens with the same key id and the same secret are the same exactly when
    their tags are. -/
theorem tokenText_inj (env env' : KeyEnvironment) (keyID secret : String) :
    tokenText env keyID secret = tokenText env' keyID secret ↔ env = env' := by
  constructor
  · intro h
    have hlists := congrArg String.toList h
    rw [toList_tokenText, toList_tokenText, List.append_cancel_left_eq,
      List.append_cancel_right_eq] at hlists
    exact tag_injective (String.toList_inj.mp hlists)
  · rintro rfl
    rfl

/-! ### The hash of a secret -/

theorem size_utf8Encode (l : List Char) : l.utf8Encode.size = byteLength l := by
  induction l with
  | nil => rfl
  | cons c l ih =>
    rw [List.utf8Encode_cons, ByteArray.size_append, ih, List.utf8Encode_singleton,
      List.size_toByteArray, String.length_utf8EncodeChar, byteLength]

theorem length_utf8 (s : String) : (utf8 s).length = byteLength s.toList := by
  have hsize : (utf8 s).length = s.toUTF8.size := rfl
  rw [hsize, String.toUTF8_eq_toByteArray, ← size_utf8Encode, ← String.toByteArray_ofList,
    String.ofList_toList]

theorem utf8_injective {s t : String} (h : utf8 s = utf8 t) : s = t := by
  have hbytes : s.toUTF8 = t.toUTF8 := ByteArray.ext (Array.toList_inj.mp h)
  rw [String.toUTF8_eq_toByteArray, String.toUTF8_eq_toByteArray] at hbytes
  exact String.toByteArray_inj.mp hbytes

section

variable (argon : Argon2)

/-- A secret passes against the hash of another exactly when argon2id takes both to
    the same key, of the right length. -/
theorem verifySecret_hashSecret {secret other : String} {salt : Bytes}
    (h : verifySecret argon secret (hashSecret argon other salt) = true) :
    argon.idKey (utf8 secret) salt argonTime argonMemory argonThreads argonKeyLen =
      argon.idKey (utf8 other) salt argonTime argonMemory argonThreads argonKeyLen := by
  unfold verifySecret at h
  rw [hashSecret_eq, splitOn_hashSecretWith] at h
  simp only [scanVersion_stored, scanParameters_stored, Base64.decode_encode, ne_eq,
    not_true_eq_false, if_false, Bool.and_eq_true, decide_eq_true_eq] at h
  exact h.2

/-- A text of characters of one byte is as long as it has characters. -/
theorem byteLength_eq_length (text : List Char) (h : ∀ c ∈ text, c.utf8Size = 1) :
    byteLength text = text.length := by
  induction text with
  | nil => rfl
  | cons c text ih =>
    rw [byteLength, ih (fun c' hc' => h c' (List.mem_cons_of_mem c hc')), h c List.mem_cons_self,
      List.length_cons, Nat.add_comm]

/-- What is encoded for a token has characters of one byte. -/
theorem byteLength_encode (l : Bytes) :
    byteLength (Base64.encode rawURLEncoding l) = (4 * l.length + 2) / 3 := by
  have hchars : rawURLEncoding.chars.all (fun c => c.utf8Size == 1) = true := by decide
  rw [List.all_eq_true] at hchars
  rw [← Base64.length_encode rawURLEncoding l]
  exact byteLength_eq_length _ fun c hc =>
    eq_of_beq (hchars c (Base64.mem_of_mem_encode rawURLEncoding l hc))

theorem byteLength_secret (draws : KeyDraws) :
    byteLength draws.secret.toList = secretEncodedLen := by
  rw [KeyDraws.secret, String.toList_ofList, byteLength_encode, draws.length_secBytes]
  rfl

theorem byteLength_keyID (draws : KeyDraws) : byteLength draws.keyID.toList = keyIDEncodedLen := by
  rw [KeyDraws.keyID, String.toList_ofList, byteLength_encode, draws.length_idBytes]
  rfl

/-- Of the secrets a token can have, only the one that was hashed passes. -/
theorem secret_of_verified {draws : KeyDraws} {secret : String}
    (hlength : byteLength secret.toList = secretEncodedLen)
    (h : verifySecret argon secret (hashSecret argon draws.secret draws.salt) = true) :
    secret = draws.secret := by
  refine utf8_injective ?_
  refine argon.injective draws.salt argonTime argonMemory argonThreads _ _ ?_ ?_
    (verifySecret_hashSecret argon h)
  · rw [length_utf8, hlength]
  · rw [length_utf8, byteLength_secret]

/-! ### A minted token -/

/-- White space on both sides of a text is trimmed, and nothing else. -/
theorem trimSpace_surrounded {before text after : List Char}
    (hbefore : ∀ c ∈ before, isSpace c = true) (hafter : ∀ c ∈ after, isSpace c = true)
    (hne : text ≠ []) (hfirst : ∀ c ∈ text.head?, isSpace c = false)
    (hlast : ∀ c ∈ text.getLast?, isSpace c = false) :
    trimSpace (before ++ text ++ after) = text := by
  have hkeep : ∀ l rest : List Char, l ≠ [] → (∀ c ∈ l.head?, isSpace c = false) →
      (l ++ rest).dropWhile isSpace = l ++ rest := by
    intro l rest hl hhead
    cases l with
    | nil => exact absurd rfl hl
    | cons c =>
      rw [List.cons_append, List.dropWhile_cons_of_neg]
      rw [hhead c rfl]
      exact Bool.false_ne_true
  have hreverse : text.reverse.dropWhile isSpace = text.reverse := by
    have hback := hkeep text.reverse [] (List.reverse_ne_nil_iff.mpr hne)
      (by rw [List.head?_reverse]; exact hlast)
    rwa [List.append_nil] at hback
  unfold trimSpace
  rw [List.append_assoc, List.dropWhile_append_of_pos hbefore, hkeep text after hne hfirst,
    List.reverse_append,
    List.dropWhile_append_of_pos fun c hc => hafter c (List.mem_reverse.mp hc), hreverse,
    List.reverse_reverse]

/-- A text is split where its first part ends. -/
theorem splitBytes_append (a b : List Char) : splitBytes (a ++ b) (byteLength a) = some (a, b) := by
  induction a with
  | nil =>
    cases b with
    | nil | cons => rfl
  | cons c a ih =>
    have hpos := c.utf8Size_pos
    rcases hsize : c.utf8Size + byteLength a with _ | n
    · omega
    · have hfits : c.utf8Size ≤ n + 1 := by omega
      have hrest : n + 1 - c.utf8Size = byteLength a := by omega
      rw [byteLength, hsize, List.cons_append, splitBytes, if_pos hfits, hrest, ih]
      rfl

/-- A token is taken apart again, if its parts have the right lengths. -/
theorem parseToken_tokenText (env : KeyEnvironment) {keyID secret : String}
    (hkeyID : byteLength keyID.toList = keyIDEncodedLen)
    (hsecret : byteLength secret.toList = secretEncodedLen) :
    parseToken (tokenText env keyID secret).toList = some
      { keyID := keyID, secret := secret, fullToken := tokenText env keyID secret } := by
  have hlength : byteLength (keyID.toList ++ '_' :: secret.toList) =
      keyIDEncodedLen + 1 + secretEncodedLen := by
    rw [byteLength_append, byteLength, hkeyID, hsecret]
    rfl
  have hsplit : splitBytes (keyID.toList ++ '_' :: secret.toList) keyIDEncodedLen =
      some (keyID.toList, '_' :: secret.toList) := by
    rw [← hkeyID]
    exact splitBytes_append _ _
  have hdrop : (tokenText env keyID secret).toList.drop 4 =
      env.tag.toList ++ '_' :: (keyID.toList ++ '_' :: secret.toList) := by
    rw [toList_tokenText]
    rfl
  have hacd : "acd_".toList.isPrefixOf (tokenText env keyID secret).toList = true := by
    rw [toList_tokenText]
    exact List.isPrefixOf_iff_prefix.mpr (List.prefix_append _ _)
  have htag : (env.tag.toList ++ '_' :: (keyID.toList ++ '_' :: secret.toList)).takeWhile
      (· != '_') = env.tag.toList := by
    cases env <;> rfl
  have hvalid : (keyEnvironment env.tag).isNone = false := by
    cases env <;> rfl
  unfold parseToken
  rw [if_pos hacd]
  simp only [hdrop, htag, hvalid, Bool.false_eq_true, if_false, List.drop_left, hlength, ne_eq,
    not_true_eq_false, hsplit, String.ofList_toList]

/-- A text that ends with a secret does not end with a space. -/
theorem last_not_space {text : List Char} {draws : KeyDraws} :
    ∀ c ∈ (text ++ '_' :: draws.secret.toList).getLast?, isSpace c = false := by
  intro c hc
  have hchars : rawURLEncoding.chars.all (fun c => !isSpace c) = true := by decide
  rw [List.all_eq_true] at hchars
  have hmem : c ∈ '_' :: draws.secret.toList := by
    rw [List.getLast?_append_cons] at hc
    exact List.mem_of_getLast? hc
  rcases List.mem_cons.mp hmem with rfl | hsecret
  · rfl
  · rw [KeyDraws.secret, String.toList_ofList] at hsecret
    exact (Bool.not_eq_true' _).mp (hchars c (Base64.mem_of_mem_encode rawURLEncoding _ hsecret))

/-- White space around a token, and `Bearer` with more of it in front, are dropped. What
    begins as a token does is not taken for `Bearer`. -/
theorem parseBearer_trimmed {before gap after start rest : List Char}
    (hbefore : ∀ c ∈ before, isSpace c = true) (hgap : ∀ c ∈ gap, isSpace c = true)
    (hafter : ∀ c ∈ after, isSpace c = true) (hstart : start = [] ∨ start = "Bearer ".toList ++ gap)
    (hlast : ∀ c ∈ ('a' :: rest).getLast?, isSpace c = false) :
    parseBearer (String.ofList (before ++ (start ++ 'a' :: rest) ++ after)) =
      parseToken ('a' :: rest) := by
  have hnone : ∀ c ∈ ([] : List Char), isSpace c = true := fun c hc => absurd hc List.not_mem_nil
  have htoken : ∀ gap : List Char, (∀ c ∈ gap, isSpace c = true) →
      trimSpace (gap ++ 'a' :: rest) = 'a' :: rest := by
    intro gap hgap
    have htrim := trimSpace_surrounded hgap hnone (List.cons_ne_nil _ _)
      (fun c hc => by rw [← Option.some.inj hc]; rfl) hlast
    rwa [List.append_nil] at htrim
  have hne : start ++ 'a' :: rest ≠ [] :=
    List.append_ne_nil_of_right_ne_nil _ (List.cons_ne_nil _ _)
  have hheader : trimSpace (before ++ (start ++ 'a' :: rest) ++ after) = start ++ 'a' :: rest := by
    refine trimSpace_surrounded hbefore hafter hne (fun c hc => ?_) (fun c hc => ?_)
    · rcases hstart with rfl | rfl
      · rw [← Option.some.inj hc]
        rfl
      · rw [← Option.some.inj hc]
        rfl
    · rw [List.getLast?_append_cons] at hc
      exact hlast c hc
  have hbearer : trimSpace (trimPrefix "Bearer ".toList (start ++ 'a' :: rest)) = 'a' :: rest := by
    rcases hstart with rfl | rfl
    · have hnot : "Bearer ".toList.isPrefixOf ([] ++ 'a' :: rest) = false := rfl
      rw [trimPrefix, hnot, if_neg Bool.false_ne_true]
      exact htoken [] hnone
    · rw [List.append_assoc, trimPrefix,
        if_pos (List.isPrefixOf_iff_prefix.mpr (List.prefix_append _ _)), List.drop_left]
      exact htoken gap hgap
  -- Trimmed twice, around the header and around the token.
  unfold parseBearer
  simp only [String.toList_ofList, hheader, List.isEmpty_eq_false_iff.mpr hne, hbearer,
    Bool.false_eq_true, if_false]

/-- What `Mint` returns is what `ParseBearer` finds, bare or behind `Bearer` and more
    white space, with white space on both sides. -/
theorem parseBearer_surrounded (env : KeyEnvironment) (draws : KeyDraws)
    {before gap after start : List Char} (hbefore : ∀ c ∈ before, isSpace c = true)
    (hgap : ∀ c ∈ gap, isSpace c = true) (hafter : ∀ c ∈ after, isSpace c = true)
    (hstart : start = [] ∨ start = "Bearer ".toList ++ gap) :
    parseBearer (String.ofList (before ++
      (start ++ (tokenText env draws.keyID draws.secret).toList) ++ after)) = some
      { keyID := draws.keyID, secret := draws.secret
        fullToken := tokenText env draws.keyID draws.secret } := by
  rw [← parseToken_tokenText env (byteLength_keyID draws) (byteLength_secret draws)]
  have hends : (tokenText env draws.keyID draws.secret).toList =
      'a' :: (("cd_".toList ++ (env.tag.toList ++ '_' :: draws.keyID.toList)) ++
        '_' :: draws.secret.toList) := by
    rw [toList_tokenText, List.append_assoc, List.append_assoc, List.cons_append]
    rfl
  rw [hends]
  refine parseBearer_trimmed hbefore hgap hafter hstart ?_
  rw [← List.cons_append]
  exact last_not_space

/-- What `Mint` returns is what `ParseBearer` finds. -/
theorem parseBearer_minted (env : KeyEnvironment) (draws : KeyDraws) :
    parseBearer ("Bearer " ++ tokenText env draws.keyID draws.secret) = some
      { keyID := draws.keyID, secret := draws.secret
        fullToken := tokenText env draws.keyID draws.secret } := by
  have hnone : ∀ c ∈ ([] : List Char), isSpace c = true := fun c hc => absurd hc List.not_mem_nil
  have hparse := parseBearer_surrounded env draws hnone hnone hnone (.inr (List.append_nil _).symm)
  rw [List.nil_append, List.append_nil, ← String.toList_append, String.ofList_toList] at hparse
  exact hparse

/-! ### The rows -/

variable (x : KeyExternals) (roles : PgRoles)

/-- The row was inserted by `Create`, `Rotate` or `MintKey`, which returned the
    token. Each of them mints for the env it then stores. -/
inductive Inserted : KeyRow → String → Prop
  | create (env : KeyEnvironment) (draws : KeyDraws) (db : CreateReplies) (keys keys' : Keys)
      (input : CreateKeyInput) (created : CreatedKey) (row : KeyRow)
      (henv : keyEnvironment input.env = some env)
      (h : create x roles (.ok (argon.minted env draws)) db keys input = .ok (keys', created))
      (hrow : keys' draws.id = some row) : Inserted row created.fullToken
  | rotate (draws : KeyDraws) (db : RotateReplies) (keys keys' : Keys) (oldID : String)
      (oldUUID : Uuid) (old : KeyRow) (overlap now : Time) (created : CreatedKey) (row : KeyRow)
      (hparse : x.uuidParse oldID = .ok oldUUID) (hold : keys oldUUID = some old)
      (h : rotate x (.ok (argon.minted old.env draws)) db keys oldID overlap now =
        .ok (keys', created))
      (hrow : keys' draws.id = some row) : Inserted row created.fullToken
  | mintKey (env : KeyEnvironment) (draws : KeyDraws) (fresh : Uuid) (db : MintReplies)
      (s s' : KeyStore) (workspace pgRole envText token : String) (row : KeyRow)
      (henv : keyEnvironment envText = some env)
      (h : mintKey (.ok (argon.minted env draws)) fresh db s workspace pgRole envText =
        .ok (s', token))
      (hrow : s'.keys draws.id = some row) : Inserted row token

/-- The row and the token are made of the same draws. -/
theorem Inserted.of_draws {row : KeyRow} {token : String} (h : Inserted argon x roles row token) :
    ∃ draws : KeyDraws, row.keyID = draws.keyID ∧
      row.secretHash = hashSecret argon draws.secret draws.salt ∧
      token = tokenText row.env draws.keyID draws.secret := by
  -- In each of the three ways the row is the one that was written under the new id.
  cases h with
  | create env draws db keys keys' input created row henv h hrow =>
    rcases (create_eq_ok x roles _ db keys keys' input created).mp h
      with ⟨env', wsID, m, henv', _, hm, _, _, _, _, rfl, rfl⟩
    rw [← Except.ok.inj hm] at hrow ⊢
    have henvs : env' = env := Option.some.inj (henv'.symm.trans henv)
    have hstored := (Function.update_self (argon.minted env draws).id _ keys).symm.trans hrow
    rw [← Option.some.inj hstored, henvs]
    exact ⟨draws, rfl, rfl, rfl⟩
  | rotate draws db keys keys' oldID oldUUID old overlap now created row hparse hold h hrow =>
    rcases (rotate_eq_ok x _ db keys keys' oldID overlap now created).mp h
      with ⟨u, old', m, hparse', hold', hm, _, hfree, rfl, rfl⟩
    rw [← Except.ok.inj hm] at hfree hrow ⊢
    have hu : u = oldUUID := Except.ok.inj (hparse'.symm.trans hparse)
    subst hu
    have holds : old' = old := Option.some.inj (hold'.symm.trans hold)
    subst holds
    have hne := keys.ne_of_free u draws.id old' hold hfree
    have hnew : draws.id = (argon.minted old'.env draws).id := rfl
    rw [rotate_apply keys u _ overlap now hold hfree, if_neg hne.symm, if_pos hnew] at hrow
    rw [← Option.some.inj hrow]
    exact ⟨draws, rfl, rfl, rfl⟩
  | mintKey env draws fresh db s s' workspace pgRole envText token row henv h hrow =>
    rcases (mintKey_eq_ok s s' _ fresh db workspace pgRole envText token).mp h
      with ⟨env', m, found, hmints, rfl, rfl⟩
    have henvs : env' = env := Option.some.inj (hmints.env.symm.trans henv)
    rw [← Except.ok.inj hmints.mint] at hrow ⊢
    have hstored := (Function.update_self (argon.minted env draws).id _ s.keys).symm.trans hrow
    rw [← Option.some.inj hstored, henvs]
    exact ⟨draws, rfl, rfl, rfl⟩

/-- What a row can become: rotating its key sets its expiry, and revoking it the
    time of that. -/
inductive Became (row : KeyRow) : KeyRow → Prop
  | inserted : Became row row
  | expires (start overlap : Time) (row' row'' : KeyRow) (h : Became row row')
      (hupdate : scheduleExpiry start overlap row' = some row'') : Became row row''
  | revoked (now : Time) (row' row'' : KeyRow) (h : Became row row')
      (hupdate : revokeRow now row' = some row'') : Became row row''

/-- It keeps its key id and its hash. -/
theorem Became.columns (row row' : KeyRow) (h : Became row row') :
    row'.keyID = row.keyID ∧ row'.secretHash = row.secretHash := by
  induction h with
  | inserted => exact ⟨rfl, rfl⟩
  | expires start overlap row' row'' _ hupdate ih =>
    unfold scheduleExpiry at hupdate
    split at hupdate
    · cases hupdate
    · rw [← Option.some.inj hupdate]
      exact ih
  | revoked now row' row'' _ hupdate ih =>
    unfold revokeRow at hupdate
    split at hupdate
    · cases hupdate
    · rw [← Option.some.inj hupdate]
      exact ih

/-- In every run, for every row that `Create`, `Rotate` or `MintKey` inserted: a
    header that is accepted for the row has the token that was returned for it
    exactly when its env tag is the env of the row. -/
theorem accepted_token_iff (d : AuthDeployment)
    (hverify : d.externals.verifySecret = verifySecret argon)
    (hcache : Function.Injective d.externals.cacheKey) (row : KeyRow) (token : String)
    (hinserted : Inserted argon d.externals.toKeyExternals d.roles row token) (keys : Keys)
    (ttl now : Time) (es : List WorldEvent) (w : World)
    (hrun : run (worldStep d) (World.initial keys ttl now) es = some w) (row' : KeyRow)
    (hbecame : Became row row') (c : CallId) (id : Uuid) (ws : WorkspaceContext)
    (hforward : w.forwards c = some (row'.record d.externals.toKeyExternals id, ws))
    (header : String) (p : ParsedKey) (hheader : parseBearer header = some p)
    (htoken : w.tokens c = some p) :
    bearerText header = token ↔ tokenEnv (bearerText header) = some row.env := by
  rcases hinserted.of_draws argon d.externals.toKeyExternals d.roles
    with ⟨draws, hkeyID, hhash, hissued⟩
  rcases forwards_eq_some hforward with ⟨⟨readAt, hphase⟩, _, _⟩
  rcases resolved_for_token d ttl hcache hrun hphase with ⟨p', htoken', _, hfound, hverified⟩
  have hsame : p' = p := Option.some.inj (htoken'.symm.trans htoken)
  subst hsame
  -- The key id and the secret are those of the draws.
  rcases hbecame.columns row row' with ⟨hkeyID', hhash'⟩
  have hkey : p'.keyID = draws.keyID := hfound.symm.trans (hkeyID'.trans hkeyID)
  rcases parseBearer_parts hheader with ⟨_, env, henv, htext, hlength⟩
  have hpassed :
      verifySecret argon p'.secret (hashSecret argon draws.secret draws.salt) = true := by
    rw [← hverify, ← hhash, ← hhash']
    exact hverified
  have hsecret : p'.secret = draws.secret :=
    secret_of_verified argon hlength hpassed
  rw [henv, htext, hissued, hkey, hsecret, tokenText_inj, Option.some.injEq]

end

/-- A hash that is the secret itself. -/
def plainArgon : Argon2 where
  idKey := fun password _ _ _ _ _ => password
  injective := fun _ _ _ _ _ _ _ _ h => h

/-- Draws of zeros only. -/
def zeroDraws : KeyDraws :=
  { id := 1, idBytes := List.replicate 12 0, secBytes := List.replicate 24 0
    salt := List.replicate 16 0, length_idBytes := rfl, length_secBytes := rfl, length_salt := rfl }

/-- A live key made of them. -/
def zeroRow : KeyRow :=
  { workspaceID := 2, keyID := zeroDraws.keyID
    secretHash := hashSecret plainArgon zeroDraws.secret zeroDraws.salt, env := .live
    pgRole := "dbuser", name := none, expiresAt := none, revokedAt := none, replacesKeyID := none }

/-- The gateway that checks secrets as the code does, with that hash. -/
def plainDeployment : AuthDeployment :=
  { openDeployment with
    externals := { openDeployment.externals with verifySecret := verifySecret plainArgon } }

/-- The key was created, and its token returned. -/
theorem zeroRow_inserted :
    Inserted plainArgon plainDeployment.externals.toKeyExternals plainDeployment.roles zeroRow
      (tokenText .live zeroDraws.keyID zeroDraws.secret) :=
  Inserted.create .live zeroDraws ⟨none, none, none, none, none⟩ (fun _ => none) _
    { workspaceID := "aaa", env := "live", pgRole := "dbuser", name := "", expiresAt := none } _
    zeroRow rfl
    ((create_eq_ok _ _ _ _ _ _ _ _).mpr
      ⟨.live, 2, _, rfl, rfl, rfl, ⟨rfl, rfl, rfl, rfl, rfl⟩, rfl, rfl, rfl, rfl, rfl⟩)
    (Function.update_self _ _ _)

/-- A request with the key id and the secret of the key, and any tag. -/
def zeroHeader (env : KeyEnvironment) : String :=
  "Bearer " ++ tokenText env zeroDraws.keyID zeroDraws.secret

/-- The request, with the key in the table. -/
def zeroRun (env : KeyEnvironment) : Option World :=
  run (worldStep plainDeployment)
    (World.initial (fun id => if id = 1 then some zeroRow else none) 300 0)
    [.request 0 (zeroHeader env) false, .process (.call 0 .next), .process (.call 0 (.found 1)),
      .process (.call 0 .next), .process (.call 0 .next)]

/-- With the right tag and with another one the request is let in with the record
    of the key. -/
theorem zeroRun_end (env : KeyEnvironment) (henv : env ≠ .test) : ∃ w ws p, zeroRun env = some w ∧
    w.forwards 0 = some (zeroRow.record plainDeployment.externals.toKeyExternals 1, ws) ∧
    w.tokens 0 = some p ∧ parseBearer (zeroHeader env) = some p := by
  have hend : (zeroRun env).map (fun w => ((w.forwards 0).map Prod.fst, w.tokens 0)) =
      some (some (zeroRow.record plainDeployment.externals.toKeyExternals 1),
        parseBearer (zeroHeader env)) := by
    cases env with
    | live | dev => decide +kernel
    | test => exact absurd rfl henv
  rcases Option.map_eq_some_iff.mp hend with ⟨w, hrun, hw⟩
  rw [Prod.mk.injEq] at hw
  rcases Option.map_eq_some_iff.mp hw.1 with ⟨⟨rec, ws⟩, hforward, hrec⟩
  have hparse := parseBearer_minted env zeroDraws
  exact ⟨w, ws, _, hrun, hrec ▸ hforward, hw.2.trans hparse, hparse⟩

/-- The token of the key is accepted, and it is the one with the right tag. -/
theorem issued_token_accepted : ∃ w ws, zeroRun .live = some w ∧
    w.forwards 0 = some (zeroRow.record plainDeployment.externals.toKeyExternals 1, ws) ∧
    (bearerText (zeroHeader .live) = tokenText .live zeroDraws.keyID zeroDraws.secret ↔
      tokenEnv (bearerText (zeroHeader .live)) = some zeroRow.env) := by
  rcases zeroRun_end .live (by decide) with ⟨w, ws, p, hrun, hforward, htoken, hparse⟩
  exact ⟨w, ws, hrun, hforward, accepted_token_iff plainArgon plainDeployment rfl (fun _ _ h => h)
    zeroRow _ zeroRow_inserted _ 300 0 _ w hrun zeroRow .inserted 0 1 ws hforward _ p hparse htoken⟩

/-- A token that was issued for no key is accepted: the one of the live key with the
    tag of another env. -/
theorem other_tag_accepted :
    Inserted plainArgon plainDeployment.externals.toKeyExternals plainDeployment.roles zeroRow
      (tokenText .live zeroDraws.keyID zeroDraws.secret) ∧
    ∃ w ws, zeroRun .dev = some w ∧
      w.forwards 0 = some (zeroRow.record plainDeployment.externals.toKeyExternals 1, ws) ∧
      w.tokens 0 = parseBearer (zeroHeader .dev) ∧
      bearerText (zeroHeader .dev) ≠ tokenText .live zeroDraws.keyID zeroDraws.secret := by
  rcases zeroRun_end .dev (by decide) with ⟨w, ws, p, hrun, hforward, htoken, hparse⟩
  refine ⟨zeroRow_inserted, w, ws, hrun, hforward, htoken.trans hparse.symm, ?_⟩
  decide +kernel

end CoopDB
