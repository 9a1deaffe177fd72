import CoopDB.Core.RolePassword
import CoopDB.Lib.SqlLiteral

/-!
# The Password Literal Round-Trips

The scanner on what `SetRolePassword` sends. It reads bytes, and a byte from 128 on is
to it what a character beyond ASCII is: part of a word, or of whatever it stands in. So
its tokens are those of the text with one character for each byte.

The role has no character that `%q` escapes, and the password has its quotes doubled,
so both are read back as they were (`SqlScanner.readQuoted_doubled`).

## Main definitions

* `byteChars`, `charBytes`: One character for each byte, and back.
* `readAlterRole`: The role and the password of a statement.

## Theorems

* `tokens_alterRole`: The tokens of the statement.
* `password_round_trips`: The statement is a single one, and the server reads the role
  and the password that were given, byte for byte.
-/

namespace CoopDB

open SqlScanner

/-! ### Bytes as characters -/

/-- A character for a byte. -/
def byteChar (b : UInt8) : Char :=
  Char.ofNat b.toNat

/-- The bytes as the scanner reads them. -/
def byteChars (text : Bytes) : List Char :=
  text.map byteChar

/-- The bytes again. -/
def charBytes (text : List Char) : Bytes :=
  text.map fun c => UInt8.ofNat c.toNat

theorem toNat_byteChar (b : UInt8) : (byteChar b).toNat = b.toNat := by
  have hvalid : b.toNat.isValidChar := .inl (Nat.lt_trans b.toNat_lt (by decide))
  have hchar : byteChar b = Char.ofNatAux b.toNat hvalid := dif_pos hvalid
  rw [hchar]
  rfl

theorem charBytes_byteChars (text : Bytes) : charBytes (byteChars text) = text := by
  rw [charBytes, byteChars, List.map_map]
  refine (List.map_congr_left (fun b _ => ?_)).trans (List.map_id text)
  simp only [Function.comp, toNat_byteChar, UInt8.ofNat_toNat, id]

theorem byteChars_append (a b : Bytes) : byteChars (a ++ b) = byteChars a ++ byteChars b :=
  List.map_append

theorem byteChar_eq_iff (b : UInt8) (c : Char) : byteChar b = c ↔ b.toNat = c.toNat := by
  rw [← Char.toNat_inj, toNat_byteChar]

/-- Doubling the quotes of the bytes doubles those of the characters. -/
theorem byteChars_escapedPassword (newPassword : Bytes) :
    byteChars (escapedPassword newPassword) = doubled apostrophe (byteChars newPassword) := by
  have hquote : ∀ b : UInt8, byteChar b = apostrophe ↔ b = 0x27 := by
    intro b
    rw [byteChar_eq_iff, ← UInt8.toNat_inj]
    exact Iff.rfl
  rw [escapedPassword, Replace.replaceAll_singleton, doubled, byteChars, byteChars,
    List.map_flatMap, List.flatMap_map]
  refine List.flatMap_congr (fun b _ => ?_)
  by_cases hb : b = 0x27
  · rw [if_pos hb, if_pos ((hquote b).mpr hb)]
    rfl
  · rw [if_neg hb, if_neg (fun h => hb ((hquote b).mp h))]
    rfl

/-- The bytes of a role. -/
theorem safeRole_bytes {role : Bytes} (h : isSafeRole role = true) {b : UInt8} (hb : b ∈ role) :
    (97 ≤ b.toNat ∧ b.toNat ≤ 122) ∨ (48 ≤ b.toNat ∧ b.toNat ≤ 57) ∨ b.toNat = 95 := by
  simp only [isSafeRole, Bool.and_eq_true, List.all_eq_true] at h
  have hbyte := h.2 b hb
  simp only [Bool.or_eq_true, Bool.and_eq_true, decide_eq_true_eq, beq_iff_eq,
    UInt8.le_iff_toNat_le, ← UInt8.toNat_inj, UInt8.reduceToNat, or_assoc] at hbyte
  exact hbyte

/-- The verb `%q` escapes nothing in a role. -/
theorem goQuoteBytes_role (role : Bytes) (h : isSafeRole role = true) :
    goQuoteBytes role = inQuotes role := by
  refine congrArg inQuotes (Eq.trans (List.flatMap_congr (g := fun b => [b]) (fun b hb => ?_))
    (List.flatMap_singleton' role))
  have hbyte := safeRole_bytes h hb
  have hquote : ¬(b = 0x22 ∨ b = 0x5C) := by
    simp only [← UInt8.toNat_inj, UInt8.reduceToNat]
    omega
  have hcontrol : ¬ isControlByte b = true := by
    simp only [isControlByte, Bool.or_eq_true, decide_eq_true_eq, beq_iff_eq,
      UInt8.lt_iff_toNat_lt, ← UInt8.toNat_inj, UInt8.reduceToNat]
    omega
  rw [if_neg hquote, if_neg hcontrol]

/-- The role in quotes, for the scanner. -/
theorem byteChars_goQuoteBytes (role : Bytes) (h : isSafeRole role = true) :
    byteChars (goQuoteBytes role) = quoted '"' (byteChars role) := by
  have hnone : '"' ∉ byteChars role := by
    intro hmem
    obtain ⟨b, hb, hchar⟩ := List.mem_map.mp hmem
    have hbyte := safeRole_bytes h hb
    have hcode : b.toNat = 34 := (byteChar_eq_iff b '"').mp hchar
    omega
  rw [goQuoteBytes_role role h, quoted, SqlScanner.doubled_of_not_mem _ _ hnone, inQuotes,
    List.cons_append, byteChars, List.map_cons, List.map_append]
  rfl

/-! ### The statement -/

/-- The role and the password of a statement `ALTER ROLE ... WITH PASSWORD ...` that ends
    with the string constant. -/
def readAlterRole (statement : List Token) : Option (Bytes × Bytes) :=
  match afterWords ["alter", "role"] statement with
  | some (name :: rest) =>
    match name.identifier, afterWords ["with", "password"] rest with
    | some role, some [constant] =>
      constant.literal.map fun password => (charBytes role, charBytes password)
    | _, _ => none
  | _ => none

/-- The tokens of the statement. -/
theorem tokens_alterRole {role : Bytes} (newPassword : Bytes) (h : isSafeRole role = true) :
    tokens (byteChars (alterRolePassword role newPassword)) =
      [⟨.ident, "ALTER".toList⟩, ⟨.space, [' ']⟩, ⟨.ident, "ROLE".toList⟩, ⟨.space, [' ']⟩,
        ⟨.quotedIdent, quoted '"' (byteChars role)⟩, ⟨.space, [' ']⟩, ⟨.ident, "WITH".toList⟩,
        ⟨.space, [' ']⟩, ⟨.ident, "PASSWORD".toList⟩, ⟨.space, [' ']⟩,
        ⟨.string, quoted apostrophe (byteChars newPassword)⟩] := by
  have hstart : byteChars (utf8 "ALTER ROLE ") =
      "ALTER".toList ++ ([' '] ++ ("ROLE".toList ++ [' '])) := by decide
  have hmiddle : byteChars (utf8 " WITH PASSWORD ") =
      [' '] ++ ("WITH".toList ++ ([' '] ++ ("PASSWORD".toList ++ [' ']))) := by decide
  have hliteral : byteChars (0x27 :: (escapedPassword newPassword ++ [0x27])) =
      quoted apostrophe (byteChars newPassword) := by
    rw [quoted, ← byteChars_escapedPassword, byteChars, List.map_cons, List.map_append]
    rfl
  have htext : byteChars (alterRolePassword role newPassword) =
      "ALTER".toList ++ ([' '] ++ ("ROLE".toList ++ ([' '] ++ (quoted '"' (byteChars role) ++
        ([' '] ++ ("WITH".toList ++ ([' '] ++ ("PASSWORD".toList ++ ([' '] ++
          (quoted apostrophe (byteChars newPassword) ++ [])))))))))) := by
    rw [alterRolePassword, byteChars_append, byteChars_append, byteChars_append, hstart, hmiddle,
      hliteral, byteChars_goQuoteBytes role h]
    simp only [List.append_assoc, List.append_nil]
  rw [htext, tokens_word_space _ (by decide) (head_word _ (by decide)),
    tokens_word_space _ (by decide) (head_quoted '"' _ _ (by decide)),
    tokens_quotedIdent_space _ _ (head_word _ (by decide)),
    tokens_word_space _ (by decide) (head_word _ (by decide)),
    tokens_word_space _ (by decide) (head_quoted apostrophe _ _ (by decide)),
    tokens_string _ [] (by decide)]
  rfl

/-- The statement has a role and a password, and they are the arguments. -/
theorem readAlterRole_alterRole (role newPassword : Bytes) :
    readAlterRole [⟨.ident, "ALTER".toList⟩, ⟨.ident, "ROLE".toList⟩,
      ⟨.quotedIdent, quoted '"' (byteChars role)⟩, ⟨.ident, "WITH".toList⟩,
      ⟨.ident, "PASSWORD".toList⟩, ⟨.string, quoted apostrophe (byteChars newPassword)⟩] =
      some (role, newPassword) := by
  have hname : Token.identifier ⟨.quotedIdent, quoted '"' (byteChars role)⟩ =
      some (byteChars role) := unquoted_quoted '"' (byteChars role)
  have hliteral : Token.literal ⟨.string, quoted apostrophe (byteChars newPassword)⟩ =
      some (byteChars newPassword) := unquoted_quoted apostrophe (byteChars newPassword)
  have halter : ∀ ts, afterWords ["alter", "role"]
      (⟨.ident, "ALTER".toList⟩ :: ⟨.ident, "ROLE".toList⟩ :: ts) = some ts := fun _ => rfl
  have hwith : ∀ ts, afterWords ["with", "password"]
      (⟨.ident, "WITH".toList⟩ :: ⟨.ident, "PASSWORD".toList⟩ :: ts) = some ts := fun _ => rfl
  simp only [readAlterRole, halter, hwith, hname, hliteral, Option.map_some, charBytes_byteChars]

/-- For a role that is accepted and a password that is not empty and has no NUL, the
    arguments pass. Once it is connected, `SetRolePassword` sends a text that is a single
    statement. The statement sets the password of this role to this password, and the text
    ends with the literal. -/
theorem password_round_trips (x : BootEnv) (url password role newPassword finalURL : Bytes)
    (hrole : isSafeRole role = true) (hne : newPassword ≠ []) (hnul : 0 ∉ newPassword)
    (hurl : Boot.injected x url password = .ok finalURL) (hconnect : x.pgx finalURL = none) :
    ∃ text, Boot.setRolePasswordSends x url password role newPassword = .ok text ∧
      (∃ statement, statements (tokens (byteChars text)) = [statement] ∧
        readAlterRole statement = some (role, newPassword)) ∧
      ∃ literal, (tokens (byteChars text)).getLast? = some literal ∧
        literal.literal.map charBytes = some newPassword := by
  have harguments : Boot.roleArguments x role newPassword = .ok () := by
    have hcontains : newPassword.contains 0 = false := by
      rw [Bool.eq_false_iff, ne_eq, List.contains_iff_mem]
      exact hnul
    simp only [Boot.roleArguments, hrole, hne, hcontains, Bool.true_eq_false, Bool.false_eq_true,
      if_false]
  have hsends : Boot.setRolePasswordSends x url password role newPassword =
      .ok (alterRolePassword role newPassword) := by
    have hconnected : Boot.connected x finalURL = .ok finalURL := by
      simp only [Boot.connected, hconnect]
    have hset : Boot.setRolePassword x url password role newPassword = .ok finalURL := by
      unfold Boot.setRolePassword
      rw [harguments, hurl]
      change Boot.redacting _ (Boot.connected x finalURL) = _
      rw [hconnected]
      rfl
    rw [Boot.setRolePasswordSends, hset]
    rfl
  -- The literal is the last token, and unquoting undoes the doubling.
  refine ⟨_, hsends, ⟨_, ?_, readAlterRole_alterRole role newPassword⟩,
    ⟨.string, quoted apostrophe (byteChars newPassword)⟩, ?_, ?_⟩
  · rw [tokens_alterRole newPassword hrole]
    rfl
  · rw [tokens_alterRole newPassword hrole]
    rfl
  · have hliteral := unquoted_quoted apostrophe (byteChars newPassword)
    simp only [Token.literal, if_true, hliteral, Option.map_some, charBytes_byteChars]

/-- A password that begins and ends with a quote and has a comment and a semicolon in
    between. -/
theorem hostile_password_round_trips :
    ∃ text, Boot.setRolePasswordSends ⟨goUrl, fun _ => none, fun _ => none⟩ (utf8 "postgres://db/x")
        [] (utf8 "gateway") (utf8 "'; DROP ROLE owner; --\\''") = .ok text ∧
      ∃ statement, statements (tokens (byteChars text)) = [statement] ∧
        readAlterRole statement = some (utf8 "gateway", utf8 "'; DROP ROLE owner; --\\''") := by
  obtain ⟨text, hsends, hstatement, _⟩ := password_round_trips ⟨goUrl, fun _ => none, fun _ => none⟩
    (utf8 "postgres://db/x") [] (utf8 "gateway") (utf8 "'; DROP ROLE owner; --\\''")
    (utf8 "postgres://db/x") (by decide) (by decide) (by decide) rfl rfl
  exact ⟨text, hsends, hstatement⟩

end CoopDB
