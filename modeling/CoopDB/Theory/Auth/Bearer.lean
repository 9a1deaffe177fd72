import CoopDB.Lib.Utf8
import CoopDB.Theory.Auth.OneToken

/-!
# Bearer Tokens Parse Back

`ParseBearer` undoes the minting of a token, and accepts nothing else.

What is minted is followed over texts, where white space is characters, and carried
over to bytes: trimming, the prefix and the positions of a token in bytes are those
of the text. What is accepted may be any bytes, so this is read off the byte model
itself.

That the two models agree needs one thing about UTF-8, that characters can be told
apart from both ends. The general lemma about trimming takes the encoding as a
parameter, and the end of a text is the front of the reversed one with every encoding
reversed (`dropRunes_encode`).

## Theorems

* `trimSpaceBytes_encode`: Trimming in bytes is trimming the text.
* `parseBearerBytes_utf8`: The two models agree on texts.
* `parts_of_parseBearerBytes`: What is accepted is made of its parts.
* `bearer_token_parses_back`: A minted token is taken apart again, whatever white space
  is around it, and a header that is accepted is put together from what is returned.
-/

namespace CoopDB

open String (utf8EncodeChar)
open Utf8 (encode)

variable (text : List Char) (env : KeyEnvironment)

theorem utf8_ofList : utf8 (String.ofList text) = encode text := by
  unfold utf8
  rw [String.toUTF8_eq_toByteArray, String.toByteArray_ofList, List.utf8Encode,
    List.data_toByteArray, Utf8.encode]

theorem utf8_eq_encode (s : String) : utf8 s = encode s.toList := by
  rw [← utf8_ofList, String.ofList_toList]

theorem length_encode : (encode text).length = byteLength text := by
  rw [← utf8_ofList, length_utf8, String.toList_ofList]

/-! ### Trimming -/

theorem mem_spaceChars_iff (c : Char) : c ∈ spaceChars ↔ isSpace c = true := by
  constructor
  · intro h
    have hall : spaceChars.all isSpace = true := by decide
    exact List.all_eq_true.mp hall c h
  · intro h
    have hnumber : c.toNat ∈ spaceChars.map Char.toNat := by
      have hnumbers : spaceChars.map Char.toNat =
          [9, 10, 11, 12, 13, 0x20, 0x85, 0xA0, 0x1680, 0x2000, 0x2001, 0x2002, 0x2003, 0x2004,
            0x2005, 0x2006, 0x2007, 0x2008, 0x2009, 0x200A, 0x2028, 0x2029, 0x202F, 0x205F,
            0x3000] := by decide
      rw [hnumbers]
      simp only [isSpace, Bool.or_eq_true, Bool.and_eq_true, decide_eq_true_eq, beq_iff_eq] at h
      simp only [List.mem_cons, List.not_mem_nil, or_false]
      omega
    obtain ⟨d, hd, hsame⟩ := List.mem_map.mp hnumber
    rw [← Char.toNat_inj.mp hsame]
    exact hd

section

-- An encoding of characters that can be told apart at the front.
variable (enc : Char → Bytes)
  (hfront : ∀ (c d : Char) (x y : Bytes), enc c ++ x = enc d ++ y → c = d)
  (hne : ∀ c, enc c ≠ [])

include hfront in
/-- The rune at the front of a text, if its first character is white space. -/
theorem find_rune (c : Char) (rest : Bytes) :
    (spaceChars.map enc).find? (·.isPrefixOf (enc c ++ rest)) =
      if isSpace c then some (enc c) else none := by
  have hrune : ∀ rune ∈ spaceChars.map enc, rune.isPrefixOf (enc c ++ rest) = true →
      isSpace c = true ∧ rune = enc c := by
    intro rune hmem hfirst
    obtain ⟨d, hd, rfl⟩ := List.mem_map.mp hmem
    obtain ⟨x, hx⟩ := List.isPrefixOf_iff_prefix.mp hfirst
    obtain rfl := hfront d c x rest hx
    exact ⟨(mem_spaceChars_iff d).mp hd, rfl⟩
  by_cases hspace : isSpace c = true
  · rw [if_pos hspace]
    cases hfind : (spaceChars.map enc).find? (·.isPrefixOf (enc c ++ rest)) with
    | none =>
      have hnot := List.find?_eq_none.mp hfind (enc c)
        (List.mem_map_of_mem ((mem_spaceChars_iff c).mpr hspace))
      exact absurd (List.isPrefixOf_iff_prefix.mpr (List.prefix_append _ _)) hnot
    | some rune =>
      have hfirst := List.find?_some (p := fun x : Bytes => x.isPrefixOf (enc c ++ rest)) hfind
      rw [(hrune rune (List.mem_of_find?_eq_some hfind) hfirst).2]
  · rw [if_neg hspace]
    refine List.find?_eq_none.mpr fun rune hmem hfirst => ?_
    exact hspace (hrune rune hmem hfirst).1

include hfront hne in
/-- Dropping runes off the front of the bytes drops white space off the text. -/
theorem dropRunes_encode {text : List Char} (n : Nat) (hn : text.length ≤ n) :
    dropRunes (spaceChars.map enc) n (text.flatMap enc) =
      (text.dropWhile isSpace).flatMap enc := by
  induction text generalizing n with
  | nil =>
    cases n with
    | zero => rfl
    | succ =>
      have hfind : (spaceChars.map enc).find? (·.isPrefixOf []) = none := by
        refine List.find?_eq_none.mpr fun rune hmem hfirst => ?_
        obtain ⟨d, _, rfl⟩ := List.mem_map.mp hmem
        exact hne d (List.prefix_nil.mp (List.isPrefixOf_iff_prefix.mp hfirst))
      rw [List.flatMap_nil, dropRunes, hfind]
      rfl
  | cons c text ih =>
    cases n with
    | zero => exact absurd hn (Nat.not_succ_le_zero _)
    | succ n =>
      rw [List.flatMap_cons, dropRunes, find_rune enc hfront]
      by_cases hspace : isSpace c = true
      · rw [List.dropWhile_cons_of_pos hspace, if_pos hspace]
        simp only [List.drop_left]
        exact ih n (Nat.le_of_succ_le_succ hn)
      · rw [List.dropWhile_cons_of_neg hspace, if_neg hspace, List.flatMap_cons]

end

theorem length_le_length_encode : text.length ≤ (encode text).length := by
  induction text with
  | nil => exact Nat.le_refl 0
  | cons c text ih =>
    have hpos := List.length_pos_of_ne_nil (String.utf8EncodeChar_ne_nil (c := c))
    rw [Utf8.encode_cons, List.length_append, List.length_cons]
    omega

theorem reverse_encode :
    (encode text).reverse = text.reverse.flatMap fun c => (utf8EncodeChar c).reverse := by
  induction text with
  | nil => rfl
  | cons c text ih =>
    rw [Utf8.encode_cons, List.reverse_append, ih, List.reverse_cons, List.flatMap_append,
      List.flatMap_singleton]

theorem reverse_flatMap_reverse :
    (text.flatMap fun c => (utf8EncodeChar c).reverse).reverse = encode text.reverse := by
  rw [← List.reverse_reverse (encode text.reverse), reverse_encode, List.reverse_reverse]

/-- Trimming the bytes of a text. -/
theorem trimSpaceBytes_encode : trimSpaceBytes (encode text) = encode (trimSpace text) := by
  have hleft : dropRunes spaceRunes (encode text).length (encode text) =
      encode (text.dropWhile isSpace) :=
    dropRunes_encode utf8EncodeChar Utf8.eq_of_front (fun c => String.utf8EncodeChar_ne_nil) _
      (length_le_length_encode text)
  have hback : ∀ (c d : Char) (x y : Bytes),
      (utf8EncodeChar c).reverse ++ x = (utf8EncodeChar d).reverse ++ y → c = d := by
    intro c d x y h
    refine Utf8.eq_of_back c d x.reverse y.reverse ?_
    have hreverse := congrArg List.reverse h
    rwa [List.reverse_append, List.reverse_append, List.reverse_reverse, List.reverse_reverse]
      at hreverse
  have hrunes : spaceRunes.map List.reverse =
      spaceChars.map fun c => (utf8EncodeChar c).reverse := by
    rw [spaceRunes, List.map_map]
    rfl
  unfold trimSpaceBytes trimSpace
  simp only [hleft, hrunes, reverse_encode]
  rw [dropRunes_encode _ hback (fun c => List.reverse_ne_nil_iff.mpr String.utf8EncodeChar_ne_nil) _
    (by rw [List.length_reverse]; exact length_le_length_encode _), reverse_flatMap_reverse]

/-- Trimming a prefix off the bytes of a text. -/
theorem trimPrefixBytes_encode (start text : List Char) :
    trimPrefixBytes (encode start) (encode text) = encode (trimPrefix start text) := by
  unfold trimPrefixBytes trimPrefix
  by_cases h : start <+: text
  · rw [if_pos (List.isPrefixOf_iff_prefix.mpr h),
      if_pos (List.isPrefixOf_iff_prefix.mpr ((Utf8.encode_prefix_iff start text).mpr h))]
    obtain ⟨rest, rfl⟩ := h
    rw [Utf8.encode_append, List.drop_left, List.drop_left]
  · rw [if_neg fun hfirst => h (List.isPrefixOf_iff_prefix.mp hfirst),
      if_neg fun hfirst => h ((Utf8.encode_prefix_iff start text).mp
        (List.isPrefixOf_iff_prefix.mp hfirst))]

/-! ### The parts of a token -/

theorem environmentOf_tag : environmentOf (utf8 env.tag) = some env := by
  cases env <;> decide

theorem environmentOf_eq_some (tag : Bytes) (env : KeyEnvironment)
    (h : environmentOf tag = some env) : tag = utf8 env.tag := by
  have hfound := List.find?_some (p := fun env : KeyEnvironment => utf8 env.tag = tag) h
  exact (of_decide_eq_true hfound).symm

/-- The env is found at the first separator. -/
theorem idxOf_tag (rest : Bytes) :
    (utf8 env.tag ++ underscore :: rest).idxOf? underscore = some (utf8 env.tag).length := by
  have hnot : underscore ∉ utf8 env.tag := by
    cases env <;> decide
  refine List.idxOf?_eq_some_iff.mpr ⟨?_, ?_, ?_⟩
  · rw [List.length_append, List.length_cons]
    omega
  · rw [List.getElem_append_right (Nat.le_refl _)]
    simp
  · intro j hj heq
    rw [List.getElem_append_left hj] at heq
    exact hnot (heq ▸ List.getElem_mem hj)

/-- The bytes of a token. -/
def tokenBytes (env : KeyEnvironment) (keyID secret : Bytes) : Bytes :=
  utf8 "acd_" ++ (utf8 env.tag ++ underscore :: (keyID ++ underscore :: secret))

/-- A token is taken apart into its parts. -/
theorem parseTokenBytes_tokenBytes (keyID secret : Bytes) (hkeyID : keyID.length = keyIDEncodedLen)
    (hsecret : secret.length = secretEncodedLen) :
    parseTokenBytes (tokenBytes env keyID secret) = some
      { env := env, keyID := keyID, secret := secret
        fullToken := tokenBytes env keyID secret } := by
  have hacd : (utf8 "acd_").isPrefixOf (tokenBytes env keyID secret) = true :=
    List.isPrefixOf_iff_prefix.mpr (List.prefix_append _ _)
  have hrest : (tokenBytes env keyID secret).drop (utf8 "acd_").length =
      utf8 env.tag ++ underscore :: (keyID ++ underscore :: secret) :=
    List.drop_left
  have htag : ¬(utf8 env.tag).length < 1 := by
    cases env <;> decide
  have hbehind : (utf8 env.tag ++ underscore :: (keyID ++ underscore :: secret)).drop
      ((utf8 env.tag).length + 1) = keyID ++ underscore :: secret := by
    rw [← List.drop_drop, List.drop_left, List.drop_one, List.tail_cons]
  have hlength : (keyID ++ underscore :: secret).length =
      keyIDEncodedLen + 1 + secretEncodedLen := by
    rw [List.length_append, List.length_cons, hkeyID, hsecret]
    rfl
  have hsep : (keyID ++ underscore :: secret)[keyIDEncodedLen]? = some underscore := by
    rw [← hkeyID, List.getElem?_append_right (Nat.le_refl _), Nat.sub_self, List.getElem?_cons_zero]
  have htake : (keyID ++ underscore :: secret).take keyIDEncodedLen = keyID := by
    rw [← hkeyID, List.take_left]
  have hdrop : (keyID ++ underscore :: secret).drop (keyIDEncodedLen + 1) = secret := by
    rw [← hkeyID, ← List.drop_drop, List.drop_left, List.drop_one, List.tail_cons]
  unfold parseTokenBytes
  rw [if_pos hacd]
  simp [hrest, idxOf_tag, htag, environmentOf_tag, hbehind, hlength, hsep, htake, hdrop]

/-- What is accepted is a token. -/
theorem parts_of_parseTokenBytes (header : Bytes) (k : BearerKey)
    (h : parseTokenBytes header = some k) :
    k.fullToken = header ∧ header = tokenBytes k.env k.keyID k.secret ∧
      k.keyID.length = keyIDEncodedLen ∧ k.secret.length = secretEncodedLen := by
  unfold parseTokenBytes at h
  rw [Option.ite_none_right_eq_some] at h
  rcases h with ⟨hacd, h⟩
  obtain ⟨rest, rfl⟩ := List.isPrefixOf_iff_prefix.mp hacd
  simp only [List.drop_left] at h
  cases hsep : rest.idxOf? underscore with
  | none =>
    rw [hsep] at h
    cases h
  | some sep =>
    rw [hsep] at h
    simp only [Option.ite_none_left_eq_some] at h
    cases htag : environmentOf (rest.take sep) with
    | none =>
      rw [htag] at h
      exact nomatch h.2
    | some env =>
      rw [htag] at h
      simp only [Option.ite_none_left_eq_some, Option.some.injEq, not_not] at h
      rcases h with ⟨_, hlength, hunderscore, rfl⟩
      -- The text is put together again, around the two separators.
      obtain ⟨hin, hat, _⟩ := List.idxOf?_eq_some_iff.mp hsep
      obtain ⟨hin', hat'⟩ := List.getElem?_eq_some_iff.mp hunderscore
      have hrest : rest = utf8 env.tag ++ underscore :: rest.drop (sep + 1) := by
        rw [← environmentOf_eq_some _ env htag, ← hat, List.getElem_cons_drop,
          List.take_append_drop]
      have hbehind : rest.drop (sep + 1) = (rest.drop (sep + 1)).take keyIDEncodedLen ++
          underscore :: (rest.drop (sep + 1)).drop (keyIDEncodedLen + 1) := by
        conv => lhs; rw [← List.take_append_drop keyIDEncodedLen (rest.drop (sep + 1)),
          ← List.getElem_cons_drop hin', hat']
      refine ⟨rfl, ?_, ?_, ?_⟩
      · unfold tokenBytes
        rw [← hbehind, ← hrest]
      · rw [List.length_take, hlength]
        decide
      · rw [List.length_drop, hlength]
        decide

theorem parts_of_parseBearerBytes {header : Bytes} (k : BearerKey)
    (h : parseBearerBytes header = some k) :
    k.fullToken = tokenBytes k.env k.keyID k.secret ∧
      k.keyID.length = keyIDEncodedLen ∧ k.secret.length = secretEncodedLen := by
  simp only [parseBearerBytes, Option.ite_none_left_eq_some] at h
  obtain ⟨hfull, htoken, hlengths⟩ := parts_of_parseTokenBytes _ k h.2
  exact ⟨hfull.trans htoken, hlengths⟩

/-! ### The text model -/

theorem underscore_encode : utf8EncodeChar '_' = [underscore] := by
  decide

theorem utf8_tokenText (keyID secret : String) :
    utf8 (tokenText env keyID secret) = tokenBytes env (utf8 keyID) (utf8 secret) := by
  unfold tokenBytes
  simp [utf8_eq_encode, toList_tokenText, underscore_encode]

theorem tokenEnv_tokenText (keyID secret : String) :
    tokenEnv (tokenText env keyID secret) = some env := by
  unfold tokenEnv
  rw [toList_tokenText]
  cases env <;> rfl

/-- A text whose bytes are a token is the token of two texts. -/
theorem token_of_encode (keyID secret : Bytes) (h : encode text = tokenBytes env keyID secret)
    (hkeyID : keyID.length = keyIDEncodedLen) :
    ∃ keyID' secret', text = (tokenText env keyID' secret').toList ∧ utf8 keyID' = keyID ∧
      utf8 secret' = secret := by
  have hfront : encode ("acd_".toList ++ (env.tag.toList ++ ['_'])) =
      utf8 "acd_" ++ (utf8 env.tag ++ [underscore]) := by
    rw [Utf8.encode_append, Utf8.encode_append, ← utf8_eq_encode, ← utf8_eq_encode,
      Utf8.encode_cons, underscore_encode, Utf8.encode_nil, List.append_nil]
  have hbytes : encode text = encode ("acd_".toList ++ (env.tag.toList ++ ['_'])) ++
      (keyID ++ underscore :: secret) := by
    rw [h, hfront, tokenBytes, List.append_assoc, List.append_assoc, List.singleton_append]
  obtain ⟨rest, rfl⟩ := (Utf8.encode_prefix_iff _ text).mp ⟨_, hbytes.symm⟩
  rw [Utf8.encode_append, List.append_cancel_left_eq] at hbytes
  have hsep : (encode rest)[keyIDEncodedLen]? = some underscore := by
    rw [hbytes, ← hkeyID, List.getElem?_append_right (Nat.le_refl _), Nat.sub_self,
      List.getElem?_cons_zero]
  obtain ⟨before, behind, rfl, hlength⟩ :=
    Utf8.position_of_byte '_' underscore_encode rest _ hsep
  rw [Utf8.encode_append, Utf8.encode_cons, underscore_encode, List.singleton_append] at hbytes
  obtain ⟨hbefore, hbehind⟩ := List.append_inj hbytes (hlength.trans hkeyID.symm)
  refine ⟨String.ofList before, String.ofList behind, ?_, ?_, ?_⟩
  · simp [toList_tokenText]
  · rw [utf8_ofList, hbefore]
  · rw [utf8_ofList]
    exact (List.cons.inj hbehind).2

/-- A parsed token has a key id of the right length. -/
theorem byteLength_keyID_of_parseToken (header : List Char) (p : ParsedKey)
    (h : parseToken header = some p) : byteLength p.keyID.toList = keyIDEncodedLen := by
  simp only [parseToken, Option.ite_none_right_eq_some, Option.ite_none_left_eq_some] at h
  rcases h with ⟨_, _, h⟩
  split at h
  case h_2 => cases h
  case h_1 rest hrest =>
    rw [Option.ite_none_left_eq_some] at h
    rcases h with ⟨_, h⟩
    split at h
    case h_2 => cases h
    case h_1 keyID secret hsplit =>
      rw [← Option.some.inj h, String.toList_ofList]
      exact (splitBytes_eq_some rest keyIDEncodedLen keyID _ hsplit).2

/-- The two models take the same tokens apart in the same way. -/
theorem parseTokenBytes_encode (k : BearerKey) : parseTokenBytes (encode text) = some k ↔
      ∃ p, parseToken text = some p ∧ tokenEnv p.fullToken = some k.env ∧
        utf8 p.keyID = k.keyID ∧ utf8 p.secret = k.secret ∧ utf8 p.fullToken = k.fullToken := by
  constructor
  · intro h
    obtain ⟨hfull, htoken, hkeyID, hsecret⟩ := parts_of_parseTokenBytes _ k h
    obtain ⟨keyID, secret, rfl, hid, hsec⟩ := token_of_encode text k.env _ _ htoken hkeyID
    have hparse := parseToken_tokenText k.env
      (by rw [← length_utf8, hid, hkeyID]) (by rw [← length_utf8, hsec, hsecret])
    exact ⟨_, hparse, tokenEnv_tokenText k.env keyID secret, hid, hsec,
      by rw [hfull, utf8_eq_encode]⟩
  · rintro ⟨p, hparse, henv, hid, hsec, hfull⟩
    obtain ⟨env, henv', htext, hsecret⟩ := parseToken_parts hparse
    obtain rfl : env = k.env := Option.some.inj (henv'.symm.trans henv)
    have hbytes : encode text = tokenBytes k.env k.keyID k.secret := by
      rw [← hid, ← hsec, ← utf8_tokenText, ← htext, parseToken_fullToken hparse, utf8_ofList]
    rw [hbytes, parseTokenBytes_tokenBytes]
    · rw [← hbytes, ← utf8_ofList, ← parseToken_fullToken hparse, hfull]
    · rw [← hid, length_utf8, byteLength_keyID_of_parseToken text p hparse]
    · rw [← hsec, length_utf8, hsecret]

/-- The two models agree on texts. -/
theorem parseBearerBytes_utf8 (header : String) (k : BearerKey) :
    parseBearerBytes (utf8 header) = some k ↔
      ∃ p, parseBearer header = some p ∧ tokenEnv p.fullToken = some k.env ∧
        utf8 p.keyID = k.keyID ∧ utf8 p.secret = k.secret ∧ utf8 p.fullToken = k.fullToken := by
  have hempty : (encode (trimSpace header.toList)).isEmpty = (trimSpace header.toList).isEmpty := by
    cases trimSpace header.toList with
    | nil => rfl
    | cons =>
      rw [Utf8.encode_cons, List.isEmpty_cons, List.isEmpty_eq_false_iff]
      exact fun h => String.utf8EncodeChar_ne_nil (List.append_eq_nil_iff.mp h).1
  simp only [parseBearerBytes, parseBearer, utf8_eq_encode, trimSpaceBytes_encode,
    trimPrefixBytes_encode, hempty, Option.ite_none_left_eq_some, and_assoc, exists_and_left]
  refine and_congr_right fun _ => ?_
  rw [parseTokenBytes_encode]
  simp only [utf8_eq_encode]

/-! ### The result -/

/-- A minted token parses back, bare or behind `Bearer`, with any white space around
    it, and whatever parses is a token put together from the parts that are
    returned. -/
theorem bearer_token_parses_back :
    (∀ (env : KeyEnvironment) (draws : KeyDraws) (before gap after : List Char),
      (∀ c ∈ before ++ gap ++ after, isSpace c = true) →
      ∀ start ∈ [[], "Bearer ".toList ++ gap],
        parseBearerBytes (utf8 (String.ofList
          (before ++ (start ++ (mint env draws).2.2.toList) ++ after))) = some
          { env := env, keyID := utf8 (mint env draws).1, secret := utf8 (mint env draws).2.1
            fullToken := utf8 (mint env draws).2.2 }) ∧
      ∀ (header : Bytes) (k : BearerKey), parseBearerBytes header = some k →
        utf8 "acd_" ++ utf8 k.env.tag ++ utf8 "_" ++ k.keyID ++ utf8 "_" ++ k.secret =
          k.fullToken ∧ k.keyID.length = 16 ∧ k.secret.length = 32 := by
  constructor
  · intro env draws before gap after hspace start hstart
    have hparse := parseBearer_surrounded env draws
      (fun c hc => hspace c (List.mem_append_left _ (List.mem_append_left _ hc)))
      (fun c hc => hspace c (List.mem_append_left _ (List.mem_append_right _ hc)))
      (fun c hc => hspace c (List.mem_append_right _ hc))
      (by simpa only [List.mem_cons, List.not_mem_nil, or_false] using hstart)
    exact (parseBearerBytes_utf8 _ _).mpr ⟨_, hparse, tokenEnv_tokenText env _ _, rfl, rfl, rfl⟩
  · intro header k h
    obtain ⟨hfull, hkeyID, hsecret⟩ := parts_of_parseBearerBytes k h
    have hunderscore : utf8 "_" = [underscore] := by decide
    refine ⟨?_, hkeyID, hsecret⟩
    rw [hfull, hunderscore, tokenBytes]
    simp

/-- A token of zeros, with white space in all three places. -/
theorem zero_token_parses_back :
    ∃ k, parseBearerBytes (utf8 (String.ofList (['\t', ' '] ++
        ("Bearer ".toList ++ [' ', '\u3000'] ++ (mint .dev zeroDraws).2.2.toList) ++ ['\n']))) =
        some k ∧ k.env = .dev ∧ k.keyID.length = 16 :=
  ⟨_, bearer_token_parses_back.1 .dev zeroDraws ['\t', ' '] [' ', '\u3000'] ['\n']
      (List.all_eq_true.mp rfl) _ (List.mem_cons_of_mem _ List.mem_cons_self), rfl,
    (bearer_token_parses_back.2 _ _ (bearer_token_parses_back.1 .dev zeroDraws [] [] []
      (List.all_eq_true.mp rfl) [] List.mem_cons_self)).2.1⟩

end CoopDB
