import CoopDB.Lib.SqlRender
import CoopDB.Theory.Auth.Bearer
import CoopDB.Theory.Statement.Placeholders

/-!
# The Placeholders of a Statement That Is Put Together

`countPlaceholders` asks the scanner of Postgres for the tokens of a text. This is what
is known of that scanner: in a text whose tokens fit it finds the parameters that are
there, letters behind a number are an error, and so is a text it has no memory for. It
has the memory for any text that passes the limit of the validator, and its offsets are
32 bits wide.

## Main definitions

* `PgLexer`: The scanner, by what is known of it.

## Theorems

* `countPlaceholders_of_fit`: A statement whose parameters are `$1` to `$k` has the count
  `k`, whatever else is in it.
* `countPlaceholders_of_runsOn`: A number that runs on is an error.
* `countPlaceholders_full`: So is a text that is too large.
-/

namespace CoopDB

open SqlScanner (Token Fit tokens paramNumbers runsOn isNul)
open Utf8 (encode)

/-- What the scanner is asked: it has the memory for the text, or reports an error; a
    text of tokens that fit has no error, and its placeholders are its parameters; a
    number or a parameter that runs on is an error. -/
structure PgLexer extends PgQuery where
  room : String → Prop
  room_small : ∀ sql, (utf8 sql).length ≤ 262144 → room sql
  room_bound : ∀ sql, room sql → (utf8 sql).length < 2 ^ 31
  scan_full : ∀ sql, ¬ room sql → ∃ e, scan sql = .error e
  scan_fit : ∀ sql, room sql → Fit (tokens sql.toList) none →
    ∃ spans, scan sql = .ok spans
  scan_unsigned : ∀ sql, toPgQuery.Unsigned sql
  scan_params : ∀ sql spans, Fit (tokens sql.toList) none → scan sql = .ok spans →
    ∀ N, (∃ span ∈ spans, tokenNumber (utf8 sql) span = some N) ↔
      N ∈ paramNumbers (tokens sql.toList)
  scan_junk : ∀ sql, sql.toList.any isNul = false → runsOn (tokens sql.toList) = true →
    ∃ e, scan sql = .error e

variable (q : PgLexer) (text : List Char) (sql : String)

/-- The count of a text with the parameters `$1` to `$k`. -/
theorem countPlaceholders_of_params (k : Nat) (hroom : q.room sql)
    (hfit : Fit (tokens sql.toList) none) (hk : k < 2 ^ 63)
    (hparams : paramNumbers (tokens sql.toList) = List.range' 1 k) :
    countPlaceholders q.toPgQuery sql = .ok (k : Int) := by
  obtain ⟨spans, hscan⟩ := q.scan_fit sql hroom hfit
  have hnumbers : ∀ N, IsPlaceholder q.toPgQuery sql N ↔ 1 ≤ N ∧ N ≤ k := by
    intro N
    have hin := q.scan_params sql spans hfit hscan N
    rw [hparams, List.mem_range'_1] at hin
    constructor
    · rintro ⟨spans', hscan', hspan⟩
      rw [← Except.ok.inj (hscan.symm.trans hscan')] at hspan
      have hrange := hin.mp hspan
      omega
    · rintro ⟨hone, hle⟩
      exact ⟨spans, hscan, hin.mpr (by omega)⟩
  obtain ⟨count, hcount⟩ : ∃ count, countPlaceholders q.toPgQuery sql = .ok count := by
    unfold countPlaceholders
    rw [hscan]
    exact ⟨_, rfl⟩
  obtain ⟨hle, hlast⟩ := countPlaceholders_eq_ok (q.scan_unsigned sql) hcount
  rw [hcount]
  refine congrArg Except.ok ?_
  -- The largest is the last of them, if there are any.
  rcases hlast with hzero | ⟨N, hN, _, hcountN⟩
  · rcases Nat.eq_zero_or_pos k with hk0 | hpos
    · rw [hzero, hk0]
      rfl
    · have := hle k ((hnumbers k).mpr ⟨hpos, Nat.le_refl k⟩) hk
      omega
  · have hNk := (hnumbers N).mp hN
    have := hle k ((hnumbers k).mpr ⟨by omega, Nat.le_refl k⟩) hk
    omega

/-- The count of a statement that was written token by token. -/
theorem countPlaceholders_of_fit {ts : List Token} {k : Nat}
    (htext : sql.toList = ts.flatMap Token.text) (hfit : Fit ts none) (hroom : q.room sql)
    (hk : k < 2 ^ 63) (hparams : paramNumbers ts = List.range' 1 k) :
    tokens sql.toList = ts ∧ countPlaceholders q.toPgQuery sql = .ok (k : Int) := by
  have htokens : tokens sql.toList = ts := by
    have hscan := SqlScanner.tokens_of_fit ts [] hfit
    rw [List.append_nil] at hscan
    rw [htext, hscan]
    exact List.append_nil ts
  exact ⟨htokens, countPlaceholders_of_params q sql k hroom (htokens ▸ hfit) hk (htokens ▸ hparams)⟩

theorem countPlaceholders_of_error {q : PgQuery} {sql e : String} (h : q.scan sql = .error e) :
    countPlaceholders q sql = .error e := by
  rw [countPlaceholders, h]

/-- A number that runs on is an error. -/
theorem countPlaceholders_of_runsOn (hnul : sql.toList.any isNul = false)
    (hruns : runsOn (tokens sql.toList) = true) (k : Int) :
    countPlaceholders q.toPgQuery sql ≠ .ok k := by
  obtain ⟨e, he⟩ := q.scan_junk sql hnul hruns
  rw [countPlaceholders_of_error he]
  exact fun h => nomatch h

/-- A text without room is an error. -/
theorem countPlaceholders_full (hroom : ¬ q.room sql) (k : Int) :
    countPlaceholders q.toPgQuery sql ≠ .ok k := by
  obtain ⟨e, he⟩ := q.scan_full sql hroom
  rw [countPlaceholders_of_error he]
  exact fun h => nomatch h

/-! ### A scanner of this kind -/

/-- Where the tokens lie in the bytes of the text, from a place on. -/
def spansFrom : Nat → List Token → List (Int × Int)
  | _, [] => []
  | start, t :: ts =>
    (start, start + (encode t.text).length) :: spansFrom (start + (encode t.text).length) ts

theorem spanText_middle (before : Bytes) {middle : Bytes} (behind : Bytes) (hne : middle ≠ []) :
    spanText (before ++ (middle ++ behind)) (before.length, before.length + middle.length) =
      some middle := by
  have hpos := List.length_pos_of_ne_nil hne
  unfold spanText
  rw [if_neg]
  · simp
  · simp only [List.length_append, Nat.cast_add]
    omega

theorem spanText_spansFrom {ts : List Token} (before : Bytes)
    (hne : ∀ t ∈ ts, t.text ≠ []) :
    (spansFrom before.length ts).map (spanText (before ++ encode (ts.flatMap Token.text))) =
      ts.map (fun t => some (encode t.text)) := by
  induction ts generalizing before with
  | nil => rfl
  | cons t ts ih =>
    rw [List.forall_mem_cons] at hne
    have hbytes : encode t.text ≠ [] := by
      obtain ⟨c, rest, hc⟩ := List.exists_cons_of_ne_nil hne.1
      rw [hc, Utf8.encode_cons]
      exact List.append_ne_nil_of_left_ne_nil String.utf8EncodeChar_ne_nil _
    have hrest := ih (before ++ encode t.text) hne.2
    rw [List.length_append, List.append_assoc] at hrest
    rw [spansFrom, List.map_cons, List.map_cons, List.flatMap_cons, Utf8.encode_append,
      spanText_middle before _ hbytes, hrest]

theorem digitsValue_encode {digits : List Char} (hne : digits ≠ [])
    (hdigits : ∀ c ∈ digits, c.isDigit = true) :
    digitsValue (encode digits) = some (Nat.ofDigitChars 10 digits 0) := by
  have hcodes : ∀ c ∈ digits, 48 ≤ c.toNat ∧ c.toNat ≤ 57 :=
    fun c hc => SqlScanner.isDigit_codes (hdigits c hc)
  have hbytes : encode digits = digits.map (fun c => UInt8.ofNat c.toNat) :=
    Utf8.encode_ascii digits fun c hc => by
      have := hcodes c hc
      omega
  have hfold : ∀ (cs : List Char) (n : Nat), (∀ c ∈ cs, 48 ≤ c.toNat ∧ c.toNat ≤ 57) →
      (cs.map (fun c => UInt8.ofNat c.toNat)).foldl (fun acc b => acc.bind (fun n =>
        if 48 ≤ b.toNat ∧ b.toNat ≤ 57 then some (10 * n + (b.toNat - 48)) else none)) (some n) =
        some (Nat.ofDigitChars 10 cs n) := by
    intro cs
    induction cs with
    | nil => exact fun n _ => rfl
    | cons c cs ih =>
      intro n hcs
      rw [List.forall_mem_cons] at hcs
      have hbyte : (UInt8.ofNat c.toNat).toNat = c.toNat := by
        rw [UInt8.toNat_ofNat']
        omega
      rw [List.map_cons, List.foldl_cons, Option.bind_some, hbyte, if_pos hcs.1, ih _ hcs.2,
        Nat.ofDigitChars_cons]
      rfl
  obtain ⟨c, rest, rfl⟩ := List.exists_cons_of_ne_nil hne
  rw [hbytes, ← hfold (c :: rest) 0 hcodes]
  rfl

theorem digitsValue_cons {b : UInt8} {bytes : Bytes} {n : Nat}
    (h : digitsValue (b :: bytes) = some n) : 48 ≤ b.toNat ∧ b.toNat ≤ 57 := by
  have hnone : ∀ bs : Bytes, bs.foldl (fun acc b => acc.bind (fun n =>
      if 48 ≤ b.toNat ∧ b.toNat ≤ 57 then some (10 * n + (b.toNat - 48)) else none)) none =
        none := by
    intro bs
    induction bs with
    | nil => rfl
    | cons b bs ih => exact ih
  by_contra hdigit
  rw [digitsValue, List.foldl_cons, Option.bind_some, if_neg hdigit, hnone] at h
  · cases h
  · exact List.cons_ne_nil b bytes

/-- Bytes that begin with one of ASCII encode a text that begins with its character. -/
theorem head_of_encode {b : UInt8} {rest : Bytes} (hb : b.toNat < 128)
    (h : encode text = b :: rest) :
    ∃ behind, text = Char.ofNat b.toNat :: behind ∧ rest = encode behind := by
  cases text with
  | nil => cases h
  | cons c text =>
    have hbyte : String.utf8EncodeChar (Char.ofNat b.toNat) = [b] := by
      rw [(Utf8.ascii_table hb).1, UInt8.ofNat_toNat]
    have hc : c = Char.ofNat b.toNat := by
      refine Utf8.eq_of_front c _ (encode text) rest ?_
      rw [hbyte, ← Utf8.encode_cons, h]
      rfl
    subst hc
    rw [Utf8.encode_cons, hbyte] at h
    exact ⟨text, rfl, (List.cons.inj h).2.symm⟩

/-- What is behind the dollar sign in the bytes of a token: the digits of a parameter,
    or nothing that is a digit or a sign. -/
theorem dollar_token {t : Token} (ht : t ∈ tokens text) {rest : Bytes}
    (h : encode t.text = 36 :: rest) :
    (∃ digits, t.kind = .param ∧ t.text = '$' :: digits ∧ digits ≠ [] ∧
      (∀ c ∈ digits, c.isDigit = true) ∧ rest = encode digits) ∨
    (t.kind ≠ .param ∧ ∀ b ∈ rest.head?, b ≠ 43 ∧ b ≠ 45 ∧ ¬ (48 ≤ b.toNat ∧ b.toNat ≤ 57)) := by
  obtain ⟨behind, htext, hrest⟩ := head_of_encode t.text (by decide) h
  by_cases hkind : t.kind = .param
  · obtain ⟨digits, hne, hdigits, hparam⟩ := SqlScanner.tokens_param text t ht hkind
    have hsame : behind = digits := (List.cons.inj (htext.symm.trans hparam)).2
    subst hsame
    exact .inl ⟨behind, hkind, hparam, hne, List.all_eq_true.mp hdigits, hrest⟩
  · refine .inr ⟨hkind, fun b hb => ?_⟩
    have hnext := SqlScanner.tokens_dollar ht htext hkind
    -- A byte of ASCII is the first character, and that is a dollar sign or a letter.
    have hchar : ∀ n, n < 128 → b.toNat = n →
        Char.ofNat n = '$' ∨ SqlScanner.identStart (Char.ofNat n) = true := by
      intro n hn hbn
      subst hbn
      cases rest with
      | nil => cases hb
      | cons b' bytes =>
        have hsame : b' = b := Option.some.inj hb
        subst hsame
        obtain ⟨more, hmore, _⟩ := head_of_encode behind hn hrest.symm
        exact hnext _ (by rw [hmore]; rfl)
    refine ⟨?_, ?_, ?_⟩
    · rintro rfl
      exact absurd (hchar 43 (by decide) rfl) (by decide)
    · rintro rfl
      exact absurd (hchar 45 (by decide) rfl) (by decide)
    · rintro ⟨hlow, hhigh⟩
      have hdigits : ∀ n < 58, 48 ≤ n →
          ¬ (Char.ofNat n = '$' ∨ SqlScanner.identStart (Char.ofNat n) = true) := by decide
      exact hdigits b.toNat (by omega) hlow (hchar b.toNat (by omega) rfl)

/-- The number in the bytes of a token is that of the parameter it is. -/
theorem dollarNumber_token (t : Token) (ht : t ∈ tokens text) :
    dollarNumber (encode t.text) = t.paramNumber := by
  unfold dollarNumber
  split
  · rename_i rest hbytes
    rcases dollar_token text ht hbytes with ⟨digits, hkind, htext, hne, hdigits, rfl⟩ |
      ⟨hkind, hnext⟩
    · rw [Token.paramNumber, if_pos hkind, htext, List.tail_cons, digitsValue_encode hne hdigits]
    · rw [Token.paramNumber, if_neg hkind, Option.eq_none_iff_forall_ne_some]
      intro n hn
      cases rest with
      | nil => cases hn
      | cons b bytes => exact (hnext b rfl).2.2 (digitsValue_cons hn)
  · rename_i hother
    rw [Token.paramNumber, if_neg]
    intro hkind
    obtain ⟨digits, _, _, htext⟩ := SqlScanner.tokens_param text t ht hkind
    exact hother (encode digits) (by rw [htext]; rfl)

theorem text_ne_nil (t : Token) (ht : t ∈ tokens text) : t.text ≠ [] := by
  obtain ⟨c, rest, rfl⟩ := SqlScanner.mem_tokens ht
  obtain ⟨n, hn⟩ := Nat.exists_eq_succ_of_ne_zero (Nat.ne_of_gt (SqlScanner.measure_pos c rest))
  rw [hn]
  exact List.cons_ne_nil _ _

/-- The bytes of the tokens of a text. -/
theorem spanText_tokens : (spansFrom 0 (tokens sql.toList)).map (spanText (utf8 sql)) =
      (tokens sql.toList).map (fun t => some (encode t.text)) := by
  have hspans := spanText_spansFrom [] (text_ne_nil sql.toList)
  rw [SqlScanner.tokens_text, ← utf8_eq_encode] at hspans
  exact hspans

/-- What a token of the text has, a span has, and the other way round. -/
theorem exists_span_iff (p : Option Bytes → Prop) :
    (∃ span ∈ spansFrom 0 (tokens sql.toList), p (spanText (utf8 sql) span)) ↔
      ∃ t ∈ tokens sql.toList, p (some (encode t.text)) := by
  have hspans := spanText_tokens sql
  have hmem : ∀ v, v ∈ (spansFrom 0 (tokens sql.toList)).map (spanText (utf8 sql)) ↔
      v ∈ (tokens sql.toList).map (fun t => some (encode t.text)) := fun v => by rw [hspans]
  constructor
  · rintro ⟨span, hspan, hp⟩
    obtain ⟨t, ht, heq⟩ := List.mem_map.mp ((hmem _).mp (List.mem_map_of_mem hspan))
    exact ⟨t, ht, heq ▸ hp⟩
  · rintro ⟨t, ht, hp⟩
    obtain ⟨span, hspan, heq⟩ := List.mem_map.mp ((hmem _).mpr (List.mem_map_of_mem ht))
    exact ⟨span, hspan, heq ▸ hp⟩

/-- The spans of the tokens of a text of less than a gigabyte, if they fit, and an error
    for all others. -/
def fitScan (sql : String) : Except String (List (Int × Int)) :=
  if (utf8 sql).length < 2 ^ 30 ∧ Fit (tokens sql.toList) none then
    .ok (spansFrom 0 (tokens sql.toList))
  else .error "syntax error"

theorem fitScan_eq_ok {spans : List (Int × Int)} (h : fitScan sql = .ok spans) :
    spans = spansFrom 0 (tokens sql.toList) := by
  unfold fitScan at h
  split at h
  · exact (Except.ok.inj h).symm
  · cases h

theorem fitScan_unsigned (span : Int × Int) (hspan : span ∈ spansFrom 0 (tokens sql.toList))
    (rest : Bytes) (hrest : spanText (utf8 sql) span = some (36 :: rest)) :
    rest.head? ≠ some 43 ∧ rest.head? ≠ some 45 := by
  obtain ⟨t, ht, hbytes⟩ := (exists_span_iff sql (· = some (36 :: rest))).mp ⟨span, hspan, hrest⟩
  have hfirst : ∀ b ∈ rest.head?, b ≠ 43 ∧ b ≠ 45 := by
    intro b hb
    rcases dollar_token sql.toList ht (Option.some.inj hbytes) with
      ⟨digits, _, _, hne, hdigits, rfl⟩ | ⟨_, hnext⟩
    · -- The first byte of digits is one of a digit.
      cases hcons : encode digits with
      | nil => exact nomatch (hcons ▸ hb)
      | cons b' bytes =>
        have hvalue := digitsValue_encode hne hdigits
        rw [hcons] at hvalue hb
        have hcodes := digitsValue_cons hvalue
        rw [Option.some.inj hb] at hcodes
        constructor <;> rintro rfl <;> exact absurd hcodes (by decide)
    · exact ⟨(hnext b hb).1, (hnext b hb).2.1⟩
  exact ⟨fun h => (hfirst 43 h).1 rfl, fun h => (hfirst 45 h).2 rfl⟩

theorem fitScan_params (N : Nat) :
    (∃ span ∈ spansFrom 0 (tokens sql.toList), tokenNumber (utf8 sql) span = some N) ↔
      N ∈ paramNumbers (tokens sql.toList) := by
  rw [paramNumbers, List.mem_filterMap]
  refine (exists_span_iff sql (fun bytes => bytes.bind dollarNumber = some N)).trans ?_
  refine exists_congr fun t => and_congr_right fun ht => ?_
  rw [Option.bind_some, dollarNumber_token sql.toList t ht]

/-- A scanner of this kind. -/
def fitLexer : PgLexer where
  parse _ := .ok [some (.insertStmt 0)]
  scan := fitScan
  room sql := (utf8 sql).length < 2 ^ 30
  room_small _ h := Nat.lt_of_le_of_lt h (by decide)
  room_bound _ h := Nat.lt_trans h (by decide)
  scan_full _ h := ⟨_, if_neg fun hboth => h hboth.1⟩
  scan_fit _ hroom hfit := ⟨_, if_pos ⟨hroom, hfit⟩⟩
  scan_unsigned sql spans hscan span hspan :=
    fitScan_unsigned sql span (fitScan_eq_ok sql hscan ▸ hspan)
  scan_params sql spans _ hscan N := by
    rw [fitScan_eq_ok sql hscan]
    exact fitScan_params sql N
  scan_junk sql _ hruns := by
    refine ⟨_, if_neg fun hboth => ?_⟩
    rw [SqlScanner.not_runsOn_of_fit _ _ hboth.2] at hruns
    exact Bool.false_ne_true hruns

end CoopDB
