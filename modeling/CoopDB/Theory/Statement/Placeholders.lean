import CoopDB.Core.Validator
import Mathlib.Algebra.Group.Nat.Defs

/-!
# Placeholders and Parameters

`Validate` compares one number with the length of the parameter list: the
largest placeholder it has met. The package comment calls it the number of
placeholders, and the field of the result the number of distinct ones.

Three kinds of text slip through. A gap leaves a parameter that nothing refers
to. `$0` is a placeholder with no parameter, and never the largest. And a number
that does not fit into an `int` makes `Atoi` fail, upon which its token is taken
for the start of a quoted string and skipped.

## Main definitions

* `spanText`, `tokenNumber`: A token, and its number as an unbounded decimal.
* `IsPlaceholder`: The text has the placeholder of that number.
* `PgQuery.Unsigned`: All that is asked of the scanner: no sign follows the dollar sign
  inside a token, since `$` starts a placeholder or a dollar-quoted string.
* `Gapless`: The placeholders run from one upwards.

## Theorems

* `placeholderOf_eq`: The loop sees the number of the token, if it fits.
* `countPlaceholders_eq_ok`: The count is the largest of them.
* `placeholders_exact_iff`: The placeholders are the parameters exactly if there is no
  gap, no `$0` and no number too large for an `int`.
* `gap_accepted`: A gap that is accepted.
-/

namespace CoopDB

open Json (Value)

/-- The bytes of a token that lies inside the text. -/
def spanText (sql : Bytes) (token : Int × Int) : Option Bytes :=
  if token.1 < 0 ∨ token.2 > sql.length ∨ token.1 ≥ token.2 then none
  else some ((sql.drop token.1.toNat).take (token.2 - token.1).toNat)

/-- The number after the dollar sign, whatever its size. -/
def dollarNumber : Bytes → Option Nat
  | 36 :: digits => digitsValue digits
  | _ => none

/-- The number of the placeholder a token is. -/
def tokenNumber (sql : Bytes) (token : Int × Int) : Option Nat :=
  (spanText sql token).bind dollarNumber

/-- One of the tokens of the text is `$N`. -/
def IsPlaceholder (q : PgQuery) (sqlText : String) (N : Nat) : Prop :=
  ∃ tokens, q.scan sqlText = .ok tokens ∧
    ∃ token ∈ tokens, tokenNumber (utf8 sqlText) token = some N

/-- In no token does a sign follow the dollar sign. -/
def PgQuery.Unsigned (q : PgQuery) (sqlText : String) : Prop :=
  ∀ tokens, q.scan sqlText = .ok tokens → ∀ token ∈ tokens, ∀ rest,
    spanText (utf8 sqlText) token = some (36 :: rest) →
      rest.head? ≠ some 43 ∧ rest.head? ≠ some 45

/-- The placeholders run from one upwards without a gap, and all of them fit into
    an `int`. -/
def Gapless (q : PgQuery) (sqlText : String) : Prop :=
  ∀ N, IsPlaceholder q sqlText N →
    1 ≤ N ∧ N < 2 ^ 63 ∧ ∀ k, 1 ≤ k → k ≤ N → IsPlaceholder q sqlText k

/-- `Atoi` of a text without a sign: its digits, if the number fits. -/
theorem atoi_unsigned {bs : Bytes} (hplus : bs.head? ≠ some 43) (hminus : bs.head? ≠ some 45) :
    atoi bs = ((digitsValue bs).filter (fun n => decide (n < 2 ^ 63))).map Int.ofNat := by
  have hsigned : atoi bs = ((digitsValue bs).map Int.ofNat).filter
      (fun v => decide (-(2 : Int) ^ 63 ≤ v ∧ v < 2 ^ 63)) := by
    unfold atoi
    split
    · exact absurd rfl hplus
    · exact absurd rfl hminus
    · rfl
  have hrange : ∀ n : Nat, decide (-(2 : Int) ^ 63 ≤ Int.ofNat n ∧ Int.ofNat n < 2 ^ 63)
      = decide (n < 2 ^ 63) := by
    intro n
    refine decide_eq_decide.mpr ⟨fun h => ?_, fun h => ⟨?_, ?_⟩⟩
    · exact Int.ofNat_lt.mp h.2
    · exact Int.le_trans (by decide) (Int.natCast_nonneg n)
    · exact Int.ofNat_lt.mpr h
  rw [hsigned]
  cases digitsValue bs with
  | none => rfl
  | some =>
    simp only [Option.map_some, Option.filter, hrange]
    split <;> rfl

/-- The loop sees the number of a token, if it fits into an `int`. -/
theorem placeholderOf_eq {sql : Bytes} {token : Int × Int}
    (hsign : ∀ rest, spanText sql token = some (36 :: rest) →
      rest.head? ≠ some 43 ∧ rest.head? ≠ some 45) :
    placeholderOf sql token =
      ((tokenNumber sql token).filter (fun n => decide (n < 2 ^ 63))).map Int.ofNat := by
  unfold placeholderOf tokenNumber
  unfold spanText at hsign ⊢
  by_cases hout : token.1 < 0 ∨ token.2 > sql.length ∨ token.1 ≥ token.2
  · rw [if_pos hout, if_pos hout]
    rfl
  · rw [if_neg hout] at hsign ⊢
    rw [if_neg hout, Option.bind_some]
    generalize (sql.drop token.1.toNat).take (token.2 - token.1).toNat = text at hsign ⊢
    match text with
    | [] => rfl
    | b :: rest =>
      by_cases hb : b = 36
      · subst hb
        have hrest := hsign rest rfl
        match rest with
        | [] => rfl
        | c :: cs =>
          exact atoi_unsigned hrest.1 hrest.2
      · -- Neither the loop nor the reading looks any further.
        unfold dollarNumber
        split
        · rename_i heq
          exact absurd (List.cons.inj heq).1 hb
        · split
          · rename_i heq
            exact absurd (List.cons.inj heq).1 hb
          · rfl

/-- One token of the loop of `countPlaceholders`. -/
def countToken (sql : Bytes) (max : Int) (token : Int × Int) : Int :=
  match placeholderOf sql token with
  | none => max
  | some n => if n > max then n else max

theorem countToken_cases (sql : Bytes) (max : Int) (token : Int × Int) :
    max ≤ countToken sql max token ∧
      (∀ n, placeholderOf sql token = some n → n ≤ countToken sql max token) ∧
      (countToken sql max token = max ∨
        placeholderOf sql token = some (countToken sql max token)) := by
  unfold countToken
  cases hn : placeholderOf sql token with
  | none => exact ⟨Int.le_refl _, fun n h => absurd h (by simp), .inl rfl⟩
  | some n =>
    simp only [Option.some.injEq]
    by_cases hlt : n > max
    · rw [if_pos hlt]
      exact ⟨Int.le_of_lt hlt, fun m hm => hm ▸ Int.le_refl _, .inr rfl⟩
    · rw [if_neg hlt]
      exact ⟨Int.le_refl _, fun m hm => hm ▸ Int.not_lt.mp hlt, .inl rfl⟩

/-- The loop ends with the largest of the numbers it has met and the number it
    started with. -/
theorem foldl_countToken (sql : Bytes) (tokens : List (Int × Int)) :
    ∀ max : Int, max ≤ tokens.foldl (countToken sql) max ∧
      (∀ token ∈ tokens, ∀ n, placeholderOf sql token = some n →
        n ≤ tokens.foldl (countToken sql) max) ∧
      (tokens.foldl (countToken sql) max = max ∨
        ∃ token ∈ tokens, placeholderOf sql token = some (tokens.foldl (countToken sql) max)) := by
  induction tokens with
  | nil =>
    intro max
    exact ⟨Int.le_refl _, fun token h => absurd h List.not_mem_nil, .inl rfl⟩
  | cons token tokens ih =>
    intro max
    simp only [List.foldl_cons]
    rcases countToken_cases sql max token with ⟨hmax, hhere, hfrom⟩
    rcases ih (countToken sql max token) with ⟨hstep, hlater, hlast⟩
    refine ⟨Int.le_trans hmax hstep, fun t ht n hn => ?_, ?_⟩
    · rcases List.mem_cons.mp ht with rfl | ht
      · exact Int.le_trans (hhere n hn) hstep
      · exact hlater t ht n hn
    · rcases hlast with hlast | ⟨t, ht, hn⟩
      · -- Nothing later was larger, so it is what this token left.
        rw [hlast]
        rcases hfrom with hfrom | hfrom
        · exact .inl hfrom
        · exact .inr ⟨token, List.mem_cons_self, hfrom⟩
      · exact .inr ⟨t, List.mem_cons_of_mem _ ht, hn⟩

/-- The count is the largest placeholder that fits into an `int`, or `0`. -/
theorem countPlaceholders_eq_ok {q : PgQuery} {sqlText : String} {count : Int}
    (hsign : q.Unsigned sqlText) (h : countPlaceholders q sqlText = .ok count) :
    (∀ N, IsPlaceholder q sqlText N → N < 2 ^ 63 → (N : Int) ≤ count) ∧
      (count = 0 ∨ ∃ N, IsPlaceholder q sqlText N ∧ N < 2 ^ 63 ∧ count = N) := by
  unfold countPlaceholders at h
  cases hscan : q.scan sqlText with
  | error =>
    rw [hscan] at h
    cases h
  | ok tokens =>
    rw [hscan] at h
    have hcount : tokens.foldl (countToken (utf8 sqlText)) 0 = count := Except.ok.inj h
    rcases foldl_countToken (utf8 sqlText) tokens 0 with ⟨_, hall, hlast⟩
    rw [hcount] at hall hlast
    have hof := fun token ht => placeholderOf_eq (hsign tokens hscan token ht)
    constructor
    · rintro N ⟨tokens', hscan', token, ht, hN⟩ hfits
      have heq : tokens = tokens' := Except.ok.inj (hscan.symm.trans hscan')
      subst heq
      refine hall token ht N ?_
      rw [hof token ht, hN, Option.filter, if_pos (decide_eq_true hfits)]
      rfl
    · rcases hlast with hzero | ⟨token, ht, hn⟩
      · exact .inl hzero
      · rw [hof token ht, Option.map_eq_some_iff] at hn
        rcases hn with ⟨N, hN, hcast⟩
        rw [Option.filter_eq_some_iff] at hN
        exact .inr ⟨N, ⟨tokens, hscan, token, ht, hN.1⟩, of_decide_eq_true hN.2, hcast.symm⟩

/-- What `Validate` has checked of a statement it accepts. -/
theorem validate_eq_ok {q : PgQuery} {cfg : ValidatorConfig} {sqlText : String}
    {params : List Value} {res : Result} (h : validate q cfg sqlText params = .ok res) :
    ∃ stmt, q.parse sqlText = .ok [stmt] ∧
      countPlaceholders q sqlText = .ok (params.length : Int) ∧
      res = { command := classify stmt, isSelect := decide (classify stmt = "SELECT")
              hasReturning := returningPresent stmt, placeholderCount := params.length } := by
  unfold validate at h
  split at h
  · cases h
  · split at h
    · cases h
    · split at h
      · cases h
      · split at h
        case h_3 stmt hparse =>
            split at h
            case h_1 => cases h
            case h_2 count hcount =>
                by_cases hne : count ≠ params.length
                · rw [if_pos hne] at h
                  cases h
                · rw [if_neg hne] at h
                  have heq := not_not.mp hne
                  subst heq
                  exact ⟨stmt, hparse, hcount, (Except.ok.inj h).symm⟩
        all_goals cases h

/-- Of a statement that is accepted, the placeholders are exactly those from one
    to the number of parameters if and only if they have no gap, `$0` is not
    among them, and none is too large for an `int`. -/
theorem placeholders_exact_iff (q : PgQuery) (cfg : ValidatorConfig) (sqlText : String)
    (params : List Value) (res : Result) (hsign : q.Unsigned sqlText)
    (h : validate q cfg sqlText params = .ok res) :
    (∀ N, IsPlaceholder q sqlText N ↔ 1 ≤ N ∧ N ≤ params.length) ↔ Gapless q sqlText := by
  rcases validate_eq_ok h with ⟨stmt, _, hcount, _⟩
  rcases countPlaceholders_eq_ok hsign hcount with ⟨hle, hmax⟩
  constructor
  · intro hexact N hN
    have hrange := (hexact N).mp hN
    refine ⟨hrange.1, ?_, fun k hone hk => (hexact k).mpr ⟨hone, Nat.le_trans hk hrange.2⟩⟩
    -- There is a largest one that fits, and it is the number of parameters.
    rcases hmax with hzero | ⟨M, _, hfits, hM⟩
    · have hlen : params.length = 0 := Int.natCast_eq_zero.mp hzero
      omega
    · have hlen : params.length = M := Int.ofNat_inj.mp hM
      omega
  · intro hgap N
    constructor
    · intro hN
      rcases hgap N hN with ⟨hone, hfits, _⟩
      exact ⟨hone, Int.ofNat_le.mp (hle N hN hfits)⟩
    · rintro ⟨hone, hlen⟩
      rcases hmax with hzero | ⟨M, hM, _, heq⟩
      · have hnone : params.length = 0 := Int.natCast_eq_zero.mp hzero
        omega
      · have hparams : params.length = M := Int.ofNat_inj.mp heq
        exact (hgap M hM).2.2 N hone (hparams ▸ hlen)

/-- What the parser and the scanner say of a select of one placeholder. -/
def selectOneQuery : PgQuery :=
  { parse := fun _ => .ok [some .selectStmt], scan := fun _ => .ok [(0, 6), (7, 9)] }

/-- `SELECT $1` with one parameter is accepted, and its placeholders are its
    parameters. -/
theorem select_one_exact :
    ∃ res, validate selectOneQuery ⟨262144, 1000⟩ "SELECT $1" [.number "42"] = .ok res ∧
      ∀ N, IsPlaceholder selectOneQuery "SELECT $1" N ↔
        1 ≤ N ∧ N ≤ ([Value.number "42"] : List Value).length := by
  have hnumber : ∀ N, IsPlaceholder selectOneQuery "SELECT $1" N ↔ N = 1 := by
    intro N
    constructor
    · rintro ⟨tokens, hscan, token, ht, hN⟩
      have htokens : [(0, 6), (7, 9)] = tokens := Except.ok.inj hscan
      subst htokens
      rcases List.mem_cons.mp ht with rfl | ht
      · exact nomatch (hN.symm.trans (by decide : _ = none))
      · rw [List.mem_singleton.mp ht] at hN
        exact Option.some.inj (hN.symm.trans (by decide : _ = some 1))
    · rintro rfl
      exact ⟨_, rfl, (7, 9), by decide, by decide⟩
  refine ⟨_, rfl, (placeholders_exact_iff selectOneQuery ⟨262144, 1000⟩ "SELECT $1"
    [.number "42"] _ ?_ rfl).mpr ?_⟩
  · intro tokens hscan token ht rest hrest
    have htokens : [(0, 6), (7, 9)] = tokens := Except.ok.inj hscan
    subst htokens
    rcases List.mem_cons.mp ht with rfl | ht
    · have htext : spanText (utf8 "SELECT $1") (0, 6) = some [83, 69, 76, 69, 67, 84] := by decide
      have hcons := Option.some.inj (htext.symm.trans hrest)
      exact absurd (List.cons.inj hcons).1 (by decide)
    · rw [List.mem_singleton.mp ht] at hrest
      have htext : spanText (utf8 "SELECT $1") (7, 9) = some [36, 49] := by decide
      have hcons := Option.some.inj (htext.symm.trans hrest)
      rw [← (List.cons.inj hcons).2]
      decide
  · intro N hN
    rw [(hnumber N).mp hN]
    exact ⟨by decide, by decide, fun k hone hk => (hnumber k).mpr (Nat.le_antisymm hk hone)⟩

/-- `SELECT $2` is accepted with two parameters, and nothing refers to the
    first. -/
theorem gap_accepted :
    ∃ res, validate selectOneQuery ⟨262144, 1000⟩ "SELECT $2" [.number "1", .number "2"] = .ok res ∧
      ¬ ∀ N, IsPlaceholder selectOneQuery "SELECT $2" N ↔
        1 ≤ N ∧ N ≤ ([Value.number "1", Value.number "2"] : List Value).length := by
  refine ⟨_, rfl, fun hexact => ?_⟩
  rcases (hexact 1).mpr (by decide) with ⟨tokens, hscan, token, ht, hN⟩
  have htokens : [(0, 6), (7, 9)] = tokens := Except.ok.inj hscan
  subst htokens
  rcases List.mem_cons.mp ht with rfl | ht
  · exact absurd hN (by decide)
  · rw [List.mem_singleton.mp ht] at hN
    exact absurd hN (by decide)

end CoopDB
