import CoopDB.Core.VectorUpsert
import CoopDB.Theory.Statement.Scan

/-!
# Three Placeholders a Row

The part that the two statements of `vector_upsert` share: for `n` rows the placeholders
from `$1` to `$3n`, three in a pair of parentheses, and as many parameters, those of a
row next to each other.

## Main definitions

* `rowTokens`, `valuesTokens`: The placeholders as tokens.
* `BindsRows`: The parameters are those of the rows, in their order.
* `Aligned`: A statement and its parameters fit together.

## Theorems

* `toList_valuesClauses`, `fit_valuesTokens`: The text is made of these tokens.
* `paramNumbers_valuesTokens`, `flatMap_range_three`: Its parameters are `$1` to `$3n`.
-/

namespace CoopDB

open SqlScanner (Token Fit tokens paramNumbers)

/-- The tokens of the placeholders of one row. -/
def rowTokens (i : Nat) : List Token :=
  [.sign '(', .parameter (i * 3 + 1), .sign ',', .gap, .parameter (i * 3 + 2), .sign ':', .sign ':',
    .word "jsonb", .sign ',', .gap, .parameter (i * 3 + 3), .sign ':', .sign ':', .word "vector",
    .sign ')']

/-- The tokens of the placeholders of some rows. -/
def valuesTokens : List Nat → List Token
  | [] => []
  | [i] => rowTokens i
  | i :: k :: is => rowTokens i ++ ([.sign ',', .gap] ++ valuesTokens (k :: is))

theorem toList_valuesClause (i : Nat) :
    (valuesClause (i * 3)).toList = (rowTokens i).flatMap Token.text := by
  have htext : ∀ m : Nat, (toString m).toList = Nat.toDigits 10 m := fun m => String.toList_ofList
  simp only [valuesClause, String.toList_append, htext]
  simp only [rowTokens, List.flatMap_cons, List.flatMap_nil, Token.parameter, Token.sign, Token.gap,
    Token.word]
  simp

theorem fit_rowTokens (i : Nat) (next : Option Char) : Fit (rowTokens i) next :=
  ⟨rfl, Token.fits_parameter _ rfl, rfl, rfl, Token.fits_parameter _ rfl, rfl, rfl, rfl, rfl, rfl,
    Token.fits_parameter _ rfl, rfl, rfl, rfl, rfl, trivial⟩

theorem paramNumbers_rowTokens (i : Nat) :
    paramNumbers (rowTokens i) = [i * 3 + 1, i * 3 + 2, i * 3 + 3] := by
  simp [rowTokens]

variable (is : List Nat)

theorem toList_valuesClauses : (", ".intercalate (is.map fun i => valuesClause (i * 3))).toList =
      (valuesTokens is).flatMap Token.text := by
  induction is with
  | nil => rfl
  | cons i is ih =>
    cases is with
    | nil =>
      rw [List.map_singleton, String.intercalate_singleton, toList_valuesClause]
      rfl
    | cons =>
      rw [List.map_cons] at ih
      rw [List.map_cons, List.map_cons, String.intercalate_cons_cons, String.toList_append,
        String.toList_append, ih, toList_valuesClause, valuesTokens, List.flatMap_append,
        List.flatMap_append, List.append_assoc]
      rfl

theorem head_valuesTokens (hne : is ≠ []) :
    ((valuesTokens is).flatMap Token.text).head? = some '(' := by
  match is with
  | [i] => rfl
  | i :: k :: is => rfl

theorem fit_valuesTokens (next : Option Char) : Fit (valuesTokens is) next := by
  induction is with
  | nil => exact trivial
  | cons i is ih =>
    cases is with
    | nil => exact fit_rowTokens i next
    | cons k is =>
      have hhead := head_valuesTokens (k :: is) (List.cons_ne_nil k is)
      rw [valuesTokens, SqlScanner.fit_append, SqlScanner.fit_append]
      refine ⟨fit_rowTokens i _, ⟨rfl, ?_, trivial⟩, ih⟩
      rw [hhead]
      rfl

theorem paramNumbers_valuesTokens :
    paramNumbers (valuesTokens is) = is.flatMap fun i => [i * 3 + 1, i * 3 + 2, i * 3 + 3] := by
  induction is with
  | nil => rfl
  | cons i is ih =>
    cases is with
    | nil => exact paramNumbers_rowTokens i
    | cons =>
      rw [valuesTokens, SqlScanner.paramNumbers_append, SqlScanner.paramNumbers_append,
        paramNumbers_rowTokens, ih, List.flatMap_cons]
      rfl

theorem flatMap_range_three (n : Nat) :
    ((List.range n).flatMap fun i => [i * 3 + 1, i * 3 + 2, i * 3 + 3]) =
      List.range' 1 (3 * n) := by
  induction n with
  | zero => rfl
  | succ n ih =>
    have hlast : [n * 3 + 1, n * 3 + 2, n * 3 + 3] = List.range' (1 + 3 * n) 3 := by
      simp only [List.range', List.cons.injEq, and_true]
      omega
    rw [List.range_succ, List.flatMap_append, ih, List.flatMap_singleton, hlast,
      List.range'_append_1]
    rfl

/-- Every row takes a character at least. -/
theorem length_le_valuesTokens : is.length ≤ ((valuesTokens is).flatMap Token.text).length := by
  have hrow : ∀ i, 1 ≤ ((rowTokens i).flatMap Token.text).length :=
    fun i => Nat.succ_le_of_lt (List.length_pos_of_ne_nil (List.cons_ne_nil _ _))
  induction is with
  | nil => exact Nat.le_refl 0
  | cons i is ih =>
    have hi := hrow i
    cases is with
    | nil => exact hi
    | cons =>
      rw [valuesTokens, List.flatMap_append, List.flatMap_append, List.length_append,
        List.length_append, List.length_cons]
      omega

/-- A row takes less than 40 characters as long as its numbers have three digits. -/
theorem length_valuesTokens_le (h : ∀ i ∈ is, i < 300) :
    ((valuesTokens is).flatMap Token.text).length ≤ 40 * is.length := by
  have hdigits : ∀ m, m < 1000 → (Nat.toDigits 10 m).length ≤ 3 :=
    fun m hm => (Nat.length_toDigits_le_iff (by decide) (by decide)).mpr hm
  have hrow : ∀ i, i < 300 → ((rowTokens i).flatMap Token.text).length ≤ 38 := by
    intro i hi
    have h1 := hdigits (i * 3 + 1) (by omega)
    have h2 := hdigits (i * 3 + 2) (by omega)
    have h3 := hdigits (i * 3 + 3) (by omega)
    have hjsonb : "jsonb".toList.length = 5 := rfl
    have hvector : "vector".toList.length = 6 := rfl
    simp only [rowTokens, List.flatMap_cons, List.flatMap_nil, Token.parameter, Token.sign,
      Token.gap, Token.word, List.length_append, List.length_cons, List.length_nil, hjsonb, hvector]
    generalize (Nat.toDigits 10 (i * 3 + 1)).length = a at h1 ⊢
    generalize (Nat.toDigits 10 (i * 3 + 2)).length = b at h2 ⊢
    generalize (Nat.toDigits 10 (i * 3 + 3)).length = c at h3 ⊢
    omega
  induction is with
  | nil => exact Nat.le_refl 0
  | cons i is ih =>
    rw [List.forall_mem_cons] at h
    have hi := hrow i h.1
    have hrest := ih h.2
    cases is with
    | nil =>
      rw [valuesTokens, List.length_singleton]
      omega
    | cons =>
      have hcomma : (([.sign ',', .gap] : List Token).flatMap Token.text).length = 2 := rfl
      rw [valuesTokens, List.flatMap_append, List.flatMap_append, List.length_append,
        List.length_append, List.length_cons, hcomma]
      omega

theorem length_utf8_le (sql : String) : (utf8 sql).length ≤ 4 * sql.toList.length := by
  rw [utf8_eq_encode]
  induction sql.toList with
  | nil => exact Nat.le_refl 0
  | cons c text ih =>
    have hc := c.utf8Size_le_four
    rw [Utf8.encode_cons, List.length_append, String.length_utf8EncodeChar, List.length_cons]
    omega

theorem length_le_utf8 (sql : String) : sql.toList.length ≤ (utf8 sql).length := by
  rw [utf8_eq_encode]
  induction sql.toList with
  | nil => exact Nat.le_refl 0
  | cons c text ih =>
    have hc := c.utf8Size_pos
    rw [Utf8.encode_cons, List.length_append, String.length_utf8EncodeChar, List.length_cons]
    omega

/-! ### Three parameters a row -/

/-- The parameters are three a row, and those at three times its position are its own. -/
def BindsRows {Row Param : Type} (binds : Row → List Param → Prop) (rows : List Row)
    (params : List Param) : Prop :=
  params.length = 3 * rows.length ∧
    ∀ i row, rows[i]? = some row → binds row ((params.drop (3 * i)).take 3)

theorem bindsRows_nil {Row Param : Type} (binds : Row → List Param → Prop) :
    BindsRows binds [] [] :=
  ⟨rfl, fun _ _ hrow => nomatch hrow⟩

theorem bindsRows_cons {Row Param : Type} {binds : Row → List Param → Prop} (row : Row)
    (rows : List Row) (own params : List Param) (hlength : own.length = 3) (hown : binds row own)
    (h : BindsRows binds rows params) : BindsRows binds (row :: rows) (own ++ params) := by
  refine ⟨?_, fun i r hr => ?_⟩
  · rw [List.length_append, hlength, h.1, List.length_cons]
    omega
  · cases i with
    | zero =>
      rw [List.getElem?_cons_zero] at hr
      rw [Nat.mul_zero, List.drop_zero, ← hlength, List.take_left]
      exact Option.some.inj hr ▸ hown
    | succ i =>
      rw [List.getElem?_cons_succ] at hr
      rw [Nat.mul_succ, Nat.add_comm, ← List.drop_drop, ← hlength, List.drop_left, hlength]
      exact h.2 i r hr

section Loop

variable {Row Param Err : Type} (bind : Nat → Row → Except Err (List Param))
  (binds : Row → List Param → Prop)
  (hbind : ∀ i row own, bind i row = .ok own → own.length = 3 ∧ binds row own)

include hbind

/-- The loop over the rows: a clause for each, and the parameters bind them. -/
theorem bindRows_eq_ok {rows : List Row} (i : Nat) (clauses clauses' : List String)
    (params params' : List Param)
    (h : bindRows bind i rows clauses params = .ok (clauses', params')) :
    clauses' = clauses ++ (List.range' i rows.length).map (fun i => valuesClause (i * 3)) ∧
      (∀ row ∈ rows, ∃ i own, bind i row = .ok own) ∧
      ∃ more, params' = params ++ more ∧ BindsRows binds rows more := by
  induction rows generalizing i clauses params with
  | nil =>
    obtain ⟨rfl, rfl⟩ := Prod.mk.inj (Except.ok.inj h)
    exact ⟨(List.append_nil _).symm, fun row hrow => absurd hrow List.not_mem_nil, [],
      (List.append_nil _).symm, bindsRows_nil binds⟩
  | cons row rows ih =>
    obtain ⟨own, hown, h⟩ := (Fallible.bind_eq_ok _ _ _).mp h
    obtain ⟨hclauses, hall, more, hparams, hbinds⟩ := ih (i + 1) _ _ h
    obtain ⟨hlength, hrow⟩ := hbind i row own hown
    refine ⟨?_, List.forall_mem_cons.mpr ⟨⟨i, own, hown⟩, hall⟩, own ++ more, ?_,
      bindsRows_cons row rows own more hlength hrow hbinds⟩
    · rw [hclauses, List.length_cons, List.range'_succ, List.map_cons, List.append_assoc]
      rfl
    · rw [hparams, List.append_assoc]

end Loop

/-- A statement and its parameters: the placeholders are `$1` to `$3n` in this order,
    those of a row are bound to its own values, and the server counts as many as there
    are parameters. -/
def Aligned {Row Param : Type} (q : PgLexer) (binds : Row → List Param → Prop) (rows : List Row)
    (sql : String) (params : List Param) : Prop :=
  paramNumbers (tokens sql.toList) = List.range' 1 (3 * rows.length) ∧
    BindsRows binds rows params ∧ countPlaceholders q.toPgQuery sql = .ok (params.length : Int)

end CoopDB
