import CoopDB.Theory.Identifiers
import CoopDB.Theory.VectorUpsert.Values

/-!
# Upserting Through the Tool

`handleVectorUpsert` writes the names of the table and of two columns into its
statement, each in quotes and each behind `isSafeIdent`. All else in the text depends on
the number of rows only. A name of the guard is not empty and has no quote in it, so the
scanner finds the tokens of the template, and the placeholders are those of the rows.

The loop over the rows returns on the first row it does not like, before any call.

## Main definitions

* `upsertTemplate`: The statement.
* `RowOf`: What a row is, and what it binds: its `id`, the JSON of its `metadata` and its
  `vector`, in this order.
* `ToolAligned`: No call, or one that is aligned.

## Theorems

* `toList_upsertTemplate`, `fit_upsertTemplate`: The tokens of the statement.
* `upsertRow_eq_ok`, `upsertRows_eq_ok`: A row, and the loop.
* `toolAligned`: Every use of the tool makes no call, or one that is aligned.
-/

namespace CoopDB

open Fallible (bind_eq_ok ensure_eq_ok require_eq_ok)
open SqlScanner (Token Fit tokens paramNumbers isNul)

/-! ### The statement of the tool -/

/-- The tokens before the rows. -/
def toolHead (table idCol vectorCol : String) : List Token :=
  [.word "INSERT", .gap, .word "INTO", .gap, .quotedName table, .gap, .sign '(', .quotedName idCol,
    .sign ',', .gap, .quotedName "metadata", .sign ',', .gap, .quotedName vectorCol, .sign ')',
    .gap, .word "VALUES", .gap]

/-- The tokens behind them. -/
def toolTail (idCol vectorCol : String) : List Token :=
  [.gap, .word "ON", .gap, .word "CONFLICT", .gap, .sign '(', .quotedName idCol, .sign ')', .gap,
    .word "DO", .gap, .word "UPDATE", .gap, .word "SET", .gap, .quotedName "metadata", .gap,
    .sign '=', .gap, .word "EXCLUDED", .sign '.', .quotedName "metadata", .sign ',', .gap,
    .quotedName vectorCol,
    .gap, .sign '=', .gap, .word "EXCLUDED", .sign '.', .quotedName vectorCol]

/-- The statement of the tool for a number of rows. -/
def upsertTemplate (table idCol vectorCol : String) (n : Nat) : String :=
  Tools.upsertText table idCol vectorCol ((List.range n).map fun i => valuesClause (i * 3))

theorem text_quotedName {name : String} (h : '"' ∉ name.toList) :
    (Token.quotedName name).text = '"' :: (name.toList ++ ['"']) := by
  rw [Token.quotedName, SqlScanner.quoted, SqlScanner.doubled_of_not_mem '"' _ h]

theorem text_toolHead {table idCol vectorCol : String} (htable : '"' ∉ table.toList)
    (hid : '"' ∉ idCol.toList) (hvector : '"' ∉ vectorCol.toList) :
    (toolHead table idCol vectorCol).flatMap Token.text =
      ("INSERT INTO \"" ++ table ++ "\" (\"" ++ idCol ++ "\", \"metadata\", \"" ++ vectorCol ++
        "\") VALUES ").toList := by
  simp only [toolHead, List.flatMap_cons, List.flatMap_nil, text_quotedName htable,
    text_quotedName hid, text_quotedName hvector]
  simp only [String.toList_append, List.append_assoc, List.cons_append]
  rfl

theorem text_toolTail {idCol vectorCol : String} (hid : '"' ∉ idCol.toList)
    (hvector : '"' ∉ vectorCol.toList) :
    (toolTail idCol vectorCol).flatMap Token.text =
      (" ON CONFLICT (\"" ++ idCol ++
        "\") DO UPDATE SET \"metadata\" = EXCLUDED.\"metadata\", \"" ++ vectorCol ++
        "\" = EXCLUDED.\"" ++ vectorCol ++ "\"").toList := by
  simp only [toolTail, List.flatMap_cons, List.flatMap_nil, text_quotedName hid,
    text_quotedName hvector]
  simp only [String.toList_append, List.append_assoc, List.cons_append]
  rfl

theorem SafeIdent.not_mem {name : String} (h : SafeIdent name) {c : Char} (hc : ¬ SafeChar c) :
    c ∉ name.toList :=
  fun hmem => hc (h.2.2 c hmem)

theorem SafeIdent.quote {name : String} (h : SafeIdent name) : '"' ∉ name.toList :=
  h.not_mem (by unfold SafeChar; decide)

theorem SafeIdent.fits (name : String) (h : SafeIdent name) (next : Option Char)
    (hnext : next.any (· == '"') = false) : (Token.quotedName name).fits next = true := by
  refine Token.fits_quotedName ((length_toList_pos name).mp h.1) ?_ (h.quote) hnext
  rw [List.any_eq_false]
  intro c hc hnul
  have hcode : c.toNat = 0 := of_decide_eq_true hnul
  have hsafe := h.2.2 c hc
  unfold SafeChar at hsafe
  omega

/-- A name of the template. -/
theorem fits_metadata {next : Option Char} (hnext : next.any (· == '"') = false) :
    (Token.quotedName "metadata").fits next = true :=
  Token.fits_quotedName (by decide) (by decide) (by decide) hnext

section Tool

variable (table idCol vectorCol : String) (htable : SafeIdent table) (hid : SafeIdent idCol)
  (hvector : SafeIdent vectorCol)

include htable hid hvector

theorem fit_toolHead : Fit (toolHead table idCol vectorCol) (some '(') :=
  ⟨rfl, rfl, rfl, rfl, htable.fits table _ rfl, rfl, rfl, hid.fits idCol _ rfl, rfl, rfl,
    fits_metadata rfl, rfl, rfl, hvector.fits vectorCol _ rfl, rfl, rfl, rfl, rfl, trivial⟩

omit htable in
theorem fit_toolTail : Fit (toolTail idCol vectorCol) none :=
  ⟨rfl, rfl, rfl, rfl, rfl, rfl, hid.fits idCol _ rfl, rfl, rfl, rfl, rfl, rfl, rfl, rfl, rfl,
    fits_metadata rfl, rfl, rfl, rfl, rfl, rfl, fits_metadata rfl, rfl, rfl,
    hvector.fits vectorCol _ rfl, rfl, rfl, rfl, rfl, rfl, hvector.fits vectorCol _ rfl, trivial⟩

/-- The statement of the tool is made of its tokens. -/
theorem toList_upsertTemplate (n : Nat) :
    (upsertTemplate table idCol vectorCol n).toList =
      (toolHead table idCol vectorCol ++
        (valuesTokens (List.range n) ++ toolTail idCol vectorCol)).flatMap Token.text := by
  have hsplit : upsertTemplate table idCol vectorCol n =
      ("INSERT INTO \"" ++ table ++ "\" (\"" ++ idCol ++ "\", \"metadata\", \"" ++ vectorCol ++
        "\") VALUES ") ++ (", ".intercalate ((List.range n).map fun i => valuesClause (i * 3)) ++
      (" ON CONFLICT (\"" ++ idCol ++
        "\") DO UPDATE SET \"metadata\" = EXCLUDED.\"metadata\", \"" ++ vectorCol ++
        "\" = EXCLUDED.\"" ++ vectorCol ++ "\"")) := by
    unfold upsertTemplate Tools.upsertText
    simp only [String.append_assoc]
  rw [List.flatMap_append, List.flatMap_append,
    text_toolHead (htable.quote) (hid.quote)
      (hvector.quote),
    text_toolTail (hid.quote) (hvector.quote),
    ← toList_valuesClauses, ← String.toList_append, ← String.toList_append, ← hsplit]

theorem fit_upsertTemplate {n : Nat} (hn : n ≠ 0) :
    Fit (toolHead table idCol vectorCol ++
      (valuesTokens (List.range n) ++ toolTail idCol vectorCol)) none := by
  have hhead := head_valuesTokens (List.range n) (by rw [ne_eq, List.range_eq_nil]; exact hn)
  rw [SqlScanner.fit_append, SqlScanner.fit_append, List.flatMap_append, List.head?_append, hhead]
  exact ⟨fit_toolHead table idCol vectorCol htable hid hvector, fit_valuesTokens _ _,
    fit_toolTail idCol vectorCol hid hvector⟩

theorem length_upsertTemplate (n : Nat) (hn : n ≤ 100) :
    (utf8 (upsertTemplate table idCol vectorCol n)).length ≤ 262144 := by
  have hvalues := length_valuesTokens_le (List.range n) (fun i hi => by
    have := List.mem_range.mp hi
    omega)
  have hbytes := length_utf8_le (upsertTemplate table idCol vectorCol n)
  have htableLength := htable.2.1
  have hidLength := hid.2.1
  have hvectorLength := hvector.2.1
  have hfixed : "INSERT INTO \"".toList.length + "\" (\"".toList.length +
      "\", \"metadata\", \"".toList.length + "\") VALUES ".toList.length +
      " ON CONFLICT (\"".toList.length +
      "\") DO UPDATE SET \"metadata\" = EXCLUDED.\"metadata\", \"".toList.length +
      "\" = EXCLUDED.\"".toList.length + "\"".toList.length = 125 := rfl
  rw [List.length_range, ← toList_valuesClauses] at hvalues
  unfold upsertTemplate Tools.upsertText at hbytes ⊢
  simp only [String.toList_append, List.length_append] at hbytes
  omega

end Tool

/-! ### The rows of the tool -/

/-- What a row of a tool call is, and what it binds. -/
def RowOf (rawRow : Json.Value) (row : BoundRow) : Prop :=
  ∃ fields metaFields vec, rawRow = .object fields ∧
    Json.field "id" fields = some (.string row.id) ∧
    Json.field "metadata" fields = some (.object metaFields) ∧
    (Json.Value.object metaFields).marshal = some row.metadata ∧
    Json.field "vector" fields = some (.array (vec.map .number)) ∧ row.vector = formatVector vec

theorem mapArg_eq_some {v : Option Json.Value} {fields : List (String × Json.Value)}
    (h : mapArg v = some fields) : v = some (.object fields) := by
  unfold mapArg at h
  split at h
  · rw [Option.some.inj h]
  · cases h

theorem listArg_eq_some {v : Option Json.Value} {vs : List Json.Value}
    (h : listArg v = some vs) : v = some (.array vs) := by
  unfold listArg at h
  split at h
  · rw [Option.some.inj h]
  · cases h

theorem stringArg_ne_empty (v : Option Json.Value) (h : stringArg v ≠ "") :
    v = some (.string (stringArg v)) := by
  unfold stringArg at h ⊢
  split at h
  · rfl
  · exact absurd rfl h

theorem floatArg_eq_some (v : Json.Value) (f : String) (h : floatArg v = some f) :
    v = .number f := by
  unfold floatArg at h
  split at h
  · rw [Option.some.inj h]
  · cases h

theorem upsertVector_eq_ok (i k : Nat) {vs : List Json.Value} (vec : List String)
    (h : upsertVector i k vs = .ok vec) : vs = vec.map .number := by
  induction vs generalizing k vec with
  | nil =>
    rw [← Except.ok.inj h]
    rfl
  | cons v vs ih =>
    simp only [upsertVector, bind_eq_ok, require_eq_ok] at h
    obtain ⟨f, hf, fs, hfs, hvec⟩ := h
    rw [← Except.ok.inj hvec, floatArg_eq_some v f hf, ih (k + 1) fs hfs]
    rfl

/-- A row that passes its checks. -/
theorem upsertRow_eq_ok {j : Json.GoJson} {i : Nat} {rawRow : Json.Value} {row : BoundRow}
    (h : upsertRow j i rawRow = .ok row) : RowOf rawRow row := by
  simp only [upsertRow, bind_eq_ok, require_eq_ok, ensure_eq_ok, Option.filter_eq_some_iff,
    decide_eq_true_eq] at h
  obtain ⟨fields, hfields, _, hid, rawMeta, hmeta, metaFields, hmetaFields, metaJSON, hjson, rawVec,
    ⟨hvec, _⟩, vec, hvector, hrow⟩ := h
  rw [← Except.ok.inj hrow]
  refine ⟨fields, metaFields, vec, Option.some.inj (mapArg_eq_some hfields),
    stringArg_ne_empty _ hid, ?_, hjson, ?_, rfl⟩
  · rw [hmeta, mapArg_eq_some hmetaFields]
  · rw [listArg_eq_some hvec, upsertVector_eq_ok i 0 vec hvector]

/-- What the parameters of a row of the tool are. -/
def toolBinds (rawRow : Json.Value) (params : List Json.Value) : Prop :=
  ∃ row, RowOf rawRow row ∧ params = row.params

/-- The loop over the rows. -/
theorem upsertRows_eq_ok {j : Json.GoJson} {rows : List Json.Value} {clauses : List String}
    {params : List Json.Value} (h : upsertRows j rows = .ok (clauses, params)) :
    clauses = (List.range rows.length).map (fun i => valuesClause (i * 3)) ∧
      BindsRows toolBinds rows params := by
  obtain ⟨hclauses, _, more, rfl, hbinds⟩ := bindRows_eq_ok _ toolBinds (fun i rawRow own hown => by
    cases hrow : upsertRow j i rawRow with
    | error =>
      rw [hrow] at hown
      cases hown
    | ok row =>
      rw [hrow] at hown
      rw [← Except.ok.inj hown]
      exact ⟨rfl, row, upsertRow_eq_ok hrow, rfl⟩) 0 _ _ _ _ h
  rw [List.nil_append, ← List.range_eq_range'] at hclauses
  exact ⟨hclauses, hbinds⟩

/-! ### The result -/

/-- The tool makes no call, or one of the template with names that are safe and values
    that are aligned. -/
def ToolAligned (q : PgLexer) (d : Doer) {j : Json.GoJson} (call : ToolCall j) : Prop :=
  ((Tools.handleVectorUpsert call).run d).2 = [] ∨
    ∃ table idCol vectorCol rows params,
      call.args "table" = some (.string table) ∧ call.args "id_column" = some (.string idCol) ∧
      call.args "vector_column" = some (.string vectorCol) ∧
      call.args "rows" = some (.array rows) ∧
      SafeIdent table ∧ SafeIdent idCol ∧ SafeIdent vectorCol ∧
      ((Tools.handleVectorUpsert call).run d).2 =
        [{ sql := upsertTemplate table idCol vectorCol rows.length, params := some params
           idempotencyKey := "" }] ∧
      Aligned q toolBinds rows (upsertTemplate table idCol vectorCol rows.length) params

/-- The call of the template is aligned. -/
theorem aligned_upsertTemplate (q : PgLexer) {table idCol vectorCol : String}
    (htable : SafeIdent table) (hid : SafeIdent idCol) (hvector : SafeIdent vectorCol)
    {rows params : List Json.Value} (hbinds : BindsRows toolBinds rows params)
    (hne : rows.length ≠ 0) (hlen : rows.length ≤ 100) :
    Aligned q toolBinds rows (upsertTemplate table idCol vectorCol rows.length) params := by
  have hparams : paramNumbers (toolHead table idCol vectorCol ++
      (valuesTokens (List.range rows.length) ++ toolTail idCol vectorCol)) =
        List.range' 1 (3 * rows.length) := by
    rw [SqlScanner.paramNumbers_append, SqlScanner.paramNumbers_append, paramNumbers_valuesTokens,
      flatMap_range_three]
    exact List.append_nil _
  obtain ⟨htokens, hcount⟩ := countPlaceholders_of_fit q _
    (toList_upsertTemplate table idCol vectorCol htable hid hvector rows.length)
    (fit_upsertTemplate table idCol vectorCol htable hid hvector hne)
    (q.room_small _ (length_upsertTemplate table idCol vectorCol htable hid hvector _ hlen))
    (by omega) hparams
  exact ⟨htokens ▸ hparams, hbinds, hbinds.1 ▸ hcount⟩

theorem toolAligned (q : PgLexer) (d : Doer) {j : Json.GoJson} (call : ToolCall j) :
    ToolAligned q d call := by
  have hsafe : ∀ v : Option Json.Value, Mcp.isSafeIdent (stringArg v) = true →
      v = some (.string (stringArg v)) ∧ SafeIdent (stringArg v) := by
    intro v hv
    have hident := (isSafeRoleName_iff (stringArg v)).mp hv
    exact ⟨stringArg_ne_empty v ((length_toList_pos _).mp hident.1), hident⟩
  unfold ToolAligned Tools.handleVectorUpsert
  cases hcall : Tools.upsertCall call with
  | error => exact .inl rfl
  | ok =>
    simp only [Tools.upsertCall, bind_eq_ok, require_eq_ok, ensure_eq_ok,
      Option.filter_eq_some_iff, decide_eq_true_eq] at hcall
    obtain ⟨_, htable, _, hid, _, hvector, rawRows, hraw, rows, ⟨hlist, hne⟩, _, hlen, built, hloop,
      hmade⟩ := hcall
    obtain ⟨htableArg, htable⟩ := hsafe _ htable
    obtain ⟨hidArg, hid⟩ := hsafe _ hid
    obtain ⟨hvectorArg, hvector⟩ := hsafe _ hvector
    obtain ⟨hclauses, hbinds⟩ := upsertRows_eq_ok hloop
    rw [← Except.ok.inj hmade, hclauses]
    exact .inr ⟨_, _, _, rows, _, htableArg, hidArg, hvectorArg,
      hraw.trans (listArg_eq_some hlist), htable, hid, hvector, rfl,
      aligned_upsertTemplate q htable hid hvector hbinds
        (fun h => hne (List.length_eq_zero_iff.mp h)) hlen⟩

end CoopDB
