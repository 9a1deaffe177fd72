import CoopDB.Theory.VectorUpsert.Tool

/-!
# Upserting Through the Client

`vector_upsert` of the Python client writes the name of the table into its statement as
it is, where the tool puts it in quotes. `_safe_ident` lets a name begin with a digit,
and then the scanner reads a number: in `INSERT INTO 2024_docs` it is `2024`, and the
letters behind it are an error. So the server counts no placeholders in this statement
and refuses it. A name that is a number as a whole, as `2024` and `1_000` are, is one
token, and the placeholders are counted.

## Main definitions

* `clientTemplate`: The statement.
* `ClientAligned`: The statement, if one is built, is aligned.
* `RunsOnName`: A name that begins with a number and is more than that.

## Theorems

* `toList_clientTemplate`: The tokens of the statement.
* `vectorUpsert_eq_ok`: When a statement is built.
* `upserts_aligned_iff`: Both ways to upsert are aligned, unless the name of the client's
  table runs on or the scanner has no room for the text.
* `digit_table_not_counted`: A table whose name begins with a year.
-/

namespace CoopDB

open Fallible (bind_eq_ok mapError_eq_ok require_eq_ok)
open SqlScanner (Token Fit tokens paramNumbers runsOn isNul tagCont numberLength)

/-- The tokens before the table. -/
def clientOpening : List Token :=
  [.word "INSERT", .gap, .word "INTO", .gap]

/-- The tokens between the table and the rows. -/
def clientColumns : List Token :=
  [.gap, .sign '(', .word "id", .sign ',', .gap, .word "metadata", .sign ',', .gap,
    .word "embedding", .sign ')', .gap, .word "VALUES", .gap]

/-- The tokens behind the rows. -/
def clientTail : List Token :=
  [.gap, .word "ON", .gap, .word "CONFLICT", .gap, .sign '(', .word "id", .sign ')', .gap,
    .word "DO", .gap, .word "UPDATE", .gap, .word "SET", .gap, .word "metadata", .gap, .sign '=',
    .gap, .word "EXCLUDED", .sign '.', .word "metadata", .sign ',', .gap, .word "embedding", .gap,
    .sign '=', .gap, .word "EXCLUDED", .sign '.', .word "embedding"]

/-- The tokens behind the table. -/
def clientRest (n : Nat) : List Token :=
  clientColumns ++ (valuesTokens (List.range n) ++ clientTail)

/-- The statement of the client for a number of rows. -/
def clientTemplate (table : String) (n : Nat) : String :=
  clientUpsertText table ((List.range n).map fun i => valuesClause (i * 3))

theorem toList_clientTemplate (table : String) (n : Nat) :
    (clientTemplate table n).toList =
      clientOpening.flatMap Token.text ++ (table.toList ++ (clientRest n).flatMap Token.text) := by
  have hopening : "INSERT INTO ".toList = clientOpening.flatMap Token.text := rfl
  have hcolumns : " (".toList ++ ((", ".intercalate ["id", "metadata", "embedding"]).toList ++
      ") VALUES ".toList) = clientColumns.flatMap Token.text := rfl
  have htail : " ON CONFLICT (id) DO UPDATE SET metadata = EXCLUDED.metadata, embedding = EXCLUDED.embedding".toList =
      clientTail.flatMap Token.text := String.toList_ofList.trans rfl
  unfold clientTemplate clientUpsertText
  rw [clientRest, List.flatMap_append, List.flatMap_append, ← hcolumns, ← htail, ← hopening,
    ← toList_valuesClauses]
  simp

/-- Behind the table is a space. -/
theorem head_clientRest (n : Nat) :
    ∃ rest, (clientRest n).flatMap Token.text = ' ' :: rest :=
  ⟨_, rfl⟩

theorem fit_clientRest (n : Nat) (hn : n ≠ 0) : Fit (clientRest n) none := by
  have hhead := head_valuesTokens (List.range n) (by rw [ne_eq, List.range_eq_nil]; exact hn)
  rw [clientRest, SqlScanner.fit_append, SqlScanner.fit_append, List.flatMap_append,
    List.head?_append, hhead]
  refine ⟨?_, fit_valuesTokens _ _, ?_⟩
  · exact ⟨rfl, rfl, rfl, rfl, rfl, rfl, rfl, rfl, rfl, rfl, rfl, rfl, rfl, trivial⟩
  · exact ⟨rfl, rfl, rfl, rfl, rfl, rfl, rfl, rfl, rfl, rfl, rfl, rfl, rfl, rfl, rfl, rfl, rfl, rfl,
      rfl, rfl, rfl, rfl, rfl, rfl, rfl, rfl, rfl, rfl, rfl, rfl, rfl, trivial⟩

theorem paramNumbers_clientRest (n : Nat) :
    paramNumbers (clientRest n) = List.range' 1 (3 * n) := by
  rw [clientRest, SqlScanner.paramNumbers_append, SqlScanner.paramNumbers_append,
    paramNumbers_valuesTokens, flatMap_range_three]
  exact List.append_nil _

/-! ### The name of the table -/

/-- The name begins with a digit, and the number it begins with is not all of it. -/
def RunsOnName (table : String) : Prop :=
  table.toList.head?.any Char.isDigit = true ∧ numberLength table.toList ≠ table.toList.length

/-- What the scanner takes the name for. -/
def tableToken (table : String) : Token :=
  if table.toList.head?.any Char.isDigit then ⟨.number, table.toList⟩ else ⟨.ident, table.toList⟩

theorem text_tableToken (table : String) : (tableToken table).text = table.toList := by
  unfold tableToken
  split <;> rfl

theorem paramNumber_tableToken (table : String) : (tableToken table).paramNumber = none := by
  unfold tableToken
  split <;> rfl

section Name

variable (py : PyText)

variable {py}

/-- A character `_safe_ident` lets through is a letter, a digit or an underscore to the
    scanner. -/
theorem tagCont_of_safeChar (c : Char) (h : py.safeChar c = true) : tagCont c = true := by
  rw [tagCont, SqlScanner.identStart, Bool.or_eq_true, Bool.or_eq_true, Bool.or_eq_true,
    decide_eq_true_eq, decide_eq_true_eq]
  by_cases hascii : c.toNat < 128
  · rcases (safeChar_ascii_iff py c hascii).mp h with hlower | hdigit | hunderscore
    · have halpha : c.isAlpha = true := by
        have hcases : c.isAlpha = (c.isUpper || c.isLower) := rfl
        rw [hcases, (isLower_iff_toNat c).mpr hlower, Bool.or_true]
      exact .inl (.inl (.inl halpha))
    · exact .inr ((isDigit_iff_toNat c).mpr hdigit)
    · exact .inl (.inl (.inr (Char.toNat_inj.mp hunderscore)))
  · exact .inl (.inr (Nat.not_lt.mp hascii))

theorem isNul_of_tagCont (c : Char) (h : tagCont c = true) : isNul c = false := by
  rw [Bool.eq_false_iff]
  intro hnul
  have hzero : c = Char.ofNat 0 := Char.toNat_inj.mp (of_decide_eq_true hnul)
  rw [hzero] at h
  exact absurd h (by decide)

theorem identCont_of_tagCont (c : Char) (h : tagCont c = true) : SqlScanner.identCont c = true := by
  rw [SqlScanner.identCont, ← tagCont, h, Bool.true_or]

variable (table : String) (htable : (safeIdent py table).isOk = true)

include htable

variable {table}

theorem all_tagCont : table.toList.all tagCont = true :=
  List.all_eq_true.mpr fun c hc =>
    tagCont_of_safeChar c (((safeIdent_iff py table).mp htable).2.2 c hc)

theorem any_isNul_table : table.toList.any isNul = false :=
  List.any_eq_false.mpr fun c hc => by
    rw [isNul_of_tagCont c (List.all_eq_true.mp (all_tagCont htable) c hc)]
    exact Bool.false_ne_true

/-- The first character of the name. -/
theorem head_table : ∃ c, table.toList.head? = some c ∧ tagCont c = true := by
  have hpos := ((safeIdent_iff py table).mp htable).1
  cases hlist : table.toList with
  | nil =>
    rw [hlist] at hpos
    exact absurd hpos (by decide)
  | cons c =>
    have hall := all_tagCont htable
    rw [hlist, List.all_cons, Bool.and_eq_true] at hall
    exact ⟨c, rfl, hall.1⟩

/-- The name before a space is one token, unless its number runs on. -/
theorem fits_tableToken (hname : ¬ RunsOnName table) :
    (tableToken table).fits (some ' ') = true := by
  have hnul := any_isNul_table htable
  obtain ⟨c, hc, htag⟩ := head_table htable
  unfold tableToken
  by_cases hdigit : table.toList.head?.any Char.isDigit = true
  · have hnumber : numberLength table.toList = table.toList.length :=
      not_not.mp fun hne => hname ⟨hdigit, hne⟩
    rw [if_pos hdigit, Token.fits, Token.ends]
    simp [hdigit, hnumber, hnul]
  · have hstart : SqlScanner.identStart c = true := by
      rw [hc, Option.any_some] at hdigit
      rw [tagCont, Bool.or_eq_true] at htag
      exact htag.resolve_right hdigit
    have hword : SqlScanner.isIdentifier table.toList = true := by
      rw [SqlScanner.isIdentifier, hc, Option.any_some, hstart, Bool.true_and, List.all_eq_true]
      exact fun d hd =>
        identCont_of_tagCont d (List.all_eq_true.mp (all_tagCont htable) d hd)
    have hspace : Option.any SqlScanner.identCont (some ' ') = false := rfl
    have hblank : Option.all SqlScanner.isSpace (some ' ') = true := rfl
    rw [if_neg hdigit, Token.fits, Token.ends]
    simp [hword, hspace, hblank, hnul]

theorem fit_clientOpening : Fit clientOpening table.toList.head? := by
  obtain ⟨c, hc, htag⟩ := head_table htable
  have hspace : SqlScanner.isSpace c = false := by
    rw [Bool.eq_false_iff]
    intro h
    have hcont := SqlScanner.identCont_of_isSpace h
    rw [identCont_of_tagCont c htag] at hcont
    exact Bool.false_ne_true hcont.symm
  rw [hc]
  refine ⟨rfl, rfl, rfl, ?_, trivial⟩
  have hgap : Token.gap.fits (some c) = !SqlScanner.isSpace c := Bool.and_true _
  exact hgap.trans (by rw [hspace]; rfl)

/-- The statement is one of tokens that fit. -/
theorem fit_clientTemplate {n : Nat} (hn : n ≠ 0) (hname : ¬ RunsOnName table) :
    Fit (clientOpening ++ tableToken table :: clientRest n) none := by
  obtain ⟨rest, hrest⟩ := head_clientRest n
  obtain ⟨c, hc, _⟩ := head_table htable
  have hopening := fit_clientOpening htable
  rw [SqlScanner.fit_append, List.flatMap_cons, List.head?_append, text_tableToken, hc]
  refine ⟨?_, ?_, fit_clientRest n hn⟩
  · rw [Option.some_or, Option.some_or, ← hc]
    exact hopening
  · rw [hrest]
    exact fits_tableToken htable hname

/-- The scanner finds a number that runs on. -/
theorem runsOn_clientTemplate (n : Nat) (hname : RunsOnName table) :
    runsOn (tokens (clientTemplate table n).toList) = true := by
  obtain ⟨rest, hrest⟩ := head_clientRest n
  obtain ⟨c, hc, _⟩ := head_table htable
  have hopening : Fit clientOpening
      (table.toList ++ (clientRest n).flatMap Token.text).head? := by
    rw [List.head?_append, hc, Option.some_or, ← hc]
    exact fit_clientOpening htable
  rw [toList_clientTemplate, SqlScanner.tokens_of_fit _ _ hopening, hrest]
  exact SqlScanner.runsOn_append _ _
    (SqlScanner.runsOn_number table.toList rest hname.1 (all_tagCont htable) hname.2)

theorem any_isNul_clientTemplate (n : Nat) (hn : n ≠ 0) :
    (clientTemplate table n).toList.any isNul = false := by
  rw [toList_clientTemplate, List.any_append, List.any_append,
    SqlScanner.any_isNul_of_fit _ _ (fit_clientOpening htable),
    any_isNul_table htable, SqlScanner.any_isNul_of_fit _ _ (fit_clientRest n hn)]
  rfl

end Name

/-! ### The rows of the client -/

section Rows

variable {Obj : Type} (objects : PyObjects Obj)

/-- What a row of the client binds: its `id`, the JSON of its `metadata`, of `{}`
    if it has none, and its `vector`. -/
def ClientRow (row : List (String × Obj)) (values : Obj × String × String) : Prop :=
  ∃ vector, row.lookup "id" = some values.1 ∧
    objects.dumps ((row.lookup "metadata").getD objects.emptyDict) = some values.2.1 ∧
    row.lookup "vector" = some vector ∧ objects.formatVector vector = some values.2.2

/-- The parameters of a row. -/
def clientParams (values : Obj × String × String) : List (PyParam Obj) :=
  [.object values.1, .text values.2.1, .text values.2.2]

/-- What the parameters of a row of the client are. -/
def clientBinds (row : List (String × Obj)) (params : List (PyParam Obj)) : Prop :=
  ∃ values, ClientRow objects row values ∧ params = clientParams values

variable {objects}

/-- A row that does not raise. -/
theorem rowParams_eq_ok {row : List (String × Obj)} {params : List (PyParam Obj)}
    (h : objects.rowParams row = .ok params) :
    ∃ values, ClientRow objects row values ∧ params = clientParams values := by
  simp only [PyObjects.rowParams, bind_eq_ok, require_eq_ok] at h
  obtain ⟨id, hid, metadata, hmetadata, vector, hvector, text, htext, hparams⟩ := h
  exact ⟨(id, metadata, text), ⟨vector, hid, hmetadata, hvector, htext⟩,
    (Except.ok.inj hparams).symm⟩

/-- The loop over the rows. -/
theorem clientRows_eq_ok {rows : List (List (String × Obj))} {clauses : List String}
    {params : List (PyParam Obj)} (h : objects.upsertRows rows = .ok (clauses, params)) :
    clauses = (List.range rows.length).map (fun i => valuesClause (i * 3)) ∧
      (∀ row ∈ rows, (objects.rowParams row).isOk = true) ∧
      BindsRows (clientBinds objects) rows params := by
  obtain ⟨hclauses, hall, more, rfl, hbinds⟩ := bindRows_eq_ok _ (clientBinds objects)
    (fun _ row own hown => by
      obtain ⟨values, hvalues, rfl⟩ := rowParams_eq_ok hown
      exact ⟨rfl, values, hvalues, rfl⟩) 0 _ _ _ _ h
  rw [List.nil_append, ← List.range_eq_range'] at hclauses
  refine ⟨hclauses, fun row hrow => ?_, hbinds⟩
  obtain ⟨_, own, hown⟩ := hall row hrow
  rw [hown]
  rfl

/-- If no row raises, the loop ends. -/
theorem clientRows_ok (rows : List (List (String × Obj)))
    (h : ∀ row ∈ rows, (objects.rowParams row).isOk = true) (i : Nat) (clauses : List String)
    (params : List (PyParam Obj)) :
    ∃ result, bindRows (fun _ row => objects.rowParams row) i rows clauses params = .ok result := by
  induction rows generalizing i clauses params with
  | nil => exact ⟨_, rfl⟩
  | cons row rows ih =>
    rw [List.forall_mem_cons] at h
    unfold bindRows
    cases hrow : objects.rowParams row with
    | error =>
      rw [hrow] at h
      exact absurd h.1 Bool.false_ne_true
    | ok => exact ih h.2 (i + 1) _ _

end Rows

/-! ### The result -/

section Result

variable (q : PgLexer) (py : PyText) {Obj : Type} (objects : PyObjects Obj) (table : String)
  (rows : List (List (String × Obj)))

/-- The statement of the client, if it builds one, is that of the template, with its
    parameters aligned. -/
def ClientAligned : Prop :=
  ∀ st, vectorUpsert objects py table rows = .ok (some st) →
    st.sql = clientTemplate table rows.length ∧
      Aligned q (clientBinds objects) rows st.sql st.params

/-- There are rows, none of them raises, and the name of the table passes. -/
def ClientBuilds : Prop :=
  rows ≠ [] ∧ (∀ row ∈ rows, (objects.rowParams row).isOk = true) ∧
    (safeIdent py table).isOk = true

/-- What the client builds. -/
theorem vectorUpsert_eq_ok (st : Statement (PyParam Obj))
    (h : vectorUpsert objects py table rows = .ok (some st)) :
    ClientBuilds py objects table rows ∧ st.sql = clientTemplate table rows.length ∧
      BindsRows (clientBinds objects) rows st.params := by
  unfold vectorUpsert at h
  by_cases hrows : rows = []
  · rw [if_pos hrows] at h
    cases h
  rw [if_neg hrows] at h
  simp only [bind_eq_ok, mapError_eq_ok] at h
  obtain ⟨built, hloop, name, hname, hst⟩ := h
  have hsame : name = table := by
    unfold safeIdent at hname
    split at hname
    · cases hname
    · exact (Except.ok.inj hname).symm
  subst hsame
  obtain ⟨hclauses, hall, hbinds⟩ := clientRows_eq_ok hloop
  rw [← Option.some.inj (Except.ok.inj hst), hclauses]
  exact ⟨⟨hrows, hall, by rw [hname]; rfl⟩, rfl, hbinds⟩

theorem vectorUpsert_builds (h : ClientBuilds py objects table rows) :
    ∃ st, vectorUpsert objects py table rows = .ok (some st) := by
  obtain ⟨hrows, hall, htable⟩ := h
  obtain ⟨result, hresult⟩ := clientRows_ok rows hall 0 [] []
  unfold vectorUpsert PyObjects.upsertRows
  rw [if_neg hrows, hresult]
  cases hname : safeIdent py table with
  | error =>
    rw [hname] at htable
    exact absurd htable Bool.false_ne_true
  | ok => exact ⟨_, rfl⟩

/-- The statement of the client is counted right unless the name of the table runs on
    from a number, or the scanner has no room for the text. -/
theorem count_clientTemplate (htable : (safeIdent py table).isOk = true) (hrows : rows ≠ []) :
    (paramNumbers (tokens (clientTemplate table rows.length).toList) =
        List.range' 1 (3 * rows.length) ∧
      countPlaceholders q.toPgQuery (clientTemplate table rows.length) =
        .ok ((3 * rows.length : Nat) : Int)) ↔
      ¬ RunsOnName table ∧ q.room (clientTemplate table rows.length) := by
  have hne : rows.length ≠ 0 := fun h => hrows (List.length_eq_zero_iff.mp h)
  constructor
  · rintro ⟨_, hcount⟩
    constructor
    · intro hname
      exact countPlaceholders_of_runsOn q _ (any_isNul_clientTemplate htable _ hne)
        (runsOn_clientTemplate htable _ hname) _ hcount
    · by_contra hroom
      exact countPlaceholders_full q _ hroom _ hcount
  · rintro ⟨hname, hroom⟩
    have htext : (clientTemplate table rows.length).toList =
        (clientOpening ++ tableToken table :: clientRest rows.length).flatMap Token.text := by
      rw [toList_clientTemplate, List.flatMap_append, List.flatMap_cons, text_tableToken]
    have hparams : paramNumbers (clientOpening ++ tableToken table :: clientRest rows.length) =
        List.range' 1 (3 * rows.length) := by
      rw [SqlScanner.paramNumbers_append, SqlScanner.paramNumbers_cons, paramNumber_tableToken,
        paramNumbers_clientRest]
      rfl
    -- The text has a character for every row, so the numbers are small.
    have hsmall : 3 * rows.length < 2 ^ 63 := by
      have hbytes := q.room_bound _ hroom
      have hchars := length_le_utf8 (clientTemplate table rows.length)
      have hvalues := length_le_valuesTokens (List.range rows.length)
      rw [toList_clientTemplate, clientRest, List.flatMap_append, List.flatMap_append] at hchars
      simp only [List.length_append] at hchars
      rw [List.length_range] at hvalues
      omega
    obtain ⟨htokens, hcount⟩ := countPlaceholders_of_fit q _ htext
      (fit_clientTemplate htable hne hname) hroom hsmall hparams
    exact ⟨htokens ▸ hparams, hcount⟩

theorem clientAligned_iff :
    ClientAligned q py objects table rows ↔
      (ClientBuilds py objects table rows →
        ¬ RunsOnName table ∧ q.room (clientTemplate table rows.length)) := by
  constructor
  · intro h hbuilds
    obtain ⟨st, hst⟩ := vectorUpsert_builds py objects table rows hbuilds
    obtain ⟨hsql, hnumbers, hbinds, hcount⟩ := h st hst
    rw [hsql] at hnumbers hcount
    rw [hbinds.1] at hcount
    exact (count_clientTemplate q py table rows hbuilds.2.2 hbuilds.1).mp ⟨hnumbers, hcount⟩
  · intro h st hst
    obtain ⟨hbuilds, hsql, hbinds⟩ := vectorUpsert_eq_ok py objects table rows st hst
    obtain ⟨hnumbers, hcount⟩ :=
      (count_clientTemplate q py table rows hbuilds.2.2 hbuilds.1).mpr (h hbuilds)
    rw [hsql]
    refine ⟨rfl, hnumbers, hbinds, ?_⟩
    rw [hbinds.1]
    exact hcount

/-- Both ways to upsert bind every row to its own placeholders, and the server counts as
    many as there are parameters, unless the client builds a statement and the name of
    its table runs on from a number, or the scanner has no room for the text. -/
theorem upserts_aligned_iff (d : Doer) {j : Json.GoJson} (call : ToolCall j) :
    (ToolAligned q d call ∧ ClientAligned q py objects table rows) ↔
      (ClientBuilds py objects table rows →
        ¬ RunsOnName table ∧ q.room (clientTemplate table rows.length)) := by
  rw [clientAligned_iff]
  exact and_iff_right (toolAligned q d call)

end Result

/-- Objects that are JSON. A number is written as it was. -/
def jsonObjects : PyObjects Json.Value where
  emptyDict := .object []
  dumps := Json.Value.marshal
  iter v := listArg (some v)
  reprFloat := floatArg

/-- A row of a table whose name begins with a year is accepted by the client, and the
    server counts no placeholders in the statement. -/
theorem digit_table_not_counted :
    ¬ ClientAligned fitLexer cpython311Text jsonObjects "2024_docs"
      [[("id", .string "doc-1"), ("vector", .array [.number "0.1", .number "0.2"])]] := by
  intro h
  have hbuilds : ClientBuilds cpython311Text jsonObjects "2024_docs"
      [[("id", .string "doc-1"), ("vector", .array [.number "0.1", .number "0.2"])]] :=
    ⟨List.cons_ne_nil _ _, fun row hrow => by rw [List.mem_singleton.mp hrow]; rfl, by decide⟩
  have hname : RunsOnName "2024_docs" := by
    unfold RunsOnName
    decide
  exact ((clientAligned_iff _ _ _ _ _).mp h hbuilds).1 hname

end CoopDB
