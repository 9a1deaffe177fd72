import CoopDB.Theory.ErrorReply
import CoopDB.Theory.Statement.BareRead

/-!
# The Rows a Response Leaves Out

Which of its two paths `Execute` takes is decided by the classification of the
statement: `Query` for a select and for an insert, update or delete with a
`RETURNING` clause, `Exec` for the rest. `Exec` reads a result set only to throw
it away, and the response then has neither columns nor rows. Of the statements
behind it, `EXPLAIN`, `SHOW`, `CALL`, `EXECUTE`, `FETCH` and `MERGE ... RETURNING`
have a result set.

## Main definitions

* `ResultSet`: What the server produces for the statement.
* `DbScript.Yields`: `Query` describes its columns, and a loop over the rows that ends
  without an error has met all of them.
* `Complete`: The response has all of it, or there is none and nothing is kept.
* `ReadsRows`: The statement is of a kind whose rows are read.

## Theorems

* `readsRows_iff`: The path is chosen by the outermost node.
* `complete_iff_reads`: The response is complete exactly if the rows are read, or there is
  no result set, or some call of the transaction fails.
* `explain_answered_empty`: An `EXPLAIN` whose plan is dropped.
-/

namespace CoopDB

open Json (Value)

/-- The columns and rows of a statement's result, none of either where the
    statement has no result. -/
@[ext]
structure ResultSet where
  columns : List String
  rows : List (List Value)

/-- The answers of the driver are about this result set. -/
structure DbScript.Yields (db : DbScript) (rs : ResultSet) : Prop where
  columns : ∀ columns, db.query = .ok columns → columns = rs.columns
  rows : ∀ rows, rowValues db.rows = some rows → db.rowsErr = none → rows = rs.rows

/-- Nothing was committed, and a transaction that was begun has been rolled
    back. -/
def Executed.RolledBack (e : Executed) (db : DbScript) : Prop :=
  e.committed = false ∧ (db.begin = none → ∃ c : Conn, e.conn = c.rollback)

/-- `Execute` returned the whole result set, or an error after which nothing of
    the transaction is left. -/
def Complete (e : Executed) (db : DbScript) (rs : ResultSet) : Prop :=
  (∃ response, e.outcome = .ok response ∧ response.columns = rs.columns ∧
      response.rows = rs.rows) ∨
    (∃ failure, e.outcome = .error failure) ∧ e.RolledBack db

/-- The statement is a select, or an insert, update or delete that returns its
    rows. -/
def ReadsRows (stmt : Option Node) : Prop :=
  stmt = some .selectStmt ∨ returningPresent stmt = true

section

variable (q : PgQuery) (validator : ValidatorConfig) (executor : ExecutorConfig) (c : Conn)
  (workspaceID pgRole sql : String) (params : List Value) (res : Result) (db : DbScript)
  (rs : ResultSet)

/-- An error of `Execute` leaves nothing behind. -/
theorem execute_error_rolledBack {failure : Failure}
    (h : (execute q executor c ⟨workspaceID, pgRole, sql, params, some res⟩ db).outcome
      = .error failure) :
    (execute q executor c ⟨workspaceID, pgRole, sql, params, some res⟩ db).RolledBack db := by
  revert h
  unfold Executed.RolledBack
  simp only [execute]
  cases hbegin : db.begin with
  | some => exact fun _ => ⟨rfl, fun h => absurd h (by simp)⟩
  | none =>
    cases setup workspaceID pgRole executor.statementTimeout executor.idleInTxTimeout db.setup
        (Tx.start c.session) with
    | error => exact fun _ => ⟨rfl, fun _ => ⟨c, rfl⟩⟩
    | ok =>
      cases runStatement executor res db with
      | error => exact fun _ => ⟨rfl, fun _ => ⟨c, rfl⟩⟩
      | ok =>
        cases db.commit with
        | some => exact fun _ => ⟨rfl, fun _ => ⟨_, rfl⟩⟩
        | none => exact fun h => absurd h (by simp)

/-- The rows of an accepted statement are read according to its outermost
    node. -/
theorem readsRows_iff (hval : validate q validator sql params = .ok res) :
    (res.isSelect || res.hasReturning) = true ↔ ReadsRows (parsed q sql) := by
  rcases validate_eq_ok hval with ⟨stmt, hparse, _, rfl⟩
  have hparsed : parsed q sql = stmt := by simp only [parsed, hparse]
  rw [hparsed, Bool.or_eq_true, decide_eq_true_iff]
  unfold ReadsRows
  cases stmt with
  | none => simp only [classify, reduceCtorEq, false_or]; decide
  | some => simp [classify_eq_select]

/-- `Execute` of an accepted statement returns its whole result set or nothing,
    if and only if its rows are read, or there are none and no columns either, or
    some call of the transaction fails. -/
theorem complete_iff_reads (hval : validate q validator sql params = .ok res)
    (hyields : db.Yields rs) :
    Complete (execute q executor c ⟨workspaceID, pgRole, sql, params, some res⟩ db) db rs ↔
      (Carried executor workspaceID pgRole res db →
        ReadsRows (parsed q sql) ∨ rs = ⟨[], []⟩) := by
  rw [← readsRows_iff q validator sql params res hval]
  by_cases hcar : Carried executor workspaceID pgRole res db
  · rcases execute_of_carried q c sql params res db hcar with
      ⟨_, hout⟩
    have hdel := hcar.2.2.1
    have hcomplete : Complete (execute q executor c ⟨workspaceID, pgRole, sql, params, some res⟩ db)
        db rs ↔ (answered res db).columns = rs.columns ∧ (answered res db).rows = rs.rows := by
      unfold Complete
      rw [hout]
      simp
    rw [hcomplete]
    simp only [hcar, forall_const]
    unfold Delivered at hdel
    unfold answered
    by_cases hreads : (res.isSelect || res.hasReturning) = true
    · -- The loop has met every row the driver delivered, and those are all of them.
      simp only [if_pos hreads] at hdel ⊢
      rcases hdel with ⟨⟨columns, hquery⟩, herr, rows, hrows, _⟩
      simp only [hquery, hrows, Except.toOption, Option.getD_some]
      exact ⟨fun _ => .inl hreads,
        fun _ => ⟨hyields.columns columns hquery, hyields.rows rows hrows herr⟩⟩
    · simp only [if_neg hreads]
      constructor
      · rintro ⟨hcolumns, hrows⟩
        exact .inr (ResultSet.ext hcolumns.symm hrows.symm)
      · rintro (hreads' | heq)
        · exact absurd hreads' hreads
        · rw [heq]
          exact ⟨rfl, rfl⟩
  · rcases execute_of_not_carried q c sql params res db hcar with
      ⟨_, failure, hout⟩
    refine ⟨fun _ h => absurd h hcar, fun _ => .inr ⟨⟨failure, hout⟩, ?_⟩⟩
    exact execute_error_rolledBack q executor c workspaceID pgRole sql params res db hout

end

/-- A database that carries out every call and produces the result set. -/
def producing (rs : ResultSet) : DbScript :=
  { begin := none, setup := ⟨none, none, none, none, none⟩, effects := []
    query := .ok rs.columns, rows := rs.rows.map .ok, rowsErr := none, exec := .ok 0
    commit := none, durationMS := 0 }

theorem rowValues_map_ok (rows : List (List Value)) : rowValues (rows.map .ok) = some rows := by
  induction rows with
  | nil => rfl
  | cons row rows ih => simp [rowValues, ih]

theorem producing_yields (rs : ResultSet) : (producing rs).Yields rs where
  columns columns h := (Except.ok.inj h).symm
  rows rows h _ := by
    simp only [producing, rowValues_map_ok, Option.some.injEq] at h
    exact h.symm

/-- A connection of the pool on which nothing has been set. -/
def pooledConn : Conn :=
  { session := { settings := { role := "agentcoopdb_gateway", workspaceID := ""
                               searchPath := ["agentcoopdb", "public"], statementTimeout := 0
                               idleInTransactionSessionTimeout := 0, other := fun _ => "" }
                 temps := [] }
    tx := none }

/-- The rows of `SELECT 1` are in its response. -/
theorem select_answered_whole :
    ∃ res, validate (parsesTo (.stmt (.select 0) [] [])).query ⟨262144, 1000⟩ "SELECT 1" [] =
      .ok res ∧
      Complete (execute (parsesTo (.stmt (.select 0) [] [])).query ⟨5000000000, 5000000000, 0⟩
        pooledConn ⟨"5f0c2a1e-0000-4000-8000-000000000001", "dbuser", "SELECT 1", [], some res⟩
        (producing ⟨["?column?"], [[.number "1"]]⟩)) (producing ⟨["?column?"], [[.number "1"]]⟩)
        ⟨["?column?"], [[.number "1"]]⟩ := by
  refine ⟨_, rfl, ?_⟩
  exact (complete_iff_reads (parsesTo (.stmt (.select 0) [] [])).query ⟨262144, 1000⟩ _ _ _ _
    "SELECT 1" [] _ _ _ rfl (producing_yields _)).mpr (fun _ => .inl (.inl rfl))

/-- `EXPLAIN SELECT 1`, as the parser sees it. -/
def explainSelect : Tree :=
  .stmt (.utility ⟨.explainStmt, rfl⟩) [] [.stmt (.select 0) [] []]

/-- The plan of a select. -/
def explainedPlan : ResultSet :=
  { columns := ["QUERY PLAN"], rows := [[.string "Result  (cost=0.00..0.01 rows=1 width=4)"]] }

/-- `EXPLAIN SELECT 1` is accepted and carried out, and its plan is not in the
    response. -/
theorem explain_answered_empty :
    ∃ res, validate (parsesTo explainSelect).query ⟨262144, 1000⟩ "EXPLAIN SELECT 1" [] = .ok res ∧
      (producing explainedPlan).Yields explainedPlan ∧
      ¬ Complete (execute (parsesTo explainSelect).query ⟨5000000000, 5000000000, 0⟩ pooledConn
        ⟨"5f0c2a1e-0000-4000-8000-000000000001", "dbuser", "EXPLAIN SELECT 1", [], some res⟩
        (producing explainedPlan)) (producing explainedPlan) explainedPlan := by
  refine ⟨_, rfl, producing_yields explainedPlan, ?_⟩
  rintro (⟨response, hout, hcolumns, _⟩ | ⟨_, hback, _⟩)
  · have hempty : ([] : List String) = response.columns :=
      congrArg Response.columns (Except.ok.inj hout)
    rw [← hempty] at hcolumns
    exact absurd hcolumns (by decide)
  · exact absurd hback (by decide)

end CoopDB
