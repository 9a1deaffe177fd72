import CoopDB.Core.Handlers
import CoopDB.Theory.Tenant

/-!
# What an Error Reply Says about the Transaction

When `handleSQLExecute` answers with an error, was anything committed?

`Execute` answers a success only after its commit, so on its errors nothing
was. Two size checks stand on either side of that commit. The executor adds up
its rows and gives up before committing. The handler measures the whole
document after the commit, and the document is longer than its rows: it has
the field names, the columns and the counters too. A result that passes the
first check and fails the second is reported as an error although the
transaction went through.

The condition is on what the request brings with it. In the row loop a row adds at least
one byte, so the running size stays within the limit exactly if the final size does.

## Main definitions

* `Carried`: Every call of `Execute` is answered with a success, the size check included.
* `answered`: The response the database's answers spell out.
* `Forwarded`: The request reaches `Execute`.
* `OversizedCommit`: The transaction goes through and the document is too long.

## Theorems

* `collectRows_eq_ok_iff`, `runStatement_eq_ok_iff`: When the rows and the statement
  succeed, and with what.
* `execute_of_carried`, `execute_of_not_carried`: `Execute` succeeds exactly when it
  commits.
* `error_reply_uncommitted_iff`: An error reply means nothing was committed,
  except for an oversized document.
* `oversized_insert_committed`: An insert that is committed and answered 413.
-/

namespace CoopDB

open Json (Value)

/-- A status of the 2xx class. -/
def IsSuccess (status : Int) : Prop :=
  200 ≤ status ∧ status ≤ 299

/-- The transaction `Execute` opened for the request was committed. -/
def SqlHandled.Committed (h : SqlHandled) : Prop :=
  ∃ e, h.executed = some e ∧ e.committed = true

/-- The rows of the result set, if every one of them could be read. -/
def rowValues : List (Except DbError (List Value)) → Option (List (List Value))
  | [] => some []
  | .error _ :: _ => none
  | .ok values :: rest => (rowValues rest).map (values :: ·)

theorem rowBytes_pos (row : List Value) : 0 < rowBytes row := by
  unfold rowBytes
  omega

theorem sum_rowBytes_nonneg (rows : List (List Value)) : 0 ≤ (rows.map rowBytes).sum := by
  induction rows with
  | nil => simp
  | cons row rows ih =>
    have hrow := rowBytes_pos row
    simp only [List.map_cons, List.sum_cons]
    omega

/-- One row more: it goes to the end of the rows so far, and its size to their
    size. Where there is no limit the sizes do not matter. -/
theorem rowValues_cons_within {maxBytes approxBytes bytes : Int} (acc out : List (List Value))
    {values : List Value} (rest : List (Except DbError (List Value)))
    (hbytes : 0 < maxBytes → bytes = approxBytes + rowBytes values) :
    (∃ rows, rowValues (.ok values :: rest) = some rows ∧ out = acc ++ rows ∧
        (0 < maxBytes → approxBytes + (rows.map rowBytes).sum ≤ maxBytes)) ↔
      ∃ tail, rowValues rest = some tail ∧ out = acc ++ [values] ++ tail ∧
        (0 < maxBytes → bytes + (tail.map rowBytes).sum ≤ maxBytes) := by
  simp only [rowValues, Option.map_eq_some_iff]
  constructor
  · rintro ⟨rows, ⟨tail, htail, rfl⟩, hout, hsum⟩
    refine ⟨tail, htail, ?_, fun hpos => ?_⟩
    · rw [hout, List.append_assoc, List.singleton_append]
    · have hsum := hsum hpos
      have hbytes := hbytes hpos
      simp only [List.map_cons, List.sum_cons] at hsum
      omega
  · rintro ⟨tail, htail, hout, hsum⟩
    refine ⟨values :: tail, ⟨tail, htail, rfl⟩, ?_, fun hpos => ?_⟩
    · rw [hout, List.append_assoc, List.singleton_append]
    · have hsum := hsum hpos
      have hbytes := hbytes hpos
      simp only [List.map_cons, List.sum_cons]
      omega

/-- The row loop succeeds exactly when every row can be read and their sizes
    together stay within the limit. The loop compares after every row, but a
    row only ever adds to the size, so the last comparison decides. -/
theorem collectRows_eq_ok_iff (maxBytes : Int) (replies : List (Except DbError (List Value))) :
    ∀ (approxBytes : Int) (acc out : List (List Value)), (0 < maxBytes → approxBytes ≤ maxBytes) →
      (collectRows maxBytes approxBytes acc replies = .ok out ↔
        ∃ rows, rowValues replies = some rows ∧ out = acc ++ rows ∧
          (0 < maxBytes → approxBytes + (rows.map rowBytes).sum ≤ maxBytes)) := by
  induction replies with
  | nil =>
    intro approxBytes acc out hle
    simp only [collectRows, rowValues, Except.ok.injEq]
    constructor
    · intro h
      refine ⟨[], rfl, by rw [List.append_nil, h], fun hpos => ?_⟩
      simpa only [List.map_nil, List.sum_nil, Int.add_zero] using hle hpos
    · rintro ⟨rows, hrows, hout, _⟩
      simp only [Option.some.injEq] at hrows
      rw [hout, ← hrows, List.append_nil]
  | cons reply rest ih =>
    intro approxBytes acc out hle
    cases reply with
    | error => simp [collectRows, rowValues]
    | ok values =>
      by_cases hpos : 0 < maxBytes
      · rw [rowValues_cons_within acc out rest (fun _ => rfl)]
        by_cases hbig : approxBytes + rowBytes values > maxBytes
        · -- The loop stops here, and the rows still to come add to the size.
          simp only [collectRows, gt_iff_lt, if_pos hpos, if_pos hbig, reduceCtorEq, false_iff]
          rintro ⟨tail, _, _, hsum⟩
          have htail := sum_rowBytes_nonneg tail
          have hsum := hsum hpos
          omega
        · simp only [collectRows, gt_iff_lt, if_pos hpos, if_neg hbig]
          exact ih _ _ out (fun _ => by omega)
      · -- Without a limit the loop does not count at all.
        rw [rowValues_cons_within acc out rest (fun h => absurd h hpos)]
        simp only [collectRows, gt_iff_lt, if_neg hpos]
        exact ih _ _ out hle

/-- The statement is answered with a success: its rows can all be read and fit
    the executor's limit, or it was executed without rows. -/
def Delivered (cfg : ExecutorConfig) (res : Result) (db : DbScript) : Prop :=
  if res.isSelect || res.hasReturning then
    (∃ columns, db.query = .ok columns) ∧ db.rowsErr = none ∧
      ∃ rows, rowValues db.rows = some rows ∧
        (0 < cfg.maxResponseBytes → (rows.map rowBytes).sum ≤ cfg.maxResponseBytes)
  else ∃ affected, db.exec = .ok affected

/-- The response the database's answers spell out. -/
def answered (res : Result) (db : DbScript) : Response :=
  if res.isSelect || res.hasReturning then
    { command := res.command, columns := db.query.toOption.getD [],
      rows := (rowValues db.rows).getD [],
      rowsAffected := ((rowValues db.rows).getD []).length, durationMS := db.durationMS }
  else
    { command := res.command, columns := [], rows := [],
      rowsAffected := db.exec.toOption.getD 0, durationMS := db.durationMS }

/-- The statement succeeds exactly when it is answered with a success, and the
    response is the one the answers spell out. -/
theorem runStatement_eq_ok_iff (cfg : ExecutorConfig) (res : Result) (db : DbScript)
    (response : Response) :
    runStatement cfg res db = .ok response ↔ Delivered cfg res db ∧ response = answered res db := by
  unfold runStatement Delivered answered
  by_cases hrows : (res.isSelect || res.hasReturning) = true
  · simp only [if_pos hrows]
    have hloop := collectRows_eq_ok_iff cfg.maxResponseBytes db.rows 0 []
    simp only [Int.zero_add, List.nil_append] at hloop
    cases hq : db.query with
    | error => simp
    | ok =>
      simp only [Except.ok.injEq, exists_eq', true_and, Except.toOption, Option.getD_some]
      cases hc : collectRows cfg.maxResponseBytes 0 [] db.rows with
      | error =>
        -- Rows that can all be read and fit would have passed the loop.
        simp only [reduceCtorEq, false_iff, not_and]
        rintro ⟨_, rows, hvals, hsum⟩ _
        rw [(hloop rows (fun h => Int.le_of_lt h)).mpr ⟨rows, hvals, rfl, hsum⟩] at hc
        cases hc
      | ok rows =>
        rcases (hloop rows (fun h => Int.le_of_lt h)).mp hc with ⟨vals, hvals, hout, hsum⟩
        subst hout
        rw [hvals]
        cases he : db.rowsErr with
        | some => simp
        | none =>
          simp only [Except.ok.injEq, Option.some.injEq, exists_eq_left', true_and,
            Option.getD_some]
          exact ⟨fun h => ⟨hsum, h.symm⟩, fun h => h.2.symm⟩
  · simp only [if_neg hrows]
    cases hx : db.exec with
    | error => simp
    | ok =>
      simp only [Except.ok.injEq, exists_eq', true_and, Except.toOption, Option.getD_some]
      exact eq_comm

/-- Every call `Execute` makes for the request is answered with a success. -/
def Carried (cfg : ExecutorConfig) (workspaceID pgRole : String) (res : Result) (db : DbScript) :
    Prop :=
  db.begin = none ∧ (workspaceID ≠ "" ∧ isSafeRoleName pgRole = true ∧ db.setup.Accepted) ∧
    Delivered cfg res db ∧ db.commit = none

section Execute

variable (q : PgQuery) (cfg : ExecutorConfig) (c : Conn) (workspaceID pgRole sql : String)
  (params : List Value) (res : Result) (db : DbScript)

variable {cfg workspaceID pgRole}

/-- A transaction whose every call succeeds is committed and answered. -/
theorem execute_of_carried (h : Carried cfg workspaceID pgRole res db) :
    (execute q cfg c ⟨workspaceID, pgRole, sql, params, some res⟩ db).committed = true ∧
      (execute q cfg c ⟨workspaceID, pgRole, sql, params, some res⟩ db).outcome
        = .ok (answered res db) := by
  rcases h with ⟨hbegin, hsetup, hstmt, hcommit⟩
  have ht := (setup_eq_ok workspaceID pgRole cfg.statementTimeout cfg.idleInTxTimeout db.setup
    (Tx.start c.session) _).mpr ⟨hsetup, rfl⟩
  have hrun := (runStatement_eq_ok_iff cfg res db _).mpr ⟨hstmt, rfl⟩
  simp [execute, hbegin, ht, hrun, hcommit]

/-- A transaction with a call that fails is not committed, and is answered
    with an error. -/
theorem execute_of_not_carried (h : ¬ Carried cfg workspaceID pgRole res db) :
    (execute q cfg c ⟨workspaceID, pgRole, sql, params, some res⟩ db).committed = false ∧
      ∃ e, (execute q cfg c ⟨workspaceID, pgRole, sql, params, some res⟩ db).outcome
        = .error e := by
  simp only [execute]
  cases hbegin : db.begin with
  | some => exact ⟨rfl, _, rfl⟩
  | none =>
    cases hsetup : setup workspaceID pgRole cfg.statementTimeout cfg.idleInTxTimeout db.setup
        (Tx.start c.session) with
    | error => exact ⟨rfl, _, rfl⟩
    | ok =>
      cases hrun : runStatement cfg res db with
      | error => exact ⟨rfl, _, rfl⟩
      | ok response =>
        cases hcommit : db.commit with
        | some => exact ⟨rfl, _, rfl⟩
        | none =>
          -- Every call succeeded after all.
          exact absurd ⟨hbegin, ((setup_eq_ok _ _ _ _ _ _ _).mp hsetup).1,
            ((runStatement_eq_ok_iff cfg res db response).mp hrun).1, hcommit⟩ h

end Execute

/-- The request is decoded, validated and not answered from the idempotency
    table, so it reaches `Execute`. -/
def Forwarded (q : PgQuery) (validator : ValidatorConfig) (r : SqlRequest)
    (req : SqlExecuteRequest) (res : Result) : Prop :=
  r.readBody = .ok () ∧ r.decoded = .ok req ∧ validate q validator req.sql req.params = .ok res ∧
    (r.idemKey = "" ∨ ∃ ir, r.begun = .ok ir ∧ ir.replay = false)

/-- The database carries out the whole transaction, and the document made of
    its answers is longer than the response limit. -/
def OversizedCommit (q : PgQuery) (validator : ValidatorConfig) (executor : ExecutorConfig)
    (maxResponseBodyBytes : Int) (r : SqlRequest) : Prop :=
  ∃ req res, Forwarded q validator r req res ∧
    Carried executor r.workspaceID r.pgRole res r.db ∧
    0 < maxResponseBodyBytes ∧
    maxResponseBodyBytes < (responseBody (answered res r.db)).length

section Handler

variable (q : PgQuery) (validator : ValidatorConfig) (executor : ExecutorConfig)
  (maxResponseBodyBytes : Int) (c : Conn) (r : SqlRequest)

/-- A request that reaches `Execute` is answered by the tail of the handler. -/
theorem handleSQLExecute_of_forwarded {req : SqlExecuteRequest} {res : Result}
    (h : Forwarded q validator r req res) :
    (handleSQLExecute q validator executor maxResponseBodyBytes c r).executed
        = some (execute q executor c
          ⟨r.workspaceID, r.pgRole, req.sql, req.params, some res⟩ r.db) ∧
      (handleSQLExecute q validator executor maxResponseBodyBytes c r).reply
        = (finishSQL maxResponseBodyBytes
            (execute q executor c ⟨r.workspaceID, r.pgRole, req.sql, req.params, some res⟩
              r.db).outcome).1 := by
  rcases h with ⟨hread, hdec, hval, hidem⟩
  by_cases hkey : r.idemKey = ""
  · simp [handleSQLExecute, hread, hdec, hval, if_pos hkey]
  · rcases hidem with hnone | ⟨ir, hir, hfresh⟩
    · exact absurd hnone hkey
    · simp [handleSQLExecute, hread, hdec, hval, hir, hfresh]

/-- Any other request is answered without a transaction. -/
theorem handleSQLExecute_of_not_forwarded (h : ¬ ∃ req res, Forwarded q validator r req res) :
    (handleSQLExecute q validator executor maxResponseBodyBytes c r).executed = none := by
  unfold handleSQLExecute
  cases hread : r.readBody with
  | error => rfl
  | ok =>
    cases hdec : r.decoded with
    | error => rfl
    | ok req =>
      simp only
      cases hval : validate q validator req.sql req.params with
      | error => rfl
      | ok res =>
        simp only
        by_cases hkey : r.idemKey = ""
        · exact absurd ⟨req, res, hread, hdec, hval, .inl hkey⟩ h
        · simp only [if_neg hkey]
          cases hbegun : r.begun with
          | error e => cases e <;> rfl
          | ok ir =>
            cases hreplay : ir.replay with
            | true => simp only [hreplay, if_true]
            | false => exact absurd ⟨req, res, hread, hdec, hval, .inr ⟨ir, hbegun, hreplay⟩⟩ h

/-- The tail of the handler answers a response with a success exactly when the
    document fits. -/
theorem finishSQL_ok_iff (response : Response) :
    IsSuccess (finishSQL maxResponseBodyBytes (.ok response)).1.status ↔
      ¬ (0 < maxResponseBodyBytes ∧ maxResponseBodyBytes < (responseBody response).length) := by
  simp only [finishSQL, gt_iff_lt]
  by_cases hbig : 0 < maxResponseBodyBytes ∧
      maxResponseBodyBytes < (responseBody response).length
  · rw [if_pos hbig]
    simp only [problemReply, serializedTooLarge, IsSuccess]
    omega
  · rw [if_neg hbig]
    simp only [IsSuccess]
    omega

/-- A reply other than a success means that nothing was committed, unless the
    transaction went through and its document is too long for the reply. -/
theorem error_reply_uncommitted_iff :
    (¬ IsSuccess (handleSQLExecute q validator executor maxResponseBodyBytes c r).reply.status →
      ¬ (handleSQLExecute q validator executor maxResponseBodyBytes c r).Committed) ↔
    ¬ OversizedCommit q validator executor maxResponseBodyBytes r := by
  by_cases hfwd : ∃ req res, Forwarded q validator r req res
  · rcases hfwd with ⟨req, res, hf⟩
    rcases handleSQLExecute_of_forwarded q validator executor maxResponseBodyBytes c r hf
      with ⟨hexec, hreply⟩
    -- Decoding and validation are functions, so the request is forwarded one way only.
    have huniq : ∀ req' res', Forwarded q validator r req' res' → req' = req ∧ res' = res := by
      rintro req' res' ⟨_, hdec', hval', _⟩
      rw [hf.2.1, Except.ok.injEq] at hdec'
      subst hdec'
      rw [hf.2.2.1, Except.ok.injEq] at hval'
      exact ⟨rfl, hval'.symm⟩
    -- Once the transaction is committed, only the second size check is left.
    by_cases hcar : Carried executor r.workspaceID r.pgRole res r.db
    · rcases execute_of_carried q c req.sql req.params res r.db hcar with ⟨hcom, hout⟩
      have hcommitted :
          (handleSQLExecute q validator executor maxResponseBodyBytes c r).Committed :=
        ⟨_, hexec, hcom⟩
      rw [hreply, hout]
      have hfit := finishSQL_ok_iff maxResponseBodyBytes (answered res r.db)
      constructor
      · rintro himp ⟨req', res', hf', _, hpos, hlt⟩
        rcases huniq req' res' hf' with ⟨rfl, rfl⟩
        exact himp (fun hs => hfit.mp hs ⟨hpos, hlt⟩) hcommitted
      · intro hno herr
        refine absurd (hfit.mpr (fun hbig => ?_)) herr
        exact hno ⟨req, res, hf, hcar, hbig.1, hbig.2⟩
    · have hnot := (execute_of_not_carried q c req.sql req.params res r.db hcar).1
      constructor
      · rintro _ ⟨req', res', hf', hcar', _⟩
        rcases huniq req' res' hf' with ⟨rfl, rfl⟩
        exact hcar hcar'
      · rintro _ _ ⟨e, he, hcom⟩
        rw [hexec, Option.some.injEq] at he
        rw [← he, hnot] at hcom
        exact absurd hcom (by decide)
  · have hnone := handleSQLExecute_of_not_forwarded q validator executor maxResponseBodyBytes c r
      hfwd
    constructor
    · rintro _ ⟨req, res, hf, _⟩
      exact hfwd ⟨req, res, hf⟩
    · rintro _ _ ⟨e, he, _⟩
      rw [hnone] at he
      cases he

end Handler

/-- What the parser and the scanner say of the insert below. -/
def insertReturningQuery : PgQuery :=
  { parse := fun _ => .ok [some (.insertStmt 1)]
    scan := fun _ => .ok [(0, 6), (7, 11), (12, 13), (14, 21), (22, 28), (29, 38), (39, 41)] }

/-- An insert of one row that returns its id, with a database that carries out
    every call. -/
def insertReturningRequest : SqlRequest :=
  { workspaceID := "5f0c2a1e-0000-4000-8000-000000000001", pgRole := "dbuser", readBody := .ok ()
    decoded := .ok { sql := "INSERT INTO t DEFAULT VALUES RETURNING id", params := [] }
    idemKey := "", begun := .ok proceed
    db := { begin := none, setup := ⟨none, none, none, none, none⟩, effects := []
            query := .ok ["id"], rows := [.ok [.number "1"]], rowsErr := none, exec := .ok 1
            commit := none, durationMS := 0 } }

/-- With a limit of 64 bytes the one row fits, the document does not, and the
    insert is committed and answered 413. -/
theorem oversized_insert_committed :
    ¬ (¬ IsSuccess (handleSQLExecute insertReturningQuery ⟨262144, 1000⟩
      ⟨5000000000, 5000000000, 64⟩
          64 ⟨⟨⟨"agentcoopdb_gateway", "", ["agentcoopdb", "public"], 0, 0, fun _ => ""⟩, []⟩, none⟩
          insertReturningRequest).reply.status →
        ¬ (handleSQLExecute insertReturningQuery ⟨262144, 1000⟩ ⟨5000000000, 5000000000, 64⟩
          64 ⟨⟨⟨"agentcoopdb_gateway", "", ["agentcoopdb", "public"], 0, 0, fun _ => ""⟩, []⟩, none⟩
          insertReturningRequest).Committed) := by
  intro h
  refine h ?_ ⟨_, rfl, rfl⟩
  rintro ⟨_, hle⟩
  exact absurd hle (by decide)

end CoopDB
