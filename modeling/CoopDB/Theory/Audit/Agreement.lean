import CoopDB.Theory.Audit.Coverage
import CoopDB.Theory.Rpc
import CoopDB.Theory.Tenant

/-!
# The Audit Entry and the Reply

An entry has the status of the reply and, for an error, the title and the
SQLSTATE of the problem document. The SQL handler makes both from one error with
one function. The RPC handler writes 500 into every entry of a failed call, and
makes its error code with `MapError`, which does not know the three errors the
handler has documents of its own for.

Which calls go wrong is said in terms of the request and of the database: its first
error decides, unless the tenant setup or the arguments end the call before it.

## Main definitions

* `Agrees`: The entries say what the client was told.
* `Reported`: A database error that has a status other than 500.
* `RunReports`: A transaction that ends with one.
* `RpcRequest.CallReports`, `RpcRequest.Misreported`: The requests whose entry is wrong.

## Theorems

* `handleSQL_agrees`: The entry of a statement always agrees with its reply.
* `setup_reports_iff`, `run_reports_iff`: When a transaction ends with a reported error.
* `audit_agrees_iff`: The entry of a call agrees unless the call is misreported.
* `unknown_procedure_audited_as_internal`: A call that is answered 404 and audited 500.
-/

namespace CoopDB

/-- The status of every entry is the one that was sent, and where a problem
    document was sent, the error code and the SQLSTATE are its title and its
    sqlstate. -/
def Agrees (h : Handled) : Prop :=
  ∀ e ∈ h.entries, e.statusCode = h.reply.status ∧
    ∀ p, h.reply = .problem p → e.errorCode = p.title ∧ e.sqlState = p.sqlState

theorem agrees_of_no_entries (reply : ApiReply) : Agrees { reply := reply, entries := [] } :=
  fun _ he => absurd he List.not_mem_nil

section Entry

variable (info : RequestInfo) (ws : WorkspaceContext) (endpoint command sql : String)
  (params : List Json.Value) (status : Int)

/-- The entry of an error agrees with a problem document of the same status,
    title and sqlstate. -/
theorem agrees_problem_iff (p : Problem) (err : Failure) :
    Agrees { reply := .problem p
             entries := [audit info ws endpoint command sql params status (some err)] } ↔
      status = p.status ∧ (mapError (some err)).title = p.title ∧
        (mapError (some err)).sqlState = p.sqlState := by
  simp [Agrees, audit, ApiReply.status, ApiReply.problem.injEq]

/-- The entry of a success agrees with a document of the same status. -/
theorem agrees_document (replayed : Bool) (body : Bytes) :
    Agrees { reply := .document status replayed body
             entries := [audit info ws endpoint command sql params status none] } := by
  intro e he
  rw [List.mem_singleton.mp he]
  refine ⟨rfl, fun p hp => ?_⟩
  cases hp

end Entry

/-- The validator only returns validation errors. -/
theorem validate_error {q : PgQuery} {cfg : ValidatorConfig} {sqlText : String}
    {params : List Json.Value} {e : Failure} (h : validate q cfg sqlText params = .error e) :
    ∃ code message, e = .validation code message := by
  unfold validate at h
  repeat' split at h
  all_goals first
    | (rw [Except.error.injEq] at h; exact ⟨_, _, h.symm⟩)
    | cases h

section Sql

variable (q : PgQuery) (validator : ValidatorConfig) (executor : ExecutorConfig)
  (maxResponseBodyBytes : Int) (c : Conn) (info : RequestInfo) (ws : WorkspaceContext)

theorem executeSQL_agrees (req : SqlExecuteRequest) (res : Result) (db : DbScript) :
    Agrees (executeSQL q executor maxResponseBodyBytes c info ws req res db) := by
  unfold executeSQL
  cases (execute q executor c
    { workspaceID := ws.workspaceID, pgRole := ws.pgRole, sql := req.sql, params := req.params
      result := some res } db).outcome with
  | error e => exact (agrees_problem_iff info ws _ _ _ _ _ _ e).mpr ⟨rfl, rfl, rfl⟩
  | ok response =>
    by_cases hlarge : maxResponseBodyBytes > 0 ∧
        ((responseBody response).length : Int) > maxResponseBodyBytes
    · -- The document of the second size check has the title of the first one's error.
      simp only [if_pos hlarge]
      exact (agrees_problem_iff info ws _ _ _ _ _ _ .responseTooLarge).mpr ⟨rfl, rfl, rfl⟩
    · simp only [if_neg hlarge]
      exact agrees_document info ws _ _ _ _ _ _ _

/-- The entries of the SQL handler say what the client was told. -/
theorem handleSQL_agrees (r : SqlRequest) :
    Agrees (handleSQL q validator executor maxResponseBodyBytes c info ws r) := by
  unfold handleSQL
  cases r.readBody with
  | error => exact agrees_of_no_entries _
  | ok =>
    cases r.decoded with
    | error => exact agrees_of_no_entries _
    | ok req =>
      simp only []
      cases hvalid : validate q validator req.sql req.params with
      | error e =>
        -- The literal 400 is the status of every validation error.
        rcases validate_error hvalid with ⟨code, message, rfl⟩
        exact (agrees_problem_iff info ws _ _ _ _ _ _ _).mpr ⟨rfl, rfl, rfl⟩
      | ok res =>
        have hrun := executeSQL_agrees q executor maxResponseBodyBytes c info ws req res r.db
        by_cases hkey : r.idemKey = ""
        · simp only [if_pos hkey]
          exact hrun
        · simp only [if_neg hkey]
          cases r.begun with
          | error e => cases e with
            | _ => exact agrees_of_no_entries _
          | ok ir =>
            cases hreplay : ir.replay with
            | true =>
              simp only [hreplay, if_true]
              exact agrees_of_no_entries _
            | false =>
              simp only [hreplay, Bool.false_eq_true, if_false]
              exact hrun

end Sql

/-- An error of the database that is reported with a status other than 500. -/
def Reported (e : DbError) : Prop :=
  ∃ pg, e = .pg pg ∧ (mapPgCode pg.code).1 ≠ 500

/-- `MapError` sees a Postgres error through the context it was wrapped in. -/
theorem reported_wrap_iff (e : DbError) (context : String) :
    (mapError (some (e.wrap context))).status ≠ 500 ↔ Reported e := by
  cases e with
  | pg pg => simp [DbError.wrap, mapError, mapPgError, Reported, DbError.pg.injEq]
  | other => simp [DbError.wrap, mapError, Reported]

theorem reported_classify_iff (e : DbError) :
    (mapError (some (classifyPgErr e))).status ≠ 500 ↔ Reported e := by
  cases e with
  | pg pg => simp [classifyPgErr, mapError, mapPgError, Reported, DbError.pg.injEq]
  | other => simp [classifyPgErr, mapError, Reported]

/-- The first error among the answers to `Setup`. The last two statements are
    only sent for a safe role. -/
def SetupReplies.firstError (db : SetupReplies) (pgRole : String) : Option DbError :=
  db.statementTimeout.or (db.idleInTransactionSessionTimeout.or (db.workspaceID.or
    (if isSafeRoleName pgRole then db.role.or db.searchPath else none)))

/-- `Setup` fails with an error that is reported exactly when it is called for a
    workspace and a role and the first error it gets is one. -/
theorem setup_reports_iff (workspaceID pgRole : String) (stmtTimeout idleTimeout : Time)
    (db : SetupReplies) (t : Tx) :
    (∃ e, setup workspaceID pgRole stmtTimeout idleTimeout db t = .error e ∧
      (mapError (some e)).status ≠ 500) ↔
    workspaceID ≠ "" ∧ pgRole ≠ "" ∧ ∃ e, db.firstError pgRole = some e ∧ Reported e := by
  unfold setup SetupReplies.firstError
  by_cases hws : workspaceID = ""
  · simp [hws, mapError]
  · by_cases hrole : pgRole = ""
    · simp [hws, hrole, mapError]
    · simp only [hws, hrole, if_false, ne_eq, not_false_eq_true, true_and]
      -- The statements in their order, each of them answered with an error or not.
      have hwrap : ∀ e context, (¬ (mapError (some (DbError.wrap context e))).status = 500) ↔
          Reported e := fun e context => reported_wrap_iff e context
      cases db.statementTimeout with
      | some => simp [hwrap]
      | none =>
        cases db.idleInTransactionSessionTimeout with
        | some => simp [hwrap]
        | none =>
          cases db.workspaceID with
          | some => simp [hwrap]
          | none =>
            cases isSafeRoleName pgRole with
            | false => simp [mapError]
            | true =>
              cases db.role with
              | some => simp [hwrap]
              | none =>
                cases db.searchPath with
                | some => simp [hwrap]
                | none => simp

section Run

variable (c : Conn) (body : String)

/-- The transaction of a call ends with an error of the database that is
    reported with a status other than 500. -/
def RunReports (input : CallInput) (db : RunScript) : Prop :=
  (∃ e, db.begin = some e ∧ Reported e) ∨
  (db.begin = none ∧ input.workspaceID ≠ "" ∧ input.pgRole ≠ "" ∧
    ∃ e, db.setup.firstError input.pgRole = some e ∧ Reported e) ∨
  (db.begin = none ∧
    (input.workspaceID ≠ "" ∧ isSafeRoleName input.pgRole = true ∧ db.setup.Accepted) ∧
    (∃ text, (Json.Value.object input.args).marshal = some text) ∧
    ((∃ e, db.row = .error e ∧ Reported e) ∨
      ∃ raw e, db.row = .ok raw ∧ db.commit = some e ∧ Reported e))

/-- `run` fails with such an error exactly then. -/
theorem run_reports_iff (input : CallInput) (db : RunScript) :
    (∃ e, (Dispatcher.run c body input db).2.outcome = .error e ∧
      (mapError (some e)).status ≠ 500) ↔ RunReports input db := by
  have hsetup := setup_reports_iff input.workspaceID input.pgRole input.statementTimeout
    input.idleInTxTimeout db.setup (Tx.start c.session)
  have hready : RunGoes input db → _ := fun hgoes =>
    (setup_eq_ok input.workspaceID input.pgRole input.statementTimeout input.idleInTxTimeout
      db.setup (Tx.start c.session) _).mpr ⟨hgoes.setup, rfl⟩
  unfold RunReports
  cases run_end c body input db with
  | refused e hbegin houtcome => simp [houtcome, reported_classify_iff, hbegin]
  | withdrawn e hbegin hfails houtcome _ =>
    simp [houtcome, hbegin, ← hsetup, hfails, not_accepted_of_setup hfails]
  | unencoded hargs t ht hbegin houtcome => simp [houtcome, mapError, hbegin, ← hsetup, ht, hargs]
  | failed e hgoes hrow houtcome =>
    simp only [houtcome, Except.error.injEq, exists_eq_left', reported_classify_iff,
      hgoes.begin, reduceCtorEq, false_and, exists_false, false_or, true_and, ← hsetup,
      hready hgoes, eq_true hgoes.setup, eq_true hgoes.args, hrow, or_false]
  | uncommitted raw e hgoes hrow hcommit houtcome =>
    simp only [houtcome, Except.error.injEq, exists_eq_left', reported_classify_iff,
      hgoes.begin, reduceCtorEq, false_and, exists_false, false_or, true_and, ← hsetup,
      hready hgoes, eq_true hgoes.setup, eq_true hgoes.args, hrow, Except.ok.injEq, hcommit,
      Option.some.injEq, exists_and_left]
  | committed raw hgoes hrow hcommit houtcome =>
    simp [houtcome, hgoes.begin, ← hsetup, hready hgoes, hrow, hcommit]

end Run

section Rpc

variable (registry : Registry) (statementTimeout idleInTxTimeout : Time) (c : Conn)
  (info : RequestInfo) (ws : WorkspaceContext)

/-- What `run` is called with for the request. -/
def RpcRequest.input (req : RpcCallRequest) : CallInput :=
  { workspaceID := ws.workspaceID, pgRole := ws.pgRole, args := req.args
    statementTimeout := statementTimeout, idleInTxTimeout := idleInTxTimeout }

/-- The call fails with an error that has a status other than 500: the procedure
    is not known, the key has not the role for it, the idempotency key was used
    for another request, or Postgres has answered `BeginOrReplay` or the
    transaction with such an error. -/
def RpcRequest.CallReports (r : RpcRequest) (req : RpcCallRequest) : Prop :=
  registry req.procedure = none ∨
  ∃ proc, registry req.procedure = some proc ∧
    ((proc.requiredRole ≠ "" ∧ proc.requiredRole ≠ ws.pgRole) ∨
    (¬ (proc.requiredRole ≠ "" ∧ proc.requiredRole ≠ ws.pgRole) ∧ proc.schema req.args = .ok () ∧
      ((r.idemKey ≠ "" ∧ (r.begun = .error (.store .conflict) ∨
          ∃ pg, r.begun = .error (.pg pg) ∧ (mapPgCode pg.code).1 ≠ 500)) ∨
        ((r.idemKey = "" ∨ ∃ ir, r.begun = .ok ir ∧ ir.replay = false) ∧
          RunReports (RpcRequest.input statementTimeout idleInTxTimeout ws req) r.db))))

/-- The requests whose entry is wrong. -/
def RpcRequest.Misreported (r : RpcRequest) : Prop :=
  r.readBody = .ok () ∧ ∃ req, r.decoded = .ok req ∧
    r.CallReports registry statementTimeout idleInTxTimeout ws req

/-- The entry of an error is right exactly when `MapError` answers it with 500
    and the handler has no document of its own for it. -/
theorem callError_agrees_iff (e : CallError) (procedure : String) (params : List Json.Value) :
    Agrees { reply := .problem e.problem
             entries := [audit info ws "POST /v1/rpc/call" "RPC" procedure params 500
               (some e.failure)] } ↔
      e.problem.status = 500 := by
  rw [agrees_problem_iff]
  constructor
  · rintro ⟨hstatus, _⟩
    exact hstatus.symm
  · intro hstatus
    -- The documents of the handler's own have other statuses.
    cases e with
    | unknownProcedure => exact absurd hstatus (by decide)
    | roleNotPermitted =>
      simp only [CallError.problem] at hstatus
      exact absurd hstatus (by decide)
    | schema => exact ⟨rfl, rfl, rfl⟩
    | begin e =>
      cases e with
      | pg => exact ⟨hstatus.symm, rfl, rfl⟩
      | store e =>
        cases e with
        | conflict => exact absurd hstatus (by decide)
        | _ => exact ⟨rfl, rfl, rfl⟩
    | run => exact ⟨hstatus.symm, rfl, rfl⟩

/-- The statuses other than 500, error by error. -/
theorem begin_status_iff (e : BeginFailure) :
    ¬ (CallError.begin e).problem.status = 500 ↔
      e = .store .conflict ∨ ∃ pg, e = .pg pg ∧ (mapPgCode pg.code).1 ≠ 500 := by
  cases e with
  | pg pg => simp only [CallError.problem, CallError.failure, mapError, mapPgError, reduceCtorEq,
      false_or, BeginFailure.pg.injEq, exists_eq_left', ne_eq]
  | store e =>
    cases e with
    | conflict => refine iff_of_true (by decide) (.inl rfl)
    | _ => simp [CallError.problem, CallError.failure, mapError, BeginFailure.store.injEq]

/-- A call that comes to its transaction fails with an error that has a status
    other than 500 exactly if the transaction does. -/
theorem dispatch_reports_iff (r : RpcRequest) (req : RpcCallRequest) (proc : Procedure) :
    (∃ e, (Dispatcher.dispatch c proc (r.call ws req statementTimeout idleInTxTimeout)).outcome
        = .error e ∧ ¬ e.problem.status = 500) ↔
      RunReports (RpcRequest.input statementTimeout idleInTxTimeout ws req) r.db := by
  rw [← run_reports_iff c proc.body]
  simp only [Dispatcher.dispatch, RpcRequest.call, RpcRequest.input]
  cases (Dispatcher.run c proc.body
      { workspaceID := ws.workspaceID, pgRole := ws.pgRole, args := req.args
        statementTimeout := statementTimeout, idleInTxTimeout := idleInTxTimeout }
      r.db).2.outcome with
  | error e => simp [CallError.problem, CallError.failure]
  | ok result => simp

/-- `Call` fails with an error that has a status other than 500 exactly then. -/
theorem call_reports_iff (r : RpcRequest) (req : RpcCallRequest) :
    (∃ e, (Dispatcher.call registry c (r.call ws req statementTimeout idleInTxTimeout)).outcome
        = .error e ∧ ¬ e.problem.status = 500) ↔
      r.CallReports registry statementTimeout idleInTxTimeout ws req := by
  have hrun := dispatch_reports_iff statementTimeout idleInTxTimeout c ws r req
  unfold Dispatcher.call RpcRequest.CallReports
  -- Down the branches of `call`: whichever refuses first gives the status.
  have hname : (r.call ws req statementTimeout idleInTxTimeout).name = req.procedure := rfl
  rw [hname]
  cases registry req.procedure with
  | none =>
    refine iff_of_true ⟨_, rfl, ?_⟩ (.inl rfl)
    decide
  | some proc =>
    simp only [reduceCtorEq, false_or, Option.some.injEq, exists_eq_left']
    have hrole' : (r.call ws req statementTimeout idleInTxTimeout).pgRole = ws.pgRole := rfl
    have hargs : (r.call ws req statementTimeout idleInTxTimeout).args = req.args := rfl
    have hkey' : (r.call ws req statementTimeout idleInTxTimeout).idempotencyKey = r.idemKey := rfl
    have hbegun : (r.call ws req statementTimeout idleInTxTimeout).begun = r.begun := rfl
    rw [hrole', hargs, hkey', hbegun]
    by_cases hrole : proc.requiredRole ≠ "" ∧ proc.requiredRole ≠ ws.pgRole
    · rw [if_pos hrole]
      refine iff_of_true ⟨_, rfl, ?_⟩ (.inl hrole)
      simp only [CallError.problem]
      decide
    · rw [if_neg hrole, or_iff_right hrole, and_iff_right hrole]
      cases proc.schema req.args with
      | error => simp [CallError.problem, CallError.failure, mapError]
      | ok =>
        simp only [true_and]
        by_cases hkey : r.idemKey = ""
        · simp only [hkey, if_true, ne_eq, not_true_eq_false, false_and, false_or, true_or,
            true_and]
          exact hrun proc
        · simp only [hkey, if_false, ne_eq, not_false_eq_true, true_and, false_or]
          cases r.begun with
          | error e =>
            simp only [Except.error.injEq, exists_eq_left', reduceCtorEq, false_and,
              exists_false, or_false]
            exact begin_status_iff e
          | ok ir =>
            simp only [reduceCtorEq, false_and, exists_false, or_self, false_or,
              Except.ok.injEq, exists_eq_left']
            cases hreplay : ir.replay with
            | true => simp
            | false =>
              simp only [Bool.false_eq_true, if_false, true_and]
              exact hrun proc

/-- The entry of the RPC handler says what the client was told exactly for the
    requests that are not misreported. -/
theorem handleRPCCall_agrees_iff (r : RpcRequest) :
    Agrees (handleRPCCall registry statementTimeout idleInTxTimeout c info ws r) ↔
      ¬ r.Misreported registry statementTimeout idleInTxTimeout ws := by
  unfold handleRPCCall RpcRequest.Misreported
  cases r.readBody with
  | error => simp [agrees_of_no_entries]
  | ok =>
    cases r.decoded with
    | error => simp [agrees_of_no_entries]
    | ok req =>
      simp only [true_and, Except.ok.injEq, exists_eq_left']
      rw [← call_reports_iff registry statementTimeout idleInTxTimeout c ws r req]
      cases (Dispatcher.call registry c
          (r.call ws req statementTimeout idleInTxTimeout)).outcome with
      | error e =>
        simp only [Except.error.injEq, exists_eq_left', not_not]
        exact callError_agrees_iff info ws e req.procedure [.object req.args]
      | ok res =>
        simp only [reduceCtorEq, false_and, exists_false, not_false_eq_true, iff_true]
        cases hreplay : res.replay with
        | true =>
          simp only [if_true]
          exact agrees_of_no_entries _
        | false =>
          simp only [Bool.false_eq_true, if_false]
          exact agrees_document info ws _ _ _ _ _ _ _

end Rpc

/-- For every request to either endpoint: the entry of the SQL handler says what
    the client was told, and so does that of the RPC handler exactly when the
    call does not fail with an error that is answered with a status other than
    500. -/
theorem audit_agrees_iff (a : Api) (c : Conn) (info : RequestInfo) (ws : WorkspaceContext) :
    (∀ r, Agrees (handleSQL a.q a.validator a.executor a.maxResponseBodyBytes c info ws r)) ∧
    ∀ r, Agrees (handleRPCCall a.registry a.statementTimeout a.idleInTxTimeout c info ws r) ↔
      ¬ r.Misreported a.registry a.statementTimeout a.idleInTxTimeout ws :=
  ⟨handleSQL_agrees a.q a.validator a.executor a.maxResponseBodyBytes c info ws,
    handleRPCCall_agrees_iff a.registry a.statementTimeout a.idleInTxTimeout c info ws⟩

/-- A call of a procedure that is not registered. -/
def unknownCall : RpcRequest :=
  { readBody := .ok (), decoded := .ok { procedure := "nothing", args := [] }, idemKey := ""
    begun := .ok proceed
    db := { begin := none, setup := ⟨none, none, none, none, none⟩, effects := []
            row := .ok none, commit := none }
    durationMS := 0 }

/-- The client is told 404 and `unknown_procedure`, and the entry has 500 and
    `internal`. -/
theorem unknown_procedure_audited_as_internal :
    ∃ p e, handleRPCCall bareApi.registry bareApi.statementTimeout bareApi.idleInTxTimeout
      openedConn
        ⟨"req", "127.0.0.1", 1⟩ adminContext unknownCall
        = { reply := .problem p, entries := [e] } ∧
      p.status = 404 ∧ p.title = "unknown_procedure" ∧ e.statusCode = 500 ∧
      e.errorCode = "internal" :=
  ⟨_, _, rfl, rfl, rfl, rfl, rfl⟩

end CoopDB
