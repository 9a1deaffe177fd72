import CoopDB.Core.Audit
import CoopDB.Theory.Keys.Operations

/-!
# Which Requests Are Audited

Every authenticated request is meant to leave one row in the audit log. The
handlers call `audit` at some of their exits, and whoever returns at another
exit leaves no row: the limiter, a body that cannot be read or decoded, an
idempotency key that is answered with a stored response, a conflict or an error,
and the three routes that never call it.

## Main definitions

* `AuditedOnce`: There is one entry, and it is the caller's.
* `SqlRequest.Audited`, `RpcRequest.Audited`, `ApiRequest.Audited`: The requests
  that get as far as a call of `audit`.

## Theorems

* `handleSQL_reply`: Auditing does not change the reply.
* `handleSQL_audited_iff`, `handleRPCCall_audited_iff`: The two handlers.
* `audited_once_iff`: A request of any route is audited once exactly if it gets as far
  as a call of `audit`.
* `rotation_unaudited`: A rotation leaves no row.
-/

namespace CoopDB

/-- There is exactly one entry, with the caller's workspace and key. -/
def AuditedOnce (ws : WorkspaceContext) (entries : List AuditEntry) : Prop :=
  ∃ e, entries = [e] ∧ e.workspaceID = ws.workspaceID ∧ e.keyDBID = ws.keyDBID

/-- No entry is not one entry. -/
theorem not_auditedOnce_nil (ws : WorkspaceContext) : ¬ AuditedOnce ws [] := by
  rintro ⟨e, hnil, _⟩
  exact absurd hnil (List.cons_ne_nil e []).symm

/-- The entry of one call of `audit` is the caller's. -/
theorem auditedOnce_audit (info : RequestInfo) (ws : WorkspaceContext)
    (endpoint command sql : String) (params : List Json.Value) (status : Int)
    (err : Option Failure) :
    AuditedOnce ws [audit info ws endpoint command sql params status err] :=
  ⟨_, rfl, rfl, rfl⟩

section Sql

variable (q : PgQuery) (validator : ValidatorConfig) (executor : ExecutorConfig)
  (maxResponseBodyBytes : Int) (c : Conn) (info : RequestInfo) (ws : WorkspaceContext)

/-- The tail with its entries answers what the tail without them answers, and it
    writes one entry, whatever becomes of the execution. -/
theorem executeSQL_audited (req : SqlExecuteRequest) (res : Result) (db : DbScript) :
    (executeSQL q executor maxResponseBodyBytes c info ws req res db).reply.http =
        (finishSQL maxResponseBodyBytes (execute q executor c
          { workspaceID := ws.workspaceID, pgRole := ws.pgRole, sql := req.sql, params := req.params
            result := some res } db).outcome).1 ∧
      AuditedOnce ws (executeSQL q executor maxResponseBodyBytes c info ws req res db).entries := by
  unfold executeSQL finishSQL
  cases (execute q executor c
    { workspaceID := ws.workspaceID, pgRole := ws.pgRole, sql := req.sql, params := req.params
      result := some res } db).outcome with
  | error => exact ⟨rfl, auditedOnce_audit info ws _ _ _ _ _ _⟩
  | ok response =>
    by_cases hlarge : maxResponseBodyBytes > 0 ∧
        ((responseBody response).length : Int) > maxResponseBodyBytes
    · simp only [if_pos hlarge, ApiReply.http, true_and]
      exact auditedOnce_audit info ws _ _ _ _ _ _
    · simp only [if_neg hlarge, ApiReply.http, true_and]
      exact auditedOnce_audit info ws _ _ _ _ _ _

/-- The handler with its entries answers what the handler without them
    answers. -/
theorem handleSQL_reply (r : SqlRequest) :
    (handleSQL q validator executor maxResponseBodyBytes c info ws r).reply.http =
      (handleSQLExecute q validator executor maxResponseBodyBytes c
        { r with workspaceID := ws.workspaceID, pgRole := ws.pgRole }).reply := by
  unfold handleSQL handleSQLExecute
  cases r.readBody with
  | error => rfl
  | ok =>
    cases r.decoded with
    | error => rfl
    | ok req =>
      simp only []
      cases validate q validator req.sql req.params with
      | error => rfl
      | ok res =>
        have hrun := executeSQL_audited q executor maxResponseBodyBytes c info ws req res r.db
        simp only []
        by_cases hkey : r.idemKey = ""
        · simp only [if_pos hkey]
          exact hrun.1
        · simp only [if_neg hkey]
          cases r.begun with
          | error e => cases e with
            | _ => rfl
          | ok ir =>
            cases hreplay : ir.replay with
            | true => simp only [hreplay, if_true, ApiReply.http]
            | false =>
              simp only [hreplay, Bool.false_eq_true, if_false]
              exact hrun.1

/-- The body is read and decoded, and a statement that passes validation is not
    held up by the idempotency layer. -/
def SqlRequest.Audited (r : SqlRequest) : Prop :=
  r.readBody = .ok () ∧ ∃ req, r.decoded = .ok req ∧
    ∀ res, validate q validator req.sql req.params = .ok res →
      r.idemKey = "" ∨ ∃ ir, r.begun = .ok ir ∧ ir.replay = false

/-- The SQL handler writes one entry, the caller's, exactly for those
    requests. -/
theorem handleSQL_audited_iff (r : SqlRequest) :
    AuditedOnce ws (handleSQL q validator executor maxResponseBodyBytes c info ws r).entries ↔
      r.Audited q validator := by
  unfold handleSQL SqlRequest.Audited
  cases r.readBody with
  | error => simp [not_auditedOnce_nil]
  | ok =>
    cases r.decoded with
    | error => simp [not_auditedOnce_nil]
    | ok req =>
      simp only [Except.ok.injEq, true_and, exists_eq_left']
      cases validate q validator req.sql req.params with
      | error =>
        simp only [reduceCtorEq, false_implies, implies_true, iff_true]
        exact auditedOnce_audit info ws _ _ _ _ _ _
      | ok res =>
        have hone := (executeSQL_audited q executor maxResponseBodyBytes c info ws req res r.db).2
        simp only [Except.ok.injEq, forall_eq']
        by_cases hkey : r.idemKey = ""
        · simp only [hkey, if_true, true_or, iff_true]
          exact hone
        · simp only [hkey, if_false, false_or]
          cases r.begun with
          | error e => cases e with
            | _ => simp [not_auditedOnce_nil]
          | ok ir =>
            simp only [Except.ok.injEq, exists_eq_left']
            cases hreplay : ir.replay with
            | true => simp [not_auditedOnce_nil]
            | false =>
              simp only [Bool.false_eq_true, if_false, iff_true]
              exact hone

end Sql

section Rpc

variable (registry : Registry) (statementTimeout idleInTxTimeout : Time) (c : Conn)
  (info : RequestInfo) (ws : WorkspaceContext)

/-- The call gets as far as the idempotency layer and is answered from it. -/
def RpcRequest.Replayed (r : RpcRequest) (req : RpcCallRequest) : Prop :=
  ∃ proc ir, registry req.procedure = some proc ∧
    (proc.requiredRole = "" ∨ proc.requiredRole = ws.pgRole) ∧ proc.schema req.args = .ok () ∧
    r.idemKey ≠ "" ∧ r.begun = .ok ir ∧ ir.replay = true

/-- The body is read and decoded, and the call is not answered with a stored
    response. -/
def RpcRequest.Audited (r : RpcRequest) : Prop :=
  r.readBody = .ok () ∧ ∃ req, r.decoded = .ok req ∧ ¬ r.Replayed registry ws req

/-- What `run` returns is no replay. -/
theorem dispatch_replay {proc : Procedure} {input : RpcCall} {res : CallResult}
    (h : (Dispatcher.dispatch c proc input).outcome = .ok res) : res.replay = false := by
  simp only [Dispatcher.dispatch] at h
  split at h
  · cases h
  · rw [Except.ok.injEq] at h
    rw [← h]

/-- `Call` answers with a stored response exactly for a call that gets as far as
    the idempotency layer and is answered from it. -/
theorem call_replay_iff (input : RpcCall) :
    (∃ res, (Dispatcher.call registry c input).outcome = .ok res ∧ res.replay = true) ↔
      ∃ proc ir, registry input.name = some proc ∧
        (proc.requiredRole = "" ∨ proc.requiredRole = input.pgRole) ∧
        proc.schema input.args = .ok () ∧ input.idempotencyKey ≠ "" ∧ input.begun = .ok ir ∧
        ir.replay = true := by
  -- What is dispatched is no replay, so only a stored reply can be one.
  have hdispatch : ∀ proc, ¬ ∃ res, (Dispatcher.dispatch c proc input).outcome = .ok res ∧
      res.replay = true := by
    rintro proc ⟨res, hres, hreplay⟩
    rw [dispatch_replay c hres] at hreplay
    exact absurd hreplay Bool.false_ne_true
  unfold Dispatcher.call
  cases registry input.name with
  | none => simp
  | some proc =>
    simp only [Option.some.injEq, exists_and_left, exists_eq_left']
    by_cases hrole : proc.requiredRole ≠ "" ∧ proc.requiredRole ≠ input.pgRole
    · have hnot : ¬ (proc.requiredRole = "" ∨ proc.requiredRole = input.pgRole) :=
        not_or.mpr hrole
      simp [if_pos hrole, hnot]
    · have hpermitted : proc.requiredRole = "" ∨ proc.requiredRole = input.pgRole := by
        by_contra hnot
        exact hrole (not_or.mp hnot)
      simp only [if_neg hrole, hpermitted, true_and]
      cases proc.schema input.args with
      | error => simp
      | ok =>
        simp only [true_and]
        by_cases hkey : input.idempotencyKey = ""
        · simp only [hkey, if_true, ne_eq, not_true_eq_false, false_and, iff_false]
          exact hdispatch proc
        · simp only [hkey, if_false, ne_eq, not_false_eq_true, true_and]
          cases input.begun with
          | error => simp
          | ok ir =>
            simp only [Except.ok.injEq, exists_eq_left']
            cases hreplay : ir.replay with
            | true => simp
            | false =>
              simp only [Bool.false_eq_true, if_false, iff_false]
              exact hdispatch proc

/-- The RPC handler writes one entry, the caller's, exactly for those
    requests. -/
theorem handleRPCCall_audited_iff (r : RpcRequest) :
    AuditedOnce ws
        (handleRPCCall registry statementTimeout idleInTxTimeout c info ws r).entries ↔
      r.Audited registry ws := by
  unfold handleRPCCall RpcRequest.Audited
  cases r.readBody with
  | error => simp [not_auditedOnce_nil]
  | ok =>
    cases r.decoded with
    | error => simp [not_auditedOnce_nil]
    | ok req =>
      simp only [Except.ok.injEq, true_and, exists_eq_left']
      have hiff := call_replay_iff registry c (r.call ws req statementTimeout idleInTxTimeout)
      have hreplayed : r.Replayed registry ws req ↔ ∃ res, (Dispatcher.call registry c
          (r.call ws req statementTimeout idleInTxTimeout)).outcome = .ok res ∧
          res.replay = true := hiff.symm
      rw [hreplayed]
      cases (Dispatcher.call registry c
          (r.call ws req statementTimeout idleInTxTimeout)).outcome with
      | error =>
        simp only [reduceCtorEq, false_and, exists_false, not_false_eq_true, iff_true]
        exact auditedOnce_audit info ws _ _ _ _ _ _
      | ok res =>
        simp only [Except.ok.injEq, exists_eq_left']
        cases hreplay : res.replay with
        | true => simp [not_auditedOnce_nil]
        | false =>
          simp only [Bool.false_eq_true, if_false, not_false_eq_true, iff_true]
          exact auditedOnce_audit info ws _ _ _ _ _ _

end Rpc

/-- The requests that get as far as a call of `audit`, once the limiter has
    admitted them. -/
def ApiRequest.Audited (a : Api) (ws : WorkspaceContext) : ApiRequest → Prop
  | .sqlExecute r => r.Audited a.q a.validator
  | .rpcCall r => r.Audited a.registry ws
  | _ => False

/-- For every authenticated request to one of the five routes: exactly one
    entry is written, with the caller's workspace and key, exactly when the
    limiter admits the request, it is one of the two routes that run statements,
    its body is read and decoded, and it is not held up by the idempotency
    layer. -/
theorem audited_once_iff (a : Api) (keys : Keys) (c : Conn) (info : RequestInfo)
    (ws : WorkspaceContext) (admitted : Bool) (r : ApiRequest) :
    AuditedOnce ws (serveRoute a keys c info ws admitted r).entries ↔
      admitted = true ∧ r.Audited a ws := by
  unfold serveRoute
  cases admitted with
  | false => simp [not_auditedOnce_nil]
  | true =>
    simp only [Bool.not_true, Bool.false_eq_true, if_false, true_and]
    cases r with
    | sqlExecute r =>
      exact handleSQL_audited_iff a.q a.validator a.executor a.maxResponseBodyBytes c info ws r
    | rpcCall r =>
      exact handleRPCCall_audited_iff a.registry a.statementTimeout a.idleInTxTimeout c info ws r
    | rotateKey now mint db =>
      simp only [ApiRequest.Audited, iff_false]
      cases handleKeyRotate a.x ws a.keyRotateOverlap now mint db keys with
      | error | ok => exact not_auditedOnce_nil ws
    | createKey body mint db =>
      simp only [ApiRequest.Audited, iff_false]
      cases handleKeyCreate a.x a.roles ws body mint db keys with
      | error | ok => exact not_auditedOnce_nil ws
    | me => exact iff_of_false (not_auditedOnce_nil ws) not_false

/-- A server with no procedures and no limits, on the migrated roles. -/
def bareApi : Api :=
  { x := letterExternals, roles := migratedRoles
    q := { parse := fun _ => .ok [none], scan := fun _ => .ok [] }
    validator := ⟨262144, 1000⟩, executor := ⟨5000000000, 5000000000, 0⟩, registry := fun _ => none
    maxResponseBodyBytes := 0, statementTimeout := 5000000000, idleInTxTimeout := 5000000000
    keyRotateOverlap := 86400000000000, server := "\x7b\x7d" }

/-- A connection as the pool opens it. -/
def openedConn : Conn :=
  ⟨⟨⟨"agentcoopdb_gateway", "", ["agentcoopdb", "public"], 0, 0, fun _ => ""⟩, []⟩, none⟩

/-- The caller with the `dbadmin` key. -/
def adminContext : WorkspaceContext :=
  { workspaceID := "aaa", keyID := "key", keyDBID := "aa", pgRole := "dbadmin", env := .dev }

/-- A key is rotated: the new one is issued, the old one gets an expiry, and the
    audit log has no row of it. -/
theorem rotation_unaudited :
    (serveRoute bareApi adminKeys openedConn ⟨"req", "127.0.0.1", 1⟩ adminContext true
      (.rotateKey 0
        (.ok { id := 3, keyID := "new", fullToken := "token", secretHash := "hash" })
        { begin := none, select := none, insert := none, update := none,
          commit := none })).reply.status
      = 200 ∧
    (serveRoute bareApi adminKeys openedConn ⟨"req", "127.0.0.1", 1⟩ adminContext true
      (.rotateKey 0
        (.ok { id := 3, keyID := "new", fullToken := "token", secretHash := "hash" })
        { begin := none, select := none, insert := none, update := none, commit := none })).entries
      = [] :=
  ⟨rfl, rfl⟩

end CoopDB
