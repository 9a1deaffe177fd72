import CoopDB.Lib.Transition
import CoopDB.Theory.ErrorReply

/-!
# What a Pooled Connection Carries Over

A connection goes back to the pool when `Execute` returns, and the next
request that draws it finds whatever session state was left on it.

The tenant setup leaves nothing: its five statements are transaction-local,
and a transaction-local setting never reaches the session, whichever way the
transaction ends. The caller's own statement is another matter. A plain `SET`,
a `set_config(..., false)` or a temporary table in a transaction that commits
outlives it, and the validator has no objection to any of them.

## Main definitions

* `lastingSettings`, `lastingTemps`: What a statement leaves to the session.
* `ResidueFree`: Its plain assignments put every setting back where it was, and every
  temporary relation it created is gone at the commit.
* `Harmless`: A request whose statement, if committed, leaves nothing.
* `Clean`: The connection is as it was opened.
* `ControlPlaneResolves`: The control plane is found under its bare names.

## Theorems

* `perform_onCommit`, `perform_temps`: A statement's lasting effects, from
  inside a transaction.
* `serve_clean_iff`: A request leaves a clean connection clean exactly if it is harmless.
* `resolve_of_opened`: A clean connection finds the control plane.
* `pooled_connection_clean_iff`: A connection stays clean through exactly the
  sequences of harmless requests.
* `plain_set_not_clean`: A plain `SET` that hides the control plane.
-/

namespace CoopDB

open Json (Value)
open Transition (Always Allowed)

/-- The settings a statement leaves to the session: its plain assignments, in
    order. -/
def lastingSettings (s : Settings) : List Effect → Settings
  | [] => s
  | .set a :: effects => lastingSettings (s.set a) effects
  | _ :: effects => lastingSettings s effects

/-- The temporary relations there are after a statement, with whether a commit
    drops them. -/
def lastingTemps (temps : List (String × Bool)) : List Effect → List (String × Bool)
  | [] => temps
  | .createTemp name dropOnCommit :: effects =>
    lastingTemps (temps ++ [(name, dropOnCommit)]) effects
  | .dropTemp name :: effects => lastingTemps (temps.filter (fun p => p.1 != name)) effects
  | _ :: effects => lastingTemps temps effects

/-- Once committed, the statement leaves the settings where they were and no
    temporary relation behind. -/
def ResidueFree (s : Settings) (effects : List Effect) : Prop :=
  lastingSettings s effects = s ∧ (lastingTemps [] effects).filter (fun p => !p.2) = []

theorem perform_onCommit (effects : List Effect) :
    ∀ t : Tx, (effects.foldl Tx.perform t).onCommit = lastingSettings t.onCommit effects := by
  induction effects with
  | nil => exact fun t => rfl
  | cons e effects ih =>
    intro t
    rw [List.foldl_cons, ih]
    cases e with
    | set | setLocal | createTemp | dropTemp => rfl

theorem perform_temps (effects : List Effect) :
    ∀ t : Tx, (effects.foldl Tx.perform t).temps = lastingTemps t.temps effects := by
  induction effects with
  | nil => exact fun t => rfl
  | cons e effects ih =>
    intro t
    rw [List.foldl_cons, ih]
    cases e with
    | set | setLocal | createTemp | dropTemp => rfl

/-- A transaction without lasting effects on a session without temporary
    relations commits to the same session. -/
theorem sessionAfter_of_untouched {s : Session} (htemps : s.temps = []) {t : Tx}
    (hset : t.onCommit = s.settings) (htmp : t.temps = []) : t.sessionAfter = s := by
  unfold Tx.sessionAfter
  rw [hset, htmp]
  cases s with
  | mk =>
    simp only at htemps
    rw [htemps]
    rfl

/-- The session after the caller's statement and the executor's commit. A
    transaction statement leaves nothing: it ends a transaction in which only
    the tenant setup has run. -/
theorem statement_sessionAfter {s : Session} (htemps : s.temps = []) {t : Tx}
    (hset : t.onCommit = s.settings) (htmp : t.temps = []) (node : Option Node) (db : DbScript) :
    ((({ session := s, tx := some t } : Conn).statement node db).commit).tx = none ∧
      (((({ session := s, tx := some t } : Conn).statement node db).commit).session = s ↔
        ResidueFree s.settings (statementEffects node db.effects)) := by
  have hstart : (Tx.start s).sessionAfter = s :=
    sessionAfter_of_untouched htemps rfl (by simp [Tx.start, htemps])
  have ht : t.sessionAfter = s := sessionAfter_of_untouched htemps hset htmp
  -- What a statement other than a transaction statement leaves.
  have hperform : ∀ effects,
      (({ session := s, tx := some t } : Conn).perform effects).commit.tx = none ∧
        ((({ session := s, tx := some t } : Conn).perform effects).commit.session = s ↔
          ResidueFree s.settings effects) := by
    intro effects
    refine ⟨rfl, ?_⟩
    simp only [Conn.perform, Conn.commit, Tx.sessionAfter, perform_onCommit, perform_temps, hset,
      htmp, ResidueFree]
    cases s with
    | mk =>
      simp only at htemps
      subst htemps
      simp [Session.mk.injEq]
  have hnothing : ResidueFree s.settings [] := ⟨rfl, rfl⟩
  rcases node with _ | node
  · exact hperform _
  · cases node with
    | transactionStmt kind =>
      cases kind with
      | commit chain =>
        -- With `AND CHAIN` the executor's commit ends a second transaction,
        -- in which nothing has run.
        cases chain with
        | false => exact ⟨rfl, fun _ => hnothing, fun _ => ht⟩
        | true =>
          refine ⟨rfl, fun _ => hnothing, fun _ => ?_⟩
          simp only [Conn.statement, Conn.commit, Conn.begin, ht, hstart]
      | rollback chain =>
        cases chain with
        | false => exact ⟨rfl, fun _ => hnothing, fun _ => rfl⟩
        | true => exact ⟨rfl, fun _ => hnothing, fun _ => hstart⟩
      | begin | other => exact hperform _
    | _ => exact hperform _

/-- The connection is as it was opened. -/
def Clean (opened : Session) (c : Conn) : Prop :=
  c.session = opened ∧ c.tx = none

/-- A request that leaves nothing behind: if its statement is accepted and the
    whole transaction goes through, the statement is free of residue. -/
def Harmless (q : PgQuery) (validator : ValidatorConfig) (executor : ExecutorConfig)
    (opened : Session) (p : PooledCall) : Prop :=
  ∀ res, validate q validator p.sql p.params = .ok res →
    Carried executor p.workspaceID p.pgRole res p.db →
    ResidueFree opened.settings (statementEffects (parsed q p.sql) p.db.effects)

/-- Rolled back, a transaction leaves the session it found, whatever the
    caller's statement was. -/
theorem statement_rollback {s : Session} (htemps : s.temps = []) {t : Tx}
    (hset : t.onCommit = s.settings) (htmp : t.temps = []) (node : Option Node) (db : DbScript) :
    (({ session := s, tx := some t } : Conn).statement node db).rollback
      = { session := s, tx := none } := by
  have ht : t.sessionAfter = s := sessionAfter_of_untouched htemps hset htmp
  rcases node with _ | node
  · rfl
  · cases node with
    | transactionStmt kind =>
      cases kind with
      | commit chain => cases chain <;> simp only [Conn.statement, Conn.commit, Conn.begin,
          Conn.rollback, ht]
      | rollback chain => cases chain <;> rfl
      | begin | other => rfl
    | _ => rfl

section Pool

variable (q : PgQuery) (validator : ValidatorConfig) (executor : ExecutorConfig)
  (opened : Session)

/-- What the tenant setup starts from and ends with on a clean connection. -/
theorem setup_untouched {workspaceID pgRole : String} {db : SetupReplies} {t : Tx}
    (htemps : opened.temps = [])
    (h : setup workspaceID pgRole executor.statementTimeout executor.idleInTxTimeout db
      (Tx.start opened) = .ok t) :
    t.onCommit = opened.settings ∧ t.temps = [] := by
  rw [((setup_eq_ok _ _ _ _ _ _ _).mp h).2]
  rcases tenantTx_lasting workspaceID pgRole executor.statementTimeout executor.idleInTxTimeout
    (Tx.start opened) with ⟨hset, htmp⟩
  refine ⟨hset, ?_⟩
  rw [htmp]
  simp [Tx.start, htemps]

variable (htemps : opened.temps = [])
include htemps

/-- A transaction that fails leaves a clean connection as it was. -/
theorem execute_conn_of_not_carried {workspaceID pgRole : String} (sql : String)
    (params : List Value)
    {res : Result} {db : DbScript} (h : ¬ Carried executor workspaceID pgRole res db) :
    (execute q executor ⟨opened, none⟩ ⟨workspaceID, pgRole, sql, params, some res⟩ db).conn
      = ⟨opened, none⟩ := by
  simp only [execute]
  cases hbegin : db.begin with
  | some => rfl
  | none =>
    cases hsetup : setup workspaceID pgRole executor.statementTimeout executor.idleInTxTimeout
        db.setup (Tx.start opened) with
    | error => rfl
    | ok t =>
      cases hrun : runStatement executor res db with
      | error => rfl
      | ok response =>
        cases hcommit : db.commit with
        | some =>
          -- The statement has run by now, and may have ended the transaction.
          rcases setup_untouched executor opened htemps hsetup with ⟨hset, htmp⟩
          exact statement_rollback htemps hset htmp (parsed q sql) db
        | none =>
          -- Every call succeeded after all.
          exact absurd ⟨hbegin, ((setup_eq_ok _ _ _ _ _ _ _).mp hsetup).1,
            ((runStatement_eq_ok_iff executor res db response).mp hrun).1, hcommit⟩ h

/-- A transaction that goes through leaves a clean connection clean exactly
    when its statement is free of residue. -/
theorem execute_conn_of_carried {workspaceID pgRole : String} (sql : String) (params : List Value)
    {res : Result} {db : DbScript} (h : Carried executor workspaceID pgRole res db) :
    Clean opened
        (execute q executor ⟨opened, none⟩ ⟨workspaceID, pgRole, sql, params, some res⟩ db).conn ↔
      ResidueFree opened.settings (statementEffects (parsed q sql) db.effects) := by
  rcases h with ⟨hbegin, hsetup, hstmt, hcommit⟩
  have ht := (setup_eq_ok workspaceID pgRole executor.statementTimeout executor.idleInTxTimeout
    db.setup (Tx.start opened) _).mpr ⟨hsetup, rfl⟩
  have hrun := (runStatement_eq_ok_iff executor res db _).mpr ⟨hstmt, rfl⟩
  rcases setup_untouched executor opened htemps ht with ⟨hset, htmp⟩
  rcases statement_sessionAfter htemps hset htmp (parsed q sql) db with ⟨hnone, hiff⟩
  simp only [execute, hbegin, ht, hrun, hcommit, Clean, hnone, and_true]
  exact hiff

/-- One request on a clean connection leaves it clean exactly when the request
    is harmless. -/
theorem serve_clean_iff (c : Conn) (hc : Clean opened c) (p : PooledCall) :
    ∃ c', serve q validator executor c p = some c' ∧
      (Clean opened c' ↔ Harmless q validator executor opened p) := by
  rcases c with ⟨session, tx⟩
  rcases hc with ⟨rfl, rfl⟩
  unfold serve Harmless
  cases hval : validate q validator p.sql p.params with
  | error =>
    refine ⟨_, rfl, fun _ res hres => ?_, fun _ => ⟨rfl, rfl⟩⟩
    cases hres
  | ok res =>
    refine ⟨_, rfl, ?_⟩
    simp only [Except.ok.injEq, forall_eq']
    by_cases hcar : Carried executor p.workspaceID p.pgRole res p.db
    · rw [execute_conn_of_carried q executor session htemps _ _ hcar]
      exact ⟨fun h _ => h, fun h => h hcar⟩
    · rw [execute_conn_of_not_carried q executor session htemps _ _ hcar]
      exact ⟨fun _ h => absurd h hcar, fun _ => ⟨rfl, rfl⟩⟩

end Pool

/-- The catalog the migrations leave behind: the gateway may use the control
    plane's schema, and the two tables are in it. -/
structure ControlPlaneVisible (cat : Catalog) (login : String) : Prop where
  usage : cat.usage login "agentcoopdb" = true
  api_keys : cat.hasRelation "agentcoopdb" "api_keys" = true
  idempotency_keys : cat.hasRelation "agentcoopdb" "idempotency_keys" = true

/-- The bare names the gateway's own queries use are found in the control
    plane's schema. -/
def ControlPlaneResolves (cat : Catalog) (s : Session) : Prop :=
  s.resolve cat "api_keys" = some "agentcoopdb" ∧
    s.resolve cat "idempotency_keys" = some "agentcoopdb"

/-- On a connection that is as it was opened the control plane is found. -/
theorem resolve_of_opened {cat : Catalog} {login : String} (statementTimeout idleTimeout : Int)
    (other : String → String) (hcat : ControlPlaneVisible cat login) :
    ControlPlaneResolves cat (openedSession login statementTimeout idleTimeout other) := by
  unfold ControlPlaneResolves Session.resolve openedSession
  simp [hcat.usage, hcat.api_keys, hcat.idempotency_keys]

section Runs

variable (q : PgQuery) (validator : ValidatorConfig) (executor : ExecutorConfig)

/-- A pooled connection is as it was opened after every request served on it,
    and the next user finds the control plane under its bare names, exactly
    when all the requests are harmless. -/
theorem pooled_connection_clean_iff (login : String) (statementTimeout idleTimeout : Int)
    (other : String → String) (cat : Catalog) (hcat : ControlPlaneVisible cat login)
    (calls : List PooledCall) :
    Always (serve q validator executor)
        (fun c => Clean (openedSession login statementTimeout idleTimeout other) c ∧
          ControlPlaneResolves cat c.session)
        ⟨openedSession login statementTimeout idleTimeout other, none⟩ calls ↔
      ∀ p ∈ calls, Harmless q validator executor
        (openedSession login statementTimeout idleTimeout other) p := by
  have hresolve := resolve_of_opened statementTimeout idleTimeout other hcat
  have hserve := serve_clean_iff q validator executor
    (openedSession login statementTimeout idleTimeout other) rfl
  rw [Transition.always_iff_allowed]
  · -- Every request is served, and whether it is harmless does not depend on the
    -- connection it gets.
    refine Transition.allowed_iff_forall (fun c p => ?_) calls _
    unfold serve
    cases validate q validator p.sql p.params with
    | error | ok => exact ⟨_, rfl⟩
  · intro c p hc
    rcases hserve c hc.1 p with ⟨c', hc', hiff⟩
    refine ⟨c', hc', ?_⟩
    rw [← hiff]
    refine ⟨fun h => h.1, fun h => ⟨h, ?_⟩⟩
    rw [h.1]
    exact hresolve
  · exact ⟨⟨rfl, rfl⟩, hresolve⟩

end Runs

/-- A catalog with the control plane's two tables and a table of a tenant. -/
def migratedCatalog : Catalog :=
  { hasRelation := fun schema name =>
      (schema == "agentcoopdb" && (name == "api_keys" || name == "idempotency_keys")) ||
        (schema == "public" && name == "notes")
    usage := fun role schema => schema == "public" || role == "agentcoopdb_gateway" }

/-- A request of one statement that is executed without rows. -/
def plainCall (sql : String) : PooledCall :=
  { workspaceID := "5f0c2a1e-0000-4000-8000-000000000001", pgRole := "dbuser", sql := sql
    params := []
    db := { begin := none, setup := ⟨none, none, none, none, none⟩, effects := []
            query := .ok [], rows := [], rowsErr := none, exec := .ok 1, commit := none
            durationMS := 0 } }

/-- The parser's answers for the statements below: a plain `SET search_path`
    and a delete. -/
def setSearchPathQuery : PgQuery :=
  { parse := fun sql =>
      if sql = "SET search_path TO public" then
        .ok [some (.variableSetStmt false (.searchPath ["public"]))]
      else .ok [some (.deleteStmt 0)]
    scan := fun _ => .ok [] }

/-- A delete leaves the connection clean. -/
theorem delete_leaves_connection_clean :
    Always (serve setSearchPathQuery ⟨262144, 1000⟩ ⟨5000000000, 5000000000, 65536⟩)
      (fun c => Clean (openedSession "agentcoopdb_gateway" 0 0 (fun _ => "")) c ∧
        ControlPlaneResolves migratedCatalog c.session)
      ⟨openedSession "agentcoopdb_gateway" 0 0 (fun _ => ""), none⟩
      [plainCall "DELETE FROM notes"] := by
  refine (pooled_connection_clean_iff _ _ _ _ _ _ _ _ ⟨rfl, rfl, rfl⟩ _).mpr ?_
  intro p hp res _ _
  rw [List.mem_singleton] at hp
  subst hp
  exact ⟨rfl, rfl⟩

/-- A plain `SET search_path` is accepted and committed, and the next user of
    the connection no longer finds the control plane. -/
theorem plain_set_not_clean :
    ¬ Always (serve setSearchPathQuery ⟨262144, 1000⟩ ⟨5000000000, 5000000000, 65536⟩)
      (fun c => Clean (openedSession "agentcoopdb_gateway" 0 0 (fun _ => "")) c ∧
        ControlPlaneResolves migratedCatalog c.session)
      ⟨openedSession "agentcoopdb_gateway" 0 0 (fun _ => ""), none⟩
      [plainCall "SET search_path TO public"] := by
  intro h
  have hafter := (h.2 _ rfl).2.1
  exact absurd hafter (by decide)

end CoopDB
