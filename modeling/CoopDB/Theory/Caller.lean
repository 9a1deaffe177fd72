import CoopDB.Core.Dispatcher
import CoopDB.Theory.Tenant

/-!
# Whose Statement It Is

Both execution paths, `Execute` and `Dispatcher.run`, open a transaction on
whatever connection the pool hands out and run `tenant.Setup` in it before
anything of the caller's. The session may carry any role and any settings from
the requests before.

`AsCaller` says what the setup makes of it. It does not mention the session:
each of the five settings is assigned, and an assignment in the transaction
covers the session's value.

That is not always what the caller has given. The source passes timeouts on in
whole milliseconds, so a duration below one becomes zero, which switches the
timeout off. And it lets the role name `none` pass, which stands for the login
role. The settings are as they were given exactly if neither is the case.

The messages of both paths have the same shape, which is said once
(`Transcript`): the setup's assignments, up to the one that fails, and after a
successful setup the statement and the end of the transaction. Whose settings
the statement starts with, and what is withheld after a failed setup, is proved
of the shape.

## Main definitions

* `AsCaller`: The settings that the setup leaves.
* `AsGiven`: The settings that were given.
* `Withheld`: Neither a statement nor a commit is sent.
* `Transcript`: The messages of one transaction around one statement.

## Theorems

* `asGiven_iff`: When the settings of the setup are those that were given.
* `executeSent_transcript`, `run_transcript`: The messages of both paths.
* `statements_run_as_caller`: The statement of either path starts with the settings of
  the setup, and is withheld where the setup fails.
-/

namespace CoopDB

/-- The settings are those of the caller, whatever the session's were. -/
structure AsCaller (login workspaceID pgRole : String) (stmtTimeout idleTimeout : Time)
    (current : Settings) : Prop where
  role : current.effectiveRole login = if pgRole = "none" then login else pgRole
  workspaceID : current.workspaceID = workspaceID
  searchPath : current.searchPath = ["public"]
  statementTimeout : current.statementTimeout = milliseconds stmtTimeout
  idleTimeout : current.idleInTransactionSessionTimeout = milliseconds idleTimeout

/-- The settings are exactly the ones that were given. -/
structure AsGiven (login workspaceID pgRole : String) (stmtTimeout idleTimeout : Time)
    (current : Settings) : Prop where
  role : current.effectiveRole login = pgRole
  workspaceID : current.workspaceID = workspaceID
  searchPath : current.searchPath = ["public"]
  statementTimeout : current.statementTimeout * 1000000 = stmtTimeout
  idleTimeout : current.idleInTransactionSessionTimeout * 1000000 = idleTimeout

/-- The role is not the word for the login role, and the timeouts are whole
    milliseconds. A login role of that name is one that Postgres refuses to create. -/
structure Expressible (login pgRole : String) (stmtTimeout idleTimeout : Time) : Prop where
  role : pgRole = "none" → login = "none"
  statementTimeout : 1000000 ∣ stmtTimeout
  idleTimeout : 1000000 ∣ idleTimeout

/-- Neither a statement of the caller nor a commit is among the messages. -/
def Withheld (sent : List Sent) : Prop :=
  ∀ m ∈ sent, (∀ sql current, m ≠ .statement sql current) ∧ m ≠ .commit

/-- A duration is kept exactly if it is whole milliseconds. -/
theorem milliseconds_mul_iff (d : Time) : milliseconds d * 1000000 = d ↔ 1000000 ∣ d := by
  unfold milliseconds
  constructor
  · intro h
    exact ⟨d.tdiv 1000000, by rw [Int.mul_comm]; exact h.symm⟩
  · exact Int.tdiv_mul_cancel

/-- The settings of the setup are those that were given exactly if these can be
    expressed. -/
theorem asGiven_iff {login workspaceID pgRole : String} {stmtTimeout idleTimeout : Time}
    {current : Settings}
    (h : AsCaller login workspaceID pgRole stmtTimeout idleTimeout current) :
    AsGiven login workspaceID pgRole stmtTimeout idleTimeout current ↔
      Expressible login pgRole stmtTimeout idleTimeout := by
  have hrole : current.effectiveRole login = pgRole ↔ (pgRole = "none" → login = "none") := by
    rw [h.role]
    by_cases hnone : pgRole = "none"
    · rw [if_pos hnone, hnone]
      simp
    · rw [if_neg hnone]
      simp [hnone]
  have hstmt : current.statementTimeout * 1000000 = stmtTimeout ↔ 1000000 ∣ stmtTimeout := by
    rw [h.statementTimeout, milliseconds_mul_iff]
  have hidle : current.idleInTransactionSessionTimeout * 1000000 = idleTimeout ↔
      1000000 ∣ idleTimeout := by
    rw [h.idleTimeout, milliseconds_mul_iff]
  constructor
  · intro hgiven
    exact ⟨hrole.mp hgiven.role, hstmt.mp hgiven.statementTimeout, hidle.mp hgiven.idleTimeout⟩
  · intro hwhole
    exact ⟨hrole.mpr hwhole.role, h.workspaceID, h.searchPath, hstmt.mpr hwhole.statementTimeout,
      hidle.mpr hwhole.idleTimeout⟩

section Setup

variable (workspaceID pgRole : String) (stmtTimeout idleTimeout : Time) (db : SetupReplies)

variable {workspaceID pgRole stmtTimeout idleTimeout db} in
/-- After a successful setup the caller's settings are in force, on any
    session. -/
theorem setup_asCaller (login : String) {t t' : Tx}
    (h : setup workspaceID pgRole stmtTimeout idleTimeout db t = .ok t') :
    AsCaller login workspaceID pgRole stmtTimeout idleTimeout t'.current := by
  rw [((setup_eq_ok workspaceID pgRole stmtTimeout idleTimeout db t t').mp h).2]
  exact ⟨rfl, rfl, rfl, rfl, rfl⟩

/-- What `Setup` sends when nothing fails. -/
def setupMessages : List Sent :=
  [.setLocal (.statementTimeout (milliseconds stmtTimeout)),
    .setLocal (.idleInTransactionSessionTimeout (milliseconds idleTimeout)),
    .setLocal (.workspaceID workspaceID), .setLocal (.role pgRole),
    .setLocal (.searchPath ["public"])]

omit workspaceID pgRole stmtTimeout idleTimeout db in
theorem sendLocal_sent (a : Assign) (context : String) (reply : Option DbError) (t : Tx)
    (next : Tx → List Sent × Except Failure Tx) {rest : List Sent}
    (hnext : ∀ t, (next t).1 <+: rest) :
    (sendLocal a context reply t next).1 <+: .setLocal a :: rest := by
  unfold sendLocal
  cases reply with
  | some => exact List.cons_prefix_cons.mpr ⟨rfl, List.nil_prefix⟩
  | none => exact List.cons_prefix_cons.mpr ⟨rfl, hnext _⟩

/-- The setup sends its messages in order, up to the one at which it fails. -/
theorem setupSent_sent (t : Tx) :
    (setupSent workspaceID pgRole stmtTimeout idleTimeout db t).1 <+:
      setupMessages workspaceID pgRole stmtTimeout idleTimeout := by
  unfold setupSent setupMessages
  split
  · exact List.nil_prefix
  · split
    · exact List.nil_prefix
    · refine sendLocal_sent _ _ _ t _ fun t => ?_
      refine sendLocal_sent _ _ _ t _ fun t => ?_
      refine sendLocal_sent _ _ _ t _ fun t => ?_
      split
      · exact List.nil_prefix
      · refine sendLocal_sent _ _ _ t _ fun t => ?_
        exact sendLocal_sent _ _ _ t _ fun t => List.nil_prefix

end Setup

section Transcripts

variable (workspaceID pgRole : String) (stmtTimeout idleTimeout : Time) (db : SetupReplies)
  (t₀ : Tx) (sql : String)

/-- The messages of one transaction around one statement, and whether its
    commit succeeded: it is not begun, or refused, or ends after the setup, or
    ends after the statement. -/
inductive Transcript : List Sent → Bool → Prop
  | nothing : Transcript [] false
  | refused : Transcript [.begin] false
  | withdrawn : Transcript
      (.begin :: (setupSent workspaceID pgRole stmtTimeout idleTimeout db t₀).1 ++
        [.rollback]) false
  | failed (t : Tx) (h : setup workspaceID pgRole stmtTimeout idleTimeout db t₀ = .ok t) :
      Transcript (.begin :: (setupSent workspaceID pgRole stmtTimeout idleTimeout db t₀).1 ++
        [.statement sql t.current, .rollback]) false
  | ended (t : Tx) (h : setup workspaceID pgRole stmtTimeout idleTimeout db t₀ = .ok t)
      (committed : Bool) :
      Transcript (.begin :: (setupSent workspaceID pgRole stmtTimeout idleTimeout db t₀).1 ++
        [.statement sql t.current, .commit]) committed

variable {workspaceID pgRole stmtTimeout idleTimeout db t₀ sql} {sent : List Sent}
  {committed : Bool}

/-- Every message is a frame of the transaction, one of the setup's, or the
    statement with the settings the setup has left. -/
theorem Transcript.mem
    (h : Transcript workspaceID pgRole stmtTimeout idleTimeout db t₀ sql sent committed)
    {m : Sent} (hm : m ∈ sent) :
    (m = .begin ∨ m = .rollback ∨ m = .commit) ∨
      m ∈ setupMessages workspaceID pgRole stmtTimeout idleTimeout ∨
      ∃ t, setup workspaceID pgRole stmtTimeout idleTimeout db t₀ = .ok t ∧
        m = .statement sql t.current := by
  have hready := (setupSent_sent workspaceID pgRole stmtTimeout idleTimeout db t₀).subset
  cases h with
  | nothing => exact absurd hm List.not_mem_nil
  | refused => exact .inl (.inl (List.mem_singleton.mp hm))
  | withdrawn =>
    simp only [List.cons_append, List.mem_cons, List.mem_append, List.not_mem_nil, or_false] at hm
    rcases hm with hm | hm | hm
    · exact .inl (.inl hm)
    · exact .inr (.inl (hready hm))
    · exact .inl (.inr (.inl hm))
  | failed t hsetup =>
    simp only [List.cons_append, List.mem_cons, List.mem_append, List.not_mem_nil, or_false] at hm
    rcases hm with hm | hm | hm | hm
    · exact .inl (.inl hm)
    · exact .inr (.inl (hready hm))
    · exact .inr (.inr ⟨t, hsetup, hm⟩)
    · exact .inl (.inr (.inl hm))
  | ended t hsetup =>
    simp only [List.cons_append, List.mem_cons, List.mem_append, List.not_mem_nil, or_false] at hm
    rcases hm with hm | hm | hm | hm
    · exact .inl (.inl hm)
    · exact .inr (.inl (hready hm))
    · exact .inr (.inr ⟨t, hsetup, hm⟩)
    · exact .inl (.inr (.inr hm))

/-- The statement starts as its caller. -/
theorem Transcript.asCaller (login : String)
    (h : Transcript workspaceID pgRole stmtTimeout idleTimeout db t₀ sql sent committed)
    (sql' : String) (current : Settings) (hm : .statement sql' current ∈ sent) :
    sql' = sql ∧ AsCaller login workspaceID pgRole stmtTimeout idleTimeout current ∧
      (AsGiven login workspaceID pgRole stmtTimeout idleTimeout current ↔
        Expressible login pgRole stmtTimeout idleTimeout) := by
  rcases h.mem hm with hframe | hlocal | ⟨t, hsetup, heq⟩
  · simp only [reduceCtorEq, or_self] at hframe
  · simp only [setupMessages, List.mem_cons, reduceCtorEq, List.not_mem_nil, or_self] at hlocal
  · rw [Sent.statement.injEq] at heq
    rw [heq.1, heq.2]
    have hcaller := setup_asCaller login hsetup
    exact ⟨rfl, hcaller, asGiven_iff hcaller⟩

/-- After a failed setup neither the statement nor a commit is sent. -/
theorem Transcript.withheld
    (h : Transcript workspaceID pgRole stmtTimeout idleTimeout db t₀ sql sent committed)
    (e : Failure) (he : setup workspaceID pgRole stmtTimeout idleTimeout db t₀ = .error e) :
    Withheld sent ∧ committed = false := by
  have hnot : ∀ t, setup workspaceID pgRole stmtTimeout idleTimeout db t₀ ≠ .ok t := by
    intro t ht
    rw [he] at ht
    cases ht
  have hlocal : ∀ m ∈ setupMessages workspaceID pgRole stmtTimeout idleTimeout,
      (∀ sql current, m ≠ .statement sql current) ∧ m ≠ .commit := by
    simp [setupMessages]
  cases h with
  | nothing => exact ⟨fun m hm => absurd hm List.not_mem_nil, rfl⟩
  | refused =>
    refine ⟨fun m hm => ?_, rfl⟩
    rw [List.mem_singleton.mp hm]
    exact ⟨fun _ _ => by simp, by simp⟩
  | withdrawn =>
    refine ⟨fun m hm => ?_, rfl⟩
    simp only [List.cons_append, List.mem_cons, List.mem_append, List.not_mem_nil, or_false] at hm
    rcases hm with rfl | hm | rfl
    · exact ⟨fun _ _ => by simp, by simp⟩
    · exact hlocal m ((setupSent_sent _ _ _ _ _ _).subset hm)
    · exact ⟨fun _ _ => by simp, by simp⟩
  | failed t hsetup | ended t hsetup => exact absurd hsetup (hnot t)

end Transcripts

/-- The messages of `Execute`. -/
theorem executeSent_transcript (q : PgQuery) (cfg : ExecutorConfig) (c : Conn)
    (input : ExecuteInput) (db : DbScript) :
    Transcript input.workspaceID input.pgRole cfg.statementTimeout cfg.idleInTxTimeout db.setup
      (Tx.start c.session) input.sql (executeSent q cfg c input db).1
      (execute q cfg c input db).committed := by
  rw [← executeSent_snd]
  unfold executeSent
  cases input.result with
  | none => exact .nothing
  | some r =>
    cases db.begin with
    | some => exact .refused
    | none =>
      simp only [setupSent_snd]
      cases hsetup : setup input.workspaceID input.pgRole cfg.statementTimeout
          cfg.idleInTxTimeout db.setup (Tx.start c.session) with
      | error => exact .withdrawn
      | ok t =>
        simp only [List.append_assoc, List.cons_append, List.nil_append]
        cases runStatement cfg r db with
        | error => exact .failed t hsetup
        | ok =>
          cases db.commit with
          | some => exact .ended t hsetup false
          | none => exact .ended t hsetup true

/-- The messages of `run`. -/
theorem run_transcript (c : Conn) (body : String) (input : CallInput) (db : RunScript) :
    Transcript input.workspaceID input.pgRole input.statementTimeout input.idleInTxTimeout
      db.setup (Tx.start c.session) body (Dispatcher.run c body input db).1
      (Dispatcher.run c body input db).2.committed := by
  unfold Dispatcher.run
  cases db.begin with
  | some => exact .refused
  | none =>
    simp only [setupSent_snd]
    cases hsetup : setup input.workspaceID input.pgRole input.statementTimeout
        input.idleInTxTimeout db.setup (Tx.start c.session) with
    | error => exact .withdrawn
    | ok t =>
      simp only [List.append_assoc, List.cons_append, List.nil_append]
      -- Arguments that cannot be encoded end the transaction before the body.
      cases (Json.Value.object input.args).marshal with
      | none => exact .withdrawn
      | some =>
        cases db.row with
        | error => exact .failed t hsetup
        | ok =>
          cases db.commit with
          | some => exact .ended t hsetup false
          | none => exact .ended t hsetup true

/-- On a connection in any state, the caller's statement and the body of a
    procedure start with the caller's role, workspace, search path and
    timeouts, where timeouts are in whole milliseconds and the name `none`
    stands for the login role. So they start with what was given exactly if the
    role is not `none` and both timeouts are whole milliseconds. Where the setup
    fails, at whichever step, neither path sends the statement or commits. -/
theorem statements_run_as_caller (login : String) (c : Conn) (q : PgQuery) (cfg : ExecutorConfig)
    (input : ExecuteInput) (db : DbScript) (body : String) (call : CallInput) (rdb : RunScript) :
    (∀ sql current, .statement sql current ∈ (executeSent q cfg c input db).1 →
      sql = input.sql ∧ AsCaller login input.workspaceID input.pgRole cfg.statementTimeout
        cfg.idleInTxTimeout current ∧
      (AsGiven login input.workspaceID input.pgRole cfg.statementTimeout cfg.idleInTxTimeout
        current ↔ Expressible login input.pgRole cfg.statementTimeout cfg.idleInTxTimeout)) ∧
    (∀ e, setup input.workspaceID input.pgRole cfg.statementTimeout cfg.idleInTxTimeout db.setup
        (Tx.start c.session) = .error e →
      Withheld (executeSent q cfg c input db).1 ∧ (execute q cfg c input db).committed = false) ∧
    (∀ sql current, .statement sql current ∈ (Dispatcher.run c body call rdb).1 →
      sql = body ∧ AsCaller login call.workspaceID call.pgRole call.statementTimeout
        call.idleInTxTimeout current ∧
      (AsGiven login call.workspaceID call.pgRole call.statementTimeout call.idleInTxTimeout
        current ↔ Expressible login call.pgRole call.statementTimeout call.idleInTxTimeout)) ∧
    (∀ e, setup call.workspaceID call.pgRole call.statementTimeout call.idleInTxTimeout rdb.setup
        (Tx.start c.session) = .error e →
      Withheld (Dispatcher.run c body call rdb).1 ∧
        (Dispatcher.run c body call rdb).2.committed = false) := by
  have hexec := executeSent_transcript q cfg c input db
  have hrun := run_transcript c body call rdb
  exact ⟨hexec.asCaller login, hexec.withheld, hrun.asCaller login, hrun.withheld⟩

/-- A connection on which another tenant has left a role, a workspace, a search
    path and timeouts of its own. -/
def usedConn : Conn :=
  { session :=
      { settings := { role := "dbadmin", workspaceID := "other", searchPath := ["evil"]
                      statementTimeout := 0, idleInTransactionSessionTimeout := 0
                      other := fun _ => "" }
        temps := [] }
    tx := none }

/-- A database that accepts everything and answers one empty row. -/
def acceptingScript : DbScript :=
  { begin := none, setup := ⟨none, none, none, none, none⟩, effects := [], query := .ok []
    rows := [], rowsErr := none, exec := .ok 1, commit := none, durationMS := 0 }

/-- A parser for which every text is a select. -/
def selectQuery : PgQuery :=
  { parse := fun _ => .ok [some .selectStmt], scan := fun _ => .ok [] }

/-- A select by the given role. -/
def selectInput (pgRole : String) : ExecuteInput :=
  { workspaceID := "w", pgRole := pgRole, sql := "SELECT 1", params := []
    result := some ⟨"SELECT", true, false, 0⟩ }

/-- On the used connection the select is sent, and starts as its own caller. -/
theorem select_runs_as_caller :
    ∃ current, .statement "SELECT 1" current ∈ (executeSent selectQuery
        ⟨5000000000, 5000000000, 0⟩ usedConn (selectInput "dbuser") acceptingScript).1 ∧
      AsGiven "agentcoopdb_gateway" "w" "dbuser" 5000000000 5000000000 current := by
  have hsent : .statement "SELECT 1"
      (tenantTx "w" "dbuser" 5000000000 5000000000 (Tx.start usedConn.session)).current ∈
      (executeSent selectQuery ⟨5000000000, 5000000000, 0⟩ usedConn (selectInput "dbuser")
        acceptingScript).1 := by
    refine List.mem_append_left _ (List.mem_append_right _ ?_)
    exact List.mem_singleton_self _
  obtain ⟨_, _, hgiven⟩ := (statements_run_as_caller "agentcoopdb_gateway" usedConn selectQuery
    ⟨5000000000, 5000000000, 0⟩ (selectInput "dbuser") acceptingScript "" ⟨"w", "dbuser", [], 0, 0⟩
    ⟨none, ⟨none, none, none, none, none⟩, [], .ok none, none⟩).1 _ _ hsent
  exact ⟨_, hsent, hgiven.mpr ⟨by decide, by decide, by decide⟩⟩

/-- Given half a millisecond and the role `none`, the setup succeeds, and the
    statement starts with no timeout at all and as the login role. -/
theorem sub_millisecond_timeout_is_off :
    ∃ current, .statement "SELECT 1" current ∈ (executeSent selectQuery ⟨500000, 500000, 0⟩
        usedConn (selectInput "none") acceptingScript).1 ∧
      current.statementTimeout = 0 ∧ current.idleInTransactionSessionTimeout = 0 ∧
      current.effectiveRole "agentcoopdb_gateway" = "agentcoopdb_gateway" ∧
      ¬AsGiven "agentcoopdb_gateway" "w" "none" 500000 500000 current := by
  refine ⟨(tenantTx "w" "none" 500000 500000 (Tx.start usedConn.session)).current, ?_, ?_, ?_, ?_,
    fun h => ?_⟩
  · refine List.mem_append_left _ (List.mem_append_right _ ?_)
    exact List.mem_singleton_self _
  · decide
  · decide
  · decide
  · exact absurd h.role (by decide)

end CoopDB
