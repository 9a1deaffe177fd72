import CoopDB.Core.Tenant

/-!
# The Tenant Setup

`setup` either fails, or makes five transaction-local assignments one after the
other. What other modules need of a transaction that was set up for a tenant
is read off `tenantTx`, without opening `setup` again.

## Main definitions

* `SetupReplies.Accepted`: The database accepts every statement.
* `tenantTx`: The transaction after the five assignments.

## Theorems

* `setup_eq_ok`: When the setup succeeds, and with what.
* `tenantTx_role`: The role statements run with.
* `tenantTx_lasting`: The assignments end with the transaction.
-/

namespace CoopDB

/-- The five statements of `Setup` are all accepted. -/
def SetupReplies.Accepted (db : SetupReplies) : Prop :=
  db.statementTimeout = none ∧ db.idleInTransactionSessionTimeout = none ∧
    db.workspaceID = none ∧ db.role = none ∧ db.searchPath = none

/-- The transaction once `Setup` has made its assignments. -/
def tenantTx (workspaceID pgRole : String) (stmtTimeout idleTimeout : Time) (t : Tx) : Tx :=
  ((((t.perform (.setLocal (.statementTimeout (milliseconds stmtTimeout)))).perform
    (.setLocal (.idleInTransactionSessionTimeout (milliseconds idleTimeout)))).perform
    (.setLocal (.workspaceID workspaceID))).perform
    (.setLocal (.role pgRole))).perform (.setLocal (.searchPath ["public"]))

section

variable (workspaceID pgRole : String) (stmtTimeout idleTimeout : Time)

/-- Statements run with the role of the key. -/
theorem tenantTx_role (t : Tx) :
    (tenantTx workspaceID pgRole stmtTimeout idleTimeout t).current.role = pgRole := rfl

/-- The setup is local to its transaction: it leaves no setting to the session
    and no temporary relation. -/
theorem tenantTx_lasting (t : Tx) :
    (tenantTx workspaceID pgRole stmtTimeout idleTimeout t).onCommit = t.onCommit ∧
      (tenantTx workspaceID pgRole stmtTimeout idleTimeout t).temps = t.temps := ⟨rfl, rfl⟩

/-- The tenant setup succeeds exactly for a named workspace, a safe role and a
    database that accepts its statements, and leaves the five assignments. -/
theorem setup_eq_ok (db : SetupReplies) (t t' : Tx) :
    setup workspaceID pgRole stmtTimeout idleTimeout db t = .ok t' ↔
      (workspaceID ≠ "" ∧ isSafeRoleName pgRole = true ∧ db.Accepted) ∧
        t' = tenantTx workspaceID pgRole stmtTimeout idleTimeout t := by
  unfold setup SetupReplies.Accepted
  by_cases hws : workspaceID = ""
  · simp [hws]
  · by_cases hrole : pgRole = ""
    · -- The empty role is turned away twice: by the first check and as unsafe.
      have hunsafe : isSafeRoleName pgRole = false := by
        rw [hrole]
        decide
      simp [if_neg hws, if_pos hrole, hunsafe]
    · simp only [hws, hrole, if_false, ne_eq, not_false_eq_true, true_and]
      -- From here on the statements, in order, with the check of the role between.
      cases db.statementTimeout with
      | some => simp
      | none =>
        cases db.idleInTransactionSessionTimeout with
        | some => simp
        | none =>
          cases db.workspaceID with
          | some => simp
          | none =>
            cases hsafe : isSafeRoleName pgRole with
            | false => simp
            | true =>
              cases db.role with
              | some => simp
              | none =>
                cases db.searchPath with
                | some => simp
                | none =>
                  simp only [Bool.not_true, Bool.false_eq_true, if_false,
                    Except.ok.injEq, and_self, true_and]
                  exact eq_comm

end

end CoopDB
