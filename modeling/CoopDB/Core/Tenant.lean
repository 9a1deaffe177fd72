import CoopDB.Core.Problem
import CoopDB.Core.Session

/-!
# Tenant Setup

`internal/tenant/tenant.go`: the five statements that turn a fresh transaction
on a gateway connection into the caller's.

Every one of them is transaction-local, and every one can be refused by the
database. The role name is checked between the third and the fourth, so a
caller with an unusable role fails after the timeouts and the workspace were
set.

## Main definitions

* `setup`: The statements in their order.
-/

namespace CoopDB

/-- `time.Duration.Milliseconds`, of a duration in nanoseconds. -/
def milliseconds (d : Time) : Int :=
  d.tdiv 1000000

/-- A character `isSafeRoleName` lets pass. -/
def isSafeRoleChar (c : Char) : Bool :=
  (97 ≤ c.toNat && c.toNat ≤ 122) || (48 ≤ c.toNat && c.toNat ≤ 57) || c.toNat == 95

/-- `isSafeRoleName`: lowercase letters, digits and underscores, at most 63
    bytes of them. -/
def isSafeRoleName (s : String) : Bool :=
  !(s == "" || s.utf8ByteSize > 63) && s.toList.all isSafeRoleChar

/-- The text that sets the role. -/
def setRoleText (pgRole : String) : String :=
  "SET LOCAL ROLE \"" ++ pgRole ++ "\""

/-- The `%q` of a Go format. Characters beyond Latin-1 are taken as printable. -/
def goQuote (s : String) : String :=
  let escape : Char → String := fun c =>
    match c.toNat with
    | 0x22 => "\\\""
    | 0x5c => "\\\\"
    | 0x07 => "\\a"
    | 0x08 => "\\b"
    | 0x0c => "\\f"
    | 0x0a => "\\n"
    | 0x0d => "\\r"
    | 0x09 => "\\t"
    | 0x0b => "\\v"
    | n =>
      let digits := String.singleton (Nat.digitChar (n / 16)) ++
        String.singleton (Nat.digitChar (n % 16))
      if n < 0x20 ∨ n = 0x7f then "\\x" ++ digits
      else if (0x80 ≤ n ∧ n ≤ 0xa0) ∨ n = 0xad then "\\u00" ++ digits
      else String.singleton c
  "\"" ++ String.join (s.toList.map escape) ++ "\""

/-- The database's answers to the statements of `Setup`, `none` where a
    statement succeeds. -/
structure SetupReplies where
  statementTimeout : Option DbError
  idleInTransactionSessionTimeout : Option DbError
  workspaceID : Option DbError
  role : Option DbError
  searchPath : Option DbError

/-- `Setup`, inside an open transaction. -/
def setup (workspaceID pgRole : String) (stmtTimeout idleTimeout : Time) (db : SetupReplies)
    (t : Tx) : Except Failure Tx :=
  if workspaceID = "" then .error (.other "tenant.Setup: empty workspace_id")
  else if pgRole = "" then .error (.other "tenant.Setup: empty pg_role")
  else
    match db.statementTimeout with
    | some e => .error (e.wrap "set statement_timeout: ")
    | none =>
      let t := t.perform (.setLocal (.statementTimeout (milliseconds stmtTimeout)))
      match db.idleInTransactionSessionTimeout with
      | some e => .error (e.wrap "set idle_in_transaction_session_timeout: ")
      | none =>
        let t := t.perform (.setLocal (.idleInTransactionSessionTimeout (milliseconds idleTimeout)))
        match db.workspaceID with
        | some e => .error (e.wrap "set app.workspace_id: ")
        | none =>
          let t := t.perform (.setLocal (.workspaceID workspaceID))
          if !isSafeRoleName pgRole then
            .error (.other ("unsafe pg_role identifier: " ++ goQuote pgRole))
          else
            match db.role with
            | some e => .error (e.wrap "set local role: ")
            | none =>
              let t := t.perform (.setLocal (.role pgRole))
              match db.searchPath with
              | some e => .error (e.wrap "set search_path: ")
              | none => .ok (t.perform (.setLocal (.searchPath ["public"])))

end CoopDB
