import CoopDB.Core.Problem
import CoopDB.Core.Session

/-!
# The Validator

`internal/sql/validator.go`: the static checks a statement passes before it is
forwarded, and the classification the executor works with.

The parser and the scanner are Postgres' own, called through a package outside
the repository, so they are parameters. Of a parse tree the model keeps the
kind of the top-level node, which is what `classify` switches on, and the
parts of a node that decide what the statement does to its session. There is
no list of allowed kinds: whatever parses as one statement is accepted.

`countPlaceholders` works on bytes, as the source does. The scanner's offsets
are not trusted: a token that does not lie inside the text is skipped.

## Main definitions

* `Result`, `validate`: The checks in their order.
-/

namespace CoopDB

/-- The transaction-control statements a client can send. -/
inductive TransactionKind
  | begin
  | commit (chain : Bool)
  | rollback (chain : Bool)
  | other
  deriving DecidableEq, Repr

/-- The top-level node of a statement. `variableSet` carries the assignment,
    `createStmt` the relation with its persistence. -/
inductive Node
  | selectStmt
  | insertStmt (returningList : Nat)
  | updateStmt (returningList : Nat)
  | deleteStmt (returningList : Nat)
  | createStmt (relation : String) (temporary dropOnCommit : Bool)
  | createRoleStmt
  | createdbStmt
  | dropStmt
  | alterTableStmt
  | alterRoleStmt
  | grantStmt
  | grantRoleStmt
  | vacuumStmt
  | explainStmt
  | truncateStmt
  | copyStmt
  | transactionStmt (kind : TransactionKind)
  | indexStmt
  | viewStmt
  | createExtensionStmt
  | renameStmt
  | variableSetStmt (isLocal : Bool) (assign : Assign)
  | variableShowStmt
  | other
  deriving DecidableEq, Repr

/-- The parser, a nil node included, and the scanner with the byte offsets of
    its tokens. -/
structure PgQuery where
  parse : String → Except String (List (Option Node))
  scan : String → Except String (List (Int × Int))

/-- The limits of the validator. -/
structure ValidatorConfig where
  maxStatementBytes : Int
  maxStatementParams : Int

/-- `NewValidator`: limits that are not positive are replaced. -/
def newValidator (cfg : ValidatorConfig) : ValidatorConfig :=
  { maxStatementBytes := if cfg.maxStatementBytes ≤ 0 then 256 * 1024 else cfg.maxStatementBytes
    maxStatementParams := if cfg.maxStatementParams ≤ 0 then 1000 else cfg.maxStatementParams }

/-- The parsed-and-classified output of `Validate`. -/
structure Result where
  command : String
  isSelect : Bool
  hasReturning : Bool
  placeholderCount : Int
  deriving DecidableEq, Repr

/-- `classify`. -/
def classify : Option Node → String
  | none => "UNKNOWN"
  | some .selectStmt => "SELECT"
  | some (.insertStmt _) => "INSERT"
  | some (.updateStmt _) => "UPDATE"
  | some (.deleteStmt _) => "DELETE"
  | some (.createStmt _ _ _) => "CREATE TABLE"
  | some .createRoleStmt => "CREATE ROLE"
  | some .createdbStmt => "CREATE DATABASE"
  | some .dropStmt => "DROP"
  | some .alterTableStmt => "ALTER TABLE"
  | some .alterRoleStmt => "ALTER ROLE"
  | some .grantStmt => "GRANT"
  | some .grantRoleStmt => "GRANT ROLE"
  | some .vacuumStmt => "VACUUM"
  | some .explainStmt => "EXPLAIN"
  | some .truncateStmt => "TRUNCATE"
  | some .copyStmt => "COPY"
  | some (.transactionStmt _) => "TRANSACTION"
  | some .indexStmt => "CREATE INDEX"
  | some .viewStmt => "CREATE VIEW"
  | some .createExtensionStmt => "CREATE EXTENSION"
  | some .renameStmt => "RENAME"
  | some (.variableSetStmt _ _) => "SET"
  | some .variableShowStmt => "SHOW"
  | some .other => "OTHER"

/-- `returningPresent`. -/
def returningPresent : Option Node → Bool
  | some (.insertStmt n) => decide (0 < n)
  | some (.updateStmt n) => decide (0 < n)
  | some (.deleteStmt n) => decide (0 < n)
  | _ => false

/-- The value of a non-empty run of ASCII digits. -/
def digitsValue : Bytes → Option Nat
  | [] => none
  | bs => bs.foldl (fun acc b => acc.bind (fun n =>
    if 48 ≤ b.toNat ∧ b.toNat ≤ 57 then some (10 * n + (b.toNat - 48)) else none)) (some 0)

/-- `strconv.Atoi`: an optional sign, digits, and the range of a 64-bit
    integer. -/
def atoi (bs : Bytes) : Option Int :=
  let signed : Option Int := match bs with
    | 43 :: rest => (digitsValue rest).map Int.ofNat
    | 45 :: rest => (digitsValue rest).map (fun n => -(n : Int))
    | _ => (digitsValue bs).map Int.ofNat
  signed.filter (fun v => decide (-(2 : Int) ^ 63 ≤ v ∧ v < 2 ^ 63))

/-- The number of the placeholder a token is, if it is one. -/
def placeholderOf (sql : Bytes) (token : Int × Int) : Option Int :=
  if token.1 < 0 ∨ token.2 > sql.length ∨ token.1 ≥ token.2 then none
  else
    match (sql.drop token.1.toNat).take (token.2 - token.1).toNat with
    | 36 :: rest => if rest.length < 1 then none else atoi rest
    | _ => none

/-- `countPlaceholders`: the largest `$N` in the text, `0` without one. -/
def countPlaceholders (q : PgQuery) (sqlText : String) : Except String Int :=
  match q.scan sqlText with
  | .error e => .error e
  | .ok tokens => .ok (tokens.foldl (fun max token =>
    match placeholderOf (utf8 sqlText) token with
    | none => max
    | some n => if n > max then n else max) 0)

/-- `Validate`. -/
def validate (q : PgQuery) (cfg : ValidatorConfig) (sqlText : String) (params : List Json.Value) :
    Except Failure Result :=
  if sqlText = "" then .error (.validation "empty_statement" "sql is empty")
  else if (sqlText.utf8ByteSize : Int) > cfg.maxStatementBytes then
    .error (.validation "statement_too_large" ("statement is " ++ toString sqlText.utf8ByteSize ++
      " bytes (max " ++ toString cfg.maxStatementBytes ++ ")"))
  else if (params.length : Int) > cfg.maxStatementParams then
    .error (.validation "too_many_params" ("got " ++ toString params.length ++
      " params (max " ++ toString cfg.maxStatementParams ++ ")"))
  else
    match q.parse sqlText with
    | .error e => .error (.validation "parse_error" e)
    | .ok [] => .error (.validation "empty_statement" "no statement found")
    | .ok [stmt] =>
      match countPlaceholders q sqlText with
      | .error e => .error (.validation "parse_error" e)
      | .ok placeholders =>
        if placeholders ≠ params.length then
          .error (.validation "params_mismatch" ("statement has " ++ toString placeholders ++
            " $N placeholders but " ++ toString params.length ++ " params were supplied"))
        else .ok { command := classify stmt, isSelect := decide (classify stmt = "SELECT"),
                   hasReturning := returningPresent stmt, placeholderCount := placeholders }
    | .ok stmts => .error (.validation "multiple_statements" ("expected 1 statement, got " ++
        toString stmts.length ++ " (use one POST per statement)"))

end CoopDB
