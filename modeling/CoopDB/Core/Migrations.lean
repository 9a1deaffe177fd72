import CoopDB.Lib.MigrationRunner

/-!
# Migrations at Boot

`RunMigrations` and `ForceVersion` of `internal/db/migrate.go` from the point on
where the runner is open. What they do with the URL before is in `Core.BootUrl`.

If the database is dirty, `RunMigrations` forces the number before the dirty
version and tries once more.

## Main definitions

* `afterRetry`, `runMigrations`, `forceVersion`: The two functions.
-/

namespace CoopDB

open MigrationRunner

/-- The errors `RunMigrations` returns, with the runner's error inside. -/
inductive RunError
  | up (err : MigrationRunner.Error)
  | force (dirty prev : Int) (err : MigrationRunner.Error)
  | retry (dirty : Int) (err : MigrationRunner.Error)
  deriving DecidableEq

/-- The texts of the errors, for texts of the runner's errors. -/
def RunError.text (describe : MigrationRunner.Error → String) : RunError → String
  | .up err => "migrate.Up: " ++ describe err
  | .force dirty prev err =>
    "migrate.Up: dirty v" ++ toString dirty ++ "; force to " ++ toString prev ++ " failed: " ++
      describe err
  | .retry dirty err =>
    "migrate.Up: dirty v" ++ toString dirty ++ "; retry after force also failed: " ++ describe err

/-- `RunMigrations` after the second `Up`. -/
def afterRetry (version : Int) : Option MigrationRunner.Error × State → Option RunError × State
  | (none, s) => (none, s)
  | (some .noChange, s) => (none, s)
  | (some err, s) => (some (.retry version err), s)

/-- `RunMigrations` with an open runner. -/
def runMigrations (src : Source) (body : Nat → Option String) (s : State) :
    Option RunError × State :=
  match up src body s with
  | (none, s) => (none, s)
  | (some .noChange, s) => (none, s)
  | (some (.dirty version), s) =>
    let prevVersion := version - 1
    match force prevVersion s with
    | (some err, s) => (some (.force version prevVersion err), s)
    | (none, s) => afterRetry version (up src body s)
  | (some err, s) => (some (.up err), s)

/-- `ForceVersion` with an open runner. -/
def forceVersion (version : Int) (s : State) : Option MigrationRunner.Error × State :=
  force version s

end CoopDB
