import CoopDB.Core.Json

/-!
# Errors and Problem Documents

`internal/httpapi/errors.go`: how an error of the validator, the executor or
the database becomes the problem document and the status a client sees.

An error is kept as far as `MapError` can tell errors apart. Wrapping a
Postgres error with more text leaves its code and message where `errors.As`
finds them, so a wrapped Postgres error is the same `Failure` as a bare one,
while the text of any other error grows by the prefix.

`Problem` has two more fields in the source, `type` and `instance`. Nothing
sets them, and empty fields are left out of the document.

## Main definitions

* `mapPgError`, `mapError`: The mapping.

## Theorems

* `mapError_status_ge`: An error is never reported as a success.
-/

namespace CoopDB

/-- The fields of `pgconn.PgError` that are read. -/
structure PgError where
  code : String
  message : String
  deriving DecidableEq, Repr

/-- What a call of the driver fails with. -/
inductive DbError
  | pg (e : PgError)
  | other (text : String)
  deriving DecidableEq, Repr

/-- An error as `MapError` distinguishes it. -/
inductive Failure
  | responseTooLarge
  | validation (code message : String)
  | pg (e : PgError)
  | other (text : String)
  deriving DecidableEq, Repr

/-- `fmt.Errorf` with a prefix and the error itself. -/
def DbError.wrap (context : String) : DbError → Failure
  | .pg e => .pg e
  | .other text => .other (context ++ text)

/-- `classifyPgErr`: a Postgres error is exposed, anything else is passed
    through. -/
def classifyPgErr : DbError → Failure
  | .pg e => .pg e
  | .other text => .other text

/-- The RFC 7807 payload. -/
structure Problem where
  title : String
  status : Int
  detail : String
  sqlState : String
  deriving DecidableEq, Repr

/-- A field that is left out when it is empty. -/
def omitEmpty (name value : String) : List (String × String) :=
  if value = "" then [] else [(name, Json.quote value)]

/-- `json.Marshal` of a problem. -/
def Problem.marshal (p : Problem) : String :=
  Json.object ([("title", Json.quote p.title), ("status", toString p.status)] ++
    omitEmpty "detail" p.detail ++ omitEmpty "sqlstate" p.sqlState)

/-- The status and title for an SQLSTATE. -/
def mapPgCode (code : String) : Int × String :=
  if code = "42501" then (403, "permission_denied")
  else if code = "42P01" ∨ code = "42883" then (400, "undefined_object")
  else if code = "23505" then (409, "unique_violation")
  else if code = "23502" ∨ code = "23503" ∨ code = "23514" then (409, "integrity_violation")
  else if code = "22001" ∨ code = "22003" ∨ code = "22P02" ∨ code = "22008" then
    (400, "invalid_input")
  else if code = "57014" then (408, "statement_timeout")
  else if code = "53300" then (503, "too_many_connections")
  else if code = "40001" then (409, "serialization_failure")
  else if code = "40P01" then (409, "deadlock_detected")
  else (500, "database_error")

/-- `mapPgError`. -/
def mapPgError (e : PgError) : Problem :=
  { title := (mapPgCode e.code).2, status := (mapPgCode e.code).1, detail := e.message,
    sqlState := e.code }

/-- `MapError`, `none` being the nil error. -/
def mapError : Option Failure → Problem
  | none => { title := "ok", status := 200, detail := "", sqlState := "" }
  | some .responseTooLarge =>
    { title := "response_too_large", status := 413,
      detail := "response exceeds maximum allowed size", sqlState := "" }
  | some (.validation code message) =>
    { title := code, status := 400, detail := message, sqlState := "" }
  | some (.pg e) => mapPgError e
  | some (.other text) => { title := "internal", status := 500, detail := text, sqlState := "" }

theorem mapPgCode_status_ge (code : String) : 400 ≤ (mapPgCode code).1 := by
  have hfst : ∀ (p : Prop) [Decidable p] (a b : Int × String), 400 ≤ a.1 → 400 ≤ b.1 →
      400 ≤ (if p then a else b).1 := by
    intro p _ a b ha hb
    by_cases hp : p
    · rwa [if_pos hp]
    · rwa [if_neg hp]
  unfold mapPgCode
  repeat' apply hfst
  all_goals decide

/-- An error is never reported as a success. -/
theorem mapError_status_ge (e : Failure) : 400 ≤ (mapError (some e)).status := by
  cases e with
  | responseTooLarge | validation => simp only [mapError]; omega
  | pg e => exact mapPgCode_status_ge e.code
  | other => simp only [mapError]; omega

end CoopDB
