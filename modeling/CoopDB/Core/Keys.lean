import CoopDB.Core.Tenant
import CoopDB.Lib.Fallible

/-!
# API Keys

The table `api_keys` and the operations of `internal/auth/store.go` on it, with
the two handlers of `internal/httpapi/api.go` that mint keys.

Each operation is a transaction, and here it runs in one piece: where it
succeeds it answers the table it commits and what it returns. A call of the
database that fails ends the operation with that error and rolls it back, so
there is no table to answer. Where other requests can come in between the
statements, they are taken one at a time (`Core.Auth`), with the same row
operations.

The columns `created_at` and `last_used_at` are left out, since no decision
reads them, and so is the record that `CreatedKey` carries next to the token,
which no caller reads. The random draws of `uuid.New`, `Mint` and `HashSecret`
are an argument. Role membership is asked of the database, so a role graph is
an argument too.

## Main definitions

* `KeyRequest`, `serveKeys`: Requests to the handlers, one after the other.
-/

namespace CoopDB

/-- The env tags. -/
inductive KeyEnvironment
  | live
  | dev
  | test
  deriving DecidableEq, Repr

/-- The tag as it stands in tokens and in the table. -/
def KeyEnvironment.tag : KeyEnvironment → String
  | .live => "live"
  | .dev => "dev"
  | .test => "test"

/-- `IsValid`, with the tag it recognises. -/
def keyEnvironment (s : String) : Option KeyEnvironment :=
  if s = "live" then some .live
  else if s = "dev" then some .dev
  else if s = "test" then some .test
  else none

/-- One row of `api_keys`, without the id it is stored under. -/
structure KeyRow where
  workspaceID : Uuid
  keyID : String
  secretHash : String
  env : KeyEnvironment
  pgRole : String
  name : Option String
  expiresAt : Option Time
  revokedAt : Option Time
  replacesKeyID : Option Uuid
  deriving DecidableEq, Repr

/-- The rows by primary key. -/
abbrev Keys := Uuid → Option KeyRow

/-- `Active`: not revoked, and not past its expiry. -/
def isActive (revokedAt expiresAt : Option Time) (now : Time) : Bool :=
  match revokedAt with
  | some _ => false
  | none =>
    match expiresAt with
    | some e => now < e
    | none => true

/-- A row is active exactly while the key it stands for is usable. -/
def KeyRow.active (row : KeyRow) (now : Time) : Bool :=
  isActive row.revokedAt row.expiresAt now

/-- A row as a lookup returns it, ids as text. -/
structure KeyRecord where
  id : String
  workspaceID : String
  keyID : String
  secretHash : String
  env : KeyEnvironment
  pgRole : String
  name : String
  expiresAt : Option Time
  revokedAt : Option Time
  replacesKeyID : Option String
  deriving DecidableEq, Repr

/-- `Active` of a record. -/
def KeyRecord.active (rec : KeyRecord) (now : Time) : Bool :=
  isActive rec.revokedAt rec.expiresAt now

/-- The code outside the repository that the key operations call. -/
structure KeyExternals where
  uuidParse : String → Except String Uuid
  uuidString : Uuid → String
  uuidParse_uuidString : ∀ u, uuidParse (uuidString u) = .ok u
  uuidString_ne_empty : ∀ u, uuidString u ≠ ""

/-- The record `FindByKeyID` scans a row into. -/
def KeyRow.record (x : KeyExternals) (id : Uuid) (row : KeyRow) : KeyRecord :=
  { id := x.uuidString id, workspaceID := x.uuidString row.workspaceID, keyID := row.keyID
    secretHash := row.secretHash, env := row.env, pgRole := row.pgRole
    name := row.name.getD "", expiresAt := row.expiresAt, revokedAt := row.revokedAt
    replacesKeyID := row.replacesKeyID.map x.uuidString }

/-- What the middleware attaches to an authenticated request. -/
structure WorkspaceContext where
  workspaceID : String
  keyID : String
  keyDBID : String
  pgRole : String
  env : KeyEnvironment

/-- The context of a request authenticated with a record. -/
def KeyRecord.context (rec : KeyRecord) : WorkspaceContext :=
  { workspaceID := rec.workspaceID, keyID := rec.keyID, keyDBID := rec.id, pgRole := rec.pgRole
    env := rec.env }

/-- The Postgres roles: which exist, `pg_has_role(a, b, 'USAGE')`, and which
    have grants on the schema `agentcoopdb`. -/
structure PgRoles where
  rolname : String → Bool
  hasRole : String → String → Bool
  schemaGrants : String → Bool

/-- The random draws for one key: its id, its key id, the full token, and the
    hash of its secret. -/
structure Minted where
  id : Uuid
  keyID : String
  fullToken : String
  secretHash : String
  deriving DecidableEq, Repr

/-- What `Create` and `Rotate` return. -/
structure CreatedKey where
  id : String
  keyID : String
  fullToken : String
  deriving DecidableEq, Repr

/-- The key as it is returned. -/
def Minted.created (m : Minted) (x : KeyExternals) : CreatedKey :=
  { id := x.uuidString m.id, keyID := m.keyID, fullToken := m.fullToken }

/-- An empty name is stored as null. -/
def nullIf (name : String) : Option String :=
  if name = "" then none else some name

/-- What the database says to an id that is taken. -/
def duplicateKey : DbError :=
  .pg { code := "23505"
        message := "duplicate key value violates unique constraint \"api_keys_pkey\"" }

/-- Insert a row under a new id. -/
def Keys.insert (keys : Keys) (id : Uuid) (row : KeyRow) : Except DbError Keys :=
  match keys id with
  | some _ => .error duplicateKey
  | none => .ok (Function.update keys id (some row))

/-- The argument of `Create`. -/
structure CreateKeyInput where
  workspaceID : String
  env : String
  pgRole : String
  name : String
  expiresAt : Option Time

/-- The database's answers to the calls of `Create`, `none` where a call
    succeeds. -/
structure CreateReplies where
  begin : Option DbError
  roleExists : Option DbError
  hasRole : Option DbError
  insert : Option DbError
  commit : Option DbError

/-- The row `Create` inserts. -/
def createdRow (wsID : Uuid) (env : KeyEnvironment) (m : Minted) (input : CreateKeyInput) :
    KeyRow :=
  { workspaceID := wsID, keyID := m.keyID, secretHash := m.secretHash, env := env
    pgRole := input.pgRole, name := nullIf input.name, expiresAt := input.expiresAt
    revokedAt := none, replacesKeyID := none }

/-- `Create`. -/
def create (x : KeyExternals) (roles : PgRoles) (mint : Except String Minted)
    (db : CreateReplies) (keys : Keys) (input : CreateKeyInput) :
    Except Failure (Keys × CreatedKey) := do
  let env ← Fallible.require (keyEnvironment input.env)
    (.other ("auth.Create: invalid env " ++ goQuote input.env))
  let wsID ← (x.uuidParse input.workspaceID).mapError (fun e => .other ("workspace_id: " ++ e))
  let m ← mint.mapError .other
  Fallible.raise db.begin classifyPgErr
  Fallible.raise db.roleExists (DbError.wrap "role exists check: ")
  Fallible.ensure (roles.rolname input.pgRole)
    (.other ("postgres role " ++ goQuote input.pgRole ++ " does not exist"))
  Fallible.raise db.hasRole (DbError.wrap "role membership check: ")
  Fallible.ensure (roles.hasRole "agentcoopdb_gateway" input.pgRole)
    (.other ("agentcoopdb_gateway is not a member of " ++ goQuote input.pgRole ++
      " — run: GRANT " ++ goQuote input.pgRole ++ " TO agentcoopdb_gateway"))
  Fallible.raise db.insert (DbError.wrap "insert api_keys: ")
  let keys' ← (keys.insert m.id (createdRow wsID env m input)).mapError
    (DbError.wrap "insert api_keys: ")
  Fallible.raise db.commit classifyPgErr
  return (keys', m.created x)

/-- The database's answers to the calls of `Rotate`. -/
structure RotateReplies where
  begin : Option DbError
  select : Option DbError
  insert : Option DbError
  update : Option DbError
  commit : Option DbError

/-- The row `Rotate` inserts, from the four columns it read of the old one. -/
def successorRow (oldID : Uuid) (old : KeyRow) (m : Minted) : KeyRow :=
  { workspaceID := old.workspaceID, keyID := m.keyID, secretHash := m.secretHash, env := old.env
    pgRole := old.pgRole, name := nullIf (old.name.getD ""), expiresAt := none
    revokedAt := none, replacesKeyID := some oldID }

/-- The update that schedules the old key's expiry, `none` where its `WHERE`
    does not match. -/
def scheduleExpiry (start overlap : Time) (row : KeyRow) : Option KeyRow :=
  match row.revokedAt with
  | some _ => none
  | none => some { row with expiresAt := some (start + overlap) }

/-- The update of `Revoke`, `none` where its `WHERE` does not match. -/
def revokeRow (now : Time) (row : KeyRow) : Option KeyRow :=
  match row.revokedAt with
  | some _ => none
  | none => some { row with revokedAt := some now }

/-- An update by primary key. -/
def Keys.update (keys : Keys) (id : Uuid) (f : KeyRow → Option KeyRow) : Keys :=
  match (keys id).bind f with
  | none => keys
  | some row => Function.update keys id (some row)

/-- `Rotate`, in a transaction that begins at `now`. -/
def rotate (x : KeyExternals) (mint : Except String Minted) (db : RotateReplies) (keys : Keys)
    (oldID : String) (overlap now : Time) : Except Failure (Keys × CreatedKey) := do
  let oldUUID ← (x.uuidParse oldID).mapError .other
  Fallible.raise db.begin classifyPgErr
  Fallible.raise db.select classifyPgErr
  let old ← Fallible.require (keys oldUUID) (.other "api key not found")
  let m ← mint.mapError .other
  Fallible.raise db.insert classifyPgErr
  let keys' ← (keys.insert m.id (successorRow oldUUID old m)).mapError classifyPgErr
  Fallible.raise db.update classifyPgErr
  Fallible.raise db.commit classifyPgErr
  return (keys'.update oldUUID (scheduleExpiry now overlap), m.created x)

/-- `Revoke`, and the update `db.RevokeKey` makes from another process. -/
def revoke (x : KeyExternals) (db : Option DbError) (keys : Keys) (id : String) (now : Time) :
    Except Failure Keys := do
  let u ← (x.uuidParse id).mapError .other
  Fallible.raise db classifyPgErr
  return keys.update u (revokeRow now)

/-- The decoded body of `POST /v1/auth/keys`. -/
structure CreateKeyRequest where
  workspaceID : String
  env : String
  pgRole : String
  name : String

/-- `handleKeyCreate`. -/
def handleKeyCreate (x : KeyExternals) (roles : PgRoles) (ws : WorkspaceContext)
    (body : Except String CreateKeyRequest) (mint : Except String Minted) (db : CreateReplies)
    (keys : Keys) : Except Problem (Keys × CreatedKey) := do
  Fallible.ensure (ws.pgRole == "dbadmin")
    { title := "permission_denied", status := 403
      detail := "only keys with role=dbadmin may create new keys", sqlState := "" }
  let req ← body.mapError
    (fun e => { title := "invalid_json", status := 400, detail := e, sqlState := "" })
  Fallible.ensure (req.workspaceID == "" || req.workspaceID == ws.workspaceID)
    { title := "permission_denied", status := 403
      detail := "dbadmin keys can only mint keys for their own workspace", sqlState := "" }
  (create x roles mint db keys
    { workspaceID := ws.workspaceID, env := if req.env = "" then ws.env.tag else req.env
      pgRole := req.pgRole, name := req.name, expiresAt := none }).mapError
    (fun e => mapError (some e))

/-- `handleKeyRotate`, without the eviction from the verify cache. -/
def handleKeyRotate (x : KeyExternals) (ws : WorkspaceContext) (overlap now : Time)
    (mint : Except String Minted) (db : RotateReplies) (keys : Keys) :
    Except Problem (Keys × CreatedKey) :=
  (rotate x mint db keys ws.keyDBID overlap now).mapError (fun e => mapError (some e))

/-- A request to one of the two handlers, made with a key of the table. -/
inductive KeyRequest
  | create (caller : Uuid) (body : Except String CreateKeyRequest) (mint : Except String Minted)
      (db : CreateReplies)
  | rotate (caller : Uuid) (overlap now : Time) (mint : Except String Minted) (db : RotateReplies)

/-- The table after a request. A caller that is not in the table is turned
    away, and a request that fails changes nothing. -/
def serveKeys (x : KeyExternals) (roles : PgRoles) (keys : Keys) : KeyRequest → Option Keys
  | .create caller body mint db =>
    match keys caller with
    | none => some keys
    | some row =>
      match handleKeyCreate x roles (row.record x caller).context body mint db keys with
      | .error _ => some keys
      | .ok (keys', _) => some keys'
  | .rotate caller overlap now mint db =>
    match keys caller with
    | none => some keys
    | some row =>
      match handleKeyRotate x (row.record x caller).context overlap now mint db keys with
      | .error _ => some keys
      | .ok (keys', _) => some keys'

end CoopDB
