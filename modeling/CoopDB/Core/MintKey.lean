import CoopDB.Core.Keys

/-!
# Minting a Key From the Command Line

`MintKey` of `internal/db/keymint.go`, which an operator calls with the
connection of the migrations, and the three ways a row gets into `api_keys`
side by side.

The workspace is looked up by name and created where there is none of that
name. Names are not unique and the query has no order, so the database may
answer any workspace of the name. The role is taken as it is given. It may not
be empty, and that is all that is asked of it.

What `injectPassword` makes of the URL is an answer like those of the database. The
passwords that are cut out of the texts of errors are left out, and so is the
workspace's row but for its id and its name.

## Main definitions

* `Issue`, `KeyStore.issue`: The calls that insert keys, one after the other.
-/

namespace CoopDB

/-- The workspaces, by id and name, and the keys. -/
structure KeyStore where
  workspaces : List (Uuid × String)
  keys : Keys

/-- The answers to the calls of `MintKey`, `none` where a call succeeds. `inject` is
    the error of setting the password in the URL, and `first` says which of several
    workspaces of one name the lookup answers. -/
structure MintReplies where
  inject : Option String
  connect : Option DbError
  begin : Option DbError
  lookup : Option DbError
  first : Nat
  createWorkspace : Option DbError
  insert : Option DbError
  commit : Option DbError

/-- The error of a URL in which no password can be set. -/
def injectFailure (e : String) : Failure :=
  .other ("inject password: " ++ e)

/-- The row `MintKey` inserts. -/
def mintedRow (wsID : Uuid) (env : KeyEnvironment) (m : Minted) (pgRole : String) : KeyRow :=
  { workspaceID := wsID, keyID := m.keyID, secretHash := m.secretHash, env := env
    pgRole := pgRole, name := some "mint-key", expiresAt := none, revokedAt := none
    replacesKeyID := none }

/-- Find the workspace of the name, or create one with the new id. -/
def KeyStore.workspace (s : KeyStore) (name : String) (fresh : Uuid) (db : MintReplies) :
    Except Failure (Uuid × List (Uuid × String)) := do
  Fallible.raise db.lookup (DbError.wrap "lookup workspace: ")
  match s.workspaces.filter (fun w => w.2 == name) with
  | [] =>
    Fallible.raise db.createWorkspace (DbError.wrap "create workspace: ")
    return (fresh, s.workspaces ++ [(fresh, name)])
  | w :: ws => return (((w :: ws).getD db.first w).1, s.workspaces)

/-- `MintKey`. The error of `mint` is that of `Mint` or of `HashSecret`, with
    its context. -/
def mintKey (mint : Except String Minted) (fresh : Uuid) (db : MintReplies) (s : KeyStore)
    (workspace pgRole env : String) : Except Failure (KeyStore × String) := do
  Fallible.ensure (workspace != "") (.other "MintKey: empty workspace")
  Fallible.ensure (pgRole != "") (.other "MintKey: empty pg_role")
  let env' ← Fallible.require (keyEnvironment env)
    (.other ("MintKey: invalid env " ++ goQuote env ++ " (must be dev / live / test)"))
  let m ← mint.mapError .other
  Fallible.raise db.inject injectFailure
  Fallible.raise db.connect (DbError.wrap "connect: ")
  Fallible.raise db.begin (DbError.wrap "begin tx: ")
  let found ← s.workspace workspace fresh db
  Fallible.raise db.insert (DbError.wrap "insert api_key: ")
  let keys' ← (s.keys.insert m.id (mintedRow found.1 env' m pgRole)).mapError
    (DbError.wrap "insert api_key: ")
  Fallible.raise db.commit (DbError.wrap "commit: ")
  return ({ workspaces := found.2, keys := keys' }, m.fullToken)

/-- A call of `Store.Create`, `Store.Rotate` or `MintKey`. -/
inductive Issue
  | create (mint : Except String Minted) (db : CreateReplies) (input : CreateKeyInput)
  | rotate (mint : Except String Minted) (db : RotateReplies) (oldID : String)
      (overlap now : Time)
  | mintKey (mint : Except String Minted) (fresh : Uuid) (db : MintReplies)
      (workspace pgRole env : String)

/-- The tables after a call. A call that fails changes nothing. -/
def KeyStore.issue (x : KeyExternals) (roles : PgRoles) (s : KeyStore) : Issue → Option KeyStore
  | .create mint db input =>
    match CoopDB.create x roles mint db s.keys input with
    | .error _ => some s
    | .ok (keys, _) => some { s with keys := keys }
  | .rotate mint db oldID overlap now =>
    match CoopDB.rotate x mint db s.keys oldID overlap now with
    | .error _ => some s
    | .ok (keys, _) => some { s with keys := keys }
  | .mintKey mint fresh db workspace pgRole env =>
    match CoopDB.mintKey mint fresh db s workspace pgRole env with
    | .error _ => some s
    | .ok (s', _) => some s'

end CoopDB
