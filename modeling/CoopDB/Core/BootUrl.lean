import CoopDB.Core.Basic
import CoopDB.Lib.Percent
import CoopDB.Lib.Replace

/-!
# The Migrations URL

What the seven functions of `internal/db` that connect as the owner do with the
migrations URL and the owner's password, up to the point where the URL is handed to
`migrate.New` or `pgx.Connect`: `RunMigrations`, `ForceVersion`, `EnsureOwnerRole`,
`SetRolePassword`, `MintKey`, `RevokeKey` and `ListKeys`. Texts are bytes here, as
they are in Go.

`net/url` parses URLs and puts them together again, and nothing but the shape of a
scheme is known of it. An error of `url.Parse` is the text it has.
Likewise `pgx.Connect` may refuse a connection string that it cannot parse.

All but one of the functions redact whatever they return. `ListKeys` has no deferred
redaction and wraps the error of the connection only.

## Main definitions

* `Boot.runMigrations` to `Boot.listKeys`: The seven functions.
-/

namespace CoopDB

/-- The user part of a URL. -/
structure Userinfo where
  username : Bytes
  password : Option Bytes
  deriving DecidableEq

/-- A URL: its scheme, its user part, and all that is behind. -/
structure Url where
  scheme : Bytes
  user : Option Userinfo
  rest : Bytes
  deriving DecidableEq

/-- A byte of a scheme: a letter, a digit, or one of three signs. -/
def isSchemeByte (b : UInt8) : Bool :=
  (0x61 ≤ b && b ≤ 0x7A) || (0x30 ≤ b && b ≤ 0x39) || b == 0x2B || b == 0x2D || b == 0x2E

/-- A text in quotation marks. -/
def inQuotes (text : Bytes) : Bytes :=
  0x22 :: text ++ [0x22]

/-- `net/url`, and the verb `%q`. -/
structure UrlLib where
  parse : Bytes → Except Bytes Url
  string : Url → Bytes
  quote : Bytes → Bytes
  scheme_parse : ∀ raw u, parse raw = .ok u → u.scheme.all isSchemeByte = true
  quote_scheme : ∀ text, text.all isSchemeByte = true → quote text = inQuotes text

/-- The libraries. `pgx` and `uuid` give the texts of the errors. -/
structure BootEnv where
  url : UrlLib
  pgx : Bytes → Option Bytes
  uuid : Bytes → Option Bytes

/-- What secrets are replaced by. -/
def redactedMarker : Bytes := utf8 "REDACTED"

/-- `redactSecrets`, on the text of an error. A secret that is not there is replaced
    nowhere. -/
def redactSecrets (secrets : List Bytes) (text : Bytes) : Bytes :=
  Replace.replaceWords redactedMarker secrets text

/-- `urlPassword`. -/
def urlPassword (lib : UrlLib) (rawURL : Bytes) : Bytes :=
  match lib.parse rawURL with
  | .error _ => []
  | .ok u => (u.user.bind Userinfo.password).getD []

/-- `injectPassword`. -/
def injectPassword (lib : UrlLib) (rawURL password : Bytes) : Except Bytes Bytes :=
  if password = [] then .ok rawURL
  else
    match lib.parse rawURL with
    | .error e => .error e
    | .ok u =>
      match u.user with
      | none =>
        .error (utf8 "URL " ++ lib.quote rawURL ++
          utf8 " has no user component to attach a password to")
      | some user =>
        .ok (lib.string { u with user := some { user with password := some password } })

/-- The schemes that are rewritten, and what they are rewritten to. -/
def migrateSchemes : List Bytes := [utf8 "postgres", utf8 "postgresql", utf8 "pgx5"]

/-- `rewriteSchemeForMigrate`. -/
def rewriteSchemeForMigrate (lib : UrlLib) (rawURL : Bytes) : Except Bytes Bytes :=
  match lib.parse rawURL with
  | .error e => .error e
  | .ok u =>
    if u.scheme ∈ migrateSchemes then .ok (lib.string { u with scheme := utf8 "pgx5" })
    else
      .error (utf8 "unsupported scheme " ++ lib.quote u.scheme ++
        utf8 " (expected postgres / postgresql / pgx5)")

/-- Why a function gives up before it is connected. -/
inductive BootError
  | arguments (text : Bytes)
  | url (text : Bytes)
  deriving DecidableEq

/-- The error with its secrets redacted. -/
def BootError.redact (secrets : List Bytes) : BootError → BootError
  | .arguments text => .arguments (redactSecrets secrets text)
  | .url text => .url (redactSecrets secrets text)

/-- `db.isSafeIdent`. -/
def isSafeRole (s : Bytes) : Bool :=
  s ≠ [] && s.length ≤ 63 &&
    s.all fun b => (0x61 ≤ b && b ≤ 0x7A) || (0x30 ≤ b && b ≤ 0x39) || b == 0x5F

namespace Boot

variable (x : BootEnv) (url password : Bytes)

/-- The URL with the password. -/
def injected : Except BootError Bytes :=
  (injectPassword x.url url password).mapError fun e => .url (utf8 "inject password: " ++ e)

/-- The URL for `migrate.New`. -/
def rewritten (finalURL : Bytes) : Except BootError Bytes :=
  (rewriteSchemeForMigrate x.url finalURL).mapError fun e => .url (utf8 "rewrite scheme: " ++ e)

/-- The URL for `pgx.Connect`. -/
def connected (finalURL : Bytes) : Except BootError Bytes :=
  match x.pgx finalURL with
  | some e => .error (.url (utf8 "connect: " ++ e))
  | none => .ok finalURL

/-- The deferred redaction. -/
def redacting (secrets : List Bytes) (r : Except BootError Bytes) : Except BootError Bytes :=
  r.mapError (BootError.redact secrets)

/-- An argument is refused. -/
def refuse (text : Bytes) : Except BootError Unit :=
  .error (.arguments text)

/-- `RunMigrations` and `ForceVersion` up to `migrate.New`. -/
def openRunner (empty : Bytes) : Except BootError Bytes :=
  redacting [password, urlPassword x.url url] do
    if url = [] then .error (.url empty)
    let finalURL ← injected x url password
    rewritten x finalURL

/-- The text of `RunMigrations` for an empty URL. -/
def runEmpty : Bytes := utf8 "RunMigrations: empty migrations URL"

/-- The text of `ForceVersion` for an empty URL. -/
def forceEmpty : Bytes := utf8 "ForceVersion: empty migrations URL"

/-- The text of `EnsureOwnerRole` for an empty URL. -/
def ownerEmpty : Bytes :=
  utf8 "EnsureOwnerRole: migrations database URL is empty (set " ++
    utf8 "AGENTCOOPDB_MIGRATIONS_DATABASE_URL or AGENTCOOPDB_DATABASE_URL)"

/-- `RunMigrations`. -/
def runMigrations : Except BootError Bytes :=
  openRunner x url password runEmpty

/-- `ForceVersion`. The version is not looked at before the runner is open. -/
def forceVersion : Except BootError Bytes :=
  openRunner x url password forceEmpty

/-- `EnsureOwnerRole`. -/
def ensureOwnerRole : Except BootError Bytes :=
  redacting [password, urlPassword x.url url] do
    if url = [] then .error (.url ownerEmpty)
    let finalURL ← injected x url password
    connected x finalURL

/-- The arguments of `SetRolePassword`. -/
def roleArguments (role newPassword : Bytes) : Except BootError Unit :=
  if isSafeRole role = false then
    refuse (utf8 "SetRolePassword: unsafe role identifier " ++ x.url.quote role)
  else if newPassword = [] then refuse (utf8 "SetRolePassword: empty new password")
  else if newPassword.contains 0 then refuse (utf8 "SetRolePassword: password contains NUL byte")
  else .ok ()

/-- `SetRolePassword`. -/
def setRolePassword (role newPassword : Bytes) : Except BootError Bytes :=
  redacting [password, newPassword, urlPassword x.url url] do
    roleArguments x role newPassword
    let finalURL ← injected x url password
    connected x finalURL

/-- The arguments of `MintKey`, and the key that is minted before the URL is looked
    at. `minted` is the error of that. -/
def mintArguments (workspace pgRole env : Bytes) (minted : Option Bytes) :
    Except BootError Unit :=
  if workspace = [] then refuse (utf8 "MintKey: empty workspace")
  else if pgRole = [] then refuse (utf8 "MintKey: empty pg_role")
  else if env ∉ [utf8 "dev", utf8 "live", utf8 "test"] then
    refuse (utf8 "MintKey: invalid env " ++ x.url.quote env ++ utf8 " (must be dev / live / test)")
  else
    match minted with
    | some e => refuse e
    | none => .ok ()

/-- `MintKey`. -/
def mintKey (workspace pgRole env : Bytes) (minted : Option Bytes) : Except BootError Bytes :=
  redacting [password, urlPassword x.url url] do
    mintArguments x workspace pgRole env minted
    let finalURL ← injected x url password
    connected x finalURL

/-- The argument of `RevokeKey`. -/
def revokeArguments (keyID : Bytes) : Except BootError Unit :=
  match x.uuid keyID with
  | some e => refuse (utf8 "invalid key ID " ++ x.url.quote keyID ++ utf8 ": " ++ e)
  | none => .ok ()

/-- `RevokeKey`. -/
def revokeKey (keyID : Bytes) : Except BootError Bytes :=
  redacting [password, urlPassword x.url url] do
    revokeArguments x keyID
    let finalURL ← injected x url password
    connected x finalURL

/-- `ListKeys`. The first error is returned as it is. -/
def listKeys : Except BootError Bytes := do
  let finalURL ← injected x url password
  match x.pgx finalURL with
  | some e =>
    .error (.url (utf8 "connect: " ++ redactSecrets [password, urlPassword x.url url] e))
  | none => .ok finalURL

end Boot

/-- A call of one of the seven functions, with its other arguments. -/
inductive BootCall
  | runMigrations
  | forceVersion
  | ensureOwnerRole
  | setRolePassword (role newPassword : Bytes)
  | mintKey (workspace pgRole env : Bytes) (minted : Option Bytes)
  | revokeKey (keyID : Bytes)
  | listKeys

/-- The URL that a call hands on, or its error. -/
def BootCall.target (x : BootEnv) (url password : Bytes) : BootCall → Except BootError Bytes
  | .runMigrations => Boot.runMigrations x url password
  | .forceVersion => Boot.forceVersion x url password
  | .ensureOwnerRole => Boot.ensureOwnerRole x url password
  | .setRolePassword role newPassword => Boot.setRolePassword x url password role newPassword
  | .mintKey workspace pgRole env minted =>
    Boot.mintKey x url password workspace pgRole env minted
  | .revokeKey keyID => Boot.revokeKey x url password keyID
  | .listKeys => Boot.listKeys x url password

end CoopDB
