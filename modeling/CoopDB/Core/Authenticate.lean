import CoopDB.Core.Auth

/-!
# The Authentication Middleware

`Authenticate` of `internal/auth/middleware.go` from the header to the handler,
on top of the interleaved steps of `resolve` in `Core.Auth`.

`ParseBearer` reads the token by position. Its lengths are in bytes, so the
model counts bytes too; a header is a text, so bytes that are no UTF-8 are left
out. A request whose header does not parse is turned away before anything else
happens. A request whose record is found goes on to the handler if the record
is active at that moment, by a second reading of the clock.

The table `api_keys` can also be changed by hand, and any part of the program
can call `RevokeFromCache`, so both are events of their own here.

The system keeps a record of what the lookups did, which no step reads: the
token of each request, what the cache returned, what was read from the table and
verified, and what was put in the cache.

## Main definitions

* `World`, `WorldEvent`, `worldStep`, `World.initial`: The system.
-/

namespace CoopDB

/-- `unicode.IsSpace`. -/
def isSpace (c : Char) : Bool :=
  let n := c.toNat
  (9 ≤ n && n ≤ 13) || n == 0x20 || n == 0x85 || n == 0xA0 || n == 0x1680 ||
    (0x2000 ≤ n && n ≤ 0x200A) || n == 0x2028 || n == 0x2029 || n == 0x202F || n == 0x205F ||
    n == 0x3000

/-- `strings.TrimSpace`. -/
def trimSpace (text : List Char) : List Char :=
  ((text.dropWhile isSpace).reverse.dropWhile isSpace).reverse

/-- `strings.TrimPrefix`. -/
def trimPrefix (start text : List Char) : List Char :=
  if start.isPrefixOf text then text.drop start.length else text

/-- The length of a text in bytes. -/
def byteLength : List Char → Nat
  | [] => 0
  | c :: text => c.utf8Size + byteLength text

/-- Split a text after so many bytes, `none` where that is inside a character or
    past the end. -/
def splitBytes : List Char → Nat → Option (List Char × List Char)
  | text, 0 => some ([], text)
  | [], _ + 1 => none
  | c :: text, n + 1 =>
    if c.utf8Size ≤ n + 1 then
      (splitBytes text (n + 1 - c.utf8Size)).map fun p => (c :: p.1, p.2)
    else none

/-- The encoded length of a key id. -/
def keyIDEncodedLen : Nat := 16

/-- The encoded length of a secret. -/
def secretEncodedLen : Nat := 32

/-- `ParseBearer` from the trimmed token on. A byte that is an underscore is a
    character of its own. -/
def parseToken (header : List Char) : Option ParsedKey :=
  if "acd_".toList.isPrefixOf header then
    let rest := header.drop 4
    let env := rest.takeWhile (· != '_')
    -- An empty tag is none of the three.
    if (keyEnvironment (String.ofList env)).isNone then none
    else
      match rest.drop env.length with
      | '_' :: rest =>
        if byteLength rest ≠ keyIDEncodedLen + 1 + secretEncodedLen then none
        else
          match splitBytes rest keyIDEncodedLen with
          | some (keyID, '_' :: secret) =>
            some { keyID := String.ofList keyID, secret := String.ofList secret
                   fullToken := String.ofList header }
          | _ => none
      | _ => none
  else none

/-- `ParseBearer`. -/
def parseBearer (header : String) : Option ParsedKey :=
  let header := trimSpace header.toList
  if header.isEmpty then none
  else parseToken (trimSpace (trimPrefix "Bearer ".toList header))

/-- The end of `Authenticate`: the context the handler gets, or the reply. -/
def authenticate (now : Time) (rec : KeyRecord) : Except Problem WorkspaceContext :=
  if rec.active now then .ok rec.context
  else .error { title := "key_inactive", status := 401
                detail := "this key is revoked or expired", sqlState := "" }

/-- What a lookup did: it got a record from the cache, read one from the table
    by the key id of its token, verified its secret against one, or put one in
    the cache. -/
inductive Deed
  | lookedUp (c : CallId) (p : ParsedKey) (rec : KeyRecord) (time : Time)
  | read (c : CallId) (p : ParsedKey) (rec : KeyRecord)
  | verified (c : CallId) (p : ParsedKey) (rec : KeyRecord)
  | put (c : CallId) (p : ParsedKey) (rec : KeyRecord) (time : Time)
  deriving DecidableEq

/-- What a step of `resolve` does, if it is taken. -/
def resolveDeeds (x : AuthExternals) (s : AuthState) (c : CallId) (p : ParsedKey) :
    ResolveStage → AuthAct → List Deed
  | .get, .next =>
    ((s.cache.get (x.cacheKey p.fullToken) s.now).1.map fun rec =>
      Deed.lookedUp c p rec s.now).toList
  | .find, .found u =>
    ((s.keys.committed u).map fun row => Deed.read c p (row.record x.toKeyExternals u)).toList
  | .verify rec _, .next =>
    if x.verifySecret p.secret rec.secretHash then [.verified c p rec] else []
  | .put rec _, .next => [.put c p rec s.now]
  | _, _ => []

/-- What an event does. -/
def deeds (d : AuthDeployment) (s : AuthState) : AuthEvent → List Deed
  | .call c act =>
    match (s.calls c).phase with
    | .resolve p stage => resolveDeeds d.externals s c p stage act
    | _ => []
  | _ => []

/-- The process and the table, the token of each request, and what the lookups
    did. -/
structure World where
  auth : AuthState
  tokens : CallId → Option ParsedKey
  done : List Deed

/-- What can happen: a request arrives, the process goes on, the table is changed
    by hand, or an id is flagged. -/
inductive WorldEvent
  | request (c : CallId) (header : String) (rotates : Bool)
  | process (e : AuthEvent)
  | rows (keys : Keys)
  | revokeFromCache (keyDBID : String)

/-- The event lets a request in past `ParseBearer`. -/
def AuthEvent.isRequest : AuthEvent → Bool
  | .start _ (.request _ _) => true
  | _ => false

/-- One step. -/
def worldStep (d : AuthDeployment) (w : World) : WorldEvent → Option World
  | .request c header rotates =>
    match parseBearer header with
    | none => some w
    | some p =>
      (authStep d w.auth (.start c (.request p rotates))).map fun s =>
        { w with auth := s, tokens := Function.update w.tokens c (some p) }
  | .process e =>
    if e.isRequest then none
    else (authStep d w.auth e).map fun s => { w with auth := s, done := w.done ++ deeds d w.auth e }
  | .rows keys =>
    some { w with auth := { w.auth with keys := { w.auth.keys with committed := keys } } }
  | .revokeFromCache keyDBID =>
    some { w with auth := { w.auth with cache := w.auth.cache.revokeByDBID keyDBID } }

/-- A table, an empty cache, and no requests. -/
def World.initial (keys : Keys) (ttl now : Time) : World :=
  { auth := AuthState.initial keys ttl now, tokens := fun _ => none, done := [] }

/-- The record and the context a request would be forwarded with now. -/
def World.forwards (w : World) (c : CallId) : Option (KeyRecord × WorkspaceContext) :=
  match (w.auth.calls c).phase with
  | .resolved rec _ =>
    match authenticate w.auth.now rec with
    | .ok ws => some (rec, ws)
    | .error _ => none
  | _ => none

end CoopDB
