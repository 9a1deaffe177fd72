import CoopDB.Core.Audit
import CoopDB.Core.Authenticate
import CoopDB.Core.RateLimit

/-!
# The Way to a Handler

What a request to a `/v1` route or to `/v1/mcp` passes before its handler:
`Authenticate` of `internal/auth/middleware.go`, and inside it the limiter of
`internal/httpapi/middleware.go`. `wrap` in `Routes` puts them around every
handler of the API, and `run` of `cmd/server/main.go` does the same for MCP. The
middlewares further out answer nothing themselves.

A middleware is a function from handlers to handlers, as in the source, so the
order they are put together in is the order of the model. Requests are served
one after the other. `Core.Auth` has `resolve` call by call, with other requests
in between.

A request brings with it what the table answers, and the clock as it is read on
the way. The number of lookups is only recorded.

## Main definitions

* `Served`, `Front.serve`: Requests one after the other.
-/

namespace CoopDB

/-- The header of a request, what `FindByKeyID` answers if it is asked, and the
    clock as read by `Get`, by `Put`, for `Active`, for a new bucket, by `Allow` and
    by `Tokens`. -/
structure FrontRequest where
  header : String
  found : Except ResolveError KeyRecord
  getAt : Time
  putAt : Time
  checkedAt : Time
  limiterAt : Time
  allowAt : Time
  tokensAt : Time

/-- The verify cache, the limiter, and how often a key was looked up. -/
structure Front where
  cache : VerifyCache
  limit : RateLimit
  lookups : Nat

/-- A handler gets the context the request has by then. -/
abbrev Handler := Option WorkspaceContext → FrontRequest → Front → ApiReply × Front

/-- A document of `writeAuthError`. -/
def authError (status : Int) (code detail : String) : ApiReply :=
  .problem { title := code, status := status, detail := detail, sqlState := "" }

/-- How `Authenticate` answers an error of `resolve`. -/
def ResolveError.reply : ResolveError → ApiReply
  | .keyNotFound => authError 401 "invalid_api_key" "the supplied API key is not valid"
  | .invalidKey => authError 401 "invalid_api_key" "the supplied API key is not valid"
  | .other _ => authError 500 "auth_internal" "internal authentication error"

namespace Front

/-- `resolve`. Past the cache it comes to the lookup and to argon2id, which is also
    run when the lookup fails. -/
def resolve (x : AuthExternals) (p : ParsedKey) (r : FrontRequest) (s : Front) :
    Except ResolveError KeyRecord × Front :=
  let key := x.cacheKey p.fullToken
  let got := s.cache.get key r.getAt
  match got.1 with
  | some rec => (.ok rec, { s with cache := got.2 })
  | none =>
    let s := { s with cache := got.2, lookups := s.lookups + 1 }
    match r.found with
    -- The result of the dummy hash is ignored.
    | .error e => (.error e, s)
    | .ok rec =>
      if x.verifySecret p.secret rec.secretHash then
        (.ok rec, { s with cache := s.cache.put key rec r.putAt })
      else (.error .invalidKey, s)

/-- `Authenticate`. -/
def authenticate (x : AuthExternals) (next : Handler) : Handler := fun _ r s =>
  match parseBearer r.header with
  | none =>
    (authError 401 "missing_or_invalid_api_key"
      "Authorization header must be 'Bearer acd_<env>_<id>_<secret>'", s)
  | some p =>
    match resolve x p r s with
    | (.error e, s) => (e.reply, s)
    | (.ok rec, s) =>
      match CoopDB.authenticate r.checkedAt rec with
      | .error problem => (.problem problem, s)
      | .ok ws => next (some ws) r s

/-- `RateLimit.Middleware`. -/
def rateLimit (next : Handler) : Handler := fun ws r s =>
  let found := s.limit.limiterFor (limiterKey (ws.map (·.keyDBID))) r.limiterAt
  let asked := found.1.allow found.2 r.allowAt
  if asked.2 then next ws r { s with limit := (asked.1.tokens found.2 r.tokensAt).1 }
  else (.problem rateLimited, { s with limit := asked.1 })

/-- `wrap`: the limiter around the handler, and `Authenticate` around both. -/
def wrap (x : AuthExternals) (h : Handler) : Handler :=
  authenticate x (rateLimit h)

end Front

/-- The routes of the API, and the MCP endpoint. -/
inductive Route
  | sqlExecute
  | rpcCall
  | rotateKey
  | createKey
  | me
  | mcp
  deriving DecidableEq

namespace Front

/-- Every route is wrapped, and so is the MCP endpoint. -/
def routes (x : AuthExternals) (handlers : Route → Handler) (route : Route) : Handler :=
  wrap x (handlers route)

end Front

/-- A request that was served, with its reply and the process around it. -/
structure Served where
  before : Front
  route : Route
  request : FrontRequest
  reply : ApiReply
  after : Front

/-- Serve requests one after the other. They come without a context. -/
def Front.serve (x : AuthExternals) (handlers : Route → Handler) :
    Front → List (Route × FrontRequest) → List Served
  | _, [] => []
  | s, (route, r) :: rs =>
    let answered := Front.routes x handlers route none r s
    { before := s, route := route, request := r, reply := answered.1, after := answered.2 } ::
      Front.serve x handlers answered.2 rs

end CoopDB
