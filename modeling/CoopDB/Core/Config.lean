import CoopDB.Core.Dispatcher
import CoopDB.Lib.Fallible

/-!
# Configuration

`internal/config/config.go`: the environment variables, their defaults and the
checks, and the two places where the configured timeouts go.

An unset variable and an empty one are the same to `os.Getenv`. A boolean that
does not parse falls back to its default, any other value that does not parse
is an error that names its variable. The variables are read in the order of the
source, so the first bad one is the one reported.

The parsers of Go's standard library and the file system are a parameter. The
only facts about them that matter are the values they return.

## Main definitions

* `Config`, `load`: The configuration.
-/

namespace CoopDB

/-- What `Load` calls outside the repository: `os`, `strconv`, `time` and
    `strings`. A parser's error is its text. -/
structure Platform where
  getenv : String → String
  readFile : String → Except String String
  parseBool : String → Except String Bool
  atoi : String → Except String Int
  parseInt : String → Nat → Except String Int
  parseFloat : String → Except String Float
  parseDuration : String → Except String Time
  durationString : Time → String
  trimSpace : String → String

section Variables

variable (x : Platform)

/-- `envOr`. -/
def envOr (key fallback : String) : String :=
  if x.getenv key ≠ "" then x.getenv key else fallback

/-- `envBool`: what does not parse is taken for unset. -/
def envBool (key : String) (fallback : Bool) : Bool :=
  if x.getenv key = "" then fallback
  else match x.parseBool (x.getenv key) with
    | .ok b => b
    | .error _ => fallback

/-- A variable with a parser: its default when unset, and an error that names
    it when it does not parse. -/
def envParsed {α : Type} (parse : String → Except String α) (key : String) (fallback : α) :
    Except String α :=
  if x.getenv key = "" then .ok fallback
  else (parse (x.getenv key)).mapError (fun e => key ++ ": " ++ e)

/-- `envInt`. -/
def envInt (key : String) (fallback : Int) : Except String Int :=
  envParsed x x.atoi key fallback

/-- `envInt32`. -/
def envInt32 (key : String) (fallback : Int) : Except String Int :=
  envParsed x (fun v => x.parseInt v 32) key fallback

/-- `envInt64`. -/
def envInt64 (key : String) (fallback : Int) : Except String Int :=
  envParsed x (fun v => x.parseInt v 64) key fallback

/-- `envFloat64`. -/
def envFloat64 (key : String) (fallback : Float) : Except String Float :=
  envParsed x x.parseFloat key fallback

/-- `envDuration`. -/
def envDuration (key : String) (fallback : Time) : Except String Time :=
  envParsed x x.parseDuration key fallback

/-- `loadSecretFromFile`: the variable itself, or the file its `_FILE` variant
    names. -/
def loadSecretFromFile (envName current : String) : Except String String :=
  if current ≠ "" then .ok current
  else
    let path := x.getenv (envName ++ "_FILE")
    if path = "" then .ok ""
    else match x.readFile path with
      | .error e => .error ("read " ++ envName ++ "_FILE " ++ goQuote path ++ ": " ++ e)
      | .ok b => .ok (x.trimSpace b)

end Variables

/-- The runtime configuration. -/
structure Config where
  httpAddr : String
  readHeaderTimeout : Time
  readTimeout : Time
  writeTimeout : Time
  idleTimeout : Time
  maxRequestBodyBytes : Int
  maxResponseBodyBytes : Int
  insecureHTTP : Bool
  trustProxy : Bool
  databaseURL : String
  migrationsDatabaseURL : String
  gatewayPassword : String
  ownerPassword : String
  databaseMaxConns : Int
  databaseMinConns : Int
  databaseConnLifetime : Time
  statementTimeout : Time
  idleInTxTimeout : Time
  maxStatementBytes : Int
  maxStatementParams : Int
  authCacheSize : Int
  authCacheTTL : Time
  keyRotateOverlap : Time
  rateLimitPerSecond : Float
  rateLimitBurst : Int
  auditDisabled : Bool
  auditIncludeSQL : Bool
  logLevel : String
  logFormat : String
  metricsEnabled : Bool
  otelEndpoint : String
  mcpEnabled : Bool
  migrateOnStart : Bool

/-- One second, in nanoseconds. -/
def second : Time :=
  1000000000

/-- `Load`. -/
def load (x : Platform) : Except String Config := do
  let databaseURL := x.getenv "AGENTCOOPDB_DATABASE_URL"
  Fallible.ensure (databaseURL != "") "AGENTCOOPDB_DATABASE_URL is required"
  let migrationsDatabaseURL := envOr x "AGENTCOOPDB_MIGRATIONS_DATABASE_URL" databaseURL
  let readHeaderTimeout ← envDuration x "AGENTCOOPDB_READ_HEADER_TIMEOUT" (5 * second)
  let readTimeout ← envDuration x "AGENTCOOPDB_READ_TIMEOUT" (10 * second)
  let writeTimeout ← envDuration x "AGENTCOOPDB_WRITE_TIMEOUT" (30 * second)
  let idleTimeout ← envDuration x "AGENTCOOPDB_IDLE_TIMEOUT" (120 * second)
  let statementTimeout ← envDuration x "AGENTCOOPDB_STATEMENT_TIMEOUT" (5 * second)
  let idleInTxTimeout ← envDuration x "AGENTCOOPDB_IDLE_IN_TX_TIMEOUT" (5 * second)
  let authCacheTTL ← envDuration x "AGENTCOOPDB_AUTH_CACHE_TTL" (5 * 60 * second)
  let keyRotateOverlap ← envDuration x "AGENTCOOPDB_KEY_ROTATE_OVERLAP" (24 * 3600 * second)
  let databaseConnLifetime ← envDuration x "AGENTCOOPDB_DATABASE_CONN_LIFETIME" (30 * 60 * second)
  let maxRequestBodyBytes ← envInt64 x "AGENTCOOPDB_MAX_REQUEST_BODY_BYTES" 1048576
  let maxResponseBodyBytes ← envInt64 x "AGENTCOOPDB_MAX_RESPONSE_BODY_BYTES" 8388608
  let maxStatementBytes ← envInt x "AGENTCOOPDB_MAX_STATEMENT_BYTES" 262144
  let maxStatementParams ← envInt x "AGENTCOOPDB_MAX_STATEMENT_PARAMS" 1000
  let authCacheSize ← envInt x "AGENTCOOPDB_AUTH_CACHE_SIZE" 1024
  let rateLimitBurst ← envInt x "AGENTCOOPDB_RATE_LIMIT_BURST" 120
  let rateLimitPerSecond ← envFloat64 x "AGENTCOOPDB_RATE_LIMIT_PER_SECOND" 60
  let databaseMaxConns ← envInt32 x "AGENTCOOPDB_DATABASE_MAX_CONNS" 20
  let databaseMinConns ← envInt32 x "AGENTCOOPDB_DATABASE_MIN_CONNS" 2
  let gatewayPassword ← loadSecretFromFile x "AGENTCOOPDB_GATEWAY_PASSWORD"
    (x.getenv "AGENTCOOPDB_GATEWAY_PASSWORD")
  let ownerPassword ← loadSecretFromFile x "AGENTCOOPDB_OWNER_PASSWORD"
    (x.getenv "AGENTCOOPDB_OWNER_PASSWORD")
  Fallible.ensure (statementTimeout ≤ 60 * second)
    ("statement_timeout must be <= 60s, got " ++ x.durationString statementTimeout)
  Fallible.ensure (0 < maxStatementParams) "MAX_STATEMENT_PARAMS must be > 0"
  return { httpAddr := envOr x "AGENTCOOPDB_HTTP_ADDR" ":8080"
           readHeaderTimeout, readTimeout, writeTimeout, idleTimeout
           maxRequestBodyBytes, maxResponseBodyBytes
           insecureHTTP := envBool x "AGENTCOOPDB_INSECURE_HTTP" false
           trustProxy := envBool x "AGENTCOOPDB_TRUST_PROXY" false
           databaseURL, migrationsDatabaseURL, gatewayPassword, ownerPassword
           databaseMaxConns, databaseMinConns, databaseConnLifetime
           statementTimeout, idleInTxTimeout, maxStatementBytes, maxStatementParams
           authCacheSize, authCacheTTL, keyRotateOverlap
           rateLimitPerSecond, rateLimitBurst
           auditDisabled := envBool x "AGENTCOOPDB_AUDIT_DISABLED" false
           auditIncludeSQL := envBool x "AGENTCOOPDB_AUDIT_INCLUDE_SQL" false
           logLevel := envOr x "AGENTCOOPDB_LOG_LEVEL" "info"
           logFormat := envOr x "AGENTCOOPDB_LOG_FORMAT" "json"
           metricsEnabled := envBool x "AGENTCOOPDB_METRICS_ENABLED" true
           otelEndpoint := x.getenv "AGENTCOOPDB_OTEL_EXPORTER_OTLP_ENDPOINT"
           mcpEnabled := envBool x "AGENTCOOPDB_MCP_ENABLED" false
           migrateOnStart := envBool x "AGENTCOOPDB_MIGRATE_ON_START" true }

/-- The one executor the server builds, for the REST handler and for the
    embedded MCP server. -/
def serverExecutor (cfg : Config) : ExecutorConfig :=
  newExecutor { statementTimeout := cfg.statementTimeout
                idleInTxTimeout := cfg.idleInTxTimeout
                maxResponseBytes := cfg.maxResponseBodyBytes }

/-- What `handleRPCCall` and the embedded MCP server's `RPCCall` pass on: the
    configured timeouts as they are. -/
def serverCallInput (cfg : Config) (workspaceID pgRole : String)
    (args : List (String × Json.Value)) : CallInput :=
  { workspaceID := workspaceID, pgRole := pgRole, args := args
    statementTimeout := cfg.statementTimeout, idleInTxTimeout := cfg.idleInTxTimeout }

end CoopDB
