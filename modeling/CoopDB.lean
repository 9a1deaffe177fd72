import CoopDB.Theory.Audit.Agreement
import CoopDB.Theory.Audit.Coverage
import CoopDB.Theory.Auth.Bearer
import CoopDB.Theory.Auth.Cache
import CoopDB.Theory.Auth.Lineage
import CoopDB.Theory.Auth.OneToken
import CoopDB.Theory.Auth.ResolveAlone
import CoopDB.Theory.Auth.RotationInForce
import CoopDB.Theory.Auth.Staleness
import CoopDB.Theory.Auth.Steps
import CoopDB.Theory.Auth.StoredHash
import CoopDB.Theory.Boot.InOrder
import CoopDB.Theory.Boot.Passwords
import CoopDB.Theory.Boot.Recovery
import CoopDB.Theory.Boot.RolePassword
import CoopDB.Theory.Caller
import CoopDB.Theory.Delivery.ExactlyOnce
import CoopDB.Theory.Documents
import CoopDB.Theory.ErrorReply
import CoopDB.Theory.Idempotency.Completion
import CoopDB.Theory.Idempotency.Isolation
import CoopDB.Theory.Idempotency.Orphans
import CoopDB.Theory.Idempotency.Progress
import CoopDB.Theory.Idempotency.RequestHash
import CoopDB.Theory.Idempotency.RpcReplay
import CoopDB.Theory.Idempotency.SqlReplay
import CoopDB.Theory.Identifiers
import CoopDB.Theory.Keys.ControlPlane
import CoopDB.Theory.Keys.Lifetime
import CoopDB.Theory.Keys.MintAlone
import CoopDB.Theory.Keys.OneWorkspace
import CoopDB.Theory.Keys.Privilege
import CoopDB.Theory.Keys.Retry
import CoopDB.Theory.Keys.Usable
import CoopDB.Theory.LintMigrations
import CoopDB.Theory.Mcp.Agreement
import CoopDB.Theory.Mcp.ToolErrors
import CoopDB.Theory.PooledConnection
import CoopDB.Theory.Queue.Bound
import CoopDB.Theory.Queue.Crash
import CoopDB.Theory.Queue.DeadLetters
import CoopDB.Theory.Queue.Order
import CoopDB.Theory.Queue.Undisturbed
import CoopDB.Theory.RateLimit.Bucket
import CoopDB.Theory.RateLimit.Private
import CoopDB.Theory.RateLimit.Unauthenticated
import CoopDB.Theory.Renumber.Binding
import CoopDB.Theory.Renumber.Threading
import CoopDB.Theory.Renumber.Touched
import CoopDB.Theory.RoleStatement
import CoopDB.Theory.SdkErrors
import CoopDB.Theory.Statement.Integers
import CoopDB.Theory.Statement.Repeatable
import CoopDB.Theory.Statement.ReplyDocument
import CoopDB.Theory.Statement.ResultSet
import CoopDB.Theory.Timeouts
import CoopDB.Theory.VectorIndex
import CoopDB.Theory.VectorUpsert.Client
