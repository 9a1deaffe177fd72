import CoopDB.Core.Basic

/-!
# A Postgres Session

What one pooled connection carries from statement to statement: its settings,
its temporary relations, and the transaction it may have open.

The rules are the ones the tenant package relies on. A setting changed with
`SET LOCAL`, or with `set_config(..., true)`, falls back when the transaction
ends. A setting changed with plain `SET` becomes the session's value when the
transaction commits, and falls back when it is rolled back. A temporary
relation created in a transaction that commits stays for the session unless it
was declared `ON COMMIT DROP`. So a transaction keeps two versions of the
settings: the ones in force now, and the ones the session is left with if it
commits.

Unqualified names are looked up among the temporary relations first and then
along the search path, where a schema the current role may not use is passed
over.

## Main definitions

* `Catalog`, `Session.resolve`: Looking up an unqualified name.
-/

namespace CoopDB

/-- The settings the gateway depends on by name, and all others by their
    text. -/
structure Settings where
  role : String
  workspaceID : String
  searchPath : List String
  statementTimeout : Int
  idleInTransactionSessionTimeout : Int
  other : String → String

/-- One assignment to a setting. -/
inductive Assign
  | role (r : String)
  | workspaceID (w : String)
  | searchPath (path : List String)
  | statementTimeout (ms : Int)
  | idleInTransactionSessionTimeout (ms : Int)
  | other (name value : String)
  deriving DecidableEq, Repr

/-- The settings after one assignment. -/
def Settings.set (s : Settings) : Assign → Settings
  | .role r => { s with role := r }
  | .workspaceID w => { s with workspaceID := w }
  | .searchPath path => { s with searchPath := path }
  | .statementTimeout ms => { s with statementTimeout := ms }
  | .idleInTransactionSessionTimeout ms => { s with idleInTransactionSessionTimeout := ms }
  | .other name value => { s with other := Function.update s.other name value }

/-- What outlives a transaction. -/
structure Session where
  settings : Settings
  temps : List String

/-- An open transaction: the settings in force, the settings the session is
    left with on commit, and the temporary relations with whether a commit
    drops them. -/
structure Tx where
  current : Settings
  onCommit : Settings
  temps : List (String × Bool)

/-- A connection of the pool. -/
structure Conn where
  session : Session
  tx : Option Tx

/-- What a statement does to its session. `set` stands for `SET`, `RESET` and
    `set_config(..., false)`, `setLocal` for their transaction-local forms. -/
inductive Effect
  | set (a : Assign)
  | setLocal (a : Assign)
  | createTemp (name : String) (dropOnCommit : Bool)
  | dropTemp (name : String)
  deriving DecidableEq, Repr

/-- A transaction that has done nothing yet. -/
def Tx.start (s : Session) : Tx :=
  { current := s.settings, onCommit := s.settings, temps := s.temps.map (fun n => (n, false)) }

/-- One effect inside a transaction. -/
def Tx.perform (t : Tx) : Effect → Tx
  | .set a => { t with current := t.current.set a, onCommit := t.onCommit.set a }
  | .setLocal a => { t with current := t.current.set a }
  | .createTemp name dropOnCommit => { t with temps := t.temps ++ [(name, dropOnCommit)] }
  | .dropTemp name => { t with temps := t.temps.filter (fun p => p.1 != name) }

/-- The session a committed transaction leaves. -/
def Tx.sessionAfter (t : Tx) : Session :=
  { settings := t.onCommit, temps := (t.temps.filter (fun p => !p.2)).map Prod.fst }

/-- `BEGIN`. -/
def Conn.begin (c : Conn) : Conn :=
  match c.tx with
  | none => { c with tx := some (Tx.start c.session) }
  | some _ => c

/-- `COMMIT`. Outside a transaction it is only a warning. -/
def Conn.commit (c : Conn) : Conn :=
  match c.tx with
  | none => c
  | some t => { session := t.sessionAfter, tx := none }

/-- `ROLLBACK`. -/
def Conn.rollback (c : Conn) : Conn :=
  { c with tx := none }

/-- The effects of one statement. Outside a transaction block a statement is a
    transaction of its own. -/
def Conn.perform (c : Conn) (effects : List Effect) : Conn :=
  match c.tx with
  | none => { c with session := (effects.foldl Tx.perform (Tx.start c.session)).sessionAfter }
  | some t => { c with tx := some (effects.foldl Tx.perform t) }

/-- The permanent relations, and the schemas each role may use. -/
structure Catalog where
  hasRelation : String → String → Bool
  usage : String → String → Bool

/-- The schema an unqualified name is found in outside a transaction. -/
def Session.resolve (cat : Catalog) (s : Session) (name : String) : Option String :=
  if name ∈ s.temps then some "pg_temp"
  else s.settings.searchPath.find?
    (fun schema => cat.usage s.settings.role schema && cat.hasRelation schema name)

/-- The session of a connection `OpenPool` has just opened. The login role,
    the server's timeouts and its other settings are whatever they are; the
    search path is a runtime parameter of the pool. -/
def openedSession (login : String) (statementTimeout idleTimeout : Int)
    (other : String → String) : Session :=
  { settings :=
      { role := login, workspaceID := "", searchPath := ["agentcoopdb", "public"],
        statementTimeout := statementTimeout,
        idleInTransactionSessionTimeout := idleTimeout,
        other := Function.update other "application_name" "agentcoopdb_gateway" }
    temps := [] }

end CoopDB
