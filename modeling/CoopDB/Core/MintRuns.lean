import CoopDB.Core.MintKey
import CoopDB.Lib.InsertTable

/-!
# Minting Keys at the Same Time

`MintKey` of `internal/db/keymint.go` again, statement by statement, for any
number of calls that name one workspace. `mintKey` is one call that nobody
interferes with. Here each call is at one of its statements, and a run takes the
statements of the calls in any order.

A call runs one transaction at the default level, READ COMMITTED. The lookup
sees the workspaces that are committed by then. `workspaces` has an index on the
name that is not unique, so the database only objects to an insert for its
primary key, and answers any of several workspaces of the name.

A statement may fail, and the call then returns and rolls back. A commit may
take effect though its answer is lost. A process may die at any point, and the
server then rolls back its transaction.

The foreign key of a new key is met by construction: its workspace is one the
lookup saw or one of the same transaction, and no workspace is deleted here.

## Main definitions

* `Minting.callStep`, `Minting.step`: One statement.
-/

namespace CoopDB

open InsertTable

/-- The arguments of a call but for the workspace, the key that is minted for it
    and the id `uuid.New` gives it for a workspace. -/
structure MintCall where
  mint : Except String Minted
  fresh : Uuid
  pgRole : String
  env : String

/-- Calls that name one workspace. -/
structure Minting where
  workspace : String
  calls : Nat → MintCall

/-- The two tables. A transaction has the number of its call. -/
structure MintTables where
  workspaces : Table Uuid Nat String
  keys : Table Uuid Nat KeyRow

/-- The commit of both tables. -/
def MintTables.commit (T : MintTables) (i : Nat) : MintTables :=
  { workspaces := T.workspaces.commit i, keys := T.keys.commit i }

/-- The rollback of both. -/
def MintTables.rollback (T : MintTables) (i : Nat) : MintTables :=
  { workspaces := T.workspaces.rollback i, keys := T.keys.rollback i }

/-- Where a call is: before its first statement, in its transaction, after the
    lookup found nothing, with a workspace, with its key inserted, or over. -/
inductive MintPhase
  | idle
  | begun (env : KeyEnvironment) (m : Minted)
  | missing (env : KeyEnvironment) (m : Minted)
  | ready (env : KeyEnvironment) (m : Minted) (wsID : Uuid)
  | inserted (m : Minted) (wsID : Uuid)
  | returned (result : Except Failure String)
  | dead

/-- A call that has a transaction. -/
def MintPhase.isOpen : MintPhase → Bool
  | .begun _ _ => true
  | .missing _ _ => true
  | .ready _ _ _ => true
  | .inserted _ _ => true
  | _ => false

/-- The tables and the calls. -/
structure MintState where
  tables : MintTables
  phase : Nat → MintPhase

/-- What a call does next, with the answer it gets. The lookup is answered with
    a workspace or with none. A commit took effect or did not. -/
inductive MintAct
  | begin (inject : Option String) (connect begin : Option DbError)
  | lookup (answer : Except DbError (Option Uuid))
  | createWorkspace (reply : Option DbError)
  | insert (reply : Option DbError)
  | commit (reply : Option DbError) (effective : Bool)
  | die
  deriving DecidableEq

/-- A statement of a call. -/
structure MintEvent where
  call : Nat
  act : MintAct
  deriving DecidableEq

namespace Minting

variable (x : Minting)

/-- `MintKey` up to the URL: the checks, `Mint` and `HashSecret`. -/
def prepare (c : MintCall) : Except Failure (KeyEnvironment × Minted) := do
  Fallible.ensure (x.workspace != "") (.other "MintKey: empty workspace")
  Fallible.ensure (c.pgRole != "") (.other "MintKey: empty pg_role")
  let env ← Fallible.require (keyEnvironment c.env)
    (.other ("MintKey: invalid env " ++ goQuote c.env ++ " (must be dev / live / test)"))
  let m ← c.mint.mapError .other
  return (env, m)

/-- The workspaces of the name that a call sees. -/
def named (T : MintTables) (i : Nat) : List Uuid :=
  ((T.workspaces.visible i).filter fun w => w.2 = x.workspace).map Prod.fst

/-- A call that returns an error after its transaction has begun. -/
def fail (T : MintTables) (i : Nat) (e : Failure) : Option (MintPhase × MintTables) :=
  some (.returned (.error e), T.rollback i)

/-- One statement of a call. -/
def callStep (i : Nat) (T : MintTables) : MintPhase → MintAct → Option (MintPhase × MintTables)
  | .idle, .begin inject connect begin =>
    match x.prepare (x.calls i) with
    | .error e => some (.returned (.error e), T)
    | .ok (env, m) =>
      match inject, connect, begin with
      | some e, _, _ => some (.returned (.error (injectFailure e)), T)
      | none, some e, _ => some (.returned (.error (e.wrap "connect: ")), T)
      | none, none, some e => some (.returned (.error (e.wrap "begin tx: ")), T)
      | none, none, none => some (.begun env m, T)
  | .begun env m, .lookup answer =>
    match answer with
    | .error e => fail T i (e.wrap "lookup workspace: ")
    | .ok none => if x.named T i = [] then some (.missing env m, T) else none
    | .ok (some w) => if w ∈ x.named T i then some (.ready env m w, T) else none
  | .missing env m, .createWorkspace reply =>
    match reply with
    | some e => fail T i (e.wrap "create workspace: ")
    | none =>
      if T.workspaces.insertable (x.calls i).fresh then
        some (.ready env m (x.calls i).fresh,
          { T with workspaces := T.workspaces.insert i (x.calls i).fresh x.workspace })
      else none
  | .ready env m wsID, .insert reply =>
    match reply with
    | some e => fail T i (e.wrap "insert api_key: ")
    | none =>
      if T.keys.insertable m.id then
        some (.inserted m wsID,
          { T with keys := T.keys.insert i m.id (mintedRow wsID env m (x.calls i).pgRole) })
      else none
  | .inserted m _, .commit reply effective =>
    match reply, effective with
    | none, true => some (.returned (.ok m.fullToken), T.commit i)
    | none, false => none
    | some e, true => some (.returned (.error (e.wrap "commit: ")), T.commit i)
    | some e, false => fail T i (e.wrap "commit: ")
  | phase, .die => if phase.isOpen then some (.dead, T.rollback i) else none
  | _, _ => none

/-- One statement of one of the calls. -/
def step (s : MintState) (e : MintEvent) : Option MintState :=
  (x.callStep e.call s.tables (s.phase e.call) e.act).map fun next =>
    { tables := next.2, phase := Function.update s.phase e.call next.1 }

end Minting

/-- No call has begun, and every row is committed. -/
def MintState.start (workspaces : List (Uuid × String)) (keys : List (Uuid × KeyRow)) : MintState :=
  { tables := { workspaces := { rows := workspaces, pending := [] }
                keys := { rows := keys, pending := [] } }
    phase := fun _ => .idle }

end CoopDB
