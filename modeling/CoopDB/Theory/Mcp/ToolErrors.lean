import CoopDB.Theory.Delivery.Commits
import CoopDB.Theory.Mcp.Agreement
import CoopDB.Theory.Rpc

/-!
# Tool Errors After the Commit

An error of a tool is read as: nothing has happened. For a statement that is so,
because the executor returns without an error exactly if it committed and nothing
behind it can fail.

For a procedure `RPCCall` still decodes the result into a map, after the commit.
A body may return any JSON, and the schema of a procedure is about its arguments.
The REST handler passes such a value on.

## Main definitions

* `Mcp.sqlCommitted`, `Mcp.rpcCommitted`: The transaction of a tool call was committed.
* `CallGoes`: Every step of a call up to its commit succeeds.
* `ReturnsNoMap`: It does, and what it returns does not fit into a map.

## Theorems

* `call_committed_iff`: A call commits exactly if it goes and its statement is answered.
* `tool_error_uncommitted_iff`: A tool error means that nothing was committed, but for a
  procedure that returns no map.
* `array_result_committed`: A procedure that returns an array.
-/

namespace CoopDB

open Json (Value)

/-- The transaction of `SQLExecute` was committed. A statement that is refused has
    none. -/
def Mcp.sqlCommitted (m : Mcp) (w : Surroundings) (sql : String)
    (params : Json.Slice Value) : Bool :=
  match validate m.api.q m.api.validator sql (params.getD []) with
  | .error _ => false
  | .ok res =>
    (execute m.api.q m.api.executor w.conn (w.executeInput sql (params.getD []) res)
      w.sql).committed

/-- The transaction of `RPCCall` was committed. -/
def Mcp.rpcCommitted (m : Mcp) (w : Surroundings) (procedure : String) (args : GoMap) : Bool :=
  (Dispatcher.call m.api.registry w.conn (m.callInput w procedure (args.getD []))).committed

/-- Every step of a call up to its commit succeeds. -/
structure CallGoes (registry : Registry) (input : RpcCall) (proc : Procedure) : Prop where
  registered : registry input.name = some proc
  role : ¬(proc.requiredRole ≠ "" ∧ proc.requiredRole ≠ input.pgRole)
  schema : ∃ u, proc.schema input.args = .ok u
  begin : input.db.begin = none
  setup : input.workspaceID ≠ "" ∧ isSafeRoleName input.pgRole = true ∧ input.db.setup.Accepted
  args : ∃ text, (Value.object input.args).marshal = some text
  commit : input.db.commit = none

/-- Every step of a tool call up to its commit succeeds, and the body returns a value
    that does not fit into a map. -/
def ReturnsNoMap (m : Mcp) (w : Surroundings) (procedure : String) (args : GoMap) : Prop :=
  ∃ proc v, CallGoes m.api.registry (m.callInput w procedure (args.getD [])) proc ∧
    w.rpc.row = .ok (some v) ∧ m.json.columnMap v = none

/-- A call without an idempotency key commits exactly if every step of it succeeds and
    its statement is answered. -/
theorem call_committed_iff (registry : Registry) (c : Conn) (input : RpcCall)
    (hkey : input.idempotencyKey = "") :
    (Dispatcher.call registry c input).committed = true ↔
      ∃ proc, CallGoes registry input proc ∧ ∃ raw, input.db.row = .ok raw := by
  unfold Dispatcher.call
  cases hproc : registry input.name with
  | none =>
    refine iff_of_false Bool.false_ne_true ?_
    rintro ⟨proc, hgoes, -⟩
    exact nomatch (hproc.symm.trans hgoes.registered)
  | some proc =>
    have hsame : ∀ proc', CallGoes registry input proc' → proc' = proc := fun proc' hgoes =>
      (Option.some.inj (hproc.symm.trans hgoes.registered)).symm
    simp only [hkey, if_true]
    by_cases hrole : proc.requiredRole ≠ "" ∧ proc.requiredRole ≠ input.pgRole
    · rw [if_pos hrole]
      refine iff_of_false Bool.false_ne_true ?_
      rintro ⟨proc', hgoes, -⟩
      exact (hsame proc' hgoes ▸ hgoes.role) hrole
    · rw [if_neg hrole]
      cases hschema : proc.schema input.args with
      | error =>
        refine iff_of_false Bool.false_ne_true ?_
        rintro ⟨proc', hgoes, -⟩
        obtain ⟨u, hok⟩ := hsame proc' hgoes ▸ hgoes.schema
        exact nomatch (hschema.symm.trans hok)
      | ok u =>
        refine (run_committed_iff c proc.body _ input.db).trans ⟨?_, ?_⟩
        · rintro ⟨⟨hbegin, hsetup, hargs⟩, hrow, hcommit⟩
          exact ⟨proc, ⟨hproc, hrole, ⟨u, hschema⟩, hbegin, hsetup, hargs, hcommit⟩, hrow⟩
        · rintro ⟨proc', hgoes, hrow⟩
          exact ⟨⟨hgoes.begin, hgoes.setup, hgoes.args⟩, hrow, hgoes.commit⟩

/-- A statement that is reported as an error was not committed. -/
theorem sqlExecute_uncommitted {m : Mcp} {w : Surroundings} {sql key : String}
    {params : Json.Slice Value} {e : String}
    (h : (directDoer m w).sqlExecute sql params key = .error e) :
    m.sqlCommitted w sql params = false := by
  unfold Mcp.sqlCommitted
  simp only [directDoer] at h
  cases hval : validate m.api.q m.api.validator sql (params.getD []) with
  | error => rfl
  | ok res =>
    simp only [hval, Mcp.executed] at h ⊢
    by_contra hcommitted
    obtain ⟨response, hok⟩ := (execute_ok_iff_committed m.api.q m.api.executor w.conn
      (w.executeInput sql (params.getD []) res) w.sql).mpr
      (Bool.eq_true_of_not_eq_false hcommitted)
    rw [hok] at h
    cases h

/-- A procedure that is reported as an error was not committed, unless it returned what
    does not fit into a map. -/
theorem rpcCall_uncommitted_iff (m : Mcp) (w : Surroundings) (procedure : String) (args : GoMap) :
    ((∃ e, (directDoer m w).rpcCall procedure args = .error e) →
        m.rpcCommitted w procedure args = false) ↔ ¬ReturnsNoMap m w procedure args := by
  have hiff := call_committed_iff m.api.registry w.conn (m.callInput w procedure (args.getD [])) rfl
  constructor
  · rintro h ⟨proc, v, hgoes, hrow, hmap⟩
    have hcommitted := hiff.mpr ⟨proc, hgoes, some v, hrow⟩
    refine absurd (hcommitted.symm.trans (h ?_)) (by decide)
    cases call_end m.api.registry w.conn (m.callInput w procedure (args.getD [])) with
    | failed e _ hfalse | replayed res _ _ hfalse =>
      exact absurd (hcommitted.symm.trans hfalse) (by decide)
    | answered name raw houtcome hraw _ =>
      obtain rfl : raw = some v := Except.ok.inj (hraw.symm.trans hrow)
      simp only [directDoer, Mcp.called, houtcome, Json.GoJson.decodeResult, hmap]
      exact ⟨_, rfl⟩
  · rintro hnot ⟨e, herror⟩
    by_contra hfalse
    have hcommitted := Bool.eq_true_of_not_eq_false hfalse
    obtain ⟨proc, hgoes, raw, hrow⟩ := hiff.mp hcommitted
    cases call_end m.api.registry w.conn (m.callInput w procedure (args.getD [])) with
    | failed e _ hfalse | replayed res _ _ hfalse =>
      exact absurd (hcommitted.symm.trans hfalse) (by decide)
    | answered name raw' houtcome hraw _ =>
      obtain rfl : raw' = raw := Except.ok.inj (hraw.symm.trans hrow)
      simp only [directDoer, Mcp.called, houtcome] at herror
      -- Only decoding the result can have failed.
      cases raw' with
      | none => cases herror
      | some v =>
        refine hnot ⟨proc, v, hgoes, hrow, ?_⟩
        by_contra hmap
        obtain ⟨result, hsome⟩ := Option.ne_none_iff_exists'.mp hmap
        exact absurd herror (by simp [Json.GoJson.decodeResult, hsome])

/-- An error of a tool means that nothing was committed, for every statement, and for
    every procedure but one that is committed and returns what does not fit into a
    map. -/
theorem tool_error_uncommitted_iff (m : Mcp) (w : Surroundings) :
    (∀ sql params key, (∃ e, (directDoer m w).sqlExecute sql params key = .error e) →
      m.sqlCommitted w sql params = false) ∧
    ∀ procedure args, ((∃ e, (directDoer m w).rpcCall procedure args = .error e) →
      m.rpcCommitted w procedure args = false) ↔ ¬ReturnsNoMap m w procedure args :=
  ⟨fun _ _ _ ⟨_, h⟩ => sqlExecute_uncommitted h, rpcCall_uncommitted_iff m w⟩

/-- A procedure that returns an array is committed, and reported as an error. -/
theorem array_result_committed :
    (∃ e, (directDoer plainMcp { plainSurroundings with
        rpc := { plainSurroundings.rpc with row := .ok (some (.array [.number "7"])) } }).rpcCall
        "next_ids" none = .error e) ∧
      plainMcp.rpcCommitted { plainSurroundings with
        rpc := { plainSurroundings.rpc with row := .ok (some (.array [.number "7"])) } }
        "next_ids" none = true :=
  ⟨⟨_, rfl⟩, rfl⟩

end CoopDB
