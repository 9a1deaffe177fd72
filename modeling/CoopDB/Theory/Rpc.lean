import CoopDB.Core.Rpc
import CoopDB.Theory.Tenant

/-!
# How a Call of a Procedure Ends

A run ends with an error, and nothing committed, or with what the statement
answered, and committed. `run_end` goes through its steps once, and what else is
said of how a run ends is read off it. A call can also end before its run.

## Main definitions

* `RunGoes`, `RunEnd`: The steps up to the statement, and the ends of a run.
* `CallEnd`: The ends of a call.

## Theorems

* `run_end`, `run_cases`, `run_committed_iff`: How a run ends.
* `call_end`: A call has one of its ends.
-/

namespace CoopDB

/-- Every step of a run before its statement succeeds. -/
structure RunGoes (input : CallInput) (db : RunScript) : Prop where
  begin : db.begin = none
  setup : input.workspaceID ≠ "" ∧ isSafeRoleName input.pgRole = true ∧ db.setup.Accepted
  args : ∃ text, (Json.Value.object input.args).marshal = some text

/-- How a run ends: at the first step that fails, or with its commit. -/
inductive RunEnd (c : Conn) (input : CallInput) (db : RunScript) (ran : Ran) : Prop
  | refused (e : DbError) (hbegin : db.begin = some e)
    (houtcome : ran.outcome = .error (classifyPgErr e)) (hcommitted : ran.committed = false)
  | withdrawn (e : Failure) (hbegin : db.begin = none)
    (hsetup : setup input.workspaceID input.pgRole input.statementTimeout input.idleInTxTimeout
      db.setup (Tx.start c.session) = .error e)
    (houtcome : ran.outcome = .error e) (hcommitted : ran.committed = false)
  | unencoded (hargs : (Json.Value.object input.args).marshal = none) (t : Tx)
    (hsetup : setup input.workspaceID input.pgRole input.statementTimeout input.idleInTxTimeout
      db.setup (Tx.start c.session) = .ok t)
    (hbegin : db.begin = none)
    (houtcome : ran.outcome = .error (.other "json: unsupported value"))
    (hcommitted : ran.committed = false)
  | failed (e : DbError) (hgoes : RunGoes input db) (hrow : db.row = .error e)
    (houtcome : ran.outcome = .error (classifyPgErr e)) (hcommitted : ran.committed = false)
  | uncommitted (raw : Option Json.Value) (e : DbError) (hgoes : RunGoes input db)
    (hrow : db.row = .ok raw) (hcommit : db.commit = some e)
    (houtcome : ran.outcome = .error (classifyPgErr e)) (hcommitted : ran.committed = false)
  | committed (raw : Option Json.Value) (hgoes : RunGoes input db) (hrow : db.row = .ok raw)
    (hcommit : db.commit = none) (houtcome : ran.outcome = .ok raw)
    (hcommitted : ran.committed = true)

theorem run_end (c : Conn) (body : String) (input : CallInput) (db : RunScript) :
    RunEnd c input db (Dispatcher.run c body input db).2 := by
  unfold Dispatcher.run
  cases hbegin : db.begin with
  | some e => exact .refused e hbegin rfl rfl
  | none =>
    simp only [setupSent_snd]
    cases hsetup : setup input.workspaceID input.pgRole input.statementTimeout
        input.idleInTxTimeout db.setup (Tx.start c.session) with
    | error e => exact .withdrawn e hbegin hsetup rfl rfl
    | ok t =>
      cases hargs : (Json.Value.object input.args).marshal with
      | none => exact .unencoded hargs t hsetup hbegin rfl rfl
      | some text =>
        have hgoes : RunGoes input db :=
          ⟨hbegin, ((setup_eq_ok _ _ _ _ db.setup _ t).mp hsetup).1, text, hargs⟩
        cases hrow : db.row with
        | error e => exact .failed e hgoes hrow rfl rfl
        | ok raw =>
          cases hcommit : db.commit with
          | some e => exact .uncommitted raw e hgoes hrow hcommit rfl rfl
          | none => exact .committed raw hgoes hrow hcommit rfl rfl

/-- A run returns what the statement answered exactly if it committed. -/
theorem run_cases (c : Conn) (body : String) (input : CallInput) (db : RunScript) :
    (∃ e, (Dispatcher.run c body input db).2.outcome = .error e ∧
        (Dispatcher.run c body input db).2.committed = false) ∨
      ∃ raw, (Dispatcher.run c body input db).2.outcome = .ok raw ∧ db.row = .ok raw ∧
        (Dispatcher.run c body input db).2.committed = true := by
  cases run_end c body input db with
  | refused e _ houtcome hcommitted | withdrawn e _ _ houtcome hcommitted
  | unencoded _ t _ _ houtcome hcommitted | failed e _ _ houtcome hcommitted
  | uncommitted raw e _ _ _ houtcome hcommitted => exact .inl ⟨_, houtcome, hcommitted⟩
  | committed raw _ hrow _ houtcome hcommitted => exact .inr ⟨raw, houtcome, hrow, hcommitted⟩

/-- A setup that fails does not go through. -/
theorem not_accepted_of_setup {input : CallInput} {db : SetupReplies} {t : Tx} {e : Failure}
    (h : setup input.workspaceID input.pgRole input.statementTimeout input.idleInTxTimeout db t =
      .error e) :
    ¬(input.workspaceID ≠ "" ∧ isSafeRoleName input.pgRole = true ∧ db.Accepted) := by
  intro hgoes
  exact absurd (h.symm.trans ((setup_eq_ok _ _ _ _ db t _).mpr ⟨hgoes, rfl⟩)) (by simp)

/-- A run commits exactly if every step of it succeeds. -/
theorem run_committed_iff (c : Conn) (body : String) (input : CallInput) (db : RunScript) :
    (Dispatcher.run c body input db).2.committed = true ↔
      RunGoes input db ∧ (∃ raw, db.row = .ok raw) ∧ db.commit = none := by
  cases run_end c body input db with
  | refused e hbegin _ hcommitted =>
    refine iff_of_false (Bool.eq_false_iff.mp hcommitted) fun h => ?_
    rw [h.1.begin] at hbegin
    cases hbegin
  | withdrawn e _ hsetup _ hcommitted =>
    refine iff_of_false (Bool.eq_false_iff.mp hcommitted) fun h => ?_
    exact not_accepted_of_setup hsetup h.1.setup
  | unencoded hargs t _ _ _ hcommitted =>
    refine iff_of_false (Bool.eq_false_iff.mp hcommitted) fun h => ?_
    obtain ⟨text, htext⟩ := h.1.args
    exact nomatch (hargs.symm.trans htext)
  | failed e _ hrow _ hcommitted =>
    refine iff_of_false (Bool.eq_false_iff.mp hcommitted) fun h => ?_
    obtain ⟨raw, hraw⟩ := h.2.1
    exact nomatch (hrow.symm.trans hraw)
  | uncommitted raw e _ _ hcommit _ hcommitted =>
    refine iff_of_false (Bool.eq_false_iff.mp hcommitted) fun h => ?_
    exact nomatch (hcommit.symm.trans h.2.2)
  | committed raw hgoes hrow hcommit _ hcommitted =>
    exact iff_of_true hcommitted ⟨hgoes, ⟨raw, hrow⟩, hcommit⟩

/-- How a call ends: with an error, with a replay, or with what the statement answered.
    It committed in the last case only. -/
inductive CallEnd (input : RpcCall) (called : Called) : Prop
  | failed (e : CallError) (houtcome : called.outcome = .error e)
    (hcommitted : called.committed = false)
  | replayed (res : CallResult) (houtcome : called.outcome = .ok res) (hreplay : res.replay = true)
    (hcommitted : called.committed = false)
  | answered (proc : String) (raw : Option Json.Value)
    (houtcome : called.outcome = .ok
      { procedure := proc, result := raw, durationMS := input.durationMS
        replay := false, cachedStatus := 0, cachedBody := [] })
    (hrow : input.db.row = .ok raw) (hcommitted : called.committed = true)

/-- A call that comes to its run ends as the run does. -/
theorem dispatch_end (c : Conn) (proc : Procedure) (input : RpcCall) :
    CallEnd input (Dispatcher.dispatch c proc input) := by
  rcases run_cases c proc.body
    { workspaceID := input.workspaceID, pgRole := input.pgRole, args := input.args
      statementTimeout := input.statementTimeout, idleInTxTimeout := input.idleInTxTimeout }
    input.db with ⟨e, houtcome, hcommitted⟩ | ⟨raw, houtcome, hrow, hcommitted⟩
  · refine .failed (.run e) ?_ hcommitted
    simp only [Dispatcher.dispatch, houtcome]
  · refine .answered proc.name raw ?_ hrow hcommitted
    simp only [Dispatcher.dispatch, houtcome]

theorem call_end (registry : Registry) (c : Conn) (input : RpcCall) :
    CallEnd input (Dispatcher.call registry c input) := by
  unfold Dispatcher.call
  split
  · exact .failed _ rfl rfl
  · rename_i proc _
    split
    · exact .failed _ rfl rfl
    · split
      · exact .failed _ rfl rfl
      · split
        · exact dispatch_end c proc input
        · split
          · exact .failed _ rfl rfl
          · split
            · exact .replayed _ rfl rfl rfl
            · exact dispatch_end c proc input

end CoopDB
