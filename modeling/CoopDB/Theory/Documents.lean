import CoopDB.Core.Documents
import CoopDB.Theory.Caller
import CoopDB.Theory.Rpc

/-!
# The Built-in Procedure Never Commits

`upsert_document` inserts a row without naming its workspace. The column has no
default, so the row has none, and a row without a workspace passes no policy of
any workspace. Every call fails before the ids are looked at. The policy is not in the
way of the purpose.

## Main definitions

* `UpsertsInWorkspace`: What a call is for.

## Theorems

* `insertOnConflict_named`: A row that does name the workspace of the caller is inserted,
  or updates the one that is there, unless another workspace has the id.
* `callUpsert_refused`: No call commits.
* `upserts_in_workspace_iff`: A call does what it is for exactly if another workspace has
  the id, where nothing is to be done.
* `new_document_refused`: A new document in an empty table.
-/

namespace CoopDB

/-- What a call of the procedure is for: if no other workspace has the id, the call
    commits, the row is the caller's with the body, and it is returned. In any case
    the rows of other workspaces stay as they are. -/
def UpsertsInWorkspace (text : List (String × Json.Value) → String) (c : Conn) (t : Documents)
    (input : RpcCall) (workspace id : Uuid) (body : String) : Prop :=
  ((∀ d ∈ t.rows, d.id = id → d.workspaceID = workspace) →
    (callUpsert text c t input).1.committed = true ∧
      { id := id, workspaceID := workspace, body := body } ∈ (callUpsert text c t input).2.rows ∧
      ∃ result, (callUpsert text c t input).1.outcome = .ok result ∧
        result.result = some (.object [("id", .string (uuidOut id)), ("body", .string body)])) ∧
    ∀ d : Document, d.workspaceID ≠ workspace →
      (d ∈ (callUpsert text c t input).2.rows ↔ d ∈ t.rows)

/-! ### The insertion -/

/-- A row that names the caller's workspace is inserted or updated, unless another
    workspace has the id. -/
theorem insertOnConflict_named (setting id : Uuid) (body : String) (t : Documents)
    (hown : ∀ d ∈ t.rows, d.id = id → d.workspaceID = setting) :
    ∃ t', insertOnConflict setting
        { id := some id, workspaceID := some setting, body := some body } t =
          .ok (t', { id := id, workspaceID := setting, body := body }) ∧
      { id := id, workspaceID := setting, body := body } ∈ t'.rows ∧
      ∀ d : Document, d.workspaceID ≠ setting → (d ∈ t'.rows ↔ d ∈ t.rows) := by
  have hpasses : policyPasses setting (some setting) = true := beq_self_eq_true setting
  unfold insertOnConflict
  simp only [hpasses, Bool.not_true, Bool.false_eq_true, if_false, NewDocument.columns]
  split
  · -- Nobody has the id.
    refine ⟨_, rfl, List.mem_append_right _ List.mem_cons_self, fun d hd => ?_⟩
    refine List.mem_append.trans (or_iff_left fun hnew => ?_)
    rw [List.mem_singleton.mp hnew] at hd
    exact hd rfl
  · rename_i old hfind
    have hmem := List.mem_of_find?_eq_some hfind
    have hid : old.id = id :=
      eq_of_beq (List.find?_some (p := fun d : Document => d.id == id) hfind)
    have hworkspace := hown old hmem hid
    rw [hworkspace, hpasses, hid]
    refine ⟨_, rfl, List.mem_map.mpr ⟨old, hmem, ?_⟩, fun d hd => ?_⟩
    · rw [if_pos hid, hid, hworkspace]
    · constructor
      · intro hset
        obtain ⟨d', hd', heq⟩ := List.mem_map.mp hset
        by_cases hsame : d'.id = id
        · rw [if_pos hsame] at heq
          rw [← heq] at hd
          exact absurd (hown d' hd' hsame) hd
        · rw [if_neg hsame] at heq
          exact heq ▸ hd'
      · intro hd'
        refine List.mem_map.mpr ⟨d, hd', if_neg fun hsame => hd (hown d hd' hsame)⟩

/-- The statement always fails. -/
theorem upsertStatement_error (workspaceID : String) (args : List (String × Json.Value))
    (t : Documents) : ∃ e, upsertStatement workspaceID args t = .error e := by
  simp only [upsertStatement]
  split
  · exact ⟨_, rfl⟩
  · cases castUuid (jsonbText args "id") with
    | error e => exact ⟨e, rfl⟩
    | ok =>
      cases uuidIn workspaceID with
      | none => exact ⟨_, rfl⟩
      | some => exact ⟨checkViolation, rfl⟩

/-! ### The call -/

/-- No call of the procedure commits, and the table stays as it was. -/
theorem callUpsert_refused (text : List (String × Json.Value) → String) (c : Conn) (t : Documents)
    (input : RpcCall) :
    (callUpsert text c t input).1.committed = false ∧ (callUpsert text c t input).2 = t := by
  obtain ⟨e, herror⟩ := upsertStatement_error input.workspaceID input.args t
  unfold callUpsert
  simp only [herror, and_true]
  cases call_end (builtins text) c { input with db := { input.db with row := .error (.pg e) } } with
  | failed _ _ hcommitted => exact hcommitted
  | replayed _ _ _ hcommitted => exact hcommitted
  | answered _ _ _ hrow _ => cases hrow

/-! ### The result -/

/-- A call does what it is for exactly if another workspace has the id, where nothing
    is to be done. This is so for every call, with arguments that pass the schema and
    name the id and the body or with others, since no call gets past the insert. -/
theorem upserts_in_workspace_iff (text : List (String × Json.Value) → String) (c : Conn)
    (t : Documents) (input : RpcCall) (workspace id : Uuid) (body : String) :
    UpsertsInWorkspace text c t input workspace id body ↔
      ∃ d ∈ t.rows, d.id = id ∧ d.workspaceID ≠ workspace := by
  obtain ⟨hrefused, htable⟩ := callUpsert_refused text c t input
  constructor
  · intro h
    by_contra hnone
    have hown : ∀ d ∈ t.rows, d.id = id → d.workspaceID = workspace := by
      intro d hd hid
      by_contra hne
      exact hnone ⟨d, hd, hid, hne⟩
    exact absurd ((h.1 hown).1.symm.trans hrefused) (by decide)
  · rintro ⟨d, hd, hid, hne⟩
    refine ⟨fun hown => absurd (hown d hd hid) hne, fun d' _ => ?_⟩
    rw [htable]

/-- The arguments of a call with the id one. -/
def documentArgs : List (String × Json.Value) :=
  [("body", .string "hello"), ("id", .string "00000000-0000-0000-0000-000000000001")]

/-- A call in workspace two, on a database that answers everything. -/
def documentCall : RpcCall :=
  { workspaceID := "00000000-0000-0000-0000-000000000002", pgRole := "dbuser"
    name := "upsert_document", args := documentArgs, idempotencyKey := ""
    statementTimeout := 0, idleInTxTimeout := 0, begun := .error (.store .conflict)
    db := { begin := none, setup := ⟨none, none, none, none, none⟩, effects := []
            row := .ok none, commit := none }
    durationMS := 1 }

/-- A call whose arguments pass the schema, on an id that another workspace has: the row
    is kept. -/
theorem taken_document_kept :
    upsertSchema (fun _ => "") documentCall.args = .ok () ∧
      uuidIn documentCall.workspaceID = some 2 ∧
      UpsertsInWorkspace (fun _ => "") usedConn ⟨[⟨1, 3, "theirs"⟩], by decide⟩ documentCall 2 1
        "hello" :=
  ⟨by decide +kernel, by decide +kernel,
    (upserts_in_workspace_iff (fun _ => "") usedConn ⟨[⟨1, 3, "theirs"⟩], by decide⟩
      documentCall 2 1 "hello").mpr ⟨_, List.mem_cons_self, rfl, by decide⟩⟩

/-- A new document in an empty table is refused. -/
theorem new_document_refused :
    (callUpsert (fun _ => "") usedConn ⟨[], by decide⟩ documentCall).1.committed = false ∧
      ¬UpsertsInWorkspace (fun _ => "") usedConn ⟨[], by decide⟩ documentCall 2 1 "hello" := by
  have hrefused := (callUpsert_refused (fun _ => "") usedConn ⟨[], by decide⟩ documentCall).1
  refine ⟨hrefused, fun h => ?_⟩
  have hcommitted := (h.1 fun d hd => absurd hd List.not_mem_nil).1
  exact absurd (hcommitted.symm.trans hrefused) (by decide)

end CoopDB
