import Mathlib.Algebra.Group.Nat.Defs
import CoopDB.Core.Rpc

/-!
# The Built-in Procedure

`upsert_document` of `sql/rpc/upsert_document.sql`, as `LoadBuiltins` of
`internal/rpc/registry.go` registers it, over the table `documents` of
`migrations/0006_example_tenant_table.up.sql`.

The statement inserts an id and a body, and on a conflict of ids sets the body.
Postgres checks a new row in this order: the policy first, then the columns that
are not null, then the primary key, over all rows. A row that is to be updated on
a conflict has to pass the policy before and after. A policy that is null does not
pass. The table forces its policies, and the role of the procedure bypasses none.

A column that an `INSERT` does not name gets its default, and null if it has none.
`created_at` has one and is read by nothing here, so it is left out.

## Main definitions

* `upsertSchema`, `builtins`: The procedure.
-/

namespace CoopDB

/-- A row of `documents`. -/
structure Document where
  id : Uuid
  workspaceID : Uuid
  body : String
  deriving DecidableEq

/-- The table `documents`, with its primary key. -/
structure Documents where
  rows : List Document
  nodup : (rows.map Document.id).Nodup

/-- A row that is new to the table. -/
def Documents.insert (t : Documents) (d : Document) (h : d.id ∉ t.rows.map Document.id) :
    Documents where
  rows := t.rows ++ [d]
  nodup := by
    rw [List.map_append, List.map_singleton]
    exact List.nodup_append.mpr ⟨t.nodup, List.nodup_cons.mpr ⟨List.not_mem_nil, List.nodup_nil⟩,
      fun a ha b hb hab => h (List.mem_singleton.mp hb ▸ hab ▸ ha)⟩

/-- Another body for the row with an id. -/
def Documents.setBody (t : Documents) (id : Uuid) (body : String) : Documents where
  rows := t.rows.map fun d => if d.id = id then { d with body := body } else d
  nodup := by
    have hids : (t.rows.map fun d => if d.id = id then { d with body := body } else d).map
        Document.id = t.rows.map Document.id := by
      rw [List.map_map]
      refine List.map_congr_left fun d _ => ?_
      simp only [Function.comp_apply]
      split <;> rfl
    rw [hids]
    exact t.nodup

/-- A row as it comes out of an `INSERT`, with nulls. -/
structure NewDocument where
  id : Option Uuid
  workspaceID : Option Uuid
  body : Option String

/-- `workspace_id = current_setting('app.workspace_id', true)::uuid`, of which both
    parts of the policy consist. It is null if either side is. -/
def policyPasses (setting : Uuid) (workspaceID : Option Uuid) : Bool :=
  (workspaceID.map (· == setting)).getD false

/-- The new row does not pass the policy. -/
def checkViolation : PgError :=
  { code := "42501"
    message := "new row violates row-level security policy for table \"documents\"" }

/-- The row that is there does not pass the policy. -/
def usingViolation : PgError :=
  { code := "42501"
    message :=
      "new row violates row-level security policy (USING expression) for table \"documents\"" }

/-- A column that may not be null is. -/
def nullViolation (column : String) : PgError :=
  { code := "23502"
    message := "null value in column \"" ++ column ++
      "\" of relation \"documents\" violates not-null constraint" }

/-- The columns that are not null, in the order of the table. -/
def NewDocument.columns (row : NewDocument) : Except PgError Document :=
  match row.id, row.workspaceID, row.body with
  | none, _, _ => .error (nullViolation "id")
  | _, none, _ => .error (nullViolation "workspace_id")
  | _, _, none => .error (nullViolation "body")
  | some id, some workspaceID, some body =>
    .ok { id := id, workspaceID := workspaceID, body := body }

/-- `INSERT … ON CONFLICT (id) DO UPDATE SET body = EXCLUDED.body`, with the table
    and the row it returns. -/
def insertOnConflict (setting : Uuid) (row : NewDocument) (t : Documents) :
    Except PgError (Documents × Document) :=
  if !policyPasses setting row.workspaceID then .error checkViolation
  else
    match row.columns with
    | .error e => .error e
    | .ok d =>
      match hfind : t.rows.find? (·.id == d.id) with
      | none =>
        .ok (t.insert d fun hmem => by
          obtain ⟨old, hold, hid⟩ := List.mem_map.mp hmem
          exact List.find?_eq_none.mp hfind old hold (beq_iff_eq.mpr hid), d)
      | some old =>
        -- The update keeps the workspace, so this is the check after it as well.
        if !policyPasses setting (some old.workspaceID) then .error usingViolation
        else .ok (t.setBody d.id d.body, { old with body := d.body })

/-- A hexadecimal digit. -/
def hexDigit (c : Char) : Option Nat :=
  if '0' ≤ c ∧ c ≤ '9' then some (c.toNat - 48)
  else if 'a' ≤ c ∧ c ≤ 'f' then some (c.toNat - 87)
  else if 'A' ≤ c ∧ c ≤ 'F' then some (c.toNat - 55)
  else none

/-- So many bytes of a uuid, with a hyphen behind every second one where there is
    one. -/
def uuidBytes : Nat → Nat → List Char → Option (Nat × List Char)
  | 0, n, text => some (n, text)
  | left + 1, n, a :: b :: text => do
    let high ← hexDigit a
    let low ← hexDigit b
    uuidBytes left (256 * n + 16 * high + low)
      (if left % 2 = 0 ∧ left ≠ 0 ∧ text.head? = some '-' then text.tail else text)
  | _ + 1, _, _ => none

/-- `uuid_in`. -/
def uuidIn (text : String) : Option Uuid :=
  match text.toList with
  | '\x7b' :: rest =>
    match uuidBytes 16 0 rest with
    | some (n, ['\x7d']) => some (BitVec.ofNat 128 n)
    | _ => none
  | rest =>
    match uuidBytes 16 0 rest with
    | some (n, []) => some (BitVec.ofNat 128 n)
    | _ => none

/-- `uuid_out`. -/
def uuidOut (u : Uuid) : String :=
  let digit := fun i => Nat.digitChar (u.toNat / 16 ^ (31 - i) % 16)
  String.ofList ((List.range 32).flatMap fun i =>
    if i = 8 ∨ i = 12 ∨ i = 16 ∨ i = 20 then ['-', digit i] else [digit i])

/-- `->>` of an object. -/
def jsonbText (fields : List (String × Json.Value)) (key : String) : Option String :=
  match fields.lookup key with
  | none => none
  | some .null => none
  | some (.string s) => some s
  | some v => v.marshal

/-- A text that is no uuid. -/
def uuidSyntax (text : String) : PgError :=
  { code := "22P02", message := "invalid input syntax for type uuid: \"" ++ text ++ "\"" }

/-- A cast of a text, or of null, to `uuid`. -/
def castUuid : Option String → Except PgError (Option Uuid)
  | none => .ok none
  | some text =>
    match uuidIn text with
    | none => .error (uuidSyntax text)
    | some u => .ok (some u)

/-- The statement of `upsert_document`, for the setting of the transaction. The
    `INSERT` names two columns, and `workspace_id` has no default. A text with a zero
    character is no `jsonb`. -/
def upsertStatement (workspaceID : String) (args : List (String × Json.Value)) (t : Documents) :
    Except PgError (Documents × Json.Value) := do
  let id := jsonbText args "id"
  let body := jsonbText args "body"
  if (id.getD "" ++ body.getD "").toList.contains '\x00' then
    .error { code := "22P05", message := "unsupported Unicode escape sequence" }
  else
    let id ← castUuid id
    match uuidIn workspaceID with
    | none => .error (uuidSyntax workspaceID)
    | some setting =>
      let upserted ← insertOnConflict setting { id := id, workspaceID := none, body := body } t
      return (upserted.1,
        .object [("id", .string (uuidOut upserted.2.id)), ("body", .string upserted.2.body)])

/-- The text of the statement, without the comments above it. -/
def upsertText : String :=
  "WITH args AS (\n    SELECT\n        (($1)::jsonb)->>'id'   AS id,\n" ++
  "        (($1)::jsonb)->>'body' AS body\n),\nupserted AS (\n" ++
  "    INSERT INTO documents (id, body)\n    SELECT a.id::uuid, a.body FROM args a\n" ++
  "    ON CONFLICT (id) DO UPDATE SET body = EXCLUDED.body\n    RETURNING id, body\n)\n" ++
  "SELECT row_to_json(upserted)::jsonb FROM upserted;\n"

/-- The value is a string. -/
def isJsonString : Option Json.Value → Bool
  | some (.string _) => true
  | _ => false

/-- What the schema of the arguments asks for: two strings, both required, and nothing
    else. The schema is compiled and checked by a third-party library. The check
    is written out here from the text of the schema, and stands for the library; the
    text of an error is the library's own. -/
def upsertSchema (text : List (String × Json.Value) → String) (args : List (String × Json.Value)) :
    Except String Unit :=
  if args.all (fun field => field.1 == "id" || field.1 == "body") &&
    isJsonString (args.lookup "id") && isJsonString (args.lookup "body") then .ok ()
  else .error (text args)

/-- `LoadBuiltins`. -/
def builtins (text : List (String × Json.Value) → String) : Registry := fun name =>
  if name = "upsert_document" then
    some { name := "upsert_document", requiredRole := "dbuser", body := upsertText
           schema := upsertSchema text }
  else none

/-- A call of the procedure on a table, and the table it leaves behind. The database
    answers the statement as the table has it. -/
def callUpsert (text : List (String × Json.Value) → String) (c : Conn) (t : Documents)
    (input : RpcCall) : Called × Documents :=
  let answer := upsertStatement input.workspaceID input.args t
  let row : Except DbError (Option Json.Value) :=
    match answer with
    | .error e => .error (.pg e)
    | .ok upserted => .ok (some upserted.2)
  let called := Dispatcher.call (builtins text) c { input with db := { input.db with row := row } }
  match answer with
  | .ok upserted => (called, if called.committed then upserted.1 else t)
  | .error _ => (called, t)

end CoopDB
