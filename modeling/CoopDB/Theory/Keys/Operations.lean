import CoopDB.Core.Keys

/-!
# When Key Operations Succeed, and What They Leave

One lemma for each operation of the key store: it succeeds exactly when each of
its calls and checks does, and then the table is changed in the one way it is
meant to be. Everything about sequences of operations is proved from these, and
never opens an operation again.

## Main definitions

* `CreateReplies.Accepted`, `RotateReplies.Accepted`: Every database call succeeds.
* `Creates`, `grantedRow`: A creation request that goes through, and its row.

## Theorems

* `insert_eq_ok`: An insert needs a free id.
* `create_eq_ok`, `rotate_eq_ok`, `revoke_eq_ok`: When the operations succeed.
* `update_apply`, `rotate_apply`: The rows after an update and a rotation.
* `serveKeys_create_cases`, `serveKeys_rotate_cases`: What a request does to the table.
-/

namespace CoopDB

/-- Every call of `Create` succeeds. -/
def CreateReplies.Accepted (db : CreateReplies) : Prop :=
  db.begin = none ∧ db.roleExists = none ∧ db.hasRole = none ∧ db.insert = none ∧ db.commit = none

/-- Every call of `Rotate` succeeds. -/
def RotateReplies.Accepted (db : RotateReplies) : Prop :=
  db.begin = none ∧ db.select = none ∧ db.insert = none ∧ db.update = none ∧ db.commit = none

/-- The id of a row is not one that is still free. -/
theorem Keys.ne_of_free (keys : Keys) (u v : Uuid) (row : KeyRow) (hrow : keys u = some row)
    (hfree : keys v = none) : u ≠ v := by
  intro huv
  rw [huv, hfree] at hrow
  cases hrow

theorem insert_eq_ok (keys keys' : Keys) (id : Uuid) (row : KeyRow) :
    keys.insert id row = .ok keys' ↔
      keys id = none ∧ keys' = Function.update keys id (some row) := by
  unfold Keys.insert
  cases hid : keys id with
  | some => simp
  | none =>
    simp only [Except.ok.injEq, true_and]
    exact eq_comm

/-- An update changes at most the row it names, and that one only where its
    condition holds. -/
theorem update_apply (keys : Keys) (id u : Uuid) (f : KeyRow → Option KeyRow) :
    keys.update id f u =
      if u = id then (keys id).map (fun row => (f row).getD row) else keys u := by
  unfold Keys.update
  by_cases hu : u = id
  · subst hu
    rw [if_pos rfl]
    cases hrow : keys u with
    | none => simp [hrow]
    | some row =>
      cases hf : f row with
      | none => simp [hf, hrow]
      | some => simp [hf]
  · rw [if_neg hu]
    cases (keys id).bind f with
    | none => rfl
    | some => simp only [Function.update_of_ne hu]

section

variable (x : KeyExternals)

variable (roles : PgRoles) (keys : Keys) (mint : Except String Minted) (keys' : Keys)

/-- `Create` succeeds for a known env, a workspace id that parses, and a role
    that exists and that the gateway is a member of. -/
theorem create_eq_ok (db : CreateReplies) (keys keys' : Keys) (input : CreateKeyInput)
    (created : CreatedKey) : create x roles mint db keys input = .ok (keys', created) ↔
      ∃ env wsID m, keyEnvironment input.env = some env ∧ x.uuidParse input.workspaceID = .ok wsID ∧
        mint = .ok m ∧ db.Accepted ∧ roles.rolname input.pgRole = true ∧
        roles.hasRole "agentcoopdb_gateway" input.pgRole = true ∧ keys m.id = none ∧
        keys' = Function.update keys m.id (some (createdRow wsID env m input)) ∧
        created = m.created x := by
  simp only [create, Fallible.bind_eq_ok, Fallible.require_eq_ok, Fallible.mapError_eq_ok,
    Fallible.raise_eq_ok, Fallible.ensure_eq_ok, insert_eq_ok, CreateReplies.Accepted]
  -- The checks and the five calls, in the order in which the source makes them.
  constructor
  · rintro ⟨env, henv, wsID, hws, m, hm, -, h1, -, h2, -, hrole, -, h3, -, hmem, -, h4, keys₁,
      ⟨hfree, rfl⟩, -, h5, hret⟩
    simp only [pure, Except.pure, Except.ok.injEq, Prod.mk.injEq] at hret
    exact ⟨env, wsID, m, henv, hws, hm, ⟨h1, h2, h3, h4, h5⟩, hrole, hmem, hfree, hret.1.symm,
      hret.2.symm⟩
  · rintro ⟨env, wsID, m, henv, hws, hm, ⟨h1, h2, h3, h4, h5⟩, hrole, hmem, hfree, rfl, rfl⟩
    exact ⟨env, henv, wsID, hws, m, hm, (), h1, (), h2, (), hrole, (), h3, (), hmem, (), h4, _,
      ⟨hfree, rfl⟩, (), h5, rfl⟩

/-- `Rotate` succeeds for a key that is there, whatever its state. -/
theorem rotate_eq_ok (db : RotateReplies) (keys keys' : Keys) (oldID : String) (overlap now : Time)
    (created : CreatedKey) : rotate x mint db keys oldID overlap now = .ok (keys', created) ↔
      ∃ oldUUID old m, x.uuidParse oldID = .ok oldUUID ∧ keys oldUUID = some old ∧
        mint = .ok m ∧ db.Accepted ∧ keys m.id = none ∧
        keys' = Keys.update (Function.update keys m.id (some (successorRow oldUUID old m))) oldUUID
          (scheduleExpiry now overlap) ∧
        created = m.created x := by
  simp only [rotate, Fallible.bind_eq_ok, Fallible.require_eq_ok, Fallible.mapError_eq_ok,
    Fallible.raise_eq_ok, insert_eq_ok, RotateReplies.Accepted]
  constructor
  · rintro ⟨oldUUID, hparse, -, h1, -, h2, old, hold, m, hm, -, h3, keys₁, ⟨hfree, rfl⟩, -, h4, -,
      h5, hret⟩
    simp only [pure, Except.pure, Except.ok.injEq, Prod.mk.injEq] at hret
    exact ⟨oldUUID, old, m, hparse, hold, hm, ⟨h1, h2, h3, h4, h5⟩, hfree, hret.1.symm, hret.2.symm⟩
  · rintro ⟨oldUUID, old, m, hparse, hold, hm, ⟨h1, h2, h3, h4, h5⟩, hfree, rfl, rfl⟩
    exact ⟨oldUUID, hparse, (), h1, (), h2, old, hold, m, hm, (), h3, _, ⟨hfree, rfl⟩, (), h4, (),
      h5, rfl⟩

/-- `Revoke` succeeds for any id that parses. -/
theorem revoke_eq_ok (db : Option DbError) (keys keys' : Keys) (id : String) (now : Time) :
    revoke x db keys id now = .ok keys' ↔
      ∃ u, x.uuidParse id = .ok u ∧ db = none ∧ keys' = keys.update u (revokeRow now) := by
  simp only [revoke, Fallible.bind_eq_ok, Fallible.mapError_eq_ok, Fallible.raise_eq_ok, pure,
    Except.pure, Except.ok.injEq]
  constructor
  · rintro ⟨u, hu, -, hdb, rfl⟩
    exact ⟨u, hu, hdb, rfl⟩
  · rintro ⟨u, hu, hdb, rfl⟩
    exact ⟨u, hu, (), hdb, rfl⟩

/-- Scheduling an expiry leaves the workspace, the role and the env. -/
theorem scheduleExpiry_getD (now overlap : Time) (row : KeyRow) :
    ((scheduleExpiry now overlap row).getD row).workspaceID = row.workspaceID ∧
      ((scheduleExpiry now overlap row).getD row).pgRole = row.pgRole ∧
      ((scheduleExpiry now overlap row).getD row).env = row.env := by
  unfold scheduleExpiry
  cases row.revokedAt with
  | some | none => exact ⟨rfl, rfl, rfl⟩

/-- The old row after a rotation, the new row, and every other row. -/
theorem rotate_apply (oldUUID : Uuid) {old : KeyRow} (m : Minted) (overlap now : Time)
    (hold : keys oldUUID = some old) (hfree : keys m.id = none) (u : Uuid) :
    Keys.update (Function.update keys m.id (some (successorRow oldUUID old m))) oldUUID
        (scheduleExpiry now overlap) u =
      if u = oldUUID then some ((scheduleExpiry now overlap old).getD old)
      else if u = m.id then some (successorRow oldUUID old m)
      else keys u := by
  have hne := keys.ne_of_free oldUUID m.id old hold hfree
  rw [update_apply, Function.update_of_ne hne, hold]
  by_cases hu : u = oldUUID
  · rw [if_pos hu, if_pos hu, Option.map_some]
  · rw [if_neg hu, if_neg hu]
    by_cases hm : u = m.id
    · rw [if_pos hm, hm, Function.update_self]
    · rw [if_neg hm, Function.update_of_ne hm]

/-- A creation request that goes through: the caller is a `dbadmin` key of the
    table, the body is for its workspace, and every check and every call
    succeeds. -/
structure Creates (roles : PgRoles) (keys : Keys) (caller : Uuid)
    (body : Except String CreateKeyRequest) (mint : Except String Minted) (db : CreateReplies)
    (row : KeyRow) (req : CreateKeyRequest) (env : KeyEnvironment) (m : Minted) : Prop where
  caller : keys caller = some row
  dbadmin : row.pgRole = "dbadmin"
  body : body = .ok req
  workspace : req.workspaceID = "" ∨ req.workspaceID = x.uuidString row.workspaceID
  env : keyEnvironment (if req.env = "" then row.env.tag else req.env) = some env
  mint : mint = .ok m
  calls : db.Accepted
  rolname : roles.rolname req.pgRole = true
  hasRole : roles.hasRole "agentcoopdb_gateway" req.pgRole = true
  free : keys m.id = none

/-- The row such a request inserts. -/
def grantedRow (row : KeyRow) (req : CreateKeyRequest) (env : KeyEnvironment) (m : Minted) :
    KeyRow :=
  createdRow row.workspaceID env m
    { workspaceID := x.uuidString row.workspaceID
      env := if req.env = "" then row.env.tag else req.env
      pgRole := req.pgRole, name := req.name, expiresAt := none }

/-- `handleKeyCreate` succeeds exactly for a creation that goes through. -/
theorem handleKeyCreate_eq_ok (caller : Uuid) (row : KeyRow) (hrow : keys caller = some row)
    (body : Except String CreateKeyRequest) (mint : Except String Minted) (db : CreateReplies)
    (created : CreatedKey) :
    handleKeyCreate x roles (row.record x caller).context body mint db keys = .ok (keys', created) ↔
      ∃ req env m, Creates x roles keys caller body mint db row req env m ∧
        keys' = Function.update keys m.id (some (grantedRow x row req env m)) ∧
        created = m.created x := by
  -- The caller's workspace id was printed from a uuid, so it parses back to it.
  simp only [handleKeyCreate, Fallible.bind_eq_ok, Fallible.ensure_eq_ok, Fallible.mapError_eq_ok,
    create_eq_ok, KeyRow.record, KeyRecord.context, beq_iff_eq, Bool.or_eq_true,
    x.uuidParse_uuidString, Except.ok.injEq]
  constructor
  · rintro ⟨-, hadmin, req, hbody, -, hws, env, wsID, m, henv, rfl, hm, hdb, hrole, hmem, hfree,
      hkeys, hcreated⟩
    exact ⟨req, env, m, ⟨hrow, hadmin, hbody, hws, henv, hm, hdb, hrole, hmem, hfree⟩, hkeys,
      hcreated⟩
  · rintro ⟨req, env, m, h, hkeys, hcreated⟩
    exact ⟨(), h.dbadmin, req, h.body, (), h.workspace, env, _, m, h.env, rfl, h.mint, h.calls,
      h.rolname, h.hasRole, h.free, hkeys, hcreated⟩

/-- A creation request inserts one row, or is refused and changes nothing. -/
theorem serveKeys_create_cases (caller : Uuid) (body : Except String CreateKeyRequest)
    (mint : Except String Minted) (db : CreateReplies) :
    (∃ row req env m, Creates x roles keys caller body mint db row req env m ∧
      serveKeys x roles keys (.create caller body mint db)
        = some (Function.update keys m.id (some (grantedRow x row req env m)))) ∨
    ((¬ ∃ row req env m, Creates x roles keys caller body mint db row req env m) ∧
      serveKeys x roles keys (.create caller body mint db) = some keys) := by
  cases hrow : keys caller with
  | none =>
    refine .inr ⟨?_, by simp only [serveKeys, hrow]⟩
    rintro ⟨row, req, env, m, h⟩
    exact nomatch (hrow.symm.trans h.caller)
  | some row =>
    have hiff := handleKeyCreate_eq_ok x roles keys
    cases hh : handleKeyCreate x roles (row.record x caller).context body mint db keys with
    | error =>
      refine .inr ⟨?_, by simp only [serveKeys, hrow, hh]⟩
      rintro ⟨row', req, env, m, h⟩
      have hsame : row' = row := Option.some.inj (h.caller.symm.trans hrow)
      subst hsame
      have hok := (hiff _ caller row' hrow body mint db _).mpr ⟨req, env, m, h, rfl, rfl⟩
      exact nomatch (hh.symm.trans hok)
    | ok p =>
      rcases p with ⟨keys', created⟩
      rcases (hiff keys' caller row hrow body mint db created).mp hh with
        ⟨req, env, m, h, hkeys, _⟩
      refine .inl ⟨row, req, env, m, h, ?_⟩
      simp only [serveKeys, hrow, hh, hkeys]

/-- A rotation request inserts a successor and schedules the expiry of the
    caller's key, or fails and changes nothing. -/
theorem serveKeys_rotate_cases (caller : Uuid) (overlap now : Time) (mint : Except String Minted)
    (db : RotateReplies) : serveKeys x roles keys (.rotate caller overlap now mint db) = some keys ∨
    (∃ old m, keys caller = some old ∧ mint = .ok m ∧ keys m.id = none ∧
      serveKeys x roles keys (.rotate caller overlap now mint db)
        = some (Keys.update (Function.update keys m.id (some (successorRow caller old m))) caller
            (scheduleExpiry now overlap))) := by
  cases hrow : keys caller with
  | none => exact .inl (by simp only [serveKeys, hrow])
  | some row =>
    cases hh : handleKeyRotate x (row.record x caller).context overlap now mint db keys with
    | error => exact .inl (by simp only [serveKeys, hrow, hh])
    | ok p =>
      rcases p with ⟨keys', created⟩
      -- The caller's id was printed from the uuid of its row.
      have hok := hh
      simp only [handleKeyRotate, Fallible.mapError_eq_ok, rotate_eq_ok, KeyRow.record,
        KeyRecord.context, x.uuidParse_uuidString, Except.ok.injEq] at hok
      rcases hok with ⟨u, old, m, rfl, hold, hm, _, hfree, hkeys, _⟩
      have hsame : old = row := Option.some.inj (hold.symm.trans hrow)
      subst hsame
      exact .inr ⟨old, m, rfl, hm, hfree, by simp only [serveKeys, hrow, hh, hkeys]⟩

end

/-- The role graph right after the migrations. -/
def migratedRoles : PgRoles :=
  { rolname := fun r => r == "agentcoopdb_gateway" || r == "dbadmin" || r == "dbuser"
    hasRole := fun a b => a == b || (a == "agentcoopdb_gateway" &&
      (b == "dbadmin" || b == "dbuser"))
    schemaGrants := fun r => r == "agentcoopdb_gateway" }

/-- Ids as texts of one letter, repeated: the externals of the runs on fixed
    tables. -/
def letterExternals : KeyExternals :=
  { uuidParse := fun s => .ok (BitVec.ofNat 128 (s.length - 1))
    uuidString := fun u => String.ofList (List.replicate (u.toNat + 1) 'a')
    uuidParse_uuidString := fun u => by
      simp
    uuidString_ne_empty := fun u h => by
      have hlen := congrArg String.length h
      simp only [String.length_ofList, List.length_replicate, String.length_empty] at hlen
      exact absurd hlen (Nat.succ_ne_zero _) }

/-- A table with one `dbadmin` key. -/
def adminKeys : Keys :=
  fun id => if id = 1 then
    some { workspaceID := 2, keyID := "key", secretHash := "hash", env := .live
           pgRole := "dbadmin", name := none, expiresAt := none, revokedAt := none
           replacesKeyID := none }
  else none

end CoopDB
