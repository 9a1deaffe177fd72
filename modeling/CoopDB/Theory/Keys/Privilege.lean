import CoopDB.Lib.Transition
import CoopDB.Theory.Keys.Operations

/-!
# Minting Stays Within the Caller's Privilege

The two endpoints that mint keys are open to clients, so what they insert must
not reach beyond the caller. `handleKeyCreate` takes a workspace, an env and a
role from the body. It refuses another workspace and asks for `dbadmin`, and
with that the env and the role are the caller's to choose. `handleKeyRotate`
takes nothing from the body. It copies the row of the key it was called with.

New keys are callers of later requests, so the statement is about sequences of
requests, and follows by induction from what one of them inserts.

## Main definitions

* `WithinPrivilege`: What one request may do to the table.
* `WithoutAdmin`: No key of the workspace is a `dbadmin` key.

## Theorems

* `serveKeys_within`: One request stays within its caller's privilege.
* `minting_within_privilege`: So does every request of a sequence, and a workspace without
  a `dbadmin` key never gets one.
* `rotation_without_admin`: A rotation with a `dbuser` key.
-/

namespace CoopDB

open Transition (Always Allowed)

/-- The id of the key a request is made with. -/
def KeyRequest.caller : KeyRequest → Uuid
  | .create caller _ _ _ => caller
  | .rotate caller _ _ _ _ => caller

/-- What one request may do. A row it inserts is for the caller's workspace,
    and has the caller's role and env unless the caller is a `dbadmin` key. A
    row that was there stays as it was, or it is of the caller's workspace and
    keeps its workspace, role and env. -/
structure WithinPrivilege (keys : Keys) (e : KeyRequest) (keys' : Keys) : Prop where
  inserted : ∀ id row, keys id = none → keys' id = some row →
    ∃ caller, keys e.caller = some caller ∧ row.workspaceID = caller.workspaceID ∧
      (caller.pgRole = "dbadmin" ∨ row.pgRole = caller.pgRole ∧ row.env = caller.env)
  kept : ∀ id row, keys id = some row → keys' id = some row ∨
    ∃ caller row', keys e.caller = some caller ∧ row.workspaceID = caller.workspaceID ∧
      keys' id = some row' ∧ row'.workspaceID = row.workspaceID ∧ row'.pgRole = row.pgRole ∧
      row'.env = row.env

/-- A request that changes nothing is within any privilege. -/
theorem withinPrivilege_refl (keys : Keys) (e : KeyRequest) : WithinPrivilege keys e keys where
  inserted id row hnone hrow := by
    rw [hnone] at hrow
    cases hrow
  kept _ _ hrow := .inl hrow

section

variable (x : KeyExternals) (roles : PgRoles)

/-- One request stays within its caller's privilege. -/
theorem serveKeys_within {keys : Keys} {e : KeyRequest} {keys' : Keys}
    (hs : serveKeys x roles keys e = some keys') : WithinPrivilege keys e keys' := by
  cases e with
  | create caller body mint db =>
    rcases serveKeys_create_cases x roles keys caller body mint db with
      ⟨row, req, env, m, hc, hdone⟩ | ⟨_, hdone⟩
    · rw [hdone, Option.some.injEq] at hs
      subst hs
      constructor
      · intro id row' hnone hrow'
        by_cases hid : id = m.id
        · -- The new row is for the workspace of a `dbadmin` key.
          rw [hid, Function.update_self, Option.some.injEq] at hrow'
          rw [← hrow']
          exact ⟨row, hc.caller, rfl, .inl hc.dbadmin⟩
        · rw [Function.update_of_ne hid, hnone] at hrow'
          cases hrow'
      · intro id row' hrow'
        have hid := keys.ne_of_free id m.id row' hrow' hc.free
        rw [Function.update_of_ne hid]
        exact .inl hrow'
    · rw [hdone, Option.some.injEq] at hs
      exact hs ▸ withinPrivilege_refl keys _
  | rotate caller overlap now mint db =>
    rcases serveKeys_rotate_cases x roles keys caller overlap now mint db with
      hdone | ⟨old, m, hold, _, hfree, hdone⟩
    · rw [hdone, Option.some.injEq] at hs
      exact hs ▸ withinPrivilege_refl keys _
    · rw [hdone, Option.some.injEq] at hs
      subst hs
      have happly := rotate_apply keys caller m overlap now hold hfree
      constructor
      · intro id row hnone hrow
        have hid : id ≠ caller := (keys.ne_of_free caller id old hold hnone).symm
        rw [happly id, if_neg hid] at hrow
        by_cases hm : id = m.id
        · -- The new row copies the caller's.
          rw [if_pos hm, Option.some.injEq] at hrow
          rw [← hrow]
          exact ⟨old, hold, rfl, .inr ⟨rfl, rfl⟩⟩
        · rw [if_neg hm, hnone] at hrow
          cases hrow
      · intro id row hrow
        by_cases hid : id = caller
        · -- The caller's own row gets an expiry.
          subst hid
          have hsame : row = old := Option.some.inj (hrow.symm.trans hold)
          subst hsame
          rcases scheduleExpiry_getD now overlap row with ⟨hws, hrole, henv⟩
          refine .inr ⟨row, (scheduleExpiry now overlap row).getD row, hold, rfl, ?_, hws, hrole,
            henv⟩
          rw [happly id, if_pos rfl]
        · have hm := keys.ne_of_free id m.id row hrow hfree
          rw [happly id, if_neg hid, if_neg hm]
          exact .inl hrow

/-- No key of the workspace is a `dbadmin` key. -/
def WithoutAdmin (W : Uuid) (keys : Keys) : Prop :=
  ∀ id row, keys id = some row → row.workspaceID = W → row.pgRole ≠ "dbadmin"

/-- A request within its caller's privilege gives no workspace its first
    `dbadmin` key. -/
theorem WithinPrivilege.withoutAdmin (W : Uuid) (keys : Keys) (e : KeyRequest) (keys' : Keys)
    (h : WithinPrivilege keys e keys') (hW : WithoutAdmin W keys) : WithoutAdmin W keys' := by
  intro id row' hrow' hws
  cases hold : keys id with
  | some row =>
    rcases h.kept id row hold with hsame | ⟨_, row'', _, _, hrow'', hws', hrole, _⟩
    · have heq : row' = row := Option.some.inj (hrow'.symm.trans hsame)
      rw [heq] at hws ⊢
      exact hW id row hold hws
    · have heq : row' = row'' := Option.some.inj (hrow'.symm.trans hrow'')
      rw [heq, hws'] at hws
      rw [heq, hrole]
      exact hW id row hold hws
  | none =>
    rcases h.inserted id row' hold hrow' with ⟨caller, hcaller, hws', hadmin | ⟨hrole, _⟩⟩
    · -- The caller would be a `dbadmin` key of the workspace itself.
      rw [hws'] at hws
      exact absurd hadmin (hW e.caller caller hcaller hws)
    · rw [hws'] at hws
      rw [hrole]
      exact hW e.caller caller hcaller hws

/-- Over every sequence of requests by keys of the table, whatever they ask for:
    every request stays within its caller's privilege, and a workspace without a
    `dbadmin` key never gets one. -/
theorem minting_within_privilege (keys : Keys) (es : List KeyRequest) :
    Allowed (serveKeys x roles)
      (fun keys e => ∀ keys', serveKeys x roles keys e = some keys' →
        WithinPrivilege keys e keys') keys es ∧
    ∀ W, WithoutAdmin W keys → Always (serveKeys x roles) (WithoutAdmin W) keys es := by
  have hwithin : Allowed (serveKeys x roles) (fun keys e => ∀ keys',
      serveKeys x roles keys e = some keys' → WithinPrivilege keys e keys') keys es :=
    Transition.allowed_mono (fun _ _ _ _ hs => serveKeys_within x roles hs) Transition.allowed_true
  refine ⟨hwithin, fun W hW => ?_⟩
  exact Transition.always_of_invariant (WithoutAdmin W)
    (fun s e s' hs hg hstep => (hg s' hstep).withoutAdmin W s e s' hs) keys hW hwithin

end

/-- A table with one `dbuser` key. -/
def userKeys : Keys :=
  fun id => if id = 1 then
    some { workspaceID := 2, keyID := "key", secretHash := "hash", env := .dev
           pgRole := "dbuser", name := none, expiresAt := none, revokedAt := none
           replacesKeyID := none }
  else none

/-- The `dbuser` key is rotated, and tries to mint a `dbadmin` key. Its workspace
    stays without one. -/
theorem rotation_without_admin :
    WithoutAdmin 2 userKeys ∧
    Always (serveKeys letterExternals migratedRoles) (WithoutAdmin 2) userKeys
      [.rotate 1 5 0 (.ok { id := 3, keyID := "new", fullToken := "token", secretHash := "hash" })
        { begin := none, select := none, insert := none, update := none, commit := none },
       .create 3 (.ok { workspaceID := "", env := "", pgRole := "dbadmin", name := "" })
        (.ok { id := 4, keyID := "other", fullToken := "token", secretHash := "hash" })
        { begin := none, roleExists := none, hasRole := none, insert := none,
          commit := none }] := by
  have hstart : WithoutAdmin 2 userKeys := by
    intro id row hrow _
    unfold userKeys at hrow
    by_cases hid : id = 1
    · rw [if_pos hid, Option.some.injEq] at hrow
      rw [← hrow]
      decide
    · rw [if_neg hid] at hrow
      cases hrow
  exact ⟨hstart, (minting_within_privilege letterExternals migratedRoles userKeys _).2 2 hstart⟩

end CoopDB
